import Mathlib.Data.List.Induction
import Reconciliation.Proofs.Step
import Reconciliation.Remote.ClientCache

/-! Requests for clients, one after the other, at one factory. All that a request does is said
once; a kept client stays what it was built for, and a request alike to the last one under its key
is given the same client. What a client was built for and what it is handed out for differ in one
thing at most: the key leaves out the certificate of a Director's identity service. -/
namespace Reconciliation

namespace ClientCache

variable {ε : Type}

theorem lookup_filter_of_ne {key key' : ClientKey} (h : key' ≠ key)
    (l : List (ClientKey × CachedClient ε)) :
    (l.filter (·.1 ≠ key)).lookup key' = l.lookup key' := by
  induction l with
  | nil => rfl
  | cons p l ih =>
    obtain ⟨k, e⟩ := p
    by_cases hk : k = key
    · have hne : (key' == key) = false := by simp [h]
      simpa [List.filter_cons, hk, List.lookup_cons, hne] using ih
    · cases hk' : key' == k <;> simp [hk, List.lookup_cons, hk', ← ih]

theorem find?_put (key key' : ClientKey) (e : CachedClient ε) (c : ClientCache ε) :
    (c.put key e).find? key' = if key' = key then some e else c.find? key' := by
  by_cases h : key' = key
  · simp [put, find?, h]
  · have hne : (key' == key) = false := by simp [h]
    rw [if_neg h, find?, put, List.lookup_cons, hne]
    exact lookup_filter_of_ne h c.entries

/-- All that a request does: it finds its client, fails to build one, or keeps a new one. -/
theorem obtain_cases (key : ClientKey) (secret : String) (endpoint : ε)
    (built : Except RemoteError Unit) (c : ClientCache ε) :
    (∃ e, c.find? key = some e ∧ e.secret = secret ∧
      obtain key secret endpoint built c = (.ok e.client, c)) ∨
    (∀ e, c.find? key = some e → e.secret ≠ secret) ∧
      ((∃ error, built = .error error ∧ obtain key secret endpoint built c = (.error error, c)) ∨
      (built = .ok () ∧ obtain key secret endpoint built c =
        (.ok ⟨c.built, endpoint⟩, c.put key ⟨secret, ⟨c.built, endpoint⟩⟩))) := by
  have hget : (get : Step (ClientCache ε) RemoteError _) c = (.ok c, c) := rfl
  rw [obtain, Step.bind_ok hget]
  cases hkept : (c.find? key).filter (·.secret = secret) with
  | some e =>
    obtain ⟨hfind, hsecret⟩ := Option.filter_eq_some_iff.1 hkept
    exact .inl ⟨e, hfind, by simpa using hsecret, rfl⟩
  | none =>
    have hnone : ∀ e, c.find? key = some e → e.secret ≠ secret := by
      intro e he
      simpa [he] using hkept
    cases built with
    | error error => exact .inr ⟨hnone, .inl ⟨error, rfl, rfl⟩⟩
    | ok u => exact .inr ⟨hnone, .inr ⟨rfl, rfl⟩⟩

end ClientCache

/-- What a client is asked for: a Director or an identity service. -/
inductive ClientEndpoint where
  | director (e : DirectorEndpoint)
  | identity (e : IdentityEndpoint)

/-- A request for a client, and what comes of building one if none is kept. -/
structure ClientRequest where
  endpoint : ClientEndpoint
  built : Except RemoteError Unit

namespace ClientEndpoint

/-- The cache and the key in it. -/
def key : ClientEndpoint → ClientKey ⊕ ClientKey
  | director e => .inl (ClientFactory.directorKey e)
  | identity e => .inr (ClientFactory.identityKey e)

def secret : ClientEndpoint → String
  | director e => e.auth.clientSecret
  | identity e => e.clientSecret

/-- The endpoints are equal, except that a Director's identity service may have another
certificate. -/
inductive Alike : ClientEndpoint → ClientEndpoint → Prop
  | director (e : DirectorEndpoint) (caCert : String) :
      Alike (.director e) (.director { e with auth := { e.auth with caCert } })
  | identity (e : IdentityEndpoint) : Alike (.identity e) (.identity e)

/-- Key and secret together tell the rest. -/
theorem alike_of_key {e e' : ClientEndpoint} (hk : e'.key = e.key) (hs : e'.secret = e.secret) :
    e.Alike e' := by
  rcases e with ⟨url, caCert, authUrl, authCert, id, s⟩ | ⟨url, caCert, id, s⟩ <;>
    rcases e' with ⟨url', caCert', authUrl', authCert', id', s'⟩ | ⟨url', caCert', id', s'⟩
  · simp only [key, ClientFactory.directorKey, Sum.inl.injEq, ClientKey.mk.injEq] at hk
    obtain ⟨rfl, rfl, rfl, rfl⟩ := hk
    obtain rfl : s' = s := hs
    exact .director _ authCert'
  · cases hk
  · cases hk
  · simp only [key, ClientFactory.identityKey, Sum.inr.injEq, ClientKey.mk.injEq] at hk
    obtain ⟨rfl, rfl, -, rfl⟩ := hk
    obtain rfl : s' = s := hs
    exact .identity _

end ClientEndpoint

def BuiltClient.map {ε δ : Type} (g : ε → δ) (c : BuiltClient ε) : BuiltClient δ :=
  ⟨c.serial, g c.endpoint⟩

def CachedClient.map {ε δ : Type} (g : ε → δ) (e : CachedClient ε) : CachedClient δ :=
  ⟨e.secret, e.client.map g⟩

/-- The client that is kept under a key, of whichever kind. -/
def ClientFactory.find? (f : ClientFactory) :
    ClientKey ⊕ ClientKey → Option (CachedClient ClientEndpoint)
  | .inl key => (f.directors.find? key).map (·.map .director)
  | .inr key => (f.identities.find? key).map (·.map .identity)

namespace ClientRequest

def serve : ClientRequest → Step ClientFactory RemoteError (BuiltClient ClientEndpoint)
  | ⟨.director e, built⟩ => BuiltClient.map .director <$> ClientFactory.directorFrom built e
  | ⟨.identity e, built⟩ => BuiltClient.map .identity <$> ClientFactory.identityFrom built e

/-- The factory after these requests. -/
def after (qs : List ClientRequest) : ClientFactory := qs.foldl (fun f q => (q.serve f).2) {}

/-- The client that may be kept for a request has another secret. -/
def Unmet (q : ClientRequest) (f : ClientFactory) : Prop :=
  ∀ e, f.find? q.endpoint.key = some e → e.secret ≠ q.endpoint.secret

/-- What a request does at the factory: it is given what is kept, or it fails and changes nothing,
or what was built for it is kept from now on. -/
inductive Served (q : ClientRequest) (f : ClientFactory) :
    Except RemoteError (BuiltClient ClientEndpoint) × ClientFactory → Prop
  | kept {e : CachedClient ClientEndpoint} (hf : f.find? q.endpoint.key = some e)
      (hs : e.secret = q.endpoint.secret) : Served q f (.ok e.client, f)
  | failed {error : RemoteError} (hn : q.Unmet f) (hb : q.built = .error error) :
      Served q f (.error error, f)
  | renewed {n : Nat} {f' : ClientFactory} (hn : q.Unmet f) (hb : q.built = .ok ())
      (hf : ∀ key, f'.find? key =
        if key = q.endpoint.key then some ⟨q.endpoint.secret, ⟨n, q.endpoint⟩⟩ else f.find? key) :
      Served q f (.ok ⟨n, q.endpoint⟩, f')

/-- A request that is served from one of the caches, its clients taken as those of the factory
by `g`. -/
theorem served_of {ε : Type} {q : ClientRequest} {f : ClientFactory} {key : ClientKey} {e : ε}
    {g : ε → ClientEndpoint} {part : ClientFactory → ClientCache ε}
    {replace : ClientFactory → ClientCache ε → ClientFactory} (he : q.endpoint = g e)
    (hpart : replace f (part f) = f)
    (hfind : f.find? q.endpoint.key = ((part f).find? key).map (·.map g))
    (hput : ∀ entry key', (replace f ((part f).put key entry)).find? key' =
      if key' = q.endpoint.key then some (entry.map g) else f.find? key') :
    Served q f ((BuiltClient.map g <$>
      (ClientCache.obtain key q.endpoint.secret e q.built).onPart part replace id :
        Step ClientFactory RemoteError _) f) := by
  rw [Step.map_apply]
  have hunmet : (∀ e, (part f).find? key = some e → e.secret ≠ q.endpoint.secret) → q.Unmet f := by
    intro hn e he
    obtain ⟨entry, hentry, rfl⟩ := Option.map_eq_some_iff.1 (hfind ▸ he)
    exact hn entry hentry
  obtain ⟨entry, hkept, hsecret, h⟩ | ⟨hn, ⟨error, hbuilt, h⟩ | ⟨hbuilt, h⟩⟩ :=
    ClientCache.obtain_cases key q.endpoint.secret e q.built (part f)
  · rw [Step.onPart_ok h, hpart]
    refine .kept (e := entry.map g) ?_ hsecret
    rw [hfind, hkept]
    rfl
  · rw [Step.onPart_error h, hpart]
    exact .failed (hunmet hn) hbuilt
  · rw [Step.onPart_ok h]
    have hnew : BuiltClient.map g ⟨(part f).built, e⟩ = ⟨(part f).built, q.endpoint⟩ := by
      rw [he]
      rfl
    change Served q f (.ok (BuiltClient.map g _), _)
    rw [hnew]
    refine .renewed (hunmet hn) hbuilt fun key' => ?_
    rw [hput, ← hnew]
    rfl

theorem served (q : ClientRequest) (f : ClientFactory) : Served q f (q.serve f) := by
  obtain ⟨e | e, built⟩ := q
  · refine served_of (q := ⟨.director e, built⟩) (g := .director) rfl rfl rfl fun entry key' => ?_
    rcases key' with key' | key'
    · by_cases hk : key' = ClientFactory.directorKey e <;>
        simp [ClientFactory.find?, ClientEndpoint.key, ClientCache.find?_put, hk]
    · simp [ClientFactory.find?, ClientEndpoint.key]
  · refine served_of (q := ⟨.identity e, built⟩) (g := .identity) rfl rfl rfl fun entry key' => ?_
    rcases key' with key' | key'
    · simp [ClientFactory.find?, ClientEndpoint.key]
    · by_cases hk : key' = ClientFactory.identityKey e <;>
        simp [ClientFactory.find?, ClientEndpoint.key, ClientCache.find?_put, hk]

variable {q : ClientRequest} {qs : List ClientRequest} {f f' : ClientFactory}
  {c : BuiltClient ClientEndpoint} {key : ClientKey ⊕ ClientKey}

theorem after_concat (qs : List ClientRequest) (q : ClientRequest) :
    after (qs ++ [q]) = (q.serve (after qs)).2 := by
  simp [after]

/-- What is handed out is what is kept from then on. -/
theorem find?_of_serve (h : q.serve f = (.ok c, f')) :
    f'.find? q.endpoint.key = some ⟨q.endpoint.secret, c⟩ := by
  have hs := h ▸ q.served f
  cases hs with
  | kept hf hs => rw [hf, ← hs]
  | renewed hn hb hf => rw [hf, if_pos rfl]

theorem find?_serve_of_ne (h : key ≠ q.endpoint.key) (f : ClientFactory) :
    (q.serve f).2.find? key = f.find? key := by
  rcases hx : q.serve f with ⟨x, f'⟩
  have hs := hx ▸ q.served f
  cases hs with
  | kept | failed => rfl
  | renewed hn hb hf => rw [hf, if_neg h]

/-- What is kept is found again. -/
theorem serve_of_find? (h : f.find? q.endpoint.key = some ⟨q.endpoint.secret, c⟩) :
    q.serve f = (.ok c, f) := by
  rcases hx : q.serve f with ⟨x, f'⟩
  have hs := hx ▸ q.served f
  cases hs with
  | kept hf hs =>
    rw [h] at hf
    cases hf
    rfl
  | failed hn | renewed hn => exact absurd rfl (hn _ h)

/-- Requests under other keys do not concern what is kept under this one. -/
theorem find?_after_append (qs : List ClientRequest) {rs : List ClientRequest}
    (h : ∀ r ∈ rs, r.endpoint.key ≠ key) :
    (after (qs ++ rs)).find? key = (after qs).find? key := by
  induction rs using List.reverseRecOn with
  | nil => rw [List.append_nil]
  | append_singleton rs r ih =>
    have hr : key ≠ r.endpoint.key := (h r (by simp)).symm
    rw [← List.append_assoc, after_concat, find?_serve_of_ne hr]
    exact ih fun r hr => h r (by simp [hr])

/-- Each client is kept under the key and with the secret of the endpoint that it was built for, and
that was asked for in one of these requests. -/
def Faithful (qs : List ClientRequest) (f : ClientFactory) : Prop :=
  ∀ key e, f.find? key = some e → e.client.endpoint.key = key ∧
    e.client.endpoint.secret = e.secret ∧
      ∃ p ∈ qs, p.endpoint = e.client.endpoint ∧ p.built = .ok ()

theorem Faithful.serve (h : Faithful qs f) (q : ClientRequest) :
    Faithful (qs ++ [q]) (q.serve f).2 := by
  have hold : Faithful (qs ++ [q]) f := by
    intro key e he
    obtain ⟨hk, hs, p, hp, hpe⟩ := h key e he
    exact ⟨hk, hs, p, List.mem_append_left _ hp, hpe⟩
  rcases hx : q.serve f with ⟨x, f'⟩
  have hs := hx ▸ q.served f
  cases hs with
  | kept | failed => exact hold
  | renewed hn hb hf =>
    intro key e he
    rw [hf] at he
    split at he
    · next hkey =>
      cases he
      exact ⟨hkey.symm, rfl, q, by simp, rfl, hb⟩
    · exact hold key e he

theorem faithful_after (qs : List ClientRequest) : Faithful qs (after qs) := by
  induction qs using List.reverseRecOn with
  | nil =>
    rintro (key | key) e he
    · cases he
    · cases he
  | append_singleton qs q ih =>
    rw [after_concat]
    exact ih.serve q

/-- After any requests, a client that is handed out was built for an endpoint alike to the one that
is asked for; asked for again, before other requests under its key, the same client is handed out.
A client that cannot be built changes nothing. -/
theorem handed_out (qs : List ClientRequest) (q : ClientRequest) :
    (∀ c, (q.serve (after qs)).1 = .ok c →
      c.endpoint.Alike q.endpoint ∧
        (∃ p ∈ qs ++ [q], p.endpoint = c.endpoint ∧ p.built = .ok ()) ∧
        ∀ (rs : List ClientRequest) (p : ClientRequest),
          (∀ r ∈ rs, r.endpoint.key ≠ q.endpoint.key) → p.endpoint = q.endpoint →
            (p.serve (after (qs ++ q :: rs))).1 = .ok c) ∧
    ∀ error, (q.serve (after qs)).1 = .error error → (q.serve (after qs)).2 = after qs := by
  refine ⟨fun c hc => ?_, fun error he => ?_⟩
  · have hfind : (after (qs ++ [q])).find? q.endpoint.key = some ⟨q.endpoint.secret, c⟩ := by
      rw [after_concat]
      exact find?_of_serve (Prod.ext hc rfl)
    obtain ⟨hkey, hsecret, hp⟩ := faithful_after (qs ++ [q]) _ _ hfind
    refine ⟨ClientEndpoint.alike_of_key hkey.symm hsecret.symm, hp, ?_⟩
    intro rs p hrs hpq
    have hlater : (after (qs ++ q :: rs)).find? p.endpoint.key =
        some ⟨p.endpoint.secret, c⟩ := by
      rw [hpq, ← hfind, ← find?_after_append (qs ++ [q]) hrs, List.append_assoc]
      rfl
    rw [serve_of_find? hlater]
  · rcases hx : q.serve (after qs) with ⟨x, f'⟩
    have hs := hx ▸ q.served (after qs)
    rw [hx] at he
    cases hs with
    | kept | renewed => cases he
    | failed => rfl

end ClientRequest

namespace Small

def directorEndpoint : DirectorEndpoint where
  url := "http://director.test:25555"
  caCert := ""
  auth := ⟨"http://uaa.test:8443", "", "team.team-a.dev", "s3cr3t"⟩

/-- The same Director after the certificate of its identity service was replaced. -/
def renewedEndpoint : DirectorEndpoint :=
  { directorEndpoint with auth := { directorEndpoint.auth with caCert := "renewed" } }

/-- Each endpoint is built as the factory itself builds it. -/
def request (e : DirectorEndpoint) : ClientRequest :=
  ⟨.director e, ClientFactory.checkDirector e⟩

end Small

/-- A client that was handed out, a request that cannot be met, and the first one again. -/
theorem handed_out_small :
    let refused : ClientRequest :=
      ⟨.director { Small.directorEndpoint with url := "other" }, .error (.certificate "refused")⟩
    let request := Small.request Small.directorEndpoint
    (refused.serve (ClientRequest.after [request])).2 = ClientRequest.after [request] ∧
      (request.serve (ClientRequest.after [request, refused])).1 =
        .ok ⟨0, .director Small.directorEndpoint⟩ := by
  intro refused request
  have hc : (request.serve (ClientRequest.after [])).1 =
      .ok ⟨0, .director Small.directorEndpoint⟩ := by rfl
  have he : (refused.serve (ClientRequest.after [request])).1 =
      .error (.certificate "refused") := by rfl
  refine ⟨(ClientRequest.handed_out [request] refused).2 _ he,
    ((ClientRequest.handed_out [] request).1 _ hc).2.2 [refused] request ?_ rfl⟩
  intro r hr
  obtain rfl := List.mem_singleton.1 hr
  decide

/-- The certificate of a Director's identity service is no part of the key: a client that trusts the
old one is handed out for the new one. -/
theorem kept_past_renewal :
    ((ClientFactory.director Small.renewedEndpoint)
        (ClientFactory.director Small.directorEndpoint {}).2).1 =
        .ok ⟨0, Small.directorEndpoint⟩ ∧
      ClientFactory.checkDirector Small.renewedEndpoint = .ok () ∧
      Small.directorEndpoint.auth.caCert ≠ Small.renewedEndpoint.auth.caCert :=
  ⟨by rfl, by rfl, by decide⟩

end Reconciliation
