import Mathlib.Data.List.Induction
import Reconciliation.Http.Script
import Reconciliation.Proofs.Step
import Reconciliation.Remote.Token

/-! A session asks its identity service for a token only if it has none that may still be used.
Which grant it has is told by the calls so far: the last one that was fetched, unless it was given
up since. What is asked of the service is read off the requests that a watched network has sent. -/
namespace Reconciliation

/-- A network together with the requests that were sent over it. -/
structure Watched (ν : Type) where
  network : ν
  sent : List Http.Request := []

namespace Http

variable {ν : Type} {r next : Request} {response : Response}

def Request.OverWeb (r : Request) : Prop := r.url.scheme = "http" ∨ r.url.scheme = "https"

def Request.RedirectsTo (r next : Request) : Prop := ∃ response, redirected? r response = some next

theorem redirecting_of_none (h : redirected? r response = none)
    (further : Request → Step ν HttpFailure Response) (n : ν) :
    redirecting further r response n = (.ok response, n) := by
  rw [redirecting, h]
  rfl

theorem redirecting_of_some (h : redirected? r response = some next)
    (further : Request → Step ν HttpFailure Response) :
    redirecting further r response = further next := by
  rw [redirecting, h]

end Http

section Requests

variable {ν : Type} [Network ν]

instance : Network (Watched ν) where
  exchange r := .mk fun w =>
    let (answer, n) := Network.exchange r w.network
    (answer, ⟨n, w.sent ++ [r]⟩)
  now w := Network.now w.network
  pause millis w := { w with network := Network.pause millis w.network }

namespace Http

variable {redirects : Nat} {r next : Request} {response : Response} {n n' : ν}

theorem exchange_of_not_overWeb (h : ¬r.OverWeb) (n : ν) :
    exchange r n = (.error (.forbiddenScheme r.url.text), n) := by
  unfold exchange
  rw [if_neg (by simpa [Request.OverWeb] using h)]
  rfl

theorem sent_exchange (h : r.OverWeb) (w : Watched ν) : (exchange r w).2.sent = w.sent ++ [r] := by
  unfold exchange
  rw [if_pos (by simpa [Request.OverWeb] using h)]
  rfl

theorem follow_of_error {e : HttpFailure} (h : exchange r n = (.error e, n')) :
    follow redirects r n = (.error e, n') := by
  cases redirects with
  | zero => exact Step.bind_error h _
  | succ redirects => exact Step.bind_error h _

theorem follow_of_not_overWeb (h : ¬r.OverWeb) (redirects : Nat) (n : ν) :
    follow redirects r n = (.error (.forbiddenScheme r.url.text), n) :=
  follow_of_error (exchange_of_not_overWeb h n)

theorem follow_of_none (h : exchange r n = (.ok response, n'))
    (hnext : redirected? r response = none) : follow redirects r n = (.ok response, n') := by
  cases redirects with
  | zero => rw [follow, Step.bind_ok h, redirecting_of_none hnext]
  | succ redirects => rw [follow, Step.bind_ok h, redirecting_of_none hnext]

theorem follow_zero_of_some (h : exchange r n = (.ok response, n'))
    (hnext : redirected? r response = some next) :
    follow 0 r n = (.error (.tooManyRedirects r.url.text), n') := by
  rw [follow, Step.bind_ok h, redirecting_of_some hnext]
  rfl

theorem follow_succ_of_some (h : exchange r n = (.ok response, n'))
    (hnext : redirected? r response = some next) :
    follow (redirects + 1) r n = follow redirects next n' := by
  rw [follow, Step.bind_ok h, redirecting_of_some hnext]

/-- What is sent after the request are redirects, each of the one before. -/
theorem sent_follow (h : r.OverWeb) (redirects : Nat) (w : Watched ν) :
    ∃ rest, (follow redirects r w).2.sent = w.sent ++ r :: rest ∧
      (r :: rest).IsChain Request.RedirectsTo ∧ rest.length ≤ redirects := by
  have hsent := sent_exchange h w
  induction redirects generalizing r w with
  | zero =>
    have hstop : (follow 0 r w).2 = (exchange r w).2 := by
      rcases hx : exchange r w with ⟨e | response, w'⟩
      · rw [follow_of_error hx]
      · cases hnext : redirected? r response with
        | none => rw [follow_of_none hx hnext]
        | some next => rw [follow_zero_of_some hx hnext]
    exact ⟨[], by rw [hstop, hsent], List.IsChain.singleton r, Nat.le_refl 0⟩
  | succ redirects ih =>
    rcases hx : exchange r w with ⟨e | response, w'⟩ <;> rw [hx] at hsent
    · rw [follow_of_error hx]
      exact ⟨[], hsent, List.IsChain.singleton r, Nat.zero_le _⟩
    · cases hnext : redirected? r response with
      | none =>
        rw [follow_of_none hx hnext]
        exact ⟨[], hsent, List.IsChain.singleton r, Nat.zero_le _⟩
      | some next =>
        rw [follow_succ_of_some hx hnext]
        by_cases hweb : next.OverWeb
        · obtain ⟨rest, hrest, hchain, hlength⟩ := ih hweb w' (sent_exchange hweb w')
          refine ⟨next :: rest, ?_, hchain.cons_cons ⟨response, hnext⟩, Nat.succ_le_succ hlength⟩
          rw [hrest, hsent, List.append_assoc, List.singleton_append]
        · rw [follow_of_not_overWeb hweb]
          exact ⟨[], hsent, List.IsChain.singleton r, Nat.zero_le _⟩

end Http

namespace IdentityEndpoint

variable {e : IdentityEndpoint}

/-- These requests are one token request and what it was redirected to. None are, where the
request cannot be sent at all. -/
def AsksOnce (e : IdentityEndpoint) : List Http.Request → Prop
  | [] => ∀ r, e.tokenRequest = .ok r → ¬r.OverWeb
  | r :: rest => e.tokenRequest = .ok r ∧ (r :: rest).IsChain Http.Request.RedirectsTo ∧
      rest.length ≤ Http.mostRedirects

theorem requestToken_of_error {failure : HttpFailure} (h : e.tokenRequest = .error failure)
    (n : ν) : e.requestToken n = (.error (.http e.tokenUrl failure), n) := by
  unfold requestToken
  simp only [h]
  rfl

theorem requestToken_of_ok {r : Http.Request} (h : e.tokenRequest = .ok r) (n : ν) :
    e.requestToken n = match Http.follow Http.mostRedirects r n with
      | (.ok response, n) => (e.granted response, n)
      | (.error failure, n) => (.error (.http e.tokenUrl failure), n) := by
  unfold requestToken
  simp only [h]
  rcases hsend : Http.follow Http.mostRedirects r n with ⟨failure | response, n'⟩
  · exact Step.bind_error (Step.mapError_error hsend) _
  · exact Step.bind_ok (Step.mapError_ok hsend) _

/-- Where nothing is sent, no token is granted. -/
theorem sent_requestToken (e : IdentityEndpoint) (w : Watched ν) :
    ∃ sent, (e.requestToken w).2.sent = w.sent ++ sent ∧ e.AsksOnce sent ∧
      (sent = [] → ∃ failure, (e.requestToken w).1 = .error failure) := by
  rcases hrequest : e.tokenRequest with failure | r
  · rw [requestToken_of_error hrequest]
    refine ⟨[], by simp, fun r hr => ?_, fun _ => ⟨.http e.tokenUrl failure, rfl⟩⟩
    rw [hrequest] at hr
    cases hr
  · rw [requestToken_of_ok hrequest]
    by_cases hweb : r.OverWeb
    · obtain ⟨rest, hsent, hchain, hlength⟩ := Http.sent_follow hweb Http.mostRedirects w
      refine ⟨r :: rest, ?_, ⟨hrequest, hchain, hlength⟩, fun h => by cases h⟩
      rw [← hsent]
      rcases Http.follow Http.mostRedirects r w with ⟨failure | response, w'⟩ <;> rfl
    · rw [Http.follow_of_not_overWeb hweb]
      refine ⟨[], by simp, fun r' hr' => ?_, fun _ => ⟨.http e.tokenUrl _, rfl⟩⟩
      rw [hrequest] at hr'
      cases hr'
      exact hweb

/-- A token is not granted unasked. -/
theorem sent_ne_of_requestToken {w w' : Watched ν} {g : TokenGrant}
    (h : e.requestToken w = (.ok g, w')) : w'.sent ≠ w.sent := by
  obtain ⟨sent, hsent, -, hnone⟩ := e.sent_requestToken w
  rw [h] at hsent hnone
  intro heq
  obtain ⟨failure, hfailure⟩ := hnone (List.append_right_eq_self.1 (hsent.symm.trans heq))
  cases hfailure

end IdentityEndpoint

namespace Session

variable {e : IdentityEndpoint} {n : ν} {s : Session ν}

theorem bearer_of_some {t : AccessToken} (h : s.freshToken = some t) :
    bearer e s = (.ok t.text, s) := by
  refine (Step.bind_ok (rfl : (get : Talk ν (Session ν)) s = (.ok s, s)) _).trans ?_
  simp only [h]
  rfl

theorem bearer_of_none (h : s.freshToken = none) : bearer e s =
    match e.requestToken s.network with
    | (.ok g, n) => (.ok g.token, ⟨some (g.issued (Network.now n)), n⟩)
    | (.error failure, n) => (.error failure, ⟨s.token, n⟩) := by
  refine (Step.bind_ok (rfl : (get : Talk ν (Session ν)) s = (.ok s, s)) _).trans ?_
  simp only [h]
  rcases hrequest : e.requestToken s.network with ⟨failure | g, n⟩
  · exact Step.bind_error (Step.onPart_error hrequest) _
  · exact Step.bind_ok (Step.onPart_ok hrequest) _

theorem call_apply (e : IdentityEndpoint) (following : Bool) (method : Http.Method)
    (url : String) (dress : Http.Request → Http.Request) (s : Session ν) :
    call e following method url dress s =
      match bearer e s with
      | (.error failure, s) => (.error failure, s)
      | (.ok token, s) =>
        match Http.request method url (Http.bearer token) with
        | .error cause => (.error (.http url cause), s)
        | .ok r =>
          match Http.send following (dress r) s.network with
          | (.error cause, n) => (.error (.http url cause), { s with network := n })
          | (.ok response, n) =>
            (.ok response, if response.status = 401 then ⟨none, n⟩ else { s with network := n }) := by
  rcases hbearer : bearer e s with ⟨failure | token, t⟩
  · exact Step.bind_error hbearer _
  · refine (Step.bind_ok hbearer _).trans ?_
    dsimp only
    cases Http.request method url (Http.bearer token) with
    | error cause => rfl
    | ok r =>
      dsimp only
      rcases hsend : Http.send following (dress r) t.network with ⟨cause | response, n⟩
      · exact Step.bind_error (Step.onPart_error hsend) _
      · refine (Step.bind_ok (Step.onPart_ok hsend) _).trans ?_
        by_cases hrefused : response.status = 401
        · simp only [if_pos hrefused]
          rfl
        · simp only [if_neg hrefused]
          rfl

end Session

end Requests

namespace Instant

theorem isBefore_iff {s t : Instant} : s.isBefore t = true ↔
    s.seconds < t.seconds ∨ s.seconds = t.seconds ∧ s.nanos < t.nanos := by
  have hcompare : compare s t =
      (compare s.seconds t.seconds).then (compare s.nanos t.nanos) := rfl
  rw [isBefore, decide_eq_true_iff, hcompare, Ordering.then_eq_lt, Std.compare_eq_lt,
    Std.compare_eq_lt, Std.compare_eq_iff_eq]

end Instant

namespace TokenGrant

/-- How many seconds the token is good for. -/
def lasts (g : TokenGrant) : Nat := (g.lifetime.map (·.toNat)).getD 300

/-- What was fetched at one time may still be used at another: more than thirty seconds are left,
unless the end lies beyond the calendar and never comes. -/
def UsableAt (g : TokenGrant) (fetched now : Instant) : Prop :=
  g.lasts ≤ AccessToken.longestLifetime ∧ fetched.seconds + g.lasts ≤ Instant.lastSecond →
    now.seconds + 30 < fetched.seconds + g.lasts ∨
      now.seconds + 30 = fetched.seconds + g.lasts ∧ now.nanos < fetched.nanos

theorem issued_eq (g : TokenGrant) (fetched : Instant) :
    g.issued fetched = ⟨g.token, if g.lasts ≤ AccessToken.longestLifetime ∧
      fetched.seconds + g.lasts ≤ Instant.lastSecond then some (fetched.addSeconds g.lasts)
      else none⟩ := by
  have hends : (g.lasts ≤ AccessToken.longestLifetime &&
      (fetched.addSeconds g.lasts).isInCalendar) = true ↔
        g.lasts ≤ AccessToken.longestLifetime ∧ fetched.seconds + g.lasts ≤ Instant.lastSecond := by
    rw [Bool.and_eq_true, decide_eq_true_iff]
    exact and_congr_right fun _ => decide_eq_true_iff
  exact congrArg (AccessToken.mk g.token) (if_congr hends rfl rfl)

theorem isFresh_issued {g : TokenGrant} {fetched now : Instant} :
    (g.issued fetched).isFresh now = true ↔ g.UsableAt fetched now := by
  rw [issued_eq, UsableAt]
  split
  · next hends =>
    rw [imp_iff_right hends]
    exact Instant.isBefore_iff
  · next hnever => exact iff_of_true rfl fun hends => (hnever hends).elim

end TokenGrant

/-- What can happen to a cached token: a call asks for it or gives it up, or only the network
changes, as when time passes. -/
inductive TokenCall (ν : Type) where
  | bearer
  | invalidate
  | meanwhile (change : ν → ν)

namespace Session

variable {ν : Type} [Network ν]

/-- A token is given, and nothing is sent for it. -/
def FromCache (e : IdentityEndpoint) (s : Session (Watched ν)) : Prop :=
  ∃ token s', bearer e s = (.ok token, s') ∧ s'.network.sent = s.network.sent

/-- A token is given that was asked for, and it came at that time. -/
def Fetches (e : IdentityEndpoint) (s : Session (Watched ν)) (g : TokenGrant)
    (fetched : Instant) : Prop :=
  ¬s.FromCache e ∧ ∃ n, e.requestToken s.network = (.ok g, n) ∧ fetched = Network.now n

def act (e : IdentityEndpoint) (s : Session ν) : TokenCall ν → Session ν
  | .bearer => (bearer e s).2
  | .invalidate => s.forget
  | .meanwhile change => { s with network := change s.network }

def after (e : IdentityEndpoint) (s : Session ν) : List (TokenCall ν) → Session ν
  | [] => s
  | c :: calls => (s.act e c).after e calls

/-- None of the calls gives the token up, and none fetches another one in its place. -/
def Keeps (e : IdentityEndpoint) (s : Session (Watched ν)) : List (TokenCall (Watched ν)) → Prop
  | [] => True
  | c :: calls => c ≠ .invalidate ∧ (c = .bearer → ∀ g fetched, ¬s.Fetches e g fetched) ∧
      (s.act e c).Keeps e calls

/-- The grant was fetched by one of the calls and is kept by those since. -/
def Holds (e : IdentityEndpoint) (s : Session (Watched ν)) (calls : List (TokenCall (Watched ν)))
    (g : TokenGrant) (fetched : Instant) : Prop :=
  ∃ before since, calls = before ++ .bearer :: since ∧ (s.after e before).Fetches e g fetched ∧
    ((s.after e before).act e .bearer).Keeps e since

variable {e : IdentityEndpoint} {s : Session (Watched ν)} {g : TokenGrant} {fetched : Instant}
  {calls : List (TokenCall (Watched ν))}

theorem fromCache_iff : s.FromCache e ↔ ∃ t, s.freshToken = some t := by
  constructor
  · rintro ⟨token, s', hbearer, hsent⟩
    by_contra hnone
    rw [bearer_of_none (Option.eq_none_iff_forall_ne_some.2 (not_exists.1 hnone))] at hbearer
    rcases hrequest : e.requestToken s.network with ⟨failure | g, n⟩ <;> rw [hrequest] at hbearer
    · cases hbearer
    · cases hbearer
      exact IdentityEndpoint.sent_ne_of_requestToken hrequest hsent
  · rintro ⟨t, ht⟩
    exact ⟨t.text, s, bearer_of_some ht, rfl⟩

theorem freshToken_of_not_fromCache (h : ¬s.FromCache e) : s.freshToken = none :=
  Option.eq_none_iff_forall_ne_some.2 (not_exists.1 (fromCache_iff.not.1 h))

theorem Fetches.token (h : s.Fetches e g fetched) :
    (s.act e .bearer).token = some (g.issued fetched) := by
  obtain ⟨hcache, n, hrequest, rfl⟩ := h
  rw [act, bearer_of_none (freshToken_of_not_fromCache hcache), hrequest]

theorem token_bearer (h : ∀ g fetched, ¬s.Fetches e g fetched) :
    (s.act e .bearer).token = s.token := by
  by_cases hcache : s.FromCache e
  · obtain ⟨t, ht⟩ := fromCache_iff.1 hcache
    rw [act, bearer_of_some ht]
  · rw [act, bearer_of_none (freshToken_of_not_fromCache hcache)]
    rcases hrequest : e.requestToken s.network with ⟨failure | g, n⟩
    · rfl
    · exact (h g _ ⟨hcache, n, hrequest, rfl⟩).elim

theorem after_append (s : Session ν) (calls more : List (TokenCall ν)) :
    s.after e (calls ++ more) = (s.after e calls).after e more := by
  induction calls generalizing s with
  | nil => rfl
  | cons c calls ih => exact ih _

theorem keeps_append {more : List (TokenCall (Watched ν))} (h : s.Keeps e calls)
    (hmore : (s.after e calls).Keeps e more) : s.Keeps e (calls ++ more) := by
  induction calls generalizing s with
  | nil => exact hmore
  | cons c calls ih => exact ⟨h.1, h.2.1, ih h.2.2 hmore⟩

theorem Keeps.token (h : s.Keeps e calls) : (s.after e calls).token = s.token := by
  induction calls generalizing s with
  | nil => rfl
  | cons c calls ih =>
    obtain ⟨hinvalidate, hbearer, hcalls⟩ := h
    rw [after, ih hcalls]
    cases c with
    | bearer => exact token_bearer (hbearer rfl)
    | invalidate => exact (hinvalidate rfl).elim
    | meanwhile change => rfl

theorem Holds.token (h : s.Holds e calls g fetched) :
    (s.after e calls).token = some (g.issued fetched) := by
  obtain ⟨before, since, rfl, hfetches, hkeeps⟩ := h
  rw [after_append, after, hkeeps.token, hfetches.token]

theorem Holds.append {more : List (TokenCall (Watched ν))} (h : s.Holds e calls g fetched)
    (hmore : (s.after e calls).Keeps e more) : s.Holds e (calls ++ more) g fetched := by
  obtain ⟨before, since, rfl, hfetches, hkeeps⟩ := h
  rw [after_append] at hmore
  exact ⟨before, since ++ more, by simp, hfetches, keeps_append hkeeps hmore⟩

/-- A cached token is one of the grants, and its time is known. -/
theorem exists_holds (hs : s.token = none) {t : AccessToken}
    (h : (s.after e calls).token = some t) :
    ∃ g fetched, s.Holds e calls g fetched ∧ t = g.issued fetched := by
  -- By the last call: it fetched the token, or the token was there before it.
  induction calls using List.reverseRecOn with
  | nil =>
    rw [after, hs] at h
    cases h
  | append_singleton calls c ih =>
    have hlast : s.after e (calls ++ [c]) = (s.after e calls).act e c := after_append s calls [c]
    rw [hlast] at h
    cases c with
    | bearer =>
      by_cases hfetch : ∃ g fetched, (s.after e calls).Fetches e g fetched
      · obtain ⟨g, fetched, hfetch⟩ := hfetch
        rw [hfetch.token] at h
        cases h
        exact ⟨g, fetched, ⟨calls, [], rfl, hfetch, trivial⟩, rfl⟩
      · have hnot : ∀ g fetched, ¬(s.after e calls).Fetches e g fetched :=
          fun g fetched hf => hfetch ⟨g, fetched, hf⟩
        rw [token_bearer hnot] at h
        obtain ⟨g, fetched, hholds, rfl⟩ := ih h
        exact ⟨g, fetched, hholds.append ⟨nofun, fun _ => hnot, trivial⟩, rfl⟩
    | invalidate => cases h
    | meanwhile change =>
      obtain ⟨g, fetched, hholds, rfl⟩ := ih h
      exact ⟨g, fetched, hholds.append ⟨nofun, nofun, trivial⟩, rfl⟩

/-- For the token, an authorized request is a call for it and something on the network. It is given
up exactly if the response refuses it. -/
theorem exists_after_call (e : IdentityEndpoint) (following : Bool) (method : Http.Method)
    (url : String) (dress : Http.Request → Http.Request) (s : Session ν) :
    ∃ calls, (call e following method url dress s).2 = s.after e (.bearer :: calls) ∧
      .bearer ∉ calls ∧ (.invalidate ∈ calls ↔
        ∃ r, (call e following method url dress s).1 = .ok r ∧ r.status = 401) := by
  rw [call_apply]
  rcases hbearer : bearer e s with ⟨failure | token, t⟩
  · exact ⟨[], by rw [after, act, hbearer, after], by simp, by simp⟩
  · have hact : s.act e .bearer = t := by rw [act, hbearer]
    dsimp only
    cases Http.request method url (Http.bearer token) with
    | error cause => exact ⟨[], by rw [after, hact, after], by simp, by simp⟩
    | ok r =>
      dsimp only
      rcases Http.send following (dress r) t.network with ⟨cause | response, n⟩
      · exact ⟨[.meanwhile fun _ => n], by rw [after, hact, after, act, after], by simp, by simp⟩
      · dsimp only
        by_cases hrefused : response.status = 401
        · refine ⟨[.meanwhile fun _ => n, .invalidate], ?_, by simp, by simp [hrefused]⟩
          rw [after, hact, after, act, after, act, after, if_pos hrefused]
          rfl
        · refine ⟨[.meanwhile fun _ => n], ?_, by simp, by simp [hrefused]⟩
          rw [after, hact, after, act, after, if_neg hrefused]

/-- Whatever the calls before, a token comes out of the cache exactly if one was fetched, kept since
and may still be used, and then it is that one. Otherwise the service is asked once, and as long as
it grants nothing the cache stays as it is. -/
theorem token_cache (e : IdentityEndpoint) (n : Watched ν) (calls : List (TokenCall (Watched ν))) :
    let s₀ : Session (Watched ν) := { network := n }
    let s := s₀.after e calls
    (s.FromCache e ↔ ∃ g fetched, s₀.Holds e calls g fetched ∧ g.UsableAt fetched s.now) ∧
      (∀ g fetched, s₀.Holds e calls g fetched ∧ g.UsableAt fetched s.now →
        bearer e s = (.ok g.token, s)) ∧
      (¬s.FromCache e →
        (bearer e s).1 = (e.requestToken s.network).1.map (·.token) ∧
        (bearer e s).2.network = (e.requestToken s.network).2 ∧
        (∃ sent, (bearer e s).2.network.sent = s.network.sent ++ sent ∧ e.AsksOnce sent) ∧
        ∀ failure, (bearer e s).1 = .error failure → (bearer e s).2.token = s.token) := by
  intro s₀ s
  have hserved : ∀ g fetched, s₀.Holds e calls g fetched ∧ g.UsableAt fetched s.now →
      s.freshToken = some (g.issued fetched) := fun g fetched h =>
    Option.filter_eq_some_iff.2 ⟨h.1.token, TokenGrant.isFresh_issued.2 h.2⟩
  refine ⟨⟨fun h => ?_, ?_⟩, fun g fetched h => bearer_of_some (hserved g fetched h), fun h => ?_⟩
  · obtain ⟨t, ht⟩ := fromCache_iff.1 h
    obtain ⟨htoken, hfresh⟩ := Option.filter_eq_some_iff.1 ht
    obtain ⟨g, fetched, hholds, rfl⟩ := exists_holds rfl htoken
    exact ⟨g, fetched, hholds, TokenGrant.isFresh_issued.1 hfresh⟩
  · rintro ⟨g, fetched, h⟩
    exact fromCache_iff.2 ⟨_, hserved g fetched h⟩
  · obtain ⟨sent, hsent, hasks, -⟩ := e.sent_requestToken s.network
    rw [bearer_of_none (freshToken_of_not_fromCache h)]
    rcases hrequest : e.requestToken s.network with ⟨failure | g, n'⟩ <;> rw [hrequest] at hsent
    · exact ⟨rfl, rfl, ⟨sent, hsent, hasks⟩, fun _ _ => rfl⟩
    · exact ⟨rfl, rfl, ⟨sent, hsent, hasks⟩, nofun⟩

namespace Small

def identity : IdentityEndpoint := ⟨"http://uaa.test", "", "client", "s3cr3t"⟩

/-- A token for a minute. -/
def granted : Http.Response :=
  ⟨200, none, Text.Utf8.encode "\x7b\"access_token\": \"token\", \"expires_in\": 60\x7d"⟩

def start : Session (Watched ScriptedNetwork) :=
  { network := { network := { tokens := [.reply granted] } } }

def grant : TokenGrant := ⟨"token", some 60⟩

theorem fetches_start : start.Fetches identity grant ⟨0, 0⟩ := by
  refine ⟨fun hcache => ?_, (identity.requestToken start.network).2,
    Prod.ext (by decide +kernel) rfl, by decide +kernel⟩
  obtain ⟨t, ht⟩ := fromCache_iff.1 hcache
  cases ht

end Small

/-- A token for a minute is used after twenty-nine seconds, but not after thirty. -/
theorem token_cache_small :
    let calls (seconds : Nat) : List (TokenCall (Watched ScriptedNetwork)) :=
      [.bearer, .meanwhile (Network.pause (seconds * 1000))]
    (Small.start.after Small.identity (calls 29)).FromCache Small.identity ∧
      ¬(Small.start.after Small.identity (calls 30)).FromCache Small.identity := by
  intro calls
  have hholds : ∀ seconds, Small.start.Holds Small.identity (calls seconds) Small.grant ⟨0, 0⟩ :=
    fun seconds => ⟨[], [.meanwhile _], rfl, Small.fetches_start, nofun, nofun, trivial⟩
  have hcached : ∀ seconds, (Small.start.after Small.identity (calls seconds)).FromCache
      Small.identity ↔ ∃ g fetched, Small.start.Holds Small.identity (calls seconds) g fetched ∧
        g.UsableAt fetched (Small.start.after Small.identity (calls seconds)).now :=
    fun seconds => (token_cache Small.identity _ (calls seconds)).1
  have hearly : (Small.start.after Small.identity (calls 29)).now = ⟨29, 0⟩ := by decide +kernel
  have hlate : (Small.start.after Small.identity (calls 30)).now = ⟨30, 0⟩ := by decide +kernel
  rw [hcached, hcached, hearly, hlate]
  refine ⟨⟨Small.grant, _, hholds 29, fun _ => .inl (by decide)⟩, ?_⟩
  rintro ⟨g, fetched, hother, husable⟩
  have hfresh := TokenGrant.isFresh_issued.2 husable
  rw [← Option.some_inj.1 ((hholds 30).token.symm.trans hother.token)] at hfresh
  exact absurd hfresh (by decide +kernel)

end Session

end Reconciliation
