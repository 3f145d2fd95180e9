import Reconciliation.Proofs.Provision

/-! A reconcile asks for the client of one endpoint at most, before it calls any remote service,
and from then on calls that service alone. Which endpoint this is, and with whose credentials it is
called, follows from the records and secrets that are stored when the reconcile begins: the one
team of a namespace gives its records their access to a Director, and the admin client of a
Director is for compilation workers and teams. -/
namespace Reconciliation

open Step (Keeps)

/-- An endpoint of a remote service, with the credentials for it. -/
inductive Endpoint where
  | director (e : DirectorEndpoint)
  | identity (e : IdentityEndpoint)

namespace Endpoint

variable {σ τ : Type}

def ask : Endpoint → Run σ τ Unit
  | director e => World.askDirector e
  | identity e => World.askIdentity e

/-- The clients with one for the endpoint added to the log. -/
def logged : Endpoint → Clients → Clients
  | director e, c => { c with directors := c.directors ++ [e] }
  | identity e, c => { c with identities := c.identities ++ [e] }

theorem ask_eq (e : Endpoint) : (e.ask : Run σ τ Unit) = World.askClient e.logged := by
  cases e <;> rfl

/-- The step asks for no client and leaves the service alone that the endpoint is not of. -/
def Confines (e : Endpoint) (x : Run σ τ Unit) : Prop :=
  Keeps World.clients x ∧
    match e with
    | director _ => Keeps World.identity x
    | identity _ => Keeps World.director x

end Endpoint

namespace World

variable {σ τ : Type}

/-- Both worlds have the same remote services and the same log of clients. -/
structure SameRemote (w v : World σ τ) : Prop where
  director : v.director = w.director
  identity : v.identity = w.identity
  clients : v.clients = w.clients

theorem sameRemote_keep {k : Kind} (w : World Store τ) (r : Record k) : w.SameRemote (w.keep r) :=
  ⟨rfl, rfl, rfl⟩

/-- The run asks for this endpoint and no other, or for none. What it does before it asks has no
remote effect, and from then on it stays with the service at the endpoint. -/
def AsksFor (w : World σ τ) (x : Run σ τ Unit) : Option Endpoint → Prop
  | none => w.SameRemote (x w).2
  | some e => ∃ u rest, x w = (e.ask >>= fun _ => rest) u ∧ w.SameRemote u ∧ e.Confines rest

/-- The log has the endpoint at most. -/
theorem AsksFor.clients {w : World σ τ} {x : Run σ τ Unit} {asked : Option Endpoint}
    (h : w.AsksFor x asked) :
    w.SameRemote (x w).2 ∨ ∃ e ∈ asked, (x w).2.clients = e.logged w.clients := by
  cases asked with
  | none => exact .inl h
  | some e =>
    obtain ⟨u, rest, hx, hu, hrest, -⟩ := h
    rw [hx, Endpoint.ask_eq]
    cases hf : u.clients.failure with
    | some reason =>
      have hask : askClient e.logged u = (.error (.remote (.certificate reason)), u) := by
        rw [askClient, Step.mk_apply, hf]
      rw [Step.bind_error hask]
      exact .inl hu
    | none =>
      have hask : askClient e.logged u = (.ok (), { u with clients := e.logged u.clients }) := by
        rw [askClient, Step.mk_apply, hf]
      rw [Step.bind_ok hask]
      exact .inr ⟨e, rfl, (hrest _).trans (congrArg e.logged hu.clients)⟩

/-- A run asks for the endpoint that it finds out. -/
theorem asksFor_some {ε : Type} (endpoint : ε → Endpoint) {w u : World σ τ}
    {x rest : Run σ τ Unit} {find : Run σ τ ε} {e : ε}
    (hx : x w = ((find >>= fun e => (endpoint e).ask) >>= fun _ => rest) u)
    (hu : w.SameRemote u) (hfind : find u = (.ok e, u)) (hrest : (endpoint e).Confines rest) :
    w.AsksFor x (some (endpoint e)) := by
  rw [bind_assoc, Step.bind_ok hfind] at hx
  exact ⟨u, rest, hx, hu, hrest⟩

/-- A run that finds out the endpoint without changing anything asks for what it finds, if it finds
one. -/
theorem exists_asksFor {ε : Type} (endpoint : ε → Endpoint) {w u : World σ τ}
    {x rest : Run σ τ Unit} {find : Run σ τ ε}
    (hx : x w = ((find >>= fun e => (endpoint e).ask) >>= fun _ => rest) u)
    (hu : w.SameRemote u) (hfind : Step.Reads find) (hrest : ∀ e, (endpoint e).Confines rest) :
    ∃ asked, w.AsksFor x asked ∧ ∀ e ∈ asked, ∃ e', find u = (.ok e', u) ∧ e = endpoint e' := by
  rcases hf : find u with ⟨err | e, u'⟩
  · obtain rfl := hfind.eq hf
    rw [Step.bind_error (Step.bind_error hf _)] at hx
    refine ⟨none, ?_, nofun⟩
    rw [AsksFor, hx]
    exact hu
  · obtain rfl := hfind.eq hf
    refine ⟨some (endpoint e), asksFor_some endpoint hx hu hf (hrest e), ?_⟩
    intro e' he'
    exact ⟨e, rfl, (Option.mem_some_iff.1 he').symm⟩

/-- `f` looks neither at the records nor at the secrets. -/
structure Blind {β : Type} (f : World σ τ → β) : Prop where
  records : ∀ w s, f { w with records := s } = f w
  supply : ∀ w (s : τ × Entropy), f { w with secrets := s.1, entropy := s.2 } = f w

theorem blind_clients : Blind (clients : World σ τ → Clients) := ⟨fun _ _ => rfl, fun _ _ => rfl⟩

theorem blind_director : Blind (director : World σ τ → Director) :=
  ⟨fun _ _ => rfl, fun _ _ => rfl⟩

theorem blind_identity : Blind (identity : World σ τ → Identity) :=
  ⟨fun _ _ => rfl, fun _ _ => rfl⟩

namespace Blind

variable {α β : Type} {f : World σ τ → β} (hf : Blind f)

include hf

theorem onRecords {ε δ : Type} {wrap : ε → δ} (x : Step σ ε α) :
    Keeps f (World.onRecords wrap x) :=
  .onPart x hf.records

theorem onSecrets (x : Step τ SecretError α) : Keeps f (World.onSecrets x) :=
  .onPart x fun w s => hf.supply w (s, w.entropy)

theorem onSecretSupply (x : Step (τ × Entropy) SecretError α) : Keeps f (World.onSecretSupply x) :=
  .onPart x hf.supply

end Blind

end World

open World (Blind)

theorem Endpoint.director_confines {σ τ : Type} {rest : Run σ τ Unit}
    (h : ∀ {β : Type} {f : World σ τ → β}, Blind f →
      (∀ w d, f { w with director := d } = f w) → Keeps f rest) (e : DirectorEndpoint) :
    (director e).Confines rest :=
  ⟨h World.blind_clients fun _ _ => rfl, h World.blind_identity fun _ _ => rfl⟩

theorem Endpoint.identity_confines {σ τ : Type} {rest : Run σ τ Unit}
    (h : ∀ {β : Type} {f : World σ τ → β}, Blind f →
      (∀ w i, f { w with identity := i } = f w) → Keeps f rest) (e : IdentityEndpoint) :
    (identity e).Confines rest :=
  ⟨h World.blind_clients fun _ _ => rfl, h World.blind_director fun _ _ => rfl⟩

namespace Reconcile

section

variable {σ τ β : Type} [RecordStore σ] {k : Kind} {f : World σ τ → β} (hf : Blind f)

include hf

theorem write_keeps (r : Record k) : Keeps f (World.write r : Run σ τ (Record k)) :=
  hf.onRecords _

theorem writeStatus_keeps (r : Record k) : Keeps f (World.writeStatus r : Run σ τ (Record k)) :=
  hf.onRecords _

theorem freeze_keeps (sys : String) (r : Record k) : Keeps f (freeze sys r : Run σ τ (Record k)) :=
  .ite (writeStatus_keeps hf _) (.of_reads (.pure r))

theorem attachFinalizer_keeps (r : Record k) : Keeps f (attachFinalizer r : Run σ τ (Record k)) :=
  .ite (.of_reads (.pure r)) (write_keeps hf _)

theorem dropFinalizer_keeps (r : Record k) : Keeps f (dropFinalizer r : Run σ τ Unit) :=
  (write_keeps hf _).bind fun _ => .of_reads (.pure ())

theorem publish_keeps (r : Record k) : Keeps f (publish r : Run σ τ Unit) :=
  .ite ((writeStatus_keeps hf _).bind fun _ => .of_reads (.pure ())) (.of_reads (.pure ()))

theorem establish_keeps (hdirector : ∀ w d, f { w with director := d } = f w) (a : ArtifactKind)
    (r : Record a.kind) : Keeps f (Artifact.establish a r : Run σ τ Unit) :=
  (hf.onRecords _).bind fun _ => .onPart _ hdirector

end

theorem remove_keeps {σ τ β : Type} {f : World σ τ → β}
    (hdirector : ∀ w d, f { w with director := d } = f w) (a : ArtifactKind) (r : Record a.kind) :
    Keeps f (Artifact.remove a r : Run σ τ Unit) := by
  unfold Artifact.remove
  split
  · exact .onPart _ hdirector
  · exact .of_reads (.pure ())

theorem onIdentity_keeps {σ τ α β : Type} {f : World σ τ → β}
    (hidentity : ∀ w i, f { w with identity := i } = f w) (x : Step Identity RemoteError α) :
    Keeps f (World.onIdentity x : Run σ τ α) :=
  .onPart x hidentity

section

variable {σ τ : Type} [RecordStore σ] [SecretStore τ]

/-- An artifact with anything to do asks for its Director first and stays with it. -/
theorem artifact_asks (sys : String) {a : ArtifactKind} {r : Record a.kind}
    (hr : r.beingDeleted = true → r.hasFinalizer = true) :
    ∃ rest : Run σ τ Unit, artifact sys a r = (askDirectorOf sys a r >>= fun _ => rest) ∧
      ∀ e, (Endpoint.director e).Confines rest := by
  cases hd : r.beingDeleted with
  | true =>
    refine ⟨_, ?_, Endpoint.director_confines fun hf hdirector =>
      (remove_keeps hdirector a r).bind fun _ => dropFinalizer_keeps hf r⟩
    rw [artifact, if_pos hd, removeArtifact, if_pos (hr hd)]
  | false =>
    refine ⟨_, ?_, Endpoint.director_confines fun hf hdirector =>
      (freeze_keeps hf sys r).bind fun r => (attachFinalizer_keeps hf r).bind fun r =>
        (establish_keeps hf hdirector a r).bind fun _ => publish_keeps hf r⟩
    rw [artifact, if_neg (by simp [hd]), establishArtifact]

end

section

variable {τ : Type} [SecretStore τ] {w : World Store τ}

/-- A team with anything to do asks for the identity service of the Director that it has frozen, a
live one after it has done so. -/
theorem team_asks (sys : String) {r : Record .team} (hr : w.records.Holds r)
    (hactive : r.beingDeleted = true → r.hasFinalizer = true) :
    ∃ (r' : Record .team) (rest : Run Store τ Unit),
      team sys r w = (askIdentityOf sys r' >>= fun _ => rest) (w.keep r') ∧
      (∀ spec, r'.frozen? = some spec ↔
        (r.beingDeleted = true → r.frozen?.isSome = true) ∧ r.effective = spec) ∧
      ∀ e, (Endpoint.identity e).Confines rest := by
  cases hd : r.beingDeleted with
  | true =>
    refine ⟨r, _, ?_, ?_, Endpoint.identity_confines fun hf hidentity =>
      (onIdentity_keeps hidentity (Identity.removeClient r.internalName)).bind fun _ =>
        (hf.onSecrets (SecretStore.deleteIfStored ⟨r.secretNamespace, r.internalName⟩)).bind
          fun _ => dropFinalizer_keeps hf r⟩
    · rw [World.keep_of_holds hr, team, if_pos hd, removeTeam, if_pos (hactive hd)]
    · intro spec
      constructor
      · intro hspec
        exact ⟨fun _ => Option.isSome_of_eq_some hspec, Record.effective_of_frozen? hspec⟩
      · rintro ⟨hfrozen, rfl⟩
        obtain ⟨spec, hspec⟩ := Option.isSome_iff_exists.1 (hfrozen rfl)
        rw [hspec, Record.effective_of_frozen? hspec]
  | false =>
    refine ⟨r.frozenBy sys, _, ?_, ?_, Endpoint.identity_confines fun hf hidentity =>
      (attachFinalizer_keeps hf (r.frozenBy sys)).bind fun r =>
        (hf.onSecretSupply
          (SecretStore.getOrGenerate ⟨r.secretNamespace, r.internalName⟩)).bind fun secret =>
        (onIdentity_keeps hidentity
          (Identity.ensureTeamClient r.internalName secret)).bind fun _ =>
        publish_keeps hf r⟩
    · rw [team, if_neg (by simp [hd]), establishTeam, Step.bind_ok (freeze_eq hr sys)]
    · intro spec
      rw [Record.frozen?_frozenBy rfl, ← Record.effective, Option.some_inj]
      exact (and_iff_right fun h => absurd h Bool.false_ne_true).symm

end

end Reconcile

/-- A client at an identity service, and where its secret is stored. -/
structure Login where
  clientId : String
  secret : SecretName

namespace Credentials

/-- The admin client of a Director. -/
def adminLogin (sys : String) (d : DirectorSpec) : Login := ⟨d.uaaClient, ⟨sys, d.uaaClientSecret⟩⟩

/-- The client of a team. -/
def teamLogin (t : Record .team) : Login := ⟨t.internalName, ⟨t.secretNamespace, t.internalName⟩⟩

end Credentials

/-- The endpoint is the identity service of the Director, called with the login. -/
structure IdentityEndpoint.IsOf (e : IdentityEndpoint) (d : DirectorSpec) (login : Login)
    (s : Secrets) : Prop where
  url : e.url = d.uaaUrl
  caCert : e.caCert = d.uaaCaCert
  clientId : e.clientId = login.clientId
  clientSecret : s.get? login.secret = some e.clientSecret

/-- The endpoint is the Director, called with tokens of its identity service for the login. -/
structure DirectorEndpoint.IsOf (e : DirectorEndpoint) (d : DirectorSpec) (login : Login)
    (s : Secrets) : Prop where
  url : e.url = d.url
  caCert : e.caCert = d.caCert
  auth : e.auth.IsOf d login s

namespace Credentials

variable {w v : World Store Secrets} {sys : String} {d : DirectorSpec} {login : Login}

/-- The identity service of a Director, called with any login. -/
def identityAs (d : DirectorSpec) (login : Login) : Run Store Secrets IdentityEndpoint := do
  return ⟨d.uaaUrl, d.uaaCaCert, login.clientId, ← secret login.secret.ns login.secret.name⟩

/-- A Director, called with any login at its identity service. -/
def directorAs (d : DirectorSpec) (login : Login) : Run Store Secrets DirectorEndpoint := do
  return ⟨d.url, d.caCert, ← identityAs d login⟩

theorem identityAs_eq_ok_iff {e : IdentityEndpoint} :
    identityAs d login w = (.ok e, v) ↔ e.IsOf d login w.secrets ∧ v = w := by
  simp only [identityAs, Step.bind_eq_ok_iff, secret_eq_ok_iff, Step.pure_eq_ok_iff]
  constructor
  · rintro ⟨value, _, ⟨hvalue, rfl⟩, rfl, rfl⟩
    exact ⟨⟨rfl, rfl, rfl, hvalue⟩, rfl⟩
  · obtain ⟨url, caCert, clientId, clientSecret⟩ := e
    rintro ⟨⟨rfl, rfl, rfl, hvalue⟩, rfl⟩
    exact ⟨clientSecret, _, ⟨hvalue, rfl⟩, rfl, rfl⟩

theorem directorAs_eq_ok_iff {e : DirectorEndpoint} :
    directorAs d login w = (.ok e, v) ↔ e.IsOf d login w.secrets ∧ v = w := by
  simp only [directorAs, Step.bind_eq_ok_iff, identityAs_eq_ok_iff, Step.pure_eq_ok_iff]
  constructor
  · rintro ⟨auth, _, ⟨hauth, rfl⟩, rfl, rfl⟩
    exact ⟨⟨rfl, rfl, hauth⟩, rfl⟩
  · obtain ⟨url, caCert, auth⟩ := e
    rintro ⟨⟨rfl, rfl, hauth⟩, rfl⟩
    exact ⟨auth, _, ⟨hauth, rfl⟩, rfl, rfl⟩

theorem identityEndpoint_eq_ok_iff {name : String} {e : IdentityEndpoint} :
    identityEndpoint sys name w = (.ok e, v) ↔
      (∃ r : Record .director, w.records.Finds sys name r ∧
        e.IsOf r.spec (adminLogin sys r.spec) w.secrets) ∧ v = w := by
  have hrun : identityEndpoint sys name =
      director sys name >>= fun d => identityAs d (adminLogin sys d) := rfl
  simp only [hrun, Step.bind_eq_ok_iff, director_eq_ok_iff, identityAs_eq_ok_iff]
  constructor
  · rintro ⟨d, _, ⟨⟨r, hr, rfl⟩, rfl⟩, he, rfl⟩
    exact ⟨⟨r, hr, he⟩, rfl⟩
  · rintro ⟨⟨r, hr, he⟩, rfl⟩
    exact ⟨r.spec, _, ⟨⟨r, hr, rfl⟩, rfl⟩, he, rfl⟩

theorem adminEndpoint_eq_ok_iff {name : String} {e : DirectorEndpoint} :
    directorEndpoint sys (.admin name) w = (.ok e, v) ↔
      (∃ r : Record .director, w.records.Finds sys name r ∧
        e.IsOf r.spec (adminLogin sys r.spec) w.secrets) ∧ v = w := by
  have hrun : directorEndpoint sys (.admin name) =
      director sys name >>= fun d => directorAs d (adminLogin sys d) := rfl
  simp only [hrun, Step.bind_eq_ok_iff, director_eq_ok_iff, directorAs_eq_ok_iff]
  constructor
  · rintro ⟨d, _, ⟨⟨r, hr, rfl⟩, rfl⟩, he, rfl⟩
    exact ⟨⟨r, hr, he⟩, rfl⟩
  · rintro ⟨⟨r, hr, he⟩, rfl⟩
    exact ⟨r.spec, _, ⟨⟨r, hr, rfl⟩, rfl⟩, he, rfl⟩

theorem teamEndpoint_eq_ok_iff {ns : String} {e : DirectorEndpoint} :
    directorEndpoint sys (.team ns) w = (.ok e, v) ↔
      (∃ (t : Record .team) (spec : TeamSpec) (r : Record .director),
        w.records.list .team (some ns) = [⟨.team, t⟩] ∧ t.frozen? = some spec ∧
        w.records.Finds sys spec.director r ∧ e.IsOf r.spec (teamLogin t) w.secrets) ∧ v = w := by
  have hrun : directorEndpoint sys (.team ns) = teamFor ns >>= fun t =>
      Step.ofExcept (frozenDirector t) >>= fun name =>
        director sys name >>= fun d => directorAs d (teamLogin t) := rfl
  simp only [hrun, Step.bind_eq_ok_iff, teamFor_eq_ok_iff, Step.ofExcept_eq_ok_iff,
    frozenDirector_eq_ok_iff, director_eq_ok_iff, directorAs_eq_ok_iff]
  constructor
  · rintro ⟨t, _, ⟨ht, rfl⟩, _, _, ⟨⟨spec, hspec, rfl⟩, rfl⟩, d, _, ⟨⟨r, hr, rfl⟩, rfl⟩, he, rfl⟩
    exact ⟨⟨t, spec, r, ht, hspec, hr, he⟩, rfl⟩
  · rintro ⟨⟨t, spec, r, ht, hspec, hr, he⟩, rfl⟩
    exact ⟨t, _, ⟨ht, rfl⟩, _, _, ⟨⟨spec, hspec, rfl⟩, rfl⟩, r.spec, _, ⟨⟨r, hr, rfl⟩, rfl⟩, he,
      rfl⟩

end Credentials

/-- The endpoints that the reconcile of a record may ask for. -/
inductive Entitled (sys : String) (w : World Store Secrets) : AnyRecord → Endpoint → Prop
  /-- The Director to which the one team of the record's namespace is bound, called as this team. -/
  | bound {a : ArtifactKind} {r : Record a.kind} {e : DirectorEndpoint} {t : Record .team}
      {spec : TeamSpec} {d : Record .director} (ordinary : a ≠ .compilation)
      (sole : w.records.list .team (some r.metadata.ns) = [⟨.team, t⟩])
      (frozen : t.frozen? = some spec) (named : w.records.Finds sys spec.director d)
      (login : e.IsOf d.spec (Credentials.teamLogin t) w.secrets) :
      Entitled sys w ⟨a.kind, r⟩ (.director e)
  /-- The Director of a compilation worker, called as its admin. -/
  | compilation {r : Record .compilation} {e : DirectorEndpoint} {d : Record .director}
      (placed : r.metadata.ns = sys)
      (named : w.records.Finds sys (r.effective : CompilationSpec).director d)
      (login : e.IsOf d.spec (Credentials.adminLogin sys d.spec) w.secrets) :
      Entitled sys w ⟨.compilation, r⟩ (.director e)
  /-- The identity service of a team's Director, called as its admin. -/
  | team {r : Record .team} {e : IdentityEndpoint} {d : Record .director}
      (frozen : r.beingDeleted = true → r.frozen?.isSome = true)
      (named : w.records.Finds sys (r.effective : TeamSpec).director d)
      (login : e.IsOf d.spec (Credentials.adminLogin sys d.spec) w.secrets) :
      Entitled sys w ⟨.team, r⟩ (.identity e)

/-- What the credentials of a record come to in the world. -/
inductive Resolved (sys : String) (w : World Store Secrets) : AnyRecord → Endpoint → Prop
  | director {a : ArtifactKind} {r : Record a.kind} {e : DirectorEndpoint}
      (found : Credentials.directorEndpoint sys (Artifact.scope a r) w = (.ok e, w)) :
      Resolved sys w ⟨a.kind, r⟩ (.director e)
  | identity {r : Record .team} {e : IdentityEndpoint}
      (found : Credentials.identityEndpoint sys (r.effective : TeamSpec).director w = (.ok e, w)) :
      Resolved sys w ⟨.team, r⟩ (.identity e)

section

variable {w : World Store Secrets} {sys : String}

theorem Entitled.of_directorEndpoint {a : ArtifactKind} {r : Record a.kind} {e : DirectorEndpoint}
    (hplaced : ¬Reconcile.Misplaced sys r)
    (h : Credentials.directorEndpoint sys (Artifact.scope a r) w = (.ok e, w)) :
    Entitled sys w ⟨a.kind, r⟩ (.director e) := by
  by_cases ha : a = .compilation
  · subst ha
    obtain ⟨⟨d, hd, he⟩, -⟩ := Credentials.adminEndpoint_eq_ok_iff.1 h
    exact .compilation (by simpa [Reconcile.Misplaced] using hplaced) hd he
  · rw [Artifact.scope_of_ne ha] at h
    obtain ⟨⟨t, spec, d, ht, hspec, hd, he⟩, -⟩ := Credentials.teamEndpoint_eq_ok_iff.1 h
    exact .bound ha ht hspec hd he

theorem Entitled.of_identityEndpoint {r : Record .team} {e : IdentityEndpoint}
    (hfrozen : r.beingDeleted = true → r.frozen?.isSome = true)
    (h : Credentials.identityEndpoint sys (r.effective : TeamSpec).director w = (.ok e, w)) :
    Entitled sys w ⟨.team, r⟩ (.identity e) := by
  obtain ⟨⟨d, hd, he⟩, -⟩ := Credentials.identityEndpoint_eq_ok_iff.1 h
  exact .team hfrozen hd he

end

namespace Reconcile

variable {w : World Store Secrets} {sys : String}

section

variable {a : ArtifactKind} {r : Record a.kind}

theorem not_misplaced_of_ne (ha : a ≠ .compilation) : ¬Misplaced sys r := by
  rintro ⟨hk | hk, -⟩
  · cases a <;> cases hk
  · cases a <;> first | exact ha rfl | cases hk

/-- Consuming the force flag first does not matter to the credentials. -/
theorem directorEndpoint_consumed (r : Record a.kind) :
    Credentials.directorEndpoint sys (Artifact.scope a r.consumed) (w.keep r.consumed) =
      ((Credentials.directorEndpoint sys (Artifact.scope a r) w).1, w.keep r.consumed) := by
  have hfst := Step.Related.fst (Credentials.sameAccess_shared.directorEndpoint sys
    (Artifact.scope a r)) (Artifact.sameAccess_keep w r.consumed)
  have hsnd := Credentials.directorEndpoint_reads sys (Artifact.scope a r) (w.keep r.consumed)
  rw [Artifact.scope_consumed]
  exact Prod.ext hfst hsnd

theorem reconcile_artifact_asks (sys : String) (hw : w.records.WellFormed) (hr : w.records.Holds r)
    (hplaced : ¬Misplaced sys r) (hactive : r.beingDeleted = true → r.hasFinalizer = true) :
    ∃ rest : Run Store Secrets Unit, reconcile sys r.key w =
        (askDirectorOf sys a r.consumed >>= fun _ => rest) (w.keep r.consumed) ∧
      ∀ e, (Endpoint.director e).Confines rest := by
  obtain ⟨rest, hrest, hconfines⟩ := artifact_asks (σ := Store) (τ := Secrets) sys (r := r.consumed)
    (by rwa [Record.beingDeleted_consumed, Record.hasFinalizer_consumed])
  refine ⟨rest, ?_, hconfines⟩
  rw [reconcile_of_artifact hw hr hplaced, hrest]

theorem reconcile_artifact_entitled (hw : w.records.WellFormed) (hr : w.records.Holds r)
    (hplaced : ¬Misplaced sys r) (hactive : r.beingDeleted = true → r.hasFinalizer = true) :
    ∃ asked, w.AsksFor (reconcile sys r.key) asked ∧
      ∀ e ∈ asked, Resolved sys w ⟨a.kind, r⟩ e ∧ Entitled sys w ⟨a.kind, r⟩ e := by
  obtain ⟨rest, hx, hconfines⟩ := reconcile_artifact_asks sys hw hr hplaced hactive
  obtain ⟨asked, hasks, hfound⟩ := World.exists_asksFor Endpoint.director hx
    (World.sameRemote_keep w _) (Credentials.directorEndpoint_reads sys _) hconfines
  refine ⟨asked, hasks, fun e he => ?_⟩
  obtain ⟨e', hfind, rfl⟩ := hfound e he
  rw [directorEndpoint_consumed] at hfind
  have hresolved : Credentials.directorEndpoint sys (Artifact.scope a r) w = (.ok e', w) :=
    Prod.ext (Prod.mk.inj hfind).1 (Credentials.directorEndpoint_reads sys _ w)
  exact ⟨.director hresolved, .of_directorEndpoint hplaced hresolved⟩

/-- An artifact asks for the endpoint that its credentials come to. -/
theorem reconcile_artifact_asksFor (hw : w.records.WellFormed) (hr : w.records.Holds r)
    (hplaced : ¬Misplaced sys r) (hactive : r.beingDeleted = true → r.hasFinalizer = true)
    {e : DirectorEndpoint}
    (hfound : Credentials.directorEndpoint sys (Artifact.scope a r) w = (.ok e, w)) :
    w.AsksFor (reconcile sys r.key) (some (.director e)) := by
  obtain ⟨rest, hx, hconfines⟩ := reconcile_artifact_asks sys hw hr hplaced hactive
  refine World.asksFor_some Endpoint.director hx (World.sameRemote_keep w _) ?_ (hconfines e)
  rw [directorEndpoint_consumed, hfound]

/-- Without exactly one team in its namespace, an artifact reaches no remote service. -/
theorem reconcile_artifact_unbound (hw : w.records.WellFormed) (hr : w.records.Holds r)
    (ha : a ≠ .compilation) (hactive : r.beingDeleted = true → r.hasFinalizer = true)
    (hteams : (w.records.list .team (some r.metadata.ns)).length ≠ 1) :
    (reconcile sys r.key w).1 = .error (.configuration (.unbound r.metadata.ns
        (w.records.list .team (some r.metadata.ns)).length)) ∧
      w.AsksFor (reconcile sys r.key) none := by
  obtain ⟨ts, hts⟩ := hw.exists_list .team (some r.metadata.ns)
  rw [hts, List.length_map] at hteams ⊢
  have hfind : Credentials.directorEndpoint sys (Artifact.scope a r) w =
      (.error (.configuration (.unbound r.metadata.ns ts.length)), w) := by
    rw [Artifact.scope_of_ne ha]
    exact Step.bind_error (Credentials.teamFor_of_unbound hts hteams) _
  have hask : askDirectorOf sys a r.consumed (w.keep r.consumed) =
      (.error (.configuration (.unbound r.metadata.ns ts.length)), w.keep r.consumed) := by
    refine Step.bind_error ?_ _
    rw [directorEndpoint_consumed, hfind]
  obtain ⟨rest, hx, -⟩ := reconcile_artifact_asks sys hw hr (not_misplaced_of_ne ha) hactive
  rw [Step.bind_error hask] at hx
  rw [World.AsksFor, hx]
  exact ⟨rfl, World.sameRemote_keep w _⟩

end

/-- A version of a team does not matter to the identity service of a Director. -/
theorem identityEndpoint_keep (t : Record .team) {name : String} {e : IdentityEndpoint} :
    Credentials.identityEndpoint sys name (w.keep t) = (.ok e, w.keep t) ↔
      Credentials.identityEndpoint sys name w = (.ok e, w) := by
  have hdirectors : w.records.SameDirectors (w.keep t).records :=
    .keep (k := .team) Kind.noConfusion _ _
  simp only [Credentials.identityEndpoint_eq_ok_iff, Store.Finds, hdirectors sys name, and_true]
  exact Iff.rfl

/-- A team finds its identity service by the Director that it has frozen. -/
theorem reconcile_team_asks (sys : String) {r : Record .team} (hr : w.records.Holds r)
    (hactive : r.beingDeleted = true → r.hasFinalizer = true) :
    ∃ (v : World Store Secrets) (find : Run Store Secrets IdentityEndpoint)
      (rest : Run Store Secrets Unit),
      reconcile sys r.key w =
        ((find >>= fun e => (Endpoint.identity e).ask) >>= fun _ => rest) v ∧
      w.SameRemote v ∧ Step.Reads find ∧ (∀ e, (Endpoint.identity e).Confines rest) ∧
      ∀ e, find v = (.ok e, v) ↔ (r.beingDeleted = true → r.frozen?.isSome = true) ∧
        Credentials.identityEndpoint sys (r.effective : TeamSpec).director w = (.ok e, w) := by
  obtain ⟨r', rest, hx, hfrozen, hconfines⟩ := team_asks sys hr hactive
  have hask : askIdentityOf (σ := Store) (τ := Secrets) sys r' =
      (Step.ofExcept (Credentials.frozenDirector r') >>= Credentials.identityEndpoint sys) >>=
        fun e => (Endpoint.identity e).ask := (bind_assoc _ _ _).symm
  rw [hask, ← reconcile_of_team hr] at hx
  refine ⟨_, _, rest, hx, World.sameRemote_keep w _,
    (Step.Reads.ofExcept _).bind fun name => Credentials.identityEndpoint_reads sys name,
    hconfines, fun e => ?_⟩
  simp only [Step.bind_eq_ok_iff, Step.ofExcept_eq_ok_iff, Credentials.frozenDirector_eq_ok_iff]
  constructor
  · rintro ⟨_, _, ⟨⟨spec, hspec, rfl⟩, rfl⟩, he⟩
    obtain ⟨hf, rfl⟩ := (hfrozen spec).1 hspec
    exact ⟨hf, (identityEndpoint_keep r').1 he⟩
  · rintro ⟨hf, he⟩
    have hspec : r'.frozen? = some r.effective := (hfrozen r.effective).2 ⟨hf, rfl⟩
    exact ⟨_, _, ⟨⟨_, hspec, rfl⟩, rfl⟩, (identityEndpoint_keep r').2 he⟩

theorem reconcile_team_entitled {r : Record .team} (hr : w.records.Holds r)
    (hactive : r.beingDeleted = true → r.hasFinalizer = true) :
    ∃ asked, w.AsksFor (reconcile sys r.key) asked ∧
      ∀ e ∈ asked, Resolved sys w ⟨.team, r⟩ e ∧ Entitled sys w ⟨.team, r⟩ e := by
  obtain ⟨v, find, rest, hx, hv, hreads, hconfines, hfind⟩ := reconcile_team_asks sys hr hactive
  obtain ⟨asked, hasks, hfound⟩ := World.exists_asksFor Endpoint.identity hx hv hreads hconfines
  refine ⟨asked, hasks, fun e he => ?_⟩
  obtain ⟨e', hok, rfl⟩ := hfound e he
  obtain ⟨hfrozen, hresolved⟩ := (hfind e').1 hok
  exact ⟨.identity hresolved, .of_identityEndpoint hfrozen hresolved⟩

/-- An active record asks for the endpoint that it is entitled to. -/
theorem reconcile_asksFor (hw : w.records.WellFormed) {r : AnyRecord}
    (hr : w.records.get? r.key = some r)
    (hactive : r.metadata.beingDeleted = true → r.hasFinalizer = true) {e : Endpoint}
    (h : Entitled sys w r e) : w.AsksFor (reconcile sys r.key) (some e) := by
  cases h with
  | @bound a r e t spec d ordinary sole frozen named login =>
    have hfound : Credentials.directorEndpoint sys (Artifact.scope a r) w = (.ok e, w) := by
      rw [Artifact.scope_of_ne ordinary]
      exact Credentials.teamEndpoint_eq_ok_iff.2 ⟨⟨t, spec, d, sole, frozen, named, login⟩, rfl⟩
    exact reconcile_artifact_asksFor hw hr (not_misplaced_of_ne ordinary) hactive hfound
  | @compilation r e d placed named login =>
    have hplaced : ¬Misplaced sys r := fun hm => hm.2 placed
    exact reconcile_artifact_asksFor (a := .compilation) hw hr hplaced hactive
      (Credentials.adminEndpoint_eq_ok_iff.2 ⟨⟨d, named, login⟩, rfl⟩)
  | @team r e d frozen named login =>
    have hheld : w.records.Holds r := hr
    obtain ⟨v, find, rest, hx, hv, -, hconfines, hfind⟩ := reconcile_team_asks sys hheld hactive
    have hfound : Credentials.identityEndpoint sys (r.effective : TeamSpec).director w =
        (.ok e, w) := Credentials.identityEndpoint_eq_ok_iff.2 ⟨⟨d, named, login⟩, rfl⟩
    exact World.asksFor_some Endpoint.identity hx hv ((hfind e).2 ⟨frozen, hfound⟩) (hconfines e)

/-- Reconciling a Director only touches records. -/
theorem reconcile_director_asks {r : Record .director} (hr : w.records.Holds r) :
    w.AsksFor (reconcile sys r.key) none := by
  by_cases hm : Misplaced sys r
  · rw [World.AsksFor, reconcile_of_misplaced hr hm]
    exact ⟨rfl, rfl, rfl⟩
  · rw [World.AsksFor, reconcile_of_director hr hm, director]
    split
    · rw [removeDirector_eq hr]
      split
      · split <;> exact ⟨rfl, rfl, rfl⟩
      · exact ⟨rfl, rfl, rfl⟩
    · rw [establishDirector_eq hr]
      exact ⟨rfl, rfl, rfl⟩

theorem reconcile_released_asks {k : Kind} {r : Record k} (hw : w.records.WellFormed)
    (hr : w.records.Holds r) (hd : r.beingDeleted = true) (hf : r.hasFinalizer = false) :
    w.AsksFor (reconcile sys r.key) none := by
  induction k, r using kindCases with
  | director r => exact reconcile_director_asks hr
  | role r =>
    rw [World.AsksFor, reconcile_of_role hr]
    exact ⟨rfl, rfl, rfl⟩
  | team r =>
    rw [World.AsksFor, reconcile_of_team hr, team, if_pos hd, removeTeam, hf]
    exact ⟨rfl, rfl, rfl⟩
  | artifact a r =>
    by_cases hm : Misplaced sys r
    · rw [World.AsksFor, reconcile_of_misplaced hr hm]
      exact ⟨rfl, rfl, rfl⟩
    · rw [World.AsksFor, reconcile_of_artifact hw hr hm, artifact, r.beingDeleted_consumed,
        if_pos hd, removeArtifact, r.hasFinalizer_consumed, hf]
      exact ⟨rfl, rfl, rfl⟩

end Reconcile

open Reconcile (Misplaced)

/-- Directors, roles and deleted records without their finalizer ask for no endpoint. Any other
record asks for one at most, the one that its credentials come to. This is the one that it is
entitled to, with its URLs, certificates, client and secret, and if there is one then the record
asks for it. An artifact whose namespace does not have exactly one team is reported as a
configuration problem, and so is a compilation worker outside the system namespace, with no remote
call at all. -/
theorem endpoint_credentials {w : World Store Secrets} (hw : w.records.WellFormed) {key : Key}
    {r : AnyRecord} (hr : w.records.get? key = some r) (sys : String) :
    (r.kind = .director ∨ r.kind = .role ∨
        r.metadata.beingDeleted = true ∧ r.hasFinalizer = false →
      w.AsksFor (reconcile sys key) none) ∧
    (∃ asked, w.AsksFor (reconcile sys key) asked ∧
      ∀ e ∈ asked, Resolved sys w r e ∧ Entitled sys w r e) ∧
    ((r.metadata.beingDeleted = true → r.hasFinalizer = true) →
      ∀ e, Entitled sys w r e → w.AsksFor (reconcile sys key) (some e)) ∧
    (∀ a : ArtifactKind, a ≠ .compilation → r.kind = a.kind →
      (r.metadata.beingDeleted = true → r.hasFinalizer = true) →
      ∀ teams, (w.records.list .team (some r.metadata.ns)).length = teams → teams ≠ 1 →
        (reconcile sys key w).1 = .error (.configuration (.unbound r.metadata.ns teams)) ∧
          w.AsksFor (reconcile sys key) none) ∧
    (r.kind = .compilation → r.metadata.ns ≠ sys →
      (reconcile sys key w).1 =
          .error (.configuration (.misplaced .compilation sys r.metadata.ns)) ∧
        w.AsksFor (reconcile sys key) none) := by
  obtain ⟨k, r⟩ := r
  obtain rfl : r.key = key := hw.key_eq hr
  have hheld : w.records.Holds r := hr
  have hnone : k = .director ∨ k = .role ∨ r.beingDeleted = true ∧ r.hasFinalizer = false →
      w.AsksFor (reconcile sys r.key) none := by
    rintro (rfl | rfl | ⟨hd, hf⟩)
    · exact Reconcile.reconcile_director_asks hheld
    · rw [World.AsksFor, reconcile_of_role hheld]
      exact ⟨rfl, rfl, rfl⟩
    · exact Reconcile.reconcile_released_asks hw hheld hd hf
  have hmisplaced : Misplaced sys r → (reconcile sys r.key w).1 =
      .error (.configuration (.misplaced k sys r.metadata.ns)) ∧
        w.AsksFor (reconcile sys r.key) none := by
    intro hm
    rw [World.AsksFor, reconcile_of_misplaced hheld hm]
    exact ⟨rfl, rfl, rfl, rfl⟩
  refine ⟨hnone, ?_, fun hactive e h => ?_, ?_, ?_⟩
  · by_cases hgone : r.beingDeleted = true ∧ r.hasFinalizer = false
    · exact ⟨none, hnone (.inr (.inr hgone)), nofun⟩
    · have hactive : r.beingDeleted = true → r.hasFinalizer = true := by
        intro hd
        simpa [hd] using hgone
      induction k, r using Reconcile.kindCases with
      | director r => exact ⟨none, hnone (.inl rfl), nofun⟩
      | role r => exact ⟨none, hnone (.inr (.inl rfl)), nofun⟩
      | team r => exact Reconcile.reconcile_team_entitled hheld hactive
      | artifact a r =>
        by_cases hm : Misplaced sys r
        · exact ⟨none, (hmisplaced hm).2, nofun⟩
        · exact Reconcile.reconcile_artifact_entitled hw hheld hm hactive
  · exact Reconcile.reconcile_asksFor (r := ⟨k, r⟩) hw hr hactive h
  · rintro a ha hk hactive _ rfl hteams
    obtain rfl : k = a.kind := hk
    exact Reconcile.reconcile_artifact_unbound hw hheld ha hactive hteams
  · rintro rfl hns
    exact hmisplaced ⟨.inr rfl, hns⟩

/-- The AZ of the small world is brought into place with the team's client, at the services of the
Director record and with its certificates. -/
theorem endpoint_credentials_small :
    ∃ r e, Small.world.records.get? Small.az.key = some r ∧ Resolved "sys" Small.world r e ∧
      Entitled "sys" Small.world r e ∧
      (reconcile "sys" Small.az.key Small.world).2.clients = e.logged Small.world.clients ∧
      (reconcile "sys" Small.az.key Small.world).2.clients.directors =
        [⟨"u", "p", ⟨"v", "q", "team.team-a.t", "y"⟩⟩] := by
  have hstored : (Small.world.records.get? Small.az.key).isSome = true := by rfl
  have hlog : (reconcile "sys" Small.az.key Small.world).2.clients.directors =
      [⟨"u", "p", ⟨"v", "q", "team.team-a.t", "y"⟩⟩] := by rfl
  obtain ⟨r, hr⟩ := Option.isSome_iff_exists.1 hstored
  obtain ⟨-, ⟨asked, hasks, hentitled⟩, -⟩ :=
    endpoint_credentials Small.wellFormed_world hr "sys"
  rcases hasks.clients with h | ⟨e, he, hclients⟩
  · rw [h.clients] at hlog
    cases hlog
  · exact ⟨r, e, hr, (hentitled e he).1, (hentitled e he).2, hclients, hlog⟩

end Reconciliation
