import Reconciliation.Proofs.Remote
import Reconciliation.Proofs.Stages

/-! The credentials for a call come from the teams of one namespace, the Director records, and the
secrets. Worlds that agree on these give the same credentials, whatever else was written in
between, and asking for a client changes nothing but a log. -/
namespace Reconciliation

namespace Store

/-- Both stores have the same Directors. -/
def SameDirectors (s t : Store) : Prop :=
  ∀ ns name, t.get? ⟨.director, ns, name⟩ = s.get? ⟨.director, ns, name⟩

theorem SameDirectors.keep {k : Kind} (hk : k ≠ .director) (s : Store) (r : Record k) :
    s.SameDirectors (s.keep r) := by
  intro ns name
  rw [get?_keep, if_neg]
  intro h
  exact hk (congrArg Key.kind h).symm

/-- Both stores have the same teams and the same Directors. -/
structure SameAccess (s t : Store) : Prop where
  teams : ∀ ns, t.list .team ns = s.list .team ns
  directors : s.SameDirectors t

theorem SameAccess.keep {k : Kind} (hk : k ≠ .team) (hk' : k ≠ .director) (s : Store)
    (r : Record k) : s.SameAccess (s.keep r) :=
  ⟨fun ns => list_put (show r.key.kind ≠ .team from hk) s _ ns, .keep hk' s r⟩

end Store

namespace RecordStore

theorem get_reads (key : Key) :
    Step.Reads (RecordStore.get key : Step Store StoreError AnyRecord) :=
  .answer _

theorem fetch_reads (k : Kind) (ns name : String) :
    Step.Reads (fetch k ns name : Step Store StoreError (Record k)) :=
  (get_reads _).bind fun _ => .ofExcept _

theorem fetchAll_reads (k : Kind) (ns : String) :
    Step.Reads (fetchAll k ns : Step Store StoreError (List (Record k))) :=
  Step.Reads.bind (.answer _) fun _ => .ofExcept _

theorem fetchAll_related (ns : String) :
    Step.Related Store.SameAccess Eq (fetchAll .team ns : Step Store StoreError _)
      (fetchAll .team ns) := by
  refine Step.Related.bind (V := Eq) ?_ ?_
  · intro s t h
    exact ⟨(h.teams _).symm, h⟩
  · rintro l _ rfl
    exact .ofExcept _

theorem fetch_related {R : Store → Store → Prop} (hR : ∀ {s t}, R s t → s.SameDirectors t)
    (ns name : String) :
    Step.Related R Eq (fetch .director ns name : Step Store StoreError _)
      (fetch .director ns name) := by
  refine Step.Related.bind (V := Eq) ?_ ?_
  · intro s t h
    simp only [RecordStore.get, Step.answer_apply, Store.get, hR h ns name]
    split
    · exact ⟨rfl, h⟩
    · exact ⟨rfl, h⟩
  · rintro r _ rfl
    exact .ofExcept _

end RecordStore

namespace World

variable {τ : Type}

/-- Both worlds give the same credentials. -/
structure SameAccess (w v : World Store τ) : Prop where
  records : w.records.SameAccess v.records
  secrets : v.secrets = w.secrets
  clients : v.clients.failure = w.clients.failure

theorem SameAccess.keep {k : Kind} (hk : k ≠ .team) (hk' : k ≠ .director) (w : World Store τ)
    (r : Record k) : w.SameAccess (w.keep r) :=
  ⟨.keep hk hk' _ _, rfl, rfl⟩

theorem onRecords_related {ε α : Type} {wrap : ε → ReconcileError} {x : Step Store ε α}
    (h : Step.Related Store.SameAccess Eq x x) :
    Step.Related SameAccess Eq (onRecords (τ := τ) wrap x) (onRecords wrap x) :=
  Step.Related.onPart h (fun _ => rfl) (fun _ _ h => h.records)
    fun _ _ _ _ h hs => ⟨hs, h.secrets, h.clients⟩

theorem onRecords_reads {ε α : Type} {wrap : ε → ReconcileError} {x : Step Store ε α}
    (h : Step.Reads x) : Step.Reads (onRecords (τ := τ) wrap x) :=
  Step.Reads.onPart h fun _ => rfl

theorem onRecords_eq_ok_iff {ε α : Type} {wrap : ε → ReconcileError} {x : Step Store ε α}
    (hx : Step.Reads x) {w v : World Store τ} {a : α} :
    onRecords wrap x w = (.ok a, v) ↔ x w.records = (.ok a, w.records) ∧ v = w := by
  constructor
  · intro h
    obtain ⟨s, hs, rfl⟩ := ok_of_onRecords h
    obtain rfl := hx.eq hs
    exact ⟨hs, rfl⟩
  · rintro ⟨h, rfl⟩
    exact onRecords_ok h

theorem onSecrets_reads {σ α : Type} {x : Step τ SecretError α} (h : Step.Reads x) :
    Step.Reads (onSecrets (σ := σ) x) :=
  Step.Reads.onPart h fun _ => rfl

theorem onSecrets_related {α : Type} (x : Step τ SecretError α) :
    Step.Related SameAccess Eq (onSecrets (σ := Store) x) (onSecrets x) :=
  Step.Related.onPart (.of_eq x) (fun _ => rfl) (fun _ _ h => h.secrets.symm)
    fun _ _ _ _ h hs => ⟨h.records, hs.symm, h.clients⟩

/-- Asking for a client succeeds in every world or in none, and leaves at most a log entry. -/
theorem askClient_apply {σ : Type} (log : Clients → Clients) (hl : ∀ c, (log c).failure = c.failure)
    (w : World σ τ) : ∃ c : Clients, c.failure = w.clients.failure ∧
      askClient log w = (match w.clients.failure with
        | some reason => .error (.remote (.certificate reason))
        | none => .ok (), { w with clients := c }) := by
  simp only [askClient, Step.mk_apply]
  cases hf : w.clients.failure with
  | some reason => exact ⟨w.clients, hf, rfl⟩
  | none => exact ⟨log w.clients, (hl _).trans hf, rfl⟩

theorem askClient_fst {σ : Type} (log : Clients → Clients) {w v : World σ τ}
    (h : v.clients.failure = w.clients.failure) : (askClient log v).1 = (askClient log w).1 := by
  simp only [askClient, Step.mk_apply, h]
  cases w.clients.failure <;> rfl

theorem askClient_related {log : Clients → Clients} (hl : ∀ c, (log c).failure = c.failure) :
    Step.Related SameAccess Eq (askClient (σ := Store) (τ := τ) log) (askClient log) := by
  intro w v h
  simp only [askClient, Step.mk_apply, h.clients]
  cases w.clients.failure with
  | some reason => exact ⟨rfl, h⟩
  | none => exact ⟨rfl, h.records, h.secrets, by rw [hl, hl, h.clients]⟩

end World

/-- What is wrong with a namespace that does not have exactly one team. -/
def ConfigurationProblem.unbound (ns : String) : Nat → ConfigurationProblem
  | 0 => .noTeam ns
  | count => .severalTeams ns count

namespace Credentials

theorem teamFor_reads {τ : Type} (ns : String) :
    Step.Reads (teamFor (σ := Store) (τ := τ) ns) := by
  refine Step.Reads.bind (World.onRecords_reads (RecordStore.fetchAll_reads _ _)) fun teams => ?_
  rcases teams with _ | ⟨team, _ | _⟩
  · exact .throw _
  · exact .pure _
  · exact .throw _

theorem teamFor_related {τ : Type} (ns : String) :
    Step.Related World.SameAccess Eq (teamFor (σ := Store) (τ := τ) ns) (teamFor ns) := by
  refine (World.onRecords_related (RecordStore.fetchAll_related ns)).bind ?_
  rintro teams _ rfl
  rcases teams with _ | ⟨team, _ | _⟩
  · exact .throw _
  · exact .pure rfl
  · exact .throw _

theorem director_reads {τ : Type} (sys name : String) :
    Step.Reads (director (σ := Store) (τ := τ) sys name) :=
  World.onRecords_reads ((RecordStore.fetch_reads _ _ _).bind fun _ => .pure _)

theorem director_related {τ : Type} (sys name : String) :
    Step.Related World.SameAccess Eq (director (σ := Store) (τ := τ) sys name)
      (director sys name) := by
  refine World.onRecords_related ((RecordStore.fetch_related (·.directors) sys name).bind ?_)
  rintro r _ rfl
  exact .pure rfl

theorem adminIdentity_reads (sys : String) (d : DirectorSpec) :
    Step.Reads (adminIdentity (σ := Store) (τ := Secrets) sys d) :=
  Step.Reads.bind (World.onSecrets_reads (.answer _)) fun _ => .pure _

theorem identityEndpoint_reads (sys name : String) :
    Step.Reads (identityEndpoint (σ := Store) (τ := Secrets) sys name) :=
  (director_reads sys name).bind fun d => adminIdentity_reads sys d

theorem directorEndpoint_reads (sys : String) (scope : DirectorScope) :
    Step.Reads (directorEndpoint (σ := Store) (τ := Secrets) sys scope) := by
  cases scope with
  | admin name =>
    exact (director_reads sys name).bind fun d =>
      (adminIdentity_reads sys d).bind fun _ => .pure _
  | team ns =>
    exact (teamFor_reads ns).bind fun team => (Step.Reads.ofExcept _).bind fun name =>
      (director_reads sys name).bind fun d =>
        Step.Reads.bind (Step.Reads.bind (World.onSecrets_reads (.answer _)) fun _ => .pure _)
          fun _ => .pure _

theorem frozenOf_eq_ok_iff {k : Kind} {r : Record k} {spec : Spec k} :
    frozenOf r = .ok spec ↔ r.frozen? = some spec := by
  rw [frozenOf]
  cases r.frozen? <;> simp

theorem frozenDirector_eq_ok_iff {t : Record .team} {name : String} : frozenDirector t = .ok name ↔
    ∃ spec : TeamSpec, t.frozen? = some spec ∧ spec.director = name := by
  constructor
  · intro h
    obtain ⟨spec, hspec, hname⟩ := Step.except_bind_eq_ok_iff.1 h
    cases hname
    exact ⟨spec, frozenOf_eq_ok_iff.1 hspec, rfl⟩
  · rintro ⟨spec, hspec, rfl⟩
    exact Step.except_bind_eq_ok_iff.2 ⟨spec, frozenOf_eq_ok_iff.2 hspec, rfl⟩

section

variable {τ : Type} {w v : World Store τ}

theorem teamFor_eq_ok_iff {ns : String} {t : Record .team} : teamFor ns w = (.ok t, v) ↔
    w.records.list .team (some ns) = [⟨.team, t⟩] ∧ v = w := by
  simp only [teamFor, Step.bind_eq_ok_iff,
    World.onRecords_eq_ok_iff (RecordStore.fetchAll_reads _ _), RecordStore.fetchAll_eq_ok_iff]
  constructor
  · rintro ⟨ts, _, ⟨⟨hlist, _⟩, rfl⟩, h⟩
    rcases ts with _ | ⟨t', _ | _⟩
    · cases h
    · obtain ⟨rfl, rfl⟩ := Step.pure_eq_ok_iff.1 h
      exact ⟨hlist, rfl⟩
    · cases h
  · rintro ⟨hlist, rfl⟩
    exact ⟨[t], _, ⟨⟨hlist, trivial⟩, rfl⟩, rfl⟩

/-- A namespace without a team, or with several, is not bound to a Director. -/
theorem teamFor_of_unbound {ns : String} {ts : List (Record .team)}
    (h : w.records.list .team (some ns) = ts.map fun t => ⟨.team, t⟩) (hts : ts.length ≠ 1) :
    teamFor ns w = (.error (.configuration (.unbound ns ts.length)), w) := by
  have hfetch : RecordStore.fetchAll .team ns w.records = (.ok ts, w.records) :=
    RecordStore.fetchAll_eq_ok_iff.2 ⟨h, rfl⟩
  rw [teamFor, Step.bind_ok (World.onRecords_ok hfetch)]
  rcases ts with _ | ⟨t, _ | ⟨t', ts⟩⟩
  · rfl
  · exact absurd rfl hts
  · rfl

theorem director_eq_ok_iff {sys name : String} {d : DirectorSpec} :
    director sys name w = (.ok d, v) ↔
      (∃ r : Record .director, w.records.Finds sys name r ∧ r.spec = d) ∧ v = w := by
  refine (World.onRecords_eq_ok_iff
    ((RecordStore.fetch_reads _ _ _).bind fun _ => .pure _)).trans (and_congr_left fun _ => ?_)
  constructor
  · intro h
    obtain ⟨r, s, hr, hd⟩ := Step.ok_of_bind h
    cases hd
    exact ⟨r, (RecordStore.fetch_eq_ok_iff.1 hr).1, rfl⟩
  · rintro ⟨r, hr, rfl⟩
    exact Step.bind_ok (RecordStore.fetch_eq_ok_iff.2 ⟨hr, rfl⟩) _

end

theorem secret_eq_ok_iff {σ : Type} {w v : World σ Secrets} {ns name value : String} :
    secret ns name w = (.ok value, v) ↔ w.secrets.get? ⟨ns, name⟩ = some value ∧ v = w := by
  constructor
  · intro h
    obtain ⟨s, hs, rfl⟩ := World.ok_of_onSecrets h
    rw [SecretStore.get_apply, Secrets.lookup] at hs
    split at hs
    · next x hx =>
      cases hs
      exact ⟨hx, rfl⟩
    · cases hs
  · rintro ⟨hx, rfl⟩
    refine World.onSecrets_ok (s := v.secrets) ?_
    rw [SecretStore.get_apply, Secrets.lookup, hx]

/-- The same team as far as credentials go. -/
structure SameTeam (t t' : Record .team) : Prop where
  internalName : t'.internalName = t.internalName
  secretNamespace : t'.secretNamespace = t.secretNamespace
  frozenDirector : frozenDirector t' = frozenDirector t

/-- Worlds that are related have the same teams, Directors and secrets to offer. -/
structure Shared {τ : Type} [SecretStore τ] (Q : World Store τ → World Store τ → Prop) : Prop where
  teamFor : ∀ ns, Step.Related Q SameTeam (teamFor ns) (teamFor ns)
  director : ∀ sys name, Step.Related Q Eq (director sys name) (director sys name)
  secret : ∀ ns name, Step.Related Q Eq (secret ns name) (secret ns name)

theorem sameAccess_shared {τ : Type} [SecretStore τ] : Shared (World.SameAccess (τ := τ)) where
  teamFor ns := by
    intro w v h
    refine (teamFor_related ns w v h).imp ?_
    rintro t _ rfl
    exact ⟨rfl, rfl, rfl⟩
  director := director_related
  secret _ _ := World.onSecrets_related _

namespace Shared

variable {τ : Type} [SecretStore τ] {Q : World Store τ → World Store τ → Prop} (hQ : Shared Q)

include hQ

theorem adminIdentity (sys : String) (d : DirectorSpec) :
    Step.Related Q Eq (adminIdentity sys d) (adminIdentity sys d) := by
  refine (hQ.secret _ _).bind ?_
  rintro s _ rfl
  exact .pure rfl

theorem identityEndpoint (sys name : String) :
    Step.Related Q Eq (identityEndpoint sys name) (identityEndpoint sys name) := by
  refine (hQ.director sys name).bind ?_
  rintro d _ rfl
  exact hQ.adminIdentity sys d

theorem teamIdentity {t t' : Record .team} (h : SameTeam t t') (d : DirectorSpec) :
    Step.Related Q Eq (teamIdentity t d) (teamIdentity t' d) := by
  simp only [Credentials.teamIdentity, h.internalName, h.secretNamespace]
  refine (hQ.secret _ _).bind ?_
  rintro s _ rfl
  exact .pure rfl

theorem directorEndpoint (sys : String) (scope : DirectorScope) :
    Step.Related Q Eq (directorEndpoint sys scope) (directorEndpoint sys scope) := by
  cases scope with
  | admin name =>
    refine (hQ.director sys name).bind ?_
    rintro d _ rfl
    refine (hQ.adminIdentity sys d).bind ?_
    rintro i _ rfl
    exact .pure rfl
  | team ns =>
    refine (hQ.teamFor ns).bind fun t t' ht => ?_
    rw [ht.frozenDirector]
    refine (Step.Related.ofExcept _).bind ?_
    rintro name _ rfl
    refine (hQ.director sys name).bind ?_
    rintro d _ rfl
    refine (hQ.teamIdentity ht d).bind ?_
    rintro i _ rfl
    exact .pure rfl

end Shared

/-- An admin client that was found is still found when secrets were added. -/
theorem identityEndpoint_of_grown {sys name : String} {e : IdentityEndpoint}
    {w v w' : World Store Secrets} (h : identityEndpoint sys name w = (.ok e, w'))
    (hr : w.records.SameDirectors v.records)
    (hs : ∀ n x, w.secrets.get? n = some x → v.secrets.get? n = some x) :
    identityEndpoint sys name v = (.ok e, v) := by
  obtain ⟨d, u, hd, he⟩ := Step.ok_of_bind h
  obtain ⟨⟨r, hfinds, hspec⟩, rfl⟩ := director_eq_ok_iff.1 hd
  obtain ⟨value, u', hv, hp⟩ := Step.ok_of_bind he
  obtain ⟨hvalue, rfl⟩ := secret_eq_ok_iff.1 hv
  have hd' : director sys name v = (.ok d, v) :=
    director_eq_ok_iff.2 ⟨⟨r, (hr sys name).trans hfinds, hspec⟩, rfl⟩
  have hv' : secret sys d.uaaClientSecret v = (.ok value, v) :=
    secret_eq_ok_iff.2 ⟨hs _ _ hvalue, rfl⟩
  rw [identityEndpoint, Step.bind_ok hd', adminIdentity, Step.bind_ok hv']
  cases hp
  rfl

end Credentials

namespace Reconcile

variable {w v : World Store Secrets}

/-- Asking for a Director client writes a log entry at most. -/
theorem askDirectorOf_snd (sys : String) (a : ArtifactKind) (r : Record a.kind)
    (w : World Store Secrets) : ∃ c : Clients, c.failure = w.clients.failure ∧
      (askDirectorOf sys a r w).2 = { w with clients := c } := by
  rcases hx : Credentials.directorEndpoint sys (Artifact.scope a r) w with ⟨e | e, u⟩
  · obtain rfl := (Credentials.directorEndpoint_reads sys _).eq hx
    rw [askDirectorOf, Step.bind_error hx]
    exact ⟨_, rfl, rfl⟩
  · obtain rfl := (Credentials.directorEndpoint_reads sys _).eq hx
    rw [askDirectorOf, Step.bind_ok hx]
    obtain ⟨c, hc, h⟩ := World.askClient_apply (fun c =>
      { c with directors := c.directors ++ [e] }) (fun _ => rfl) u
    exact ⟨c, hc, by rw [World.askDirector, h]⟩

theorem askIdentityOf_snd (sys : String) (r : Record .team) (w : World Store Secrets) :
    ∃ c : Clients, c.failure = w.clients.failure ∧
      (askIdentityOf sys r w).2 = { w with clients := c } := by
  cases hn : Credentials.frozenDirector r with
  | error e =>
    rw [askIdentityOf, hn]
    exact ⟨_, rfl, rfl⟩
  | ok name =>
    rw [askIdentityOf, hn, Step.bind_ok (Step.ofExcept_apply _ _)]
    rcases hx : Credentials.identityEndpoint sys name w with ⟨e | e, u⟩
    · obtain rfl := (Credentials.identityEndpoint_reads sys _).eq hx
      rw [Step.bind_error hx]
      exact ⟨_, rfl, rfl⟩
    · obtain rfl := (Credentials.identityEndpoint_reads sys _).eq hx
      rw [Step.bind_ok hx]
      obtain ⟨c, hc, h⟩ := World.askClient_apply (fun c =>
        { c with identities := c.identities ++ [e] }) (fun _ => rfl) u
      exact ⟨c, hc, by rw [World.askIdentity, h]⟩

/-- Whether a client can be asked for depends on the credentials alone. -/
theorem askDirectorOf_fst (sys : String) {a : ArtifactKind} {r r' : Record a.kind}
    (h : w.SameAccess v) (hs : Artifact.scope a r' = Artifact.scope a r) :
    (askDirectorOf sys a r' v).1 = (askDirectorOf sys a r w).1 := by
  rw [askDirectorOf, askDirectorOf, hs]
  refine Step.Related.fst ?_ h
  refine (Credentials.sameAccess_shared.directorEndpoint sys _).bind ?_
  rintro e _ rfl
  exact World.askClient_related fun _ => rfl

/-- A client that could be asked for still can when secrets were added. -/
theorem askIdentityOf_of_grown {sys : String} {r r' : Record .team} {w' : World Store Secrets}
    (h : askIdentityOf sys r w = (.ok (), w'))
    (hd : Credentials.frozenDirector r' = Credentials.frozenDirector r)
    (hr : w.records.SameDirectors v.records)
    (hs : ∀ n x, w.secrets.get? n = some x → v.secrets.get? n = some x)
    (hc : v.clients.failure = w.clients.failure) : (askIdentityOf sys r' v).1 = .ok () := by
  rw [askIdentityOf] at h
  obtain ⟨name, u, hn, hrest⟩ := Step.ok_of_bind h
  obtain ⟨hname, rfl⟩ := Prod.mk.inj hn
  obtain ⟨e, u', he, hask⟩ := Step.ok_of_bind hrest
  obtain rfl := (Credentials.identityEndpoint_reads sys name).eq he
  have he' := Credentials.identityEndpoint_of_grown he hr hs
  rw [askIdentityOf, hd, hname, Step.bind_ok (Step.ofExcept_apply _ _), Step.bind_ok he']
  exact (World.askClient_fst _ hc).trans (congrArg Prod.fst hask)

end Reconcile

end Reconciliation
