import Reconciliation.Proofs.Deletion
import Reconciliation.Proofs.Endpoints

namespace Reconciliation

namespace Credentials

/-- Why nobody can log in at the Director with this name. -/
inductive NoLogin (sys : String) (w : World Store Secrets) (name : String)
    (login : DirectorSpec → Login) : ReconcileError → Prop
  | director (missing : ∀ d : Record .director, ¬w.records.Finds sys name d) :
      NoLogin sys w name login (.configuration (.noDirector name sys))
  | secret {d : Record .director} (named : w.records.Finds sys name d)
      (missing : w.secrets.get? (login d.spec).secret = none) :
      NoLogin sys w name login (.secret (.notFound (login d.spec).secret))

/-- Why there is no endpoint for a record with this scope. -/
inductive NoEndpoint (sys : String) (w : World Store Secrets) : DirectorScope → ReconcileError → Prop
  /-- The namespace has no team or several. -/
  | unbound {ns : String} {teams : Nat}
      (listed : (w.records.list .team (some ns)).length = teams) (many : teams ≠ 1) :
      NoEndpoint sys w (.team ns) (.configuration (.unbound ns teams))
  | unfrozen {ns : String} {t : Record .team}
      (sole : w.records.list .team (some ns) = [⟨.team, t⟩]) (unfrozen : t.frozen? = none) :
      NoEndpoint sys w (.team ns) (.unfrozen t.key)
  | team {ns : String} {t : Record .team} {spec : TeamSpec} {e : ReconcileError}
      (sole : w.records.list .team (some ns) = [⟨.team, t⟩]) (frozen : t.frozen? = some spec)
      (missing : NoLogin sys w spec.director (fun _ => teamLogin t) e) :
      NoEndpoint sys w (.team ns) e
  | admin {name : String} {e : ReconcileError} (missing : NoLogin sys w name (adminLogin sys) e) :
      NoEndpoint sys w (.admin name) e

variable {w v : World Store Secrets} {sys name : String} {e : ReconcileError}

theorem secret_eq_error_iff {ns : String} : secret ns name w = (.error e, v) ↔
    (w.secrets.get? ⟨ns, name⟩ = none ∧ e = .secret (.notFound ⟨ns, name⟩)) ∧ v = w := by
  cases hs : w.secrets.get? ⟨ns, name⟩ with
  | some value =>
    rw [secret_eq_ok_iff.2 ⟨hs, rfl⟩]
    exact ⟨nofun, nofun⟩
  | none =>
    have hlookup : (SecretStore.get ⟨ns, name⟩ : Step Secrets SecretError String) w.secrets =
        (.error (.notFound ⟨ns, name⟩), w.secrets) := by
      rw [SecretStore.get_apply, Secrets.lookup, hs]
    rw [secret, World.onSecrets, Step.onPart_error hlookup]
    constructor
    · intro h
      cases h
      exact ⟨⟨rfl, rfl⟩, rfl⟩
    · rintro ⟨⟨-, rfl⟩, rfl⟩
      rfl

/-- In a well-formed store a Director is missing or of the right kind. -/
theorem director_eq_error_iff (hw : w.records.WellFormed) :
    director sys name w = (.error e, v) ↔
      ((∀ d : Record .director, ¬w.records.Finds sys name d) ∧
        e = .configuration (.noDirector name sys)) ∧ v = w := by
  by_cases h : ∃ d : Record .director, w.records.Finds sys name d
  · obtain ⟨d, hd⟩ := h
    have hrun : director sys name w = (.ok d.spec, w) := director_eq_ok_iff.2 ⟨⟨d, hd, rfl⟩, rfl⟩
    rw [hrun]
    exact ⟨nofun, fun h => absurd hd (h.1.1 d)⟩
  · have hget : w.records.get? ⟨.director, sys, name⟩ = none := by
      rw [hw.exists_finds_iff] at h
      simpa [Store.Stored] using h
    have hrun : director sys name w = (.error (.configuration (.noDirector name sys)), w) :=
      World.onRecords_error (Step.bind_error (Step.bind_error (Store.get_of_none hget) _) _)
    rw [hrun]
    constructor
    · intro hx
      cases hx
      exact ⟨⟨not_exists.1 h, rfl⟩, rfl⟩
    · rintro ⟨⟨-, rfl⟩, rfl⟩
      rfl

theorem teamFor_eq_error_iff (hw : w.records.WellFormed) {ns : String} :
    teamFor ns w = (.error e, v) ↔
      ((w.records.list .team (some ns)).length ≠ 1 ∧
        e = .configuration (.unbound ns (w.records.list .team (some ns)).length)) ∧ v = w := by
  obtain ⟨ts, hts⟩ := hw.exists_list .team (some ns)
  rw [hts, List.length_map]
  by_cases h : ts.length = 1
  · obtain ⟨t, rfl⟩ := List.length_eq_one_iff.1 h
    rw [teamFor_eq_ok_iff.2 ⟨hts, rfl⟩]
    exact ⟨nofun, fun h => absurd rfl h.1.1⟩
  · rw [teamFor_of_unbound hts h]
    constructor
    · intro hx
      cases hx
      exact ⟨⟨h, rfl⟩, rfl⟩
    · rintro ⟨⟨-, rfl⟩, rfl⟩
      rfl

theorem frozenDirector_eq_error_iff {t : Record .team} :
    frozenDirector t = .error e ↔ t.frozen? = none ∧ e = .unfrozen t.key := by
  cases hf : t.frozen? with
  | none => simp [frozenDirector, frozenOf, hf, bind, Except.bind, eq_comm]
  | some spec => simp [frozenDirector, frozenOf, hf, bind, Except.bind, pure, Except.pure]

theorem identityAs_eq_error_iff {d : DirectorSpec} {login : Login} :
    identityAs d login w = (.error e, v) ↔
      (w.secrets.get? login.secret = none ∧ e = .secret (.notFound login.secret)) ∧ v = w := by
  simp only [identityAs, Step.bind_eq_error_iff, secret_eq_error_iff, Step.not_pure_eq_error,
    and_false, exists_false, or_false]

theorem directorAs_eq_error_iff {d : DirectorSpec} {login : Login} :
    directorAs d login w = (.error e, v) ↔
      (w.secrets.get? login.secret = none ∧ e = .secret (.notFound login.secret)) ∧ v = w := by
  simp only [directorAs, Step.bind_eq_error_iff, identityAs_eq_error_iff, Step.not_pure_eq_error,
    and_false, exists_false, or_false]

/-- Where a Director is found first and only then the secret for a login, there are two ways to
fail. -/
theorem login_eq_error_iff (hw : w.records.WellFormed) {α : Type} {login : DirectorSpec → Login}
    (enter : DirectorSpec → Run Store Secrets α)
    (henter : ∀ d v, enter d w = (.error e, v) ↔
      (w.secrets.get? (login d).secret = none ∧ e = .secret (.notFound (login d).secret)) ∧ v = w) :
    (director sys name >>= enter) w = (.error e, v) ↔ NoLogin sys w name login e ∧ v = w := by
  rw [Step.bind_eq_error_iff, director_eq_error_iff hw]
  constructor
  · rintro (⟨⟨hnone, rfl⟩, rfl⟩ | ⟨spec, u, hspec, h⟩)
    · exact ⟨.director hnone, rfl⟩
    · obtain ⟨⟨d, hd, rfl⟩, rfl⟩ := director_eq_ok_iff.1 hspec
      obtain ⟨⟨hsecret, rfl⟩, rfl⟩ := (henter _ _).1 h
      exact ⟨.secret hd hsecret, rfl⟩
  · rintro ⟨hnone | ⟨hd, hsecret⟩, rfl⟩
    · exact .inl ⟨⟨hnone, rfl⟩, rfl⟩
    · exact .inr ⟨_, _, director_eq_ok_iff.2 ⟨⟨_, hd, rfl⟩, rfl⟩,
        (henter _ _).2 ⟨⟨hsecret, rfl⟩, rfl⟩⟩

theorem identityEndpoint_eq_error_iff (hw : w.records.WellFormed) :
    identityEndpoint sys name w = (.error e, v) ↔ NoLogin sys w name (adminLogin sys) e ∧ v = w :=
  login_eq_error_iff hw (fun d => identityAs d (adminLogin sys d))
    fun _ _ => identityAs_eq_error_iff

/-- The reasons listed are the only ones. -/
theorem directorEndpoint_eq_error_iff (hw : w.records.WellFormed) {scope : DirectorScope} :
    directorEndpoint sys scope w = (.error e, v) ↔ NoEndpoint sys w scope e ∧ v = w := by
  cases scope with
  | admin name =>
    have hlogin : directorEndpoint sys (.admin name) w = (.error e, v) ↔
        NoLogin sys w name (adminLogin sys) e ∧ v = w :=
      login_eq_error_iff hw (fun d => directorAs d (adminLogin sys d))
        fun _ _ => directorAs_eq_error_iff
    rw [hlogin]
    refine and_congr_left fun _ => ⟨.admin, ?_⟩
    rintro ⟨⟩
    assumption
  | team ns =>
    have hrun : directorEndpoint sys (.team ns) = teamFor ns >>= fun t =>
        Step.ofExcept (frozenDirector t) >>= fun name =>
          director sys name >>= fun d => directorAs d (teamLogin t) := rfl
    have hlogin (t : Record .team) (name : String) (v : World Store Secrets) :
        (director sys name >>= fun d => directorAs d (teamLogin t)) w = (.error e, v) ↔
          NoLogin sys w name (fun _ => teamLogin t) e ∧ v = w :=
      login_eq_error_iff hw (fun d => directorAs d (teamLogin t)) fun _ _ => directorAs_eq_error_iff
    rw [hrun, Step.bind_eq_error_iff, teamFor_eq_error_iff hw]
    constructor
    · rintro (⟨⟨hmany, rfl⟩, rfl⟩ | ⟨t, u, ht, h⟩)
      · exact ⟨.unbound rfl hmany, rfl⟩
      · obtain ⟨hsole, rfl⟩ := teamFor_eq_ok_iff.1 ht
        cases hname : frozenDirector t with
        | error cause =>
          rw [hname, Step.bind_error (Step.ofExcept_apply _ _)] at h
          cases h
          obtain ⟨hunfrozen, rfl⟩ := frozenDirector_eq_error_iff.1 hname
          exact ⟨.unfrozen hsole hunfrozen, rfl⟩
        | ok name =>
          obtain ⟨spec, hspec, rfl⟩ := frozenDirector_eq_ok_iff.1 hname
          rw [hname, Step.bind_ok (Step.ofExcept_apply _ _), hlogin] at h
          exact ⟨.team hsole hspec h.1, h.2⟩
    · rintro ⟨⟨rfl, hmany⟩ | ⟨hsole, hunfrozen⟩ | ⟨hsole, hspec, hmissing⟩, rfl⟩
      · exact .inl ⟨⟨hmany, rfl⟩, rfl⟩
      · refine .inr ⟨_, _, teamFor_eq_ok_iff.2 ⟨hsole, rfl⟩, ?_⟩
        rw [frozenDirector_eq_error_iff.2 ⟨hunfrozen, rfl⟩]
        rfl
      · refine .inr ⟨_, _, teamFor_eq_ok_iff.2 ⟨hsole, rfl⟩, ?_⟩
        rw [frozenDirector_eq_ok_iff.2 ⟨_, hspec, rfl⟩, Step.bind_ok (Step.ofExcept_apply _ _),
          hlogin]
        exact ⟨hmissing, rfl⟩

/-- Whether a login is found depends on the Directors and the secrets. -/
theorem NoLogin.of_same {login : DirectorSpec → Login} (h : NoLogin sys w name login e)
    (hr : w.records.SameDirectors v.records) (hs : v.secrets = w.secrets) :
    NoLogin sys v name login e := by
  have hfinds (d : Record .director) :
      v.records.Finds sys name d ↔ w.records.Finds sys name d := by
    rw [Store.Finds, Store.Finds, hr sys name]
  cases h with
  | director missing => exact .director fun d hd => missing d ((hfinds d).1 hd)
  | secret named missing => exact .secret ((hfinds _).2 named) (by rwa [hs])

end Credentials

open Reconcile (Misplaced)

/-- Why a reconcile of an artifact that has anything to do ends at once. -/
inductive Refused (sys : String) (w : World Store Secrets) (a : ArtifactKind) (r : Record a.kind) :
    ReconcileError → Prop
  | misplaced (h : Misplaced sys r) :
      Refused sys w a r (.configuration (.misplaced a.kind sys r.metadata.ns))
  | noEndpoint {e : ReconcileError} (placed : ¬Misplaced sys r)
      (missing : Credentials.NoEndpoint sys w (Artifact.scope a r) e) : Refused sys w a r e

namespace Record

/-- The same record, or a deployment with its force flag cleared by a write. -/
inductive UnforcedTo : {k : Kind} → Record k → Record k → Prop
  | same {k : Kind} (r : Record k) : UnforcedTo r r
  | unforced {r : Record .deployment} (h : r.forced = true) : UnforcedTo r r.unforced.bumped

theorem unforcedTo_consumed {k : Kind} (r : Record k) : r.UnforcedTo r.consumed := by
  by_cases hk : k = .deployment
  · subst hk
    simp only [consumed]
    split
    · next h => exact .unforced h
    · exact .same r
  · rw [consumed_of_ne hk]
    exact .same r

/-- The same team with its Director frozen. Only the warning, the frozen spec and the secret
namespace of the status may differ, and the version. -/
structure FrozenTo (t q : Record .team) : Prop where
  apiVersion : q.apiVersion = t.apiVersion
  metadata : q.metadata = { t.metadata with version := q.metadata.version }
  spec : q.spec = t.spec
  available : q.available = t.available
  frozen : q.frozen? = some t.effective
  secret : t.secretNamespace ≠ "" → q.secretNamespace = t.secretNamespace

theorem frozenTo_frozenBy (sys : String) (t : Record .team) : t.FrozenTo (t.frozenBy sys) where
  apiVersion := by
    unfold frozenBy
    split <;> rfl
  metadata := by
    unfold frozenBy
    split <;> rfl
  spec := spec_frozenBy sys t
  available := available_frozenBy sys t
  frozen := frozen?_frozenBy rfl sys t
  secret := (advances_frozenBy sys t).secret

end Record

variable {w : World Store Secrets} {sys : String} {e : ReconcileError}

theorem refused_iff (hw : w.records.WellFormed) {a : ArtifactKind} {r : Record a.kind} :
    Refused sys w a r e ↔
      Misplaced sys r ∧ e = .configuration (.misplaced a.kind sys r.metadata.ns) ∨
      ¬Misplaced sys r ∧
        (Credentials.directorEndpoint sys (Artifact.scope a r) w).1 = .error e := by
  have hreads := Credentials.directorEndpoint_reads sys (Artifact.scope a r) w
  have hfails : (Credentials.directorEndpoint sys (Artifact.scope a r) w).1 = .error e ↔
      Credentials.NoEndpoint sys w (Artifact.scope a r) e := by
    constructor
    · intro h
      exact ((Credentials.directorEndpoint_eq_error_iff hw).1 (Prod.ext h hreads)).1
    · intro h
      exact congrArg Prod.fst ((Credentials.directorEndpoint_eq_error_iff hw).2 ⟨h, rfl⟩)
  rw [hfails]
  constructor
  · rintro (hm | ⟨hm, hmissing⟩)
    · exact .inl ⟨hm, rfl⟩
    · exact .inr ⟨hm, hmissing⟩
  · rintro (⟨hm, rfl⟩ | ⟨hm, hmissing⟩)
    · exact .misplaced hm
    · exact .noEndpoint hm hmissing

theorem reconcile_of_refused (hw : w.records.WellFormed) {a : ArtifactKind} {r : Record a.kind}
    (hr : w.records.Holds r) (hactive : r.beingDeleted = true → r.hasFinalizer = true)
    (h : Refused sys w a r e) : reconcile sys r.key w = (.error e, w.keep r.consumed) := by
  rcases (refused_iff hw).1 h with ⟨hm, rfl⟩ | ⟨hm, hfind⟩
  · have ha : a.kind ≠ .deployment := by
      rintro ha
      obtain ⟨hk | hk, -⟩ := hm
      · rw [ha] at hk
        cases hk
      · rw [ha] at hk
        cases hk
    rw [reconcile_of_misplaced hr hm, Record.consumed_of_ne ha, World.keep_of_holds hr]
  · have hask : Reconcile.askDirectorOf sys a r.consumed (w.keep r.consumed) =
        (.error e, w.keep r.consumed) := by
      refine Step.bind_error ?_ _
      rw [Reconcile.directorEndpoint_consumed, hfind]
    obtain ⟨rest, hx, -⟩ := Reconcile.reconcile_artifact_asks sys hw hr hm hactive
    rw [hx, Step.bind_error hask]

theorem reconcile_team_of_noLogin (hw : w.records.WellFormed) {t : Record .team}
    (ht : w.records.Holds t) (hl : t.beingDeleted = false)
    (h : Credentials.NoLogin sys w (t.effective : TeamSpec).director (Credentials.adminLogin sys) e) :
    reconcile sys t.key w = (.error e, w.keep (t.frozenBy sys)) := by
  have hdirector : Credentials.frozenDirector (t.frozenBy sys) =
      .ok (t.effective : TeamSpec).director :=
    Credentials.frozenDirector_eq_ok_iff.2 ⟨_, Record.frozen?_frozenBy rfl sys t, rfl⟩
  have hkept : (w.keep (t.frozenBy sys)).records.WellFormed := by
    refine hw.keep fun hd => ?_
    rw [Record.beingDeleted_frozenBy, hl] at hd
    cases hd
  have hask : Reconcile.askIdentityOf sys (t.frozenBy sys) (w.keep (t.frozenBy sys)) =
      (.error e, w.keep (t.frozenBy sys)) := by
    rw [Reconcile.askIdentityOf, hdirector, Step.bind_ok (Step.ofExcept_apply _ _)]
    refine Step.bind_error ((Credentials.identityEndpoint_eq_error_iff hkept).2 ⟨?_, rfl⟩) _
    exact h.of_same (.keep (k := .team) Kind.noConfusion _ _) rfl
  rw [reconcile_of_team ht, Reconcile.team, if_neg (by simp [hl]), Reconcile.establishTeam,
    Step.bind_ok (Reconcile.freeze_eq ht sys), Step.bind_error hask]

/-- An artifact is refused if it is misplaced or its endpoint cannot be found, for the reasons listed
in `Refused`. Its reconcile then ends with that error, and the world is the same as before except
that the force flag of a deployment was cleared: no call, no client, nothing frozen, no finalizer. A
live team whose Director or admin secret is missing has its Director frozen and nothing else. -/
theorem refusal_has_no_effect (hw : w.records.WellFormed) (sys : String) :
    (∀ (a : ArtifactKind) (r : Record a.kind) (e : ReconcileError), w.records.Holds r →
      (r.beingDeleted = true → r.hasFinalizer = true) →
      (Refused sys w a r e ↔
        Misplaced sys r ∧ e = .configuration (.misplaced a.kind sys r.metadata.ns) ∨
        ¬Misplaced sys r ∧
          (Credentials.directorEndpoint sys (Artifact.scope a r) w).1 = .error e) ∧
      (Refused sys w a r e →
        reconcile sys r.key w = (.error e, w.keep r.consumed) ∧
        (a ≠ .deployment → w.keep r.consumed = w) ∧ r.UnforcedTo r.consumed ∧
        r.consumed.status = r.status ∧ r.consumed.metadata.finalizers = r.metadata.finalizers)) ∧
    ∀ (t : Record .team) (e : ReconcileError), w.records.Holds t → t.beingDeleted = false →
      Credentials.NoLogin sys w (t.effective : TeamSpec).director (Credentials.adminLogin sys) e →
      reconcile sys t.key w = (.error e, w.keep (t.frozenBy sys)) ∧
        t.FrozenTo (t.frozenBy sys) := by
  constructor
  · intro a r e hr hactive
    refine ⟨refused_iff hw, fun h => ⟨reconcile_of_refused hw hr hactive h, ?_,
      r.unforcedTo_consumed, r.status_consumed, r.finalizers_consumed⟩⟩
    intro ha
    have hk : a.kind ≠ .deployment := by
      cases a <;> simp_all
    rw [Record.consumed_of_ne hk, World.keep_of_holds hr]
  · intro t e ht hl h
    exact ⟨reconcile_team_of_noLogin hw ht hl h, t.frozenTo_frozenBy sys⟩

namespace Small

/-- A deployment in a namespace without a team, to be reconciled once more. -/
def teamless : Record .deployment :=
  Record.new "team-b" "x"
    ({ azs := [], replicas := 1, containers := [], baseImage := "b", network := "n",
       forceReconciliation := true } : DeploymentSpec)

/-- A team of a Director that nobody described. -/
def directorless : Record .team := Record.new "team-c" "t" (⟨"e"⟩ : TeamSpec)

def refusing : World Store Secrets :=
  { world with records := (Store.create directorless (Store.create teamless world.records).2).2 }

theorem wellFormed_refusing : refusing.records.WellFormed :=
  (wellFormed_world.create teamless).create directorless

end Small

/-- The deployment lacks a team and has its flag cleared; the team lacks its Director and is
frozen. -/
theorem refusal_has_no_effect_small :
    (∃ r : Record .deployment, r.forced = false ∧
      reconcile "sys" Small.teamless.key Small.refusing =
        (.error (.configuration (.noTeam "team-b")), Small.refusing.keep r)) ∧
    ∃ t : Record .team, t.frozen? = some (⟨"e"⟩ : TeamSpec) ∧ t.hasFinalizer = false ∧
      reconcile "sys" Small.directorless.key Small.refusing =
        (.error (.configuration (.noDirector "e" "sys")), Small.refusing.keep t) := by
  obtain ⟨hartifact, hteam⟩ := refusal_has_no_effect Small.wellFormed_refusing "sys"
  constructor
  · obtain ⟨r, hr, hkey, hlive, hunforced⟩ : ∃ r : Record .deployment,
        Small.refusing.records.get? Small.teamless.key = some ⟨.deployment, r⟩ ∧
          r.key = Small.teamless.key ∧ r.beingDeleted = false ∧ r.consumed.forced = false :=
      ⟨_, rfl, rfl, rfl, rfl⟩
    have hns : r.metadata.ns = "team-b" := congrArg Key.ns hkey
    have hmissing : Refused "sys" Small.refusing .deployment r
        (.configuration (.unbound "team-b" 0)) := by
      refine .noEndpoint (by simp [Misplaced]) ?_
      rw [Artifact.scope, hns]
      exact .unbound rfl Nat.zero_ne_one
    obtain ⟨-, heffect⟩ :=
      hartifact .deployment r _ (Small.wellFormed_refusing.holds hr) (by simp [hlive])
    exact ⟨r.consumed, hunforced, hkey ▸ (heffect hmissing).1⟩
  · obtain ⟨t, ht, hkey, hlive, hfrozen, hfinalizer⟩ : ∃ t : Record .team,
        Small.refusing.records.get? Small.directorless.key = some ⟨.team, t⟩ ∧
          t.key = Small.directorless.key ∧ t.beingDeleted = false ∧
          t.effective = (⟨"e"⟩ : TeamSpec) ∧ (t.frozenBy "sys").hasFinalizer = false :=
      ⟨_, rfl, rfl, rfl, rfl, rfl⟩
    have hmissing : Credentials.NoLogin "sys" Small.refusing (t.effective : TeamSpec).director
        (Credentials.adminLogin "sys") (.configuration (.noDirector "e" "sys")) := by
      rw [hfrozen]
      refine .director fun d hd => ?_
      have hnone : Small.refusing.records.get? ⟨.director, "sys", "e"⟩ = none := by rfl
      rw [Store.Finds, hnone] at hd
      cases hd
    obtain ⟨hrun, hfrozenTo⟩ := hteam t _ (Small.wellFormed_refusing.holds ht) hlive hmissing
    exact ⟨t.frozenBy "sys", hfrozen ▸ hfrozenTo.frozen, hfinalizer, hkey ▸ hrun⟩

end Reconciliation
