import Reconciliation.Proofs.Effect
import Reconciliation.Proofs.Establishment

/-! A reconcile hands the copy that each write gives back to the next one, so none of its own
writes is refused by the store. What can fail is what others have to provide: a record that is
missing or not frozen, a secret, a client, a remote service. The secrets may be in any store. -/
namespace Reconciliation

open Step (Meets FailsIn)

namespace RecordStore

variable {ns : String}

/-- In a well-formed store a record is missing or of the kind that its key says. -/
theorem fetch_failsIn (k : Kind) (ns name : String) :
    FailsIn Store.WellFormed (· = .notFound ⟨k, ns, name⟩) (fetch (σ := Store) k ns name) := by
  intro s hs
  by_cases h : s.Stored ⟨k, ns, name⟩
  · obtain ⟨r, hr, -, -⟩ := hs.fetch_stored h
    rw [hr]
    exact hs
  · have hget : s.get? ⟨k, ns, name⟩ = none := by simpa [Store.Stored] using h
    rw [fetch, Step.bind_error (Store.get_of_none hget)]

/-- Listing a well-formed store does not fail. -/
theorem fetchAll_failsIn (k : Kind) (ns : String) :
    FailsIn Store.WellFormed (fun _ => False) (fetchAll (σ := Store) k ns) := by
  intro s hs
  obtain ⟨rs, hrs⟩ := hs.exists_list k (some ns)
  rw [fetchAll_eq_ok_iff.2 ⟨hrs, rfl⟩]
  exact hs

end RecordStore

/-- The records that were looked up are missing or not ready, or their values do not fit. -/
def ResolutionError.FromRecords : ResolutionError → Prop
  | .store _ => False
  | _ => True

namespace Composition

open ResolutionError (FromRecords)

theorem fetch_failsIn (k : Kind) (ns name : String) :
    FailsIn Store.WellFormed FromRecords (fetch (σ := Store) k ns name) := by
  refine (RecordStore.fetch_failsIn k ns name).mapError fun e he => ?_
  rw [he]
  trivial

theorem internalNameOf_failsIn (k : Kind) (ns name : String) :
    FailsIn Store.WellFormed FromRecords (internalNameOf (σ := Store) k ns name) :=
  (fetch_failsIn k ns name).bind fun _ => .pure _

theorem internalNamesOf_failsIn (k : Kind) (ns : String) (names : List String) :
    FailsIn Store.WellFormed FromRecords (internalNamesOf (σ := Store) k ns names) :=
  .mapM (internalNameOf_failsIn k ns) names

theorem frozenRelease_fromRecords {r : Record .release} {e : ResolutionError}
    (h : frozenRelease r = .error e) : e.FromRecords := by
  rw [frozenRelease] at h
  split at h <;> cases h
  trivial

theorem frozenBaseImage_fromRecords {r : Record .baseImage} {e : ResolutionError}
    (h : frozenBaseImage r = .error e) : e.FromRecords := by
  rw [frozenBaseImage] at h
  split at h <;> cases h
  trivial

theorem footprintOf_fromRecords {d : Record .deployment} {e : ResolutionError}
    (h : footprintOf d = .error e) : e.FromRecords := by
  rw [footprintOf] at h
  split at h <;> cases h
  trivial

theorem updateOf_fromRecords {d : Record .deployment} {e : ResolutionError}
    (h : updateOf d = .error e) : e.FromRecords := by
  rw [updateOf] at h
  split at h <;> cases h
  trivial

theorem jobOf_failsIn (ns : String) (c : Container) :
    FailsIn Store.WellFormed FromRecords (jobOf (σ := Store) ns c) := by
  have hlink : ∀ link : String × ImportedLink,
      FailsIn Store.WellFormed FromRecords (consumedLink (σ := Store) ns link) :=
    fun link => (internalNameOf_failsIn .deployment ns link.2.importedFrom).bind fun _ => .pure _
  exact (fetch_failsIn .role ns c.role).bind fun role =>
    (fetch_failsIn .release ns (role.spec : RoleSpec).source.release).bind fun r =>
      (Meets.ofExcept fun _ => frozenRelease_fromRecords).bind fun release =>
        (Meets.mapM hlink c.imports.toList).bind fun _ => .pure _

theorem stemcellOf_failsIn (ns baseImage : String) :
    FailsIn Store.WellFormed FromRecords (stemcellOf (σ := Store) ns baseImage) :=
  (fetch_failsIn .baseImage ns baseImage).bind fun _ =>
    (Meets.ofExcept fun _ => frozenBaseImage_fromRecords).bind fun _ => .pure _

theorem manifest_failsIn (d : Record .deployment) :
    FailsIn Store.WellFormed FromRecords (manifest (σ := Store) d) :=
  (Meets.mapM (jobOf_failsIn d.metadata.ns) _).bind fun _ =>
    (stemcellOf_failsIn _ _).bind fun _ =>
      (internalNamesOf_failsIn .az _ _).bind fun _ =>
        (internalNamesOf_failsIn .vmExtension _ _).bind fun _ =>
          (internalNameOf_failsIn .network _ _).bind fun _ =>
            (Meets.ofExcept fun _ => footprintOf_fromRecords).bind fun _ =>
              (Meets.ofExcept fun _ => updateOf_fromRecords).bind fun _ => .pure _

end Composition

/-- A failure that is not about the store. `lacking` says which records may turn out to lack a
frozen spec. -/
def ReconcileError.Outward (lacking : Key → Prop) : ReconcileError → Prop
  | .store _ => False
  | .resolution cause => cause.FromRecords
  | .unfrozen key => lacking key
  | .configuration _ | .remote _ | .secret _ => True

open ReconcileError (Outward)

namespace Artifact

variable {lacking : Key → Prop}

/-- What is frozen where it has to be can be built, unless a record that it names is in the way. -/
theorem object_failsIn {a : ArtifactKind} {r : Record a.kind}
    (hf : a.kind.freezes = true → r.frozen?.isSome = true) :
    FailsIn Store.WellFormed (Outward lacking) (object (σ := Store) a r) := by
  have hresolved : ∀ {α : Type} {x : Step Store ResolutionError α},
      FailsIn Store.WellFormed ResolutionError.FromRecords x →
        FailsIn Store.WellFormed (Outward lacking) (x.mapError .resolution) :=
    fun hx => hx.mapError fun _ h => h
  have hfrozen : a.kind.freezes = true → FailsIn (σ := Store) Store.WellFormed (Outward lacking)
      (Step.ofExcept (Credentials.frozenOf r)) := by
    intro hk
    obtain ⟨spec, hspec⟩ := Option.isSome_iff_exists.1 (hf hk)
    rw [Credentials.frozenOf_eq_ok_iff.2 hspec]
    exact .pure spec
  cases a with
  | deployment => exact (hresolved (Composition.manifest_failsIn r)).bind fun _ => .pure _
  | network =>
    have hentry : ∀ s : Subnet, FailsIn Store.WellFormed ResolutionError.FromRecords
        (subnetEntry (σ := Store) r.metadata.ns s) :=
      fun s => (Composition.internalNamesOf_failsIn .az _ s.azs).bind fun _ => .pure _
    exact ((hfrozen rfl).bind fun _ => (hresolved (.mapM hentry _)).bind fun _ => .pure _).bind
      fun _ => .pure _
  | az => exact ((hfrozen rfl).ofExcept_map (AzSpec.fragment r.internalName)).bind fun _ => .pure _
  | vmExtension =>
    exact ((hfrozen rfl).ofExcept_map (VmExtensionSpec.fragment r.internalName)).bind
      fun _ => .pure _
  | compilation =>
    exact ((hfrozen rfl).ofExcept_map (CompilationSpec.fragment r.internalName)).bind
      fun _ => .pure _
  | baseImage | release => exact (hfrozen rfl).bind fun _ => .pure _

end Artifact

namespace World

variable {τ : Type} {lacking : Key → Prop}

/-- The records are well-formed. -/
def Sound (w : World Store τ) : Prop := w.records.WellFormed

theorem onRecords_failsIn {ε α : Type} {wrap : ε → ReconcileError} {P : ε → Prop}
    {x : Step Store ε α}
    (hx : FailsIn Store.WellFormed P x) (hwrap : ∀ e, P e → (wrap e).Outward lacking) :
    FailsIn (Sound (τ := τ)) (Outward lacking) (World.onRecords wrap x) :=
  hx.onPart (fun _ h => h) (fun _ _ _ _ h => h) hwrap

/-- The failures of a step on another part of the world are wrapped as such. -/
theorem failsIn_elsewhere {π ε α : Type} {part : World Store τ → π}
    {replace : World Store τ → π → World Store τ} {wrap : ε → ReconcileError} (x : Step π ε α)
    (hr : ∀ w s, (replace w s).records = w.records) (hwrap : ∀ e, (wrap e).Outward lacking) :
    FailsIn Sound (Outward lacking) (Step.onPart part replace wrap x) := by
  refine (Meets.trivially x).onPart (fun _ _ => trivial) (fun w _ s hw _ => ?_) fun e _ => hwrap e
  rw [Sound, hr]
  exact hw

theorem onSecrets_failsIn {α : Type} (x : Step τ SecretError α) :
    FailsIn (Sound (τ := τ)) (Outward lacking) (World.onSecrets x) :=
  failsIn_elsewhere x (fun _ _ => rfl) fun _ => trivial

theorem onSecretSupply_failsIn {α : Type} (x : Step (τ × Entropy) SecretError α) :
    FailsIn (Sound (τ := τ)) (Outward lacking) (World.onSecretSupply x) :=
  failsIn_elsewhere x (fun _ _ => rfl) fun _ => trivial

theorem onDirector_failsIn {α : Type} (x : Step Director RemoteError α) :
    FailsIn (Sound (τ := τ)) (Outward lacking) (World.onDirector x) :=
  failsIn_elsewhere x (fun _ _ => rfl) fun _ => trivial

theorem onIdentity_failsIn {α : Type} (x : Step Identity RemoteError α) :
    FailsIn (Sound (τ := τ)) (Outward lacking) (World.onIdentity x) :=
  failsIn_elsewhere x (fun _ _ => rfl) fun _ => trivial

theorem askClient_failsIn (log : Clients → Clients) :
    FailsIn (Sound (τ := τ)) (Outward lacking) (World.askClient log) := by
  intro w hw
  simp only [World.askClient, Step.mk_apply]
  cases w.clients.failure with
  | none => exact hw
  | some reason => trivial

end World

open World (KeepsRecords Sound)

namespace Credentials

variable {τ : Type} {lacking : Key → Prop}

theorem teamFor_failsIn (ns : String) :
    FailsIn Sound (Outward lacking) (teamFor (σ := Store) (τ := τ) ns) := by
  refine (World.onRecords_failsIn (RecordStore.fetchAll_failsIn .team ns)
    fun _ h => h.elim).bind fun teams => ?_
  rcases teams with _ | ⟨team, _ | _⟩
  · exact .throw trivial
  · exact .pure _
  · exact .throw trivial

theorem director_failsIn (sys name : String) :
    FailsIn Sound (Outward lacking) (director (σ := Store) (τ := τ) sys name) := by
  refine World.onRecords_failsIn
    ((RecordStore.fetch_failsIn .director sys name).bind fun _ => .pure _) fun e he => ?_
  rw [he]
  trivial

/-- A team that is not frozen is told by its own key. -/
theorem frozenDirector_failsIn {I : World Store τ → Prop} {t : Record .team}
    (hl : t.frozen? = none → lacking t.key) :
    FailsIn I (Outward lacking) (Step.ofExcept (frozenDirector t)) := by
  refine .ofExcept_map (.ofExcept fun e he => ?_) TeamSpec.director
  rw [frozenOf] at he
  split at he <;> cases he
  next hf => exact hl hf

variable [SecretStore τ]

theorem adminIdentity_failsIn (sys : String) (d : DirectorSpec) :
    FailsIn Sound (Outward lacking) (adminIdentity (σ := Store) (τ := τ) sys d) :=
  (World.onSecrets_failsIn _).bind fun _ => .pure _

theorem identityEndpoint_failsIn (sys name : String) :
    FailsIn Sound (Outward lacking) (identityEndpoint (σ := Store) (τ := τ) sys name) :=
  (director_failsIn sys name).bind fun d => adminIdentity_failsIn sys d

/-- No record but the team of a namespace may turn out to lack a frozen spec. -/
theorem directorEndpoint_failsIn (sys : String) (scope : DirectorScope)
    (hl : ∀ t : Record .team, lacking t.key) :
    FailsIn Sound (Outward lacking) (directorEndpoint (σ := Store) (τ := τ) sys scope) := by
  cases scope with
  | admin name =>
    exact (director_failsIn sys name).bind fun d =>
      (adminIdentity_failsIn sys d).bind fun _ => .pure _
  | team ns =>
    exact (teamFor_failsIn ns).bind fun team =>
      (frozenDirector_failsIn fun _ => hl team).bind fun name =>
        (director_failsIn sys name).bind fun d =>
          ((World.onSecrets_failsIn _).bind fun _ => .pure _).bind fun _ => .pure _

end Credentials

namespace Reconcile

variable {τ : Type} {sys : String} {lacking : Key → Prop}

theorem establish_failsIn {a : ArtifactKind} {r : Record a.kind}
    (hf : a.kind.freezes = true → r.frozen?.isSome = true) :
    FailsIn Sound (Outward lacking) (Artifact.establish (σ := Store) (τ := τ) a r) :=
  (World.onRecords_failsIn (Artifact.object_failsIn hf) fun _ h => h).bind fun _ =>
    World.onDirector_failsIn _

theorem remove_failsIn (a : ArtifactKind) (r : Record a.kind) :
    FailsIn Sound (Outward lacking) (Artifact.remove (σ := Store) (τ := τ) a r) := by
  unfold Artifact.remove
  split
  · exact World.onDirector_failsIn _
  · exact .pure _

section

variable [SecretStore τ]

theorem askDirectorOf_failsIn (sys : String) (a : ArtifactKind) (r : Record a.kind)
    (hl : ∀ t : Record .team, lacking t.key) :
    FailsIn Sound (Outward lacking) (askDirectorOf (σ := Store) (τ := τ) sys a r) :=
  (Credentials.directorEndpoint_failsIn sys _ hl).bind fun _ => World.askClient_failsIn _

theorem askIdentityOf_failsIn (sys : String) {r : Record .team}
    (hl : r.frozen? = none → lacking r.key) :
    FailsIn Sound (Outward lacking) (askIdentityOf (σ := Store) (τ := τ) sys r) :=
  (Credentials.frozenDirector_failsIn hl).bind fun name =>
    (Credentials.identityEndpoint_failsIn sys name).bind fun _ => World.askClient_failsIn _

end

variable {k : Kind} {r q : Record k}

/-- The record is stored as it is, in a sound world. -/
def At (r : Record k) (w : World Store τ) : Prop := w.Sound ∧ w.records.Holds r

theorem At.keep {w : World Store τ} (h : At r w) (hq : r.Advances q) : At q (w.keep q) := by
  refine ⟨h.1.keep fun hd => hq.held (h.1.marked h.2 ?_), World.holds_keep w q⟩
  rw [hq.deleted] at hd
  exact hd

/-- A step that leaves the records alone leaves the record where it is. -/
theorem failsIn_at {α : Type} {x : Run Store τ α} (hx : FailsIn Sound (Outward lacking) x)
    (hk : KeepsRecords x) (r : Record k) : FailsIn (At r) (Outward lacking) x := by
  intro w hw
  have h := hx w hw.1
  rcases hxw : x w with ⟨e | a, v⟩ <;> rw [hxw] at h
  · exact h
  · exact ⟨h, (hk.holds hxw hw.2).2⟩

/-- From where the record is stored, no write of the step is refused. -/
def Undisturbed (lacking : Key → Prop) (r : Record k) (x : Run Store τ Unit) : Prop :=
  Meets (At r) (fun _ _ => True) (Outward lacking) x

theorem freeze_undisturbed {f : Record k → Run Store τ Unit}
    (hf : Undisturbed lacking (r.frozenBy sys) (f (r.frozenBy sys))) :
    Undisturbed lacking r (freeze sys r >>= f) :=
  Meets.bind_of (fun _ hw => ⟨_, freeze_eq hw.2 sys, hw.keep (r.advances_frozenBy sys)⟩) hf

theorem attachFinalizer_undisturbed {f : Record k → Run Store τ Unit}
    (hr : k.freezes = true → r.frozen?.isSome = true)
    (hf : Undisturbed lacking r.guarded (f r.guarded)) :
    Undisturbed lacking r (attachFinalizer r >>= f) :=
  Meets.bind_of (fun _ hw => ⟨_, attachFinalizer_eq hw.2, hw.keep (Record.advances_guarded hr)⟩) hf

theorem publish_undisturbed (r : Record k) : Undisturbed lacking (τ := τ) r (publish r) :=
  Meets.of_ok fun _ hw => ⟨_, _, publish_eq hw.2, trivial⟩

theorem dropFinalizer_undisturbed (r : Record k) :
    Undisturbed lacking (τ := τ) r (dropFinalizer r) :=
  Meets.of_ok fun _ hw => ⟨_, _, dropFinalizer_eq hw.2, trivial⟩

variable [SecretStore τ]

theorem establishArtifact_undisturbed (sys : String) {a : ArtifactKind} (r : Record a.kind)
    (hl : ∀ t : Record .team, lacking t.key) :
    Undisturbed lacking r (establishArtifact (σ := Store) (τ := τ) sys a r) := by
  have hask := failsIn_at (τ := τ) (askDirectorOf_failsIn sys a r hl)
    (askDirectorOf_keepsRecords sys a r) r
  have hfrozen : a.kind.freezes = true → (r.frozenBy sys).frozen?.isSome = true :=
    fun hk => Record.isSome_frozen?_frozenBy hk sys r
  have hready : a.kind.freezes = true → (r.readied sys).frozen?.isSome = true := by
    rwa [Record.frozen?_readied]
  exact hask.bind fun _ => freeze_undisturbed <| attachFinalizer_undisturbed hfrozen <|
    (failsIn_at (establish_failsIn hready) (Artifact.establish_keepsRecords a _) _).bind
      fun _ => publish_undisturbed _

theorem removeArtifact_undisturbed (sys : String) {a : ArtifactKind} (r : Record a.kind)
    (hl : ∀ t : Record .team, lacking t.key) :
    Undisturbed lacking r (removeArtifact (σ := Store) (τ := τ) sys a r) := by
  have hask := failsIn_at (τ := τ) (askDirectorOf_failsIn sys a r hl)
    (askDirectorOf_keepsRecords sys a r) r
  unfold removeArtifact
  split
  · exact hask.bind fun _ =>
      (failsIn_at (remove_failsIn a r) (Artifact.remove_keepsRecords a r) r).bind
        fun _ => dropFinalizer_undisturbed r
  · exact fun _ _ => trivial

/-- A live team is frozen before its Director is looked up. -/
theorem establishTeam_undisturbed (sys : String) (r : Record .team) :
    Undisturbed lacking r (establishTeam (σ := Store) (τ := τ) sys r) := by
  have hfrozen : (r.frozenBy sys).frozen?.isSome = true := Record.isSome_frozen?_frozenBy rfl sys r
  have hask : FailsIn (At (r.frozenBy sys)) (Outward lacking)
      (askIdentityOf (τ := τ) sys (r.frozenBy sys)) :=
    failsIn_at (askIdentityOf_failsIn sys fun hn => by simp [hn] at hfrozen)
      (askIdentityOf_keepsRecords sys _) _
  exact freeze_undisturbed <| hask.bind fun _ => attachFinalizer_undisturbed (fun _ => hfrozen) <|
    (failsIn_at (World.onSecretSupply_failsIn _) (.onSecretSupply _) _).bind fun _ =>
      (failsIn_at (World.onIdentity_failsIn _) (.onIdentity _) _).bind fun _ =>
        publish_undisturbed _

theorem removeTeam_undisturbed (sys : String) (r : Record .team) (hl : lacking r.key) :
    Undisturbed lacking r (removeTeam (σ := Store) (τ := τ) sys r) := by
  have hask := failsIn_at (τ := τ) (askIdentityOf_failsIn sys fun _ => hl)
    (askIdentityOf_keepsRecords sys r) r
  unfold removeTeam
  split
  · exact hask.bind fun _ =>
      (failsIn_at (World.onIdentity_failsIn _) (.onIdentity _) r).bind fun _ =>
        (failsIn_at (World.onSecrets_failsIn _) (.onSecrets _) r).bind fun _ =>
          dropFinalizer_undisturbed r
  · exact fun _ _ => trivial

omit [SecretStore τ] in
/-- Both halves of a Director's life always succeed. -/
theorem director_undisturbed (r : Record .director) :
    Undisturbed lacking (τ := τ) r (director r) := by
  refine Meets.of_ok fun w hw => ?_
  rw [director]
  split
  · rw [removeDirector_eq hw.2]
    split
    · split <;> exact ⟨_, _, rfl, trivial⟩
    · exact ⟨_, _, rfl, trivial⟩
  · exact ⟨_, _, establishDirector_eq hw.2, trivial⟩

end Reconcile

open Reconcile (Misplaced)

variable {τ : Type} [SecretStore τ] {w : World Store τ}

/-- The failures of a reconcile. A record without a frozen spec is a team, and the record's own only
when it is marked for deletion. -/
theorem reconcile_outward (hw : w.records.WellFormed) {k : Kind} {r : Record k}
    (hr : w.records.Holds r) {sys : String} {e : ReconcileError}
    (he : (reconcile sys r.key w).1 = .error e) :
    e.Outward fun key => key.kind = .team ∧ (key = r.key → r.beingDeleted = true) := by
  by_cases hm : Misplaced sys r
  · rw [reconcile_of_misplaced hr hm] at he
    cases he
    trivial
  induction k, r using Reconcile.kindCases with
  | director r =>
    rw [reconcile_of_director hr hm] at he
    exact (Reconcile.director_undisturbed r).error ⟨hw, hr⟩ he
  | team r =>
    rw [reconcile_of_team hr, Reconcile.team] at he
    split at he
    · next hd =>
      exact (Reconcile.removeTeam_undisturbed sys r ⟨rfl, fun _ => hd⟩).error ⟨hw, hr⟩ he
    · exact (Reconcile.establishTeam_undisturbed sys r).error ⟨hw, hr⟩ he
  | role r =>
    rw [reconcile_of_role hr] at he
    cases he
  | artifact a r =>
    have hteam : ∀ t : Record .team,
        t.key.kind = .team ∧ (t.key = r.key → r.beingDeleted = true) := by
      refine fun t => ⟨rfl, fun hkey => ?_⟩
      have hkind : Kind.team = a.kind := congrArg Key.kind hkey
      cases a <;> cases hkind
    have hat : Reconcile.At r.consumed (w.keep r.consumed) :=
      Reconcile.At.keep ⟨hw, hr⟩ r.advances_consumed
    rw [reconcile_of_artifact hw hr hm, Reconcile.artifact] at he
    split at he
    · exact (Reconcile.removeArtifact_undisturbed sys _ hteam).error hat he
    · exact (Reconcile.establishArtifact_undisturbed sys _ hteam).error hat he

/-- A reconcile never trips over its own writes. Its failure is not one of the store, nor a look-up
that found something other than a missing record, and a live record is not told to lack a frozen
spec. -/
theorem reconcile_never_trips (hw : w.records.WellFormed) {sys : String} {key : Key}
    {e : ReconcileError} (he : (reconcile sys key w).1 = .error e) :
    (∀ cause, e ≠ .store cause) ∧ (∀ cause, e ≠ .resolution (.store cause)) ∧
      ∀ r, w.records.get? key = some r → r.metadata.beingDeleted = false → e ≠ .unfrozen key := by
  cases hg : w.records.get? key with
  | none =>
    rw [reconcile_of_none hg] at he
    cases he
  | some q =>
    obtain ⟨k, r⟩ := q
    obtain rfl : r.key = key := hw.key_eq hg
    have hout := reconcile_outward hw hg he
    refine ⟨?_, ?_, ?_⟩
    · rintro cause rfl
      exact hout
    · rintro cause rfl
      exact hout
    · rintro q hq hl rfl
      cases hq
      have hd := hout.2 rfl
      rw [show r.beingDeleted = false from hl] at hd
      cases hd

namespace Small

/-- A network whose subnet names a zone that is not there. -/
def zonelessNetwork : Record .network :=
  Record.new "team-a" "n"
    ({ subnets := [{ range := "10.0.0.0/24", gateway := "10.0.0.1", azs := ["z2"] }] } :
      NetworkSpec)

/-- The network was stored just now. -/
def stranded : World Store Secrets :=
  { world with records := (Store.create zonelessNetwork world.records).2 }

end Small

/-- The network is frozen and guarded, and then only its zone is missing. -/
theorem reconcile_never_trips_small :
    let e := ReconcileError.resolution (.missing ⟨.az, "team-a", "z2"⟩)
    (reconcile "sys" Small.zonelessNetwork.key Small.stranded).1 = .error e ∧
      (∀ cause, e ≠ .store cause) ∧ (∀ cause, e ≠ .resolution (.store cause)) ∧
      e ≠ .unfrozen Small.zonelessNetwork.key := by
  intro e
  have he : (reconcile "sys" Small.zonelessNetwork.key Small.stranded).1 = .error e := by rfl
  obtain ⟨hstore, hresolution, hunfrozen⟩ :=
    reconcile_never_trips (Small.wellFormed_world.create Small.zonelessNetwork) he
  exact ⟨he, hstore, hresolution, hunfrozen _ rfl rfl⟩

end Reconciliation
