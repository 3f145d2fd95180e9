import Reconciliation.Proofs.FreezeOnce

namespace Reconciliation

/-- Whether a spec counts as the frozen one; only the kinds that freeze theirs ask. -/
def Spec.matching : (k : Kind) → Spec k → Spec k → Bool
  | .director, _, _ | .role, _, _ | .deployment, _, _ => true
  | .team, (frozen : TeamSpec), spec => frozen.matching spec
  | .az, (frozen : AzSpec), spec => frozen.matching spec
  | .network, (frozen : NetworkSpec), spec => frozen.matching spec
  | .baseImage, (frozen : BaseImageSpec), spec => frozen.matching spec
  | .release, (frozen : ReleaseSpec), spec => frozen.matching spec
  | .vmExtension, (frozen : VmExtensionSpec), spec => frozen.matching spec
  | .compilation, (frozen : CompilationSpec), spec => frozen.matching spec

/-- The warning about a spec where another one is frozen. -/
def Spec.drift (k : Kind) (frozen spec : Spec k) : String :=
  if matching k frozen spec then "" else mutationWarning

namespace FrozenStatus

variable {σ : Type} {matching : σ → σ → Bool}

theorem warning_prepared (refl : ∀ a, matching a a = true) (spec : σ) (s : FrozenStatus σ) :
    (s.prepared matching spec).warning =
      if matching (s.frozen.getD spec) spec then "" else mutationWarning := by
  cases h : s.frozen with
  | none => simp [prepared, h, refl]
  | some frozen => simp [prepared, h]

theorem needsPreparing_iff (spec : σ) (s : FrozenStatus σ) :
    s.needsPreparing matching spec = true ↔ s.prepared matching spec ≠ s := by
  obtain ⟨warning, frozen, available⟩ := s
  cases frozen with
  | none => simp [needsPreparing, prepared]
  | some frozen =>
    simp only [needsPreparing, prepared, bne_iff_ne, ne_eq, mk.injEq, and_true]
    exact not_congr eq_comm

end FrozenStatus

theorem TeamStatus.needsPreparing_iff (sys : String) (spec : TeamSpec) (s : TeamStatus) :
    s.needsPreparing sys spec = true ↔ s.prepared sys spec ≠ s := by
  have hspec : s.toFrozenStatus.needsPreparing TeamSpec.matching spec = true ↔
      s.toFrozenStatus.prepared TeamSpec.matching spec ≠ s.toFrozenStatus :=
    FrozenStatus.needsPreparing_iff spec s.toFrozenStatus
  obtain ⟨frozen, ns⟩ := s
  by_cases hns : ns = ""
  · by_cases hsys : sys = ""
    · simpa [needsPreparing, prepared, hns, hsys] using hspec
    · simp [needsPreparing, prepared, hns, hsys]
  · simpa [needsPreparing, prepared, hns] using hspec

namespace Status

variable {k : Kind}

/-- The warning in the status; kinds that freeze nothing have none. -/
def warning : (k : Kind) → Status k → String
  | .director, _ | .role, _ | .deployment, _ => ""
  | .team, (s : TeamStatus) => s.warning
  | .az, (s : FrozenStatus AzSpec) => s.warning
  | .network, (s : FrozenStatus NetworkSpec) => s.warning
  | .baseImage, (s : FrozenStatus BaseImageSpec) => s.warning
  | .release, (s : FrozenStatus ReleaseSpec) => s.warning
  | .vmExtension, (s : FrozenStatus VmExtensionSpec) => s.warning
  | .compilation, (s : FrozenStatus CompilationSpec) => s.warning

theorem warning_published (s : Status k) : warning k (published k s) = warning k s := by
  cases k <;> rfl

/-- A prepared status warns of the drift from the frozen spec. -/
theorem warning_prepared (hk : k.freezes = true) (sys : String) (spec : Spec k) (s : Status k) :
    warning k (prepared sys k spec s) = Spec.drift k ((frozen? k s).getD spec) spec := by
  cases k with
  | director | role | deployment => cases hk
  | team => exact FrozenStatus.warning_prepared TeamSpec.matching_refl _ _
  | az => exact FrozenStatus.warning_prepared AzSpec.matching_refl _ _
  | network => exact FrozenStatus.warning_prepared NetworkSpec.matching_refl _ _
  | baseImage => exact FrozenStatus.warning_prepared BaseImageSpec.matching_refl _ _
  | release => exact FrozenStatus.warning_prepared ReleaseSpec.matching_refl _ _
  | vmExtension => exact FrozenStatus.warning_prepared VmExtensionSpec.matching_refl _ _
  | compilation => exact FrozenStatus.warning_prepared CompilationSpec.matching_refl _ _

/-- A status needs preparing exactly when that changes it. -/
theorem needsPreparing_iff (sys : String) (spec : Spec k) (s : Status k) :
    needsPreparing sys k spec s = true ↔ prepared sys k spec s ≠ s := by
  cases k with
  | director | role | deployment => simp [needsPreparing, prepared]
  | team => exact TeamStatus.needsPreparing_iff sys spec s
  | az | network | baseImage | release | vmExtension | compilation =>
    exact FrozenStatus.needsPreparing_iff _ _

theorem prepared_eq_self {sys : String} {spec : Spec k} {s : Status k}
    (h : needsPreparing sys k spec s = false) : prepared sys k spec s = s := by
  refine Classical.byContradiction fun hne => ?_
  rw [(needsPreparing_iff sys spec s).2 hne] at h
  cases h

end Status

namespace Record

variable {k : Kind}

def warning (r : Record k) : String := Status.warning k r.status

/-- Whether or not the status had to be written, it is prepared now. -/
theorem status_frozenBy (sys : String) (r : Record k) :
    (r.frozenBy sys).status = Status.prepared sys k r.spec r.status := by
  unfold frozenBy
  split
  · rfl
  · next h => exact (Status.prepared_eq_self (Bool.eq_false_iff.2 h)).symm

/-- What a successful reconcile leaves of a live record: the record as it was but for its status,
in which a spec is frozen and the warning is right. -/
structure UpToDate (r r' : Record k) : Prop where
  spec : r'.spec = r.spec
  frozen : r'.frozen? = some (r.frozen?.getD r.spec)
  warning : r'.warning = Spec.drift k (r.frozen?.getD r.spec) r.spec

theorem upToDate_settled (hk : k.freezes = true) (sys : String) (r : Record k) :
    r.UpToDate (r.readied sys).settled where
  spec := by rw [spec_settled, spec_readied]
  frozen := by
    rw [(r.readied sys).alike_settled.frozen?, frozen?_readied, frozen?, status_frozenBy,
      Status.frozen?_prepared hk]
    rfl
  warning := by
    have hready : (r.readied sys).warning = (r.frozenBy sys).warning := by
      rw [readied, warning, status_guarded, warning]
    have hsettled : (r.readied sys).settled.warning = (r.readied sys).warning := by
      unfold settled
      split
      · rfl
      · exact Status.warning_published _
    rw [hsettled, hready, warning, status_frozenBy, Status.warning_prepared hk]
    rfl

end Record

variable {w : World Store Secrets} {sys : String} {k : Kind}

namespace Reconcile

theorem establishArtifact_records {a : ArtifactKind} {r : Record a.kind} (hr : w.records.Holds r)
    (h : (establishArtifact sys a r w).1 = .ok ()) :
    (establishArtifact sys a r w).2.records = w.records.keep (r.readied sys).settled := by
  have hout : World.outcome (establishArtifact sys a r) w =
      (.ok (), (establishArtifact sys a r w).2.unlogged) := Prod.ext h rfl
  generalize hu : (establishArtifact sys a r w).2.unlogged = u at hout
  have hrecords : (establishArtifact sys a r w).2.records = u.records := by rw [← hu]; rfl
  rw [hrecords]
  cases artifactEstablished hr hout with
  | done hask ho hd => rfl

theorem establishTeam_records {r : Record .team} (hr : w.records.Holds r)
    (h : (establishTeam sys r w).1 = .ok ()) :
    (establishTeam sys r w).2.records = w.records.keep (r.readied sys).settled := by
  have hout : World.outcome (establishTeam sys r) w =
      (.ok (), (establishTeam sys r w).2.unlogged) := Prod.ext h rfl
  generalize hu : (establishTeam sys r w).2.unlogged = u at hout
  have hrecords : (establishTeam sys r w).2.records = u.records := by rw [← hu]; rfl
  rw [hrecords]
  cases teamEstablished hr hout with
  | done hask hs hi => rfl

end Reconcile

open Reconcile (Misplaced)

/-- A successful reconcile of a live record of a kind that freezes its spec writes that record and
no other. -/
theorem reconcile_records {r : Record k} (hw : w.records.WellFormed) (hr : w.records.Holds r)
    (hk : k.freezes = true) (hl : r.beingDeleted = false)
    (h : (reconcile sys r.key w).1 = .ok ()) :
    (reconcile sys r.key w).2.records = w.records.keep (r.readied sys).settled := by
  by_cases hm : Misplaced sys r
  · rw [reconcile_of_misplaced hr hm] at h
    cases h
  · induction k, r using Reconcile.kindCases with
    | director r | role r => cases hk
    | team r =>
      rw [Reconcile.reconcile_of_live_team hr hl] at h ⊢
      exact Reconcile.establishTeam_records hr h
    | artifact a r =>
      have hc : r.consumed = r := by
        cases a with
        | deployment => cases hk
        | az | network | baseImage | release | vmExtension | compilation => rfl
      rw [Reconcile.reconcile_of_live hw hr hm hc hl] at h ⊢
      exact Reconcile.establishArtifact_records hr h

theorem reconcile_upToDate {key : Key} {r : Record k} (hw : w.records.WellFormed)
    (hr : w.records.get? key = some ⟨k, r⟩) (hk : k.freezes = true) (hl : r.beingDeleted = false)
    (h : (reconcile sys key w).1 = .ok ()) :
    ∃ r' : Record k, (reconcile sys key w).2.records.get? key = some ⟨k, r'⟩ ∧ r.UpToDate r' := by
  obtain rfl : r.key = key := hw.key_eq hr
  refine ⟨(r.readied sys).settled, ?_, Record.upToDate_settled hk sys r⟩
  rw [reconcile_records hw hr hk hl h, Store.get?_keep]
  simp

/-- In any run, from any well-formed store: when a live record of a kind that freezes its spec is
reconciled with success, it stays stored with its spec, the warning that stands in its status is the
one about the drift of that spec from the frozen one, and the frozen one is what was frozen before
or else the stored one. Hence a record with the spec `S` frozen, whatever its owner did to it
meanwhile, ends without a warning once its spec matches `S` again. A status is prepared exactly when
that changes it. -/
theorem warning_is_drift (sys : String) (es : List Event) (hw : w.records.WellFormed)
    (hk : k.freezes = true) (key : Key) :
    let ms := moves sys es w
    (∀ j, ms[j]? = some (.reconcile key) →
      ∀ r : Record k, (stateAt sys ms w j).records.get? key = some ⟨k, r⟩ →
        r.beingDeleted = false → (reconcile sys key (stateAt sys ms w j)).1 = .ok () →
        (∃ r' : Record k, (stateAt sys ms w (j + 1)).records.get? key = some ⟨k, r'⟩ ∧
          r'.spec = r.spec ∧ r'.frozen? = some (r.frozen?.getD r.spec) ∧
          r'.warning = if Spec.matching k (r.frozen?.getD r.spec) r'.spec then ""
            else mutationWarning) ∧
        ∀ i ≤ j, ∀ S : Spec k, FrozenAs (stateAt sys ms w i) key S →
          (∀ l, i ≤ l → l ≤ j → (stateAt sys ms w l).records.get? key ≠ none) →
          Spec.matching k S r.spec = true →
          ∃ r' : Record k, (stateAt sys ms w (j + 1)).records.get? key = some ⟨k, r'⟩ ∧
            r'.frozen? = some S ∧ r'.warning = "") ∧
    ∀ (ns : String) (spec : Spec k) (s : Status k),
      Status.needsPreparing ns k spec s = true ↔ Status.prepared ns k spec s ≠ s := by
  intro ms
  refine ⟨fun j hj r hr hl hok => ?_, Status.needsPreparing_iff⟩
  obtain ⟨hlt, hmove⟩ := List.getElem?_eq_some_iff.1 hj
  have hnext : stateAt sys ms w (j + 1) = (reconcile sys key (stateAt sys ms w j)).2 := by
    rw [stateAt_succ hlt, hmove]
    rfl
  have hwj : (stateAt sys ms w j).records.WellFormed := after_wellFormed sys _ hw
  obtain ⟨r', hr', h⟩ := reconcile_upToDate hwj hr hk hl hok
  rw [hnext]
  refine ⟨⟨r', hr', h.spec, h.frozen, ?_⟩, fun i hij S ⟨q, hq, hS⟩ hstored hmatch => ?_⟩
  · rw [h.warning, h.spec]
    rfl
  · obtain ⟨r'', hr'', hkept, -⟩ := stays_while_stored hw hij (Nat.le_of_lt hlt) hstored hq
    rw [hr] at hr''
    cases hr''
    have hfrozen : r.frozen?.getD r.spec = S := by rw [hkept S hS, Option.getD_some]
    refine ⟨r', hr', by rw [h.frozen, hfrozen], ?_⟩
    rw [h.warning, hfrozen, Spec.drift, hmatch]
    rfl

namespace Small

def restoredAz : Record .az :=
  { editedAz with
    metadata := { editedAz.metadata with version := 6 }
    spec := az.spec }

/-- The AZ is edited after it was frozen, and later gets its old spec again. -/
def edits : List Event :=
  [.move (.reconcile az.key), .move (.update editedAz), .move (.reconcile az.key),
    .move (.update restoredAz), .move (.reconcile az.key)]

def editing : Nat → World Store Secrets := stateAt "sys" (moves "sys" edits world) world

end Small

theorem warning_is_drift_small :
    (∃ r : Record .az, (Small.editing 3).records.get? Small.az.key = some ⟨.az, r⟩ ∧
      r.warning = mutationWarning) ∧
    ∃ r : Record .az, (Small.editing 5).records.get? Small.az.key = some ⟨.az, r⟩ ∧
      r.warning = "" := by
  have h := (warning_is_drift "sys" Small.edits (k := .az) Small.wellFormed_world rfl
    Small.az.key).1
  have hstored : ∀ l, 1 ≤ l → l ≤ 4 → (Small.editing l).records.get? Small.az.key ≠ none := by
    intro l h1 h4
    rw [← Option.isSome_iff_ne_none]
    obtain rfl | rfl | rfl | rfl : l = 1 ∨ l = 2 ∨ l = 3 ∨ l = 4 := by omega
    all_goals rfl
  constructor
  · obtain ⟨r, hr, hl, hdrift⟩ : ∃ r : Record .az,
        (Small.editing 2).records.get? Small.az.key = some ⟨.az, r⟩ ∧ r.beingDeleted = false ∧
          Spec.matching .az (r.frozen?.getD r.spec) r.spec = false := ⟨_, rfl, rfl, rfl⟩
    obtain ⟨⟨r', hr', hspec, -, hwarning⟩, -⟩ := h 2 rfl r hr hl rfl
    refine ⟨r', hr', ?_⟩
    rw [hwarning, hspec, hdrift]
    rfl
  · obtain ⟨r, hr, hl, hmatch⟩ : ∃ r : Record .az,
        (Small.editing 4).records.get? Small.az.key = some ⟨.az, r⟩ ∧ r.beingDeleted = false ∧
          Spec.matching .az Small.az.spec r.spec = true := ⟨_, rfl, rfl, rfl⟩
    have hfrozen : FrozenAs (Small.editing 1) Small.az.key (k := .az) Small.az.spec :=
      ⟨_, rfl, rfl⟩
    obtain ⟨r', hr', -, hwarning⟩ :=
      (h 4 rfl r hr hl rfl).2 1 (by decide) Small.az.spec hfrozen hstored hmatch
    exact ⟨r', hr', hwarning⟩

end Reconciliation
