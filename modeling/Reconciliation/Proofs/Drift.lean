import Reconciliation.Freezing

namespace Reconciliation

theorem CloudProperties.matching_refl (p : Option CloudProperties) : matching p p = true := by
  simp [matching]

theorem sameMembers_refl (l : List String) : sameMembers l l = true :=
  sameMembers_iff.2 fun _ => Iff.rfl

theorem AzSpec.matching_refl (s : AzSpec) : s.matching s = true :=
  CloudProperties.matching_refl _

theorem VmExtensionSpec.matching_refl (s : VmExtensionSpec) : s.matching s = true :=
  CloudProperties.matching_refl _

theorem Subnet.matching_refl (s : Subnet) : s.matching s = true := by
  simp [matching, sameMembers_refl, CloudProperties.matching_refl]

theorem NetworkSpec.matchingSubnets_refl (l : List Subnet) : matchingSubnets l l = true := by
  induction l with
  | nil => rfl
  | cons s l ih => simp [matchingSubnets, Subnet.matching_refl, ih]

theorem NetworkSpec.matching_refl (s : NetworkSpec) : s.matching s = true := by
  simp [matching, matchingSubnets_refl]

theorem CompilationSpec.matching_refl (s : CompilationSpec) : s.matching s = true := by
  simp [matching, sameMembers_refl, CloudProperties.matching_refl]

theorem BaseImageSpec.matching_refl (s : BaseImageSpec) : s.matching s = true := by
  simp [matching]

theorem ReleaseSpec.matching_refl (s : ReleaseSpec) : s.matching s = true := by
  simp [matching]

theorem TeamSpec.matching_refl (s : TeamSpec) : s.matching s = true := by
  simp [matching]

namespace FrozenStatus

variable {σ : Type} {matching : σ → σ → Bool}

theorem frozen_prepared (spec : σ) (s : FrozenStatus σ) :
    (s.prepared matching spec).frozen = some (s.frozen.getD spec) := by
  cases h : s.frozen <;> simp [prepared, h]

theorem needsPreparing_prepared (refl : ∀ a, matching a a = true) (spec : σ)
    (s : FrozenStatus σ) : (s.prepared matching spec).needsPreparing matching spec = false := by
  cases h : s.frozen with
  | none => simp [prepared, needsPreparing, h, refl]
  | some frozen => simp [prepared, needsPreparing, h]

theorem available_prepared (spec : σ) (s : FrozenStatus σ) :
    (s.prepared matching spec).available = s.available := by
  cases h : s.frozen <;> simp [prepared, h]

theorem isSome_frozen {spec : σ} {s : FrozenStatus σ}
    (h : s.needsPreparing matching spec = false) : s.frozen.isSome = true := by
  cases hf : s.frozen with
  | none => simp [needsPreparing, hf] at h
  | some frozen => rfl

end FrozenStatus

namespace TeamStatus

theorem needsPreparing_prepared (sys : String) (spec : TeamSpec) (s : TeamStatus) :
    (s.prepared sys spec).needsPreparing sys spec = false := by
  have hspec := FrozenStatus.needsPreparing_prepared TeamSpec.matching_refl spec s.toFrozenStatus
  simp only [prepared, needsPreparing, hspec, Bool.false_or]
  by_cases h : s.secretNamespace.isEmpty = true
  · simp [h]
  · simp [h]

theorem secretNamespace_prepared {sys : String} {spec : TeamSpec} {s : TeamStatus}
    (h : s.secretNamespace ≠ "") : (s.prepared sys spec).secretNamespace = s.secretNamespace := by
  simp [prepared, h]

end TeamStatus

/-- Whether the records of a kind freeze their spec. -/
def Kind.freezes : Kind → Bool
  | .team | .az | .network | .baseImage | .release | .vmExtension | .compilation => true
  | .director | .role | .deployment => false

namespace Status

variable {k : Kind}

theorem frozen?_of_not_freezes (hk : k.freezes = false) (s : Status k) : frozen? k s = none := by
  cases k with
  | director | role | deployment => rfl
  | team | az | network | baseImage | release | vmExtension | compilation => cases hk

theorem freezes_of_frozen? {s : Status k} {spec : Spec k} (h : frozen? k s = some spec) :
    k.freezes = true := by
  cases hk : k.freezes with
  | true => rfl
  | false =>
    rw [frozen?_of_not_freezes hk] at h
    cases h

theorem frozen?_prepared (hk : k.freezes = true) (sys : String) (spec : Spec k) (s : Status k) :
    frozen? k (prepared sys k spec s) = some ((frozen? k s).getD spec) := by
  cases k with
  | director | role | deployment => cases hk
  | team | az | network | baseImage | release | vmExtension | compilation =>
    exact FrozenStatus.frozen_prepared _ _

theorem frozen?_published (s : Status k) : frozen? k (published k s) = frozen? k s := by
  cases k <;> rfl

theorem available_published (s : Status k) : available k (published k s) = true := by
  cases k <;> rfl

theorem available_prepared (sys : String) (spec : Spec k) (s : Status k) :
    available k (prepared sys k spec s) = available k s := by
  cases k with
  | director | role | deployment => rfl
  | team | az | network | baseImage | release | vmExtension | compilation =>
    exact FrozenStatus.available_prepared _ _

theorem needsPreparing_prepared (sys : String) (spec : Spec k) (s : Status k) :
    needsPreparing sys k spec (prepared sys k spec s) = false := by
  cases k with
  | director | role | deployment => rfl
  | team => exact TeamStatus.needsPreparing_prepared _ _ _
  | az => exact FrozenStatus.needsPreparing_prepared AzSpec.matching_refl _ _
  | network => exact FrozenStatus.needsPreparing_prepared NetworkSpec.matching_refl _ _
  | baseImage => exact FrozenStatus.needsPreparing_prepared BaseImageSpec.matching_refl _ _
  | release => exact FrozenStatus.needsPreparing_prepared ReleaseSpec.matching_refl _ _
  | vmExtension => exact FrozenStatus.needsPreparing_prepared VmExtensionSpec.matching_refl _ _
  | compilation => exact FrozenStatus.needsPreparing_prepared CompilationSpec.matching_refl _ _

theorem needsPreparing_published (sys : String) (spec : Spec k) (s : Status k) :
    needsPreparing sys k spec (published k s) = needsPreparing sys k spec s := by
  cases k <;> rfl

/-- What needs no preparing is frozen already. -/
theorem isSome_frozen? (hk : k.freezes = true) {sys : String} {spec : Spec k} {s : Status k}
    (h : needsPreparing sys k spec s = false) : (frozen? k s).isSome = true := by
  cases k with
  | director | role | deployment => cases hk
  | team => exact FrozenStatus.isSome_frozen (Bool.or_eq_false_iff.1 h).1
  | az | network | baseImage | release | vmExtension | compilation =>
    exact FrozenStatus.isSome_frozen h

theorem frozen?_initial : frozen? k (initial k) = none := by
  cases k <;> rfl

/-- Where a team keeps its secret; empty for the other kinds. -/
def secretNamespace : (k : Kind) → Status k → String
  | .team, (s : TeamStatus) => s.secretNamespace
  | _, _ => ""

theorem secretNamespace_prepared {sys : String} {spec : Spec k} {s : Status k}
    (h : secretNamespace k s ≠ "") :
    secretNamespace k (prepared sys k spec s) = secretNamespace k s := by
  cases k with
  | team => exact TeamStatus.secretNamespace_prepared h
  | _ => rfl

theorem secretNamespace_published (s : Status k) :
    secretNamespace k (published k s) = secretNamespace k s := by
  cases k <;> rfl

end Status

end Reconciliation
