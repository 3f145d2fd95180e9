import Reconciliation.Record

/-! One view on the statuses of all kinds: which spec was frozen, whether the remote object was
last seen in place, and what the status becomes when a live record is prepared for a reconcile.
Deployments freeze nothing, since their manifest is composed afresh each time; Directors and roles
have no remote object at all. -/
namespace Reconciliation

namespace Status

/-- The frozen spec, for the kinds that freeze theirs. -/
def frozen? : (k : Kind) → Status k → Option (Spec k)
  | .director, _ | .role, _ | .deployment, _ => none
  | .team, (s : TeamStatus) => s.frozen
  | .az, (s : FrozenStatus AzSpec) => s.frozen
  | .network, (s : FrozenStatus NetworkSpec) => s.frozen
  | .baseImage, (s : FrozenStatus BaseImageSpec) => s.frozen
  | .release, (s : FrozenStatus ReleaseSpec) => s.frozen
  | .vmExtension, (s : FrozenStatus VmExtensionSpec) => s.frozen
  | .compilation, (s : FrozenStatus CompilationSpec) => s.frozen

/-- Kinds without a remote object are always available. -/
def available : (k : Kind) → Status k → Bool
  | .director, _ | .role, _ => true
  | .team, (s : TeamStatus) => s.available
  | .az, (s : FrozenStatus AzSpec) => s.available
  | .network, (s : FrozenStatus NetworkSpec) => s.available
  | .baseImage, (s : FrozenStatus BaseImageSpec) => s.available
  | .release, (s : FrozenStatus ReleaseSpec) => s.available
  | .vmExtension, (s : FrozenStatus VmExtensionSpec) => s.available
  | .compilation, (s : FrozenStatus CompilationSpec) => s.available
  | .deployment, (s : DeploymentStatus) => s.available

def published : (k : Kind) → Status k → Status k
  | .director, s | .role, s => s
  | .team, (s : TeamStatus) => ({ s with available := true } : TeamStatus)
  | .az, (s : FrozenStatus AzSpec) => ({ s with available := true } : FrozenStatus AzSpec)
  | .network, (s : FrozenStatus NetworkSpec) =>
    ({ s with available := true } : FrozenStatus NetworkSpec)
  | .baseImage, (s : FrozenStatus BaseImageSpec) =>
    ({ s with available := true } : FrozenStatus BaseImageSpec)
  | .release, (s : FrozenStatus ReleaseSpec) =>
    ({ s with available := true } : FrozenStatus ReleaseSpec)
  | .vmExtension, (s : FrozenStatus VmExtensionSpec) =>
    ({ s with available := true } : FrozenStatus VmExtensionSpec)
  | .compilation, (s : FrozenStatus CompilationSpec) =>
    ({ s with available := true } : FrozenStatus CompilationSpec)
  | .deployment, (s : DeploymentStatus) => ({ s with available := true } : DeploymentStatus)

/-- The status with the spec frozen and the warning brought up to date. A team also records the
namespace for its secret. -/
def prepared (secretNamespace : String) : (k : Kind) → Spec k → Status k → Status k
  | .director, _, s | .role, _, s | .deployment, _, s => s
  | .team, spec, (s : TeamStatus) => s.prepared secretNamespace spec
  | .az, spec, (s : FrozenStatus AzSpec) => s.prepared AzSpec.matching spec
  | .network, spec, (s : FrozenStatus NetworkSpec) => s.prepared NetworkSpec.matching spec
  | .baseImage, spec, (s : FrozenStatus BaseImageSpec) => s.prepared BaseImageSpec.matching spec
  | .release, spec, (s : FrozenStatus ReleaseSpec) => s.prepared ReleaseSpec.matching spec
  | .vmExtension, spec, (s : FrozenStatus VmExtensionSpec) =>
    s.prepared VmExtensionSpec.matching spec
  | .compilation, spec, (s : FrozenStatus CompilationSpec) =>
    s.prepared CompilationSpec.matching spec

/-- Whether `prepared` has anything to change. -/
def needsPreparing (secretNamespace : String) : (k : Kind) → Spec k → Status k → Bool
  | .director, _, _ | .role, _, _ | .deployment, _, _ => false
  | .team, spec, (s : TeamStatus) => s.needsPreparing secretNamespace spec
  | .az, spec, (s : FrozenStatus AzSpec) => s.needsPreparing AzSpec.matching spec
  | .network, spec, (s : FrozenStatus NetworkSpec) => s.needsPreparing NetworkSpec.matching spec
  | .baseImage, spec, (s : FrozenStatus BaseImageSpec) =>
    s.needsPreparing BaseImageSpec.matching spec
  | .release, spec, (s : FrozenStatus ReleaseSpec) => s.needsPreparing ReleaseSpec.matching spec
  | .vmExtension, spec, (s : FrozenStatus VmExtensionSpec) =>
    s.needsPreparing VmExtensionSpec.matching spec
  | .compilation, spec, (s : FrozenStatus CompilationSpec) =>
    s.needsPreparing CompilationSpec.matching spec

end Status

namespace Record

variable {k : Kind}

def frozen? (r : Record k) : Option (Spec k) := Status.frozen? k r.status

def available (r : Record k) : Bool := Status.available k r.status

def published (r : Record k) : Record k := { r with status := Status.published k r.status }

def prepared (secretNamespace : String) (r : Record k) : Record k :=
  { r with status := Status.prepared secretNamespace k r.spec r.status }

def needsPreparing (secretNamespace : String) (r : Record k) : Bool :=
  Status.needsPreparing secretNamespace k r.spec r.status

/-- Where the client secret of a team is. -/
def secretNamespace (r : Record .team) : String := (r.status : TeamStatus).secretNamespace

/-- Whether the owner asked for one more reconcile. -/
def forced (r : Record .deployment) : Bool := (r.spec : DeploymentSpec).forceReconciliation

def unforced (r : Record .deployment) : Record .deployment :=
  let spec : DeploymentSpec := r.spec
  { r with spec := ({ spec with forceReconciliation := false } : DeploymentSpec) }

end Record

end Reconciliation
