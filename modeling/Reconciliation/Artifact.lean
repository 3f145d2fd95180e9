import Reconciliation.Credentials
import Reconciliation.Fragment

namespace Reconciliation

/-- The kinds of records that have an object on a Director. -/
inductive ArtifactKind where
  | az
  | network
  | baseImage
  | release
  | vmExtension
  | compilation
  | deployment
deriving DecidableEq, Repr

@[reducible]
def ArtifactKind.kind : ArtifactKind → Kind
  | az => .az
  | network => .network
  | baseImage => .baseImage
  | release => .release
  | vmExtension => .vmExtension
  | compilation => .compilation
  | deployment => .deployment

namespace Artifact

/-- Compilation workers belong to the Director they were frozen with, or will be. -/
def scope : (a : ArtifactKind) → Record a.kind → DirectorScope
  | .compilation, r => .admin ((r.frozen?.getD r.spec : CompilationSpec).director)
  | .az, r | .network, r | .baseImage, r | .release, r | .vmExtension, r | .deployment, r =>
    .team r.metadata.ns

def azFragment (r : Record .az) : Except ReconcileError CloudConfig := do
  let spec : AzSpec ← Credentials.frozenOf r
  return spec.fragment r.internalName

def vmExtensionFragment (r : Record .vmExtension) : Except ReconcileError CloudConfig := do
  let spec : VmExtensionSpec ← Credentials.frozenOf r
  return spec.fragment r.internalName

def compilationFragment (r : Record .compilation) : Except ReconcileError CloudConfig := do
  let spec : CompilationSpec ← Credentials.frozenOf r
  return spec.fragment r.internalName

variable {σ : Type} [RecordStore σ]

def subnetEntry (ns : String) (s : Subnet) : Step σ ResolutionError SubnetEntry := do
  return s.entry (← Composition.internalNamesOf .az ns s.azs)

def networkFragment (r : Record .network) : Step σ ReconcileError CloudConfig := do
  let spec : NetworkSpec ← Step.ofExcept (Credentials.frozenOf r)
  let subnets ← (spec.subnets.mapM (subnetEntry r.metadata.ns)).mapError .resolution
  return spec.fragment r.internalName subnets

/-- The object that a record stands for. -/
def object : (a : ArtifactKind) → Record a.kind → Step σ ReconcileError RemoteObject
  | .az, r => do return .fragment r.internalName (← Step.ofExcept (azFragment r))
  | .network, r => do return .fragment r.internalName (← networkFragment r)
  | .vmExtension, r => do
    return .fragment r.internalName (← Step.ofExcept (vmExtensionFragment r))
  | .compilation, r => do
    return .fragment r.internalName (← Step.ofExcept (compilationFragment r))
  | .baseImage, r => do
    let spec : BaseImageSpec ← Step.ofExcept (Credentials.frozenOf r)
    return .stemcell ⟨spec.imageName, spec.version⟩ spec.url spec.sha1
  | .release, r => do
    let spec : ReleaseSpec ← Step.ofExcept (Credentials.frozenOf r)
    return .release ⟨spec.releaseName, spec.version⟩ spec.url spec.sha1
  | .deployment, r => do
    return .deployment r.internalName (← (Composition.manifest r).mapError .resolution)

/-- The object to take away. A release or base image that was never frozen was never uploaded. -/
def handle? : (a : ArtifactKind) → Record a.kind → Option RemoteHandle
  | .az, r | .network, r | .vmExtension, r | .compilation, r => some (.fragment r.internalName)
  | .baseImage, r =>
    let frozen : Option BaseImageSpec := r.frozen?
    frozen.map fun spec => .stemcell ⟨spec.imageName, spec.version⟩
  | .release, r =>
    let frozen : Option ReleaseSpec := r.frozen?
    frozen.map fun spec => .release ⟨spec.releaseName, spec.version⟩
  | .deployment, r => some (.deployment r.internalName)

/-- Brings the object into place, whether or not it is there already. -/
def establish {τ : Type} (a : ArtifactKind) (r : Record a.kind) : Run σ τ Unit := do
  World.onDirector (Director.ensure (← World.onRecords id (object a r)))

/-- Takes the object away if it is there. -/
def remove {τ : Type} (a : ArtifactKind) (r : Record a.kind) : Run σ τ Unit :=
  match handle? a r with
  | some handle => World.onDirector (Director.remove handle)
  | none => return ()

end Artifact

end Reconciliation
