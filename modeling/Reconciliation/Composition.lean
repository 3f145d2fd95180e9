import Reconciliation.Payload.Manifest
import Reconciliation.Store

/-! A manifest is composed of the records that a deployment names in its own namespace. They are
looked up afresh each time, and one that is missing or not ready stops the whole composition. -/
namespace Reconciliation

inductive ResolutionError where
  | missing (key : Key)
  | releaseNotReady (key : Key)
  | baseImageNotReady (key : Key)
  | resourcesOverflow (key : Key)
  | readySecondsOverflow (key : Key)
  | store (cause : StoreError)
deriving DecidableEq, Repr

namespace ResolutionError

def ofStore : StoreError → ResolutionError
  | .notFound key => missing key
  | e => store e

def message : ResolutionError → String
  | missing key => key.text ++ " does not exist"
  | releaseNotReady key => key.text ++ " is not ready: release has not been reconciled yet"
  | baseImageNotReady key => key.text ++ " is not ready: base image has not been reconciled yet"
  | resourcesOverflow key => key.text ++ " is invalid: summed container resources overflow"
  | readySecondsOverflow key =>
    key.text ++ " is invalid: update_strategy ready seconds overflow in milliseconds"
  | store cause => cause.message

/-- Whether the records named may still appear or become ready. -/
def isRetryable : ResolutionError → Bool
  | missing _ | releaseNotReady _ | baseImageNotReady _ => true
  | resourcesOverflow _ | readySecondsOverflow _ => false
  | store cause => cause.isRetryable

end ResolutionError

namespace Composition

variable {σ : Type} [RecordStore σ]

def fetch (k : Kind) (ns name : String) : Step σ ResolutionError (Record k) :=
  (RecordStore.fetch k ns name).mapError .ofStore

/-- The remote name of a record that has to exist. -/
def internalNameOf (k : Kind) (ns name : String) : Step σ ResolutionError String := do
  return (← fetch k ns name).internalName

def internalNamesOf (k : Kind) (ns : String) (names : List String) :
    Step σ ResolutionError (List String) :=
  names.mapM (internalNameOf k ns)

def frozenRelease (r : Record .release) : Except ResolutionError ReleaseSpec :=
  let status : FrozenStatus ReleaseSpec := r.status
  match status.frozen with
  | some spec => .ok spec
  | none => .error (.releaseNotReady r.key)

def frozenBaseImage (r : Record .baseImage) : Except ResolutionError BaseImageSpec :=
  let status : FrozenStatus BaseImageSpec := r.status
  match status.frozen with
  | some spec => .ok spec
  | none => .error (.baseImageNotReady r.key)

/-- An import becomes a link of the job under its internal name. -/
def consumedLink (ns : String) (link : String × ImportedLink) :
    Step σ ResolutionError (String × ConsumedLink) := do
  return (link.2.internalLink, ⟨link.1, ← internalNameOf .deployment ns link.2.importedFrom⟩)

def providedLink (link : String × ExportedLink) : String × ProvidedLink :=
  (link.2.internalLink, ⟨link.1, link.2.exported⟩)

/-- The job that a container runs and the release it comes from. -/
def jobOf (ns : String) (c : Container) : Step σ ResolutionError (ReleaseRef × Job) := do
  let role : RoleSpec := (← fetch .role ns c.role).spec
  let release ← Step.ofExcept (frozenRelease (← fetch .release ns role.source.release))
  let consumes ← c.imports.toList.mapM (consumedLink ns)
  let job : Job :=
    { name := role.source.job
      release := release.releaseName
      consumes := .ofList consumes
      provides := .ofList (c.exports.toList.map providedLink)
      properties := role.properties }
  return (⟨release.releaseName, release.version⟩, job)

def stemcellOf (ns baseImage : String) : Step σ ResolutionError StemcellRef := do
  let image ← Step.ofExcept (frozenBaseImage (← fetch .baseImage ns baseImage))
  return ⟨stemcellAlias, image.imageName, image.version⟩

def footprintOf (d : Record .deployment) : Except ResolutionError Footprint :=
  let spec : DeploymentSpec := d.spec
  match Footprint.ofContainers? spec.containers with
  | some footprint => .ok footprint
  | none => .error (.resourcesOverflow d.key)

def updateOf (d : Record .deployment) : Except ResolutionError UpdatePolicy :=
  let spec : DeploymentSpec := d.spec
  match UpdatePolicy.ofStrategy? spec.updateStrategy with
  | some policy => .ok policy
  | none => .error (.readySecondsOverflow d.key)

/-- The releases in order and without repetition. -/
def releasesOf (refs : List ReleaseRef) : List ReleaseRef :=
  (Table.ofList (refs.map fun r => (r, ()))).keys

def manifest (d : Record .deployment) : Step σ ResolutionError Manifest := do
  let ns := d.metadata.ns
  let spec : DeploymentSpec := d.spec
  let jobs ← spec.containers.mapM (jobOf ns)
  let stemcell ← stemcellOf ns spec.baseImage
  let azs ← internalNamesOf .az ns spec.azs
  let extensions ← internalNamesOf .vmExtension ns spec.extensions
  let network ← internalNameOf .network ns spec.network
  let footprint ← Step.ofExcept (footprintOf d)
  let update ← Step.ofExcept (updateOf d)
  let group : InstanceGroup :=
    { name := d.internalName
      azs
      instances := spec.replicas
      jobs := jobs.map (·.2)
      vmExtensions := extensions
      vmResources := footprint.vm
      stemcell := stemcellAlias
      persistentDiskSize := footprint.persistentDiskSize
      networks := [⟨network⟩] }
  return {
    name := d.internalName
    releases := releasesOf (jobs.map (·.1))
    stemcells := [stemcell]
    update
    instanceGroups := [group] }

end Composition

end Reconciliation
