import Reconciliation.Payload.CloudConfig
import Reconciliation.Payload.UpdatePolicy

namespace Reconciliation

/-- The name by which instance groups refer to the one stemcell of a deployment. -/
def stemcellAlias : String := "stemcell"

structure ReleaseRef where
  name : String
  version : String
deriving DecidableEq, Repr

namespace ReleaseRef

instance : Ord ReleaseRef := ⟨compareLex (compareOn (·.name)) (compareOn (·.version))⟩

instance : Std.TransOrd ReleaseRef :=
  inferInstanceAs (Std.TransCmp
    (compareLex (compareOn fun r : ReleaseRef => r.name) (compareOn (·.version))))

instance : Std.LawfulEqOrd ReleaseRef where
  eq_of_compare {a b} h := by
    obtain ⟨na, va⟩ := a
    obtain ⟨nb, vb⟩ := b
    have h : (compare na nb).then (compare va vb) = .eq := h
    simp only [Ordering.then_eq_eq, Std.LawfulEqCmp.compare_eq_iff_eq] at h
    obtain ⟨rfl, rfl⟩ := h
    rfl

def layout : Layout ReleaseRef :=
  ReleaseRef.mk <$> .required "name" .string <*> .required "version" .string

def decode : Decoder ReleaseRef := layout.decode "ReleaseRef"

def toJson (r : ReleaseRef) : Json := .obj [("name", .str r.name), ("version", .str r.version)]

end ReleaseRef

structure StemcellRef where
  aliasName : String
  name : String
  version : String
deriving DecidableEq, Repr

namespace StemcellRef

def layout : Layout StemcellRef :=
  StemcellRef.mk <$> .required "alias" .string <*> .required "name" .string
    <*> .required "version" .string

def decode : Decoder StemcellRef := layout.decode "StemcellRef"

def toJson (r : StemcellRef) : Json :=
  .obj [("alias", .str r.aliasName), ("name", .str r.name), ("version", .str r.version)]

end StemcellRef

structure ConsumedLink where
  source : String
  deployment : String
deriving DecidableEq, Repr

namespace ConsumedLink

def layout : Layout ConsumedLink :=
  ConsumedLink.mk <$> .required "from" .string <*> .required "deployment" .string

def decode : Decoder ConsumedLink := layout.decode "ConsumesLink"

def toJson (l : ConsumedLink) : Json :=
  .obj [("from", .str l.source), ("deployment", .str l.deployment)]

end ConsumedLink

structure ProvidedLink where
  linkName : String
  shared : Bool
deriving DecidableEq, Repr

namespace ProvidedLink

def layout : Layout ProvidedLink :=
  ProvidedLink.mk <$> .required "as" .string <*> .required "shared" .bool

def decode : Decoder ProvidedLink := layout.decode "ProvidesLink"

def toJson (l : ProvidedLink) : Json :=
  .obj [("as", .str l.linkName), ("shared", .bool l.shared)]

end ProvidedLink

structure Job where
  name : String
  release : String
  consumes : Table String ConsumedLink := ∅
  provides : Table String ProvidedLink := ∅
  properties : Json := .null

namespace Job

def layout : Layout Job :=
  Job.mk <$> .required "name" .string <*> .required "release" .string
    <*> .optional "consumes" ∅ (.table ConsumedLink.decode)
    <*> .optional "provides" ∅ (.table ProvidedLink.decode)
    <*> .optional "properties" .null .json

def decode : Decoder Job := layout.decode "Job"

def toJson (j : Job) : Json :=
  .obj (("name", .str j.name) :: ("release", .str j.release) ::
    Json.memberUnless j.consumes.isEmpty "consumes" (Json.ofTable ConsumedLink.toJson j.consumes) ++
    Json.memberUnless j.provides.isEmpty "provides" (Json.ofTable ProvidedLink.toJson j.provides) ++
    Json.memberUnless j.properties.isNull "properties" j.properties)

end Job

structure NetworkRef where
  name : String
deriving DecidableEq, Repr

namespace NetworkRef

def layout : Layout NetworkRef := NetworkRef.mk <$> .required "name" .string

def decode : Decoder NetworkRef := layout.decode "NetworkRef"

def toJson (r : NetworkRef) : Json := .obj [("name", .str r.name)]

end NetworkRef

structure InstanceGroup where
  name : String
  azs : List String
  instances : UInt32
  jobs : List Job
  vmExtensions : List String := []
  vmResources : VmResources
  stemcell : String
  persistentDiskSize : UInt64 := 0
  networks : List NetworkRef

namespace InstanceGroup

def layout : Layout InstanceGroup :=
  InstanceGroup.mk <$> .required "name" .string <*> .required "azs" (.list .string)
    <*> .required "instances" .u32 <*> .required "jobs" (.list Job.decode)
    <*> .optional "vm_extensions" [] (.list .string)
    <*> .required "vm_resources" VmResources.decode <*> .required "stemcell" .string
    <*> .optional "persistent_disk_size" 0 .u64
    <*> .required "networks" (.list NetworkRef.decode)

def decode : Decoder InstanceGroup := layout.decode "InstanceGroup"

def toJson (g : InstanceGroup) : Json :=
  .obj ([("name", .str g.name), ("azs", Json.strings g.azs), ("instances", Json.u32 g.instances),
    ("jobs", .arr (g.jobs.map Job.toJson))] ++
    Json.memberUnless g.vmExtensions.isEmpty "vm_extensions" (Json.strings g.vmExtensions) ++
    [("vm_resources", g.vmResources.toJson), ("stemcell", .str g.stemcell)] ++
    Json.memberUnless (g.persistentDiskSize == 0) "persistent_disk_size"
      (.nat g.persistentDiskSize) ++
    [("networks", .arr (g.networks.map NetworkRef.toJson))])

end InstanceGroup

structure Manifest where
  name : String
  releases : List ReleaseRef
  stemcells : List StemcellRef
  update : UpdatePolicy
  instanceGroups : List InstanceGroup

namespace Manifest

def layout : Layout Manifest :=
  Manifest.mk <$> .required "name" .string <*> .required "releases" (.list ReleaseRef.decode)
    <*> .required "stemcells" (.list StemcellRef.decode)
    <*> .required "update" UpdatePolicy.decode
    <*> .required "instance_groups" (.list InstanceGroup.decode)

def decode : Decoder Manifest := layout.decode "DeploymentManifest"

def toJson (m : Manifest) : Json :=
  .obj [("name", .str m.name), ("releases", .arr (m.releases.map ReleaseRef.toJson)),
    ("stemcells", .arr (m.stemcells.map StemcellRef.toJson)), ("update", m.update.toJson),
    ("instance_groups", .arr (m.instanceGroups.map InstanceGroup.toJson))]

/-- The document that is handed to the Director. -/
def toYaml (m : Manifest) : String := Yaml.text m.toJson

end Manifest

/-- What an instance needs: the sum of what all containers on it ask for. -/
structure Footprint where
  vm : VmResources := {}
  persistentDiskSize : UInt64 := 0
deriving DecidableEq, Repr

namespace Footprint

def add? (a b : UInt64) : Option UInt64 :=
  if a.toNat + b.toNat < UInt64.size then some (a + b) else none

def include? (f : Footprint) (r : ContainerResources) : Option Footprint := do
  let cpu ← add? f.vm.cpu r.cpu
  let ram ← add? f.vm.ram r.ram
  let ephemeralDiskSize ← add? f.vm.ephemeralDiskSize r.ephemeralDiskSize
  let persistentDiskSize ← add? f.persistentDiskSize r.persistentDiskSize
  return ⟨⟨cpu, ram, ephemeralDiskSize⟩, persistentDiskSize⟩

def ofContainers? (cs : List Container) : Option Footprint :=
  cs.foldlM (fun f c => f.include? c.resources) {}

end Footprint

end Reconciliation
