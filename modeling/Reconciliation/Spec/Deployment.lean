import Reconciliation.Decode

namespace Reconciliation

structure ExportedLink where
  internalLink : String
  exported : Bool := false
deriving DecidableEq, Repr

namespace ExportedLink

def layout : Layout ExportedLink :=
  ExportedLink.mk <$> .required "internal_link" .string <*> .optional "exported" false .bool

def decode : Decoder ExportedLink := layout.decode "ExportedConfiguration"

def toJson (s : ExportedLink) : Json :=
  .obj [("internal_link", .str s.internalLink), ("exported", .bool s.exported)]

end ExportedLink

structure ImportedLink where
  internalLink : String
  /-- The name of the Deployment record that provides the link. -/
  importedFrom : String
deriving DecidableEq, Repr

namespace ImportedLink

def layout : Layout ImportedLink :=
  ImportedLink.mk <$> .required "internal_link" .string <*> .required "imported_from" .string

def decode : Decoder ImportedLink := layout.decode "ImportedConfiguration"

def toJson (s : ImportedLink) : Json :=
  .obj [("internal_link", .str s.internalLink), ("imported_from", .str s.importedFrom)]

end ImportedLink

structure ContainerResources where
  ram : UInt64 := 0
  cpu : UInt64 := 0
  ephemeralDiskSize : UInt64 := 0
  persistentDiskSize : UInt64 := 0
deriving DecidableEq, Repr

namespace ContainerResources

def layout : Layout ContainerResources :=
  ContainerResources.mk <$> .optional "ram" 0 .u64 <*> .optional "cpu" 0 .u64
    <*> .optional "ephemeral_disk_size" 0 .u64 <*> .optional "persistent_disk_size" 0 .u64

def decode : Decoder ContainerResources := layout.decode "ContainerResources"

def toJson (s : ContainerResources) : Json :=
  .obj ([("ram", .nat s.ram), ("cpu", .nat s.cpu),
      ("ephemeral_disk_size", .nat s.ephemeralDiskSize)] ++
    Json.memberUnless (s.persistentDiskSize == 0) "persistent_disk_size"
      (.nat s.persistentDiskSize))

end ContainerResources

structure Container where
  role : String
  /-- By the name under which others see the link. -/
  exports : Table String ExportedLink := ∅
  /-- By the name of the link in the deployment that provides it. -/
  imports : Table String ImportedLink := ∅
  resources : ContainerResources := {}

namespace Container

def layout : Layout Container :=
  Container.mk <$> .required "role" .string
    <*> .optional "exported_configuration" ∅ (.table ExportedLink.decode)
    <*> .optional "imported_configuration" ∅ (.table ImportedLink.decode)
    <*> .optional "resources" {} ContainerResources.decode

def decode : Decoder Container := layout.decode "Container"

def toJson (s : Container) : Json :=
  .obj (("role", .str s.role) ::
    Json.memberUnless s.exports.isEmpty "exported_configuration"
      (Json.ofTable ExportedLink.toJson s.exports) ++
    Json.memberUnless s.imports.isEmpty "imported_configuration"
      (Json.ofTable ImportedLink.toJson s.imports) ++
    [("resources", s.resources.toJson)])

end Container

structure UpdateStrategy where
  minReadySeconds : UInt64 := 0
  maxReadySeconds : UInt64 := 0
  maxUnavailablePercent : Option String := none
  maxUnavailableReplicas : Option UInt32 := none
  /-- How VMs are replaced. -/
  strategyType : Option String := none
deriving DecidableEq, Repr

namespace UpdateStrategy

def layout : Layout UpdateStrategy :=
  UpdateStrategy.mk <$> .optional "min_ready_seconds" 0 .u64
    <*> .optional "max_ready_seconds" 0 .u64
    <*> .optionalNullable "max_unavailable_percent" .string
    <*> .optionalNullable "max_unavailable_replicas" .u32
    <*> .optionalNullable "type" .string

def decode : Decoder UpdateStrategy := layout.decode "UpdateStrategy"

def toJson (s : UpdateStrategy) : Json :=
  .obj ([("min_ready_seconds", .nat s.minReadySeconds),
    ("max_ready_seconds", .nat s.maxReadySeconds)] ++
    Json.memberIfSome "max_unavailable_percent" .str s.maxUnavailablePercent ++
    Json.memberIfSome "max_unavailable_replicas" Json.u32 s.maxUnavailableReplicas ++
    Json.memberIfSome "type" .str s.strategyType)

end UpdateStrategy

structure DeploymentSpec where
  /-- Names of AZ records; the manifest keeps their order. -/
  azs : List String
  replicas : UInt32
  containers : List Container
  /-- Names of VMExtension records. -/
  extensions : List String := []
  baseImage : String
  network : String
  updateStrategy : UpdateStrategy := {}
  /-- Asks for one more reconcile; cleared by it. -/
  forceReconciliation : Bool := false

namespace DeploymentSpec

def layout : Layout DeploymentSpec :=
  DeploymentSpec.mk <$> .required "azs" (.list .string) <*> .required "replicas" .u32
    <*> .required "containers" (.list Container.decode)
    <*> .optional "extensions" [] (.list .string)
    <*> .required "base_image" .string <*> .required "network" .string
    <*> .optional "update_strategy" {} UpdateStrategy.decode
    <*> .optional "force_reconciliation" false .bool

def decode : Decoder DeploymentSpec := layout.decode "DeploymentSpec"

def toJson (s : DeploymentSpec) : Json :=
  .obj ([("azs", Json.strings s.azs), ("replicas", Json.u32 s.replicas),
    ("containers", .arr (s.containers.map Container.toJson))] ++
    Json.memberUnless s.extensions.isEmpty "extensions" (Json.strings s.extensions) ++
    [("base_image", .str s.baseImage), ("network", .str s.network),
      ("update_strategy", s.updateStrategy.toJson),
      ("force_reconciliation", .bool s.forceReconciliation)])

end DeploymentSpec

end Reconciliation
