import Reconciliation.Spec.CloudProperties
import Reconciliation.Yaml.Writer

namespace Reconciliation

/-- A named entry with nothing but cloud properties: an availability zone or a VM extension. -/
structure PlainEntry where
  name : String
  cloudProperties : Option CloudProperties := none

namespace PlainEntry

def layout : Layout PlainEntry :=
  PlainEntry.mk <$> .required "name" .string <*> CloudProperties.layout "cloud_properties"

def toJson (e : PlainEntry) : Json :=
  .obj (("name", .str e.name) :: CloudProperties.member "cloud_properties" e.cloudProperties)

end PlainEntry

structure SubnetEntry where
  range : String
  gateway : String
  dns : List String := []
  reserved : List String := []
  staticIps : List String := []
  azs : List String := []
  cloudProperties : Option CloudProperties := none

namespace SubnetEntry

def layout : Layout SubnetEntry :=
  SubnetEntry.mk <$> .required "range" .string <*> .required "gateway" .string
    <*> .optional "dns" [] (.list .string) <*> .optional "reserved" [] (.list .string)
    <*> .optional "static" [] (.list .string) <*> .optional "azs" [] (.list .string)
    <*> CloudProperties.layout "cloud_properties"

def decode : Decoder SubnetEntry := layout.decode "SubnetEntry"

def addresses (name : String) (xs : List String) : List (String × Json) :=
  Json.memberUnless xs.isEmpty name (Json.strings xs)

def toJson (e : SubnetEntry) : Json :=
  .obj (("range", .str e.range) :: ("gateway", .str e.gateway) :: addresses "dns" e.dns ++
    addresses "reserved" e.reserved ++ addresses "static" e.staticIps ++
    [("azs", Json.strings e.azs)] ++ CloudProperties.member "cloud_properties" e.cloudProperties)

end SubnetEntry

structure NetworkEntry where
  name : String
  networkType : String
  subnets : List SubnetEntry

namespace NetworkEntry

def layout : Layout NetworkEntry :=
  NetworkEntry.mk <$> .required "name" .string <*> .required "type" .string
    <*> .required "subnets" (.list SubnetEntry.decode)

def decode : Decoder NetworkEntry := layout.decode "NetworkEntry"

def toJson (e : NetworkEntry) : Json :=
  .obj [("name", .str e.name), ("type", .str e.networkType),
    ("subnets", .arr (e.subnets.map SubnetEntry.toJson))]

end NetworkEntry

structure VmResources where
  cpu : UInt64 := 0
  ram : UInt64 := 0
  ephemeralDiskSize : UInt64 := 0
deriving DecidableEq, Repr

namespace VmResources

def layout : Layout VmResources :=
  VmResources.mk <$> .required "cpu" .u64 <*> .required "ram" .u64
    <*> .required "ephemeral_disk_size" .u64

def decode : Decoder VmResources := layout.decode "VmResources"

def toJson (r : VmResources) : Json :=
  .obj [("cpu", .nat r.cpu), ("ram", .nat r.ram), ("ephemeral_disk_size", .nat r.ephemeralDiskSize)]

end VmResources

structure CompilationEntry where
  workers : UInt32
  az : String
  orphanWorkers : Bool
  vmResources : VmResources
  cloudProperties : Option CloudProperties := none
  network : String
  reuseCompilationVms : Bool

namespace CompilationEntry

def layout : Layout CompilationEntry :=
  CompilationEntry.mk <$> .required "workers" .u32 <*> .required "az" .string
    <*> .required "orphan_workers" .bool <*> .required "vm_resources" VmResources.decode
    <*> CloudProperties.layout "cloud_properties" <*> .required "network" .string
    <*> .required "reuse_compilation_vms" .bool

def decode : Decoder CompilationEntry := layout.decode "CompilationEntry"

def toJson (e : CompilationEntry) : Json :=
  .obj ([("workers", Json.u32 e.workers), ("az", .str e.az),
    ("orphan_workers", .bool e.orphanWorkers), ("vm_resources", e.vmResources.toJson)] ++
    CloudProperties.member "cloud_properties" e.cloudProperties ++
    [("network", .str e.network), ("reuse_compilation_vms", .bool e.reuseCompilationVms)])

end CompilationEntry

structure CloudConfig where
  azs : List PlainEntry := []
  vmExtensions : List PlainEntry := []
  networks : List NetworkEntry := []
  compilation : Option CompilationEntry := none

namespace CloudConfig

def layout : Layout CloudConfig :=
  CloudConfig.mk <$> .optional "azs" [] (.list (PlainEntry.layout.decode "AzEntry"))
    <*> .optional "vm_extensions" [] (.list (PlainEntry.layout.decode "VmExtensionEntry"))
    <*> .optional "networks" [] (.list NetworkEntry.decode)
    <*> .optionalNullable "compilation" CompilationEntry.decode

def decode : Decoder CloudConfig := layout.decode "CloudConfig"

def entries {α : Type} (name : String) (value : α → Json) (xs : List α) : List (String × Json) :=
  Json.memberUnless xs.isEmpty name (.arr (xs.map value))

def toJson (c : CloudConfig) : Json :=
  .obj (entries "azs" PlainEntry.toJson c.azs ++
    entries "vm_extensions" PlainEntry.toJson c.vmExtensions ++
    entries "networks" NetworkEntry.toJson c.networks ++
    Json.memberIfSome "compilation" CompilationEntry.toJson c.compilation)

/-- The document that the Director stores. -/
def toYaml (c : CloudConfig) : String := Yaml.text c.toJson

end CloudConfig

end Reconciliation
