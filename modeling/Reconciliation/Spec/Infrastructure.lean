import Reconciliation.Spec.CloudProperties

/-! The specs that become fragments of the cloud config. For the detection of drift, address lists
and zone lists have no order, subnets do, and cloud properties are compared by their canonical
texts. -/
namespace Reconciliation

structure AzSpec where
  cloudProperties : Option CloudProperties := none

namespace AzSpec

def layout : Layout AzSpec := AzSpec.mk <$> CloudProperties.layout "cloud_properties"

def decode : Decoder AzSpec := layout.decode "AzSpec"

def toJson (s : AzSpec) : Json := .obj (CloudProperties.member "cloud_properties" s.cloudProperties)

def matching (a b : AzSpec) : Bool := CloudProperties.matching a.cloudProperties b.cloudProperties

end AzSpec

structure VmExtensionSpec where
  cloudProperties : Option CloudProperties := none

namespace VmExtensionSpec

def layout : Layout VmExtensionSpec :=
  VmExtensionSpec.mk <$> CloudProperties.layout "cloud_properties"

def decode : Decoder VmExtensionSpec := layout.decode "VmExtensionSpec"

def toJson (s : VmExtensionSpec) : Json :=
  .obj (CloudProperties.member "cloud_properties" s.cloudProperties)

def matching (a b : VmExtensionSpec) : Bool :=
  CloudProperties.matching a.cloudProperties b.cloudProperties

end VmExtensionSpec

structure Subnet where
  range : String
  gateway : String
  dns : List String := []
  reserved : List String := []
  staticIps : List String := []
  /-- Names of AZ records in the namespace of the network. -/
  azs : List String := []
  cloudProperties : Option CloudProperties := none

namespace Subnet

def layout : Layout Subnet :=
  Subnet.mk <$> .required "range" .string <*> .required "gateway" .string
    <*> .optional "dns" [] (.list .string) <*> .optional "reserved" [] (.list .string)
    <*> .optional "static" [] (.list .string) <*> .optional "azs" [] (.list .string)
    <*> CloudProperties.layout "cloud_properties"

def decode : Decoder Subnet := layout.decode "Subnet"

def toJson (s : Subnet) : Json :=
  .obj ([("range", .str s.range), ("gateway", .str s.gateway), ("dns", Json.strings s.dns),
    ("reserved", Json.strings s.reserved), ("static", Json.strings s.staticIps),
    ("azs", Json.strings s.azs)] ++ CloudProperties.member "cloud_properties" s.cloudProperties)

def matching (a b : Subnet) : Bool :=
  a.range == b.range && a.gateway == b.gateway && sameMembers a.dns b.dns
    && sameMembers a.reserved b.reserved && sameMembers a.staticIps b.staticIps
    && sameMembers a.azs b.azs && CloudProperties.matching a.cloudProperties b.cloudProperties

end Subnet

structure NetworkSpec where
  networkType : String := "manual"
  subnets : List Subnet := []

namespace NetworkSpec

def layout : Layout NetworkSpec :=
  NetworkSpec.mk <$> .optional "type" "manual" .string
    <*> .optional "subnets" [] (.list Subnet.decode)

def decode : Decoder NetworkSpec := layout.decode "NetworkSpec"

def toJson (s : NetworkSpec) : Json :=
  .obj [("type", .str s.networkType), ("subnets", .arr (s.subnets.map Subnet.toJson))]

/-- Subnet by subnet, in order. -/
def matchingSubnets : List Subnet → List Subnet → Bool
  | [], [] => true
  | a :: as, b :: bs => a.matching b && matchingSubnets as bs
  | _, _ => false

def matching (a b : NetworkSpec) : Bool :=
  a.networkType == b.networkType && matchingSubnets a.subnets b.subnets

end NetworkSpec

structure CompilationSpec where
  replicas : UInt32
  azCloudProperties : Option CloudProperties := none
  cpu : UInt64
  ram : UInt64
  ephemeralDiskSize : UInt64
  cloudProperties : Option CloudProperties := none
  networkType : String
  subnetRange : String
  subnetGateway : String
  subnetDns : List String := []
  subnetReserved : List String := []
  subnetCloudProperties : Option CloudProperties := none
  /-- The name of the Director record that the workers belong to. -/
  director : String

namespace CompilationSpec

def layout : Layout CompilationSpec :=
  CompilationSpec.mk <$> .required "replicas" .u32 <*> CloudProperties.layout "az_cloud_properties"
    <*> .required "cpu" .u64 <*> .required "ram" .u64 <*> .required "ephemeral_disk_size" .u64
    <*> CloudProperties.layout "cloud_properties" <*> .required "network_type" .string
    <*> .required "subnet_range" .string <*> .required "subnet_gateway" .string
    <*> .optional "subnet_dns" [] (.list .string)
    <*> .optional "subnet_reserved" [] (.list .string)
    <*> CloudProperties.layout "subnet_cloud_properties" <*> .required "director" .string

def decode : Decoder CompilationSpec := layout.decode "CompilationSpec"

def toJson (s : CompilationSpec) : Json :=
  .obj (("replicas", Json.u32 s.replicas) ::
    CloudProperties.member "az_cloud_properties" s.azCloudProperties ++
    [("cpu", .nat s.cpu), ("ram", .nat s.ram), ("ephemeral_disk_size", .nat s.ephemeralDiskSize)] ++
    CloudProperties.member "cloud_properties" s.cloudProperties ++
    [("network_type", .str s.networkType), ("subnet_range", .str s.subnetRange),
      ("subnet_gateway", .str s.subnetGateway), ("subnet_dns", Json.strings s.subnetDns)] ++
    Json.memberUnless s.subnetReserved.isEmpty "subnet_reserved" (Json.strings s.subnetReserved) ++
    CloudProperties.member "subnet_cloud_properties" s.subnetCloudProperties ++
    [("director", .str s.director)])

def matching (a b : CompilationSpec) : Bool :=
  a.replicas == b.replicas && a.cpu == b.cpu && a.ram == b.ram
    && a.ephemeralDiskSize == b.ephemeralDiskSize && a.networkType == b.networkType
    && a.subnetRange == b.subnetRange && a.subnetGateway == b.subnetGateway
    && a.director == b.director && sameMembers a.subnetDns b.subnetDns
    && sameMembers a.subnetReserved b.subnetReserved
    && CloudProperties.matching a.azCloudProperties b.azCloudProperties
    && CloudProperties.matching a.cloudProperties b.cloudProperties
    && CloudProperties.matching a.subnetCloudProperties b.subnetCloudProperties

end CompilationSpec

end Reconciliation
