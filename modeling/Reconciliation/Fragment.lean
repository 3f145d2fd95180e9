import Reconciliation.Payload.CloudConfig
import Reconciliation.Spec.Infrastructure

namespace Reconciliation

def AzSpec.fragment (name : String) (s : AzSpec) : CloudConfig :=
  { azs := [⟨name, s.cloudProperties⟩] }

def VmExtensionSpec.fragment (name : String) (s : VmExtensionSpec) : CloudConfig :=
  { vmExtensions := [⟨name, s.cloudProperties⟩] }

/-- The entry of a subnet whose zones have the given remote names. -/
def Subnet.entry (azs : List String) (s : Subnet) : SubnetEntry where
  range := s.range
  gateway := s.gateway
  dns := s.dns
  reserved := s.reserved
  staticIps := s.staticIps
  azs := azs
  cloudProperties := s.cloudProperties

def NetworkSpec.fragment (name : String) (subnets : List SubnetEntry) (s : NetworkSpec) :
    CloudConfig :=
  { networks := [⟨name, s.networkType, subnets⟩] }

/-- Compilation workers get a zone and a network of their own. -/
def CompilationSpec.fragment (name : String) (s : CompilationSpec) : CloudConfig :=
  let subnet : SubnetEntry :=
    { range := s.subnetRange
      gateway := s.subnetGateway
      dns := s.subnetDns
      reserved := s.subnetReserved
      azs := [name]
      cloudProperties := s.subnetCloudProperties }
  let workers : CompilationEntry :=
    { workers := s.replicas
      az := name
      orphanWorkers := true
      vmResources := ⟨s.cpu, s.ram, s.ephemeralDiskSize⟩
      cloudProperties := s.cloudProperties
      network := name
      reuseCompilationVms := true }
  { azs := [⟨name, s.azCloudProperties⟩]
    networks := [⟨name, s.networkType, [subnet]⟩]
    compilation := some workers }

end Reconciliation
