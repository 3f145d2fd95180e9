import Reconciliation.Record
import Reconciliation.DnsName
import Reconciliation.Text

namespace Reconciliation

inductive Defect where
  | apiVersion (found : String)
  | namespaceLabel (found : String)
  | recordName (found : String)
  | required (field : String)
  | noSubnet
  | sha1 (found : String)
  | noReplicas
  | noAz
  | noContainer
  | percent (found : String)
  | readyOrder
deriving DecidableEq, Repr

def Defect.message : Defect → String
  | apiVersion found =>
    "apiVersion must be '" ++ Reconciliation.apiVersion ++ "', found '" ++ found ++ "'"
  | namespaceLabel found => "namespace '" ++ found ++ "' is not a valid DNS label"
  | recordName found => "name '" ++ found ++ "' is not a valid DNS name"
  | required field => field ++ " is required"
  | noSubnet => "at least one subnet is required"
  | sha1 found => "sha1 '" ++ found ++ "' is not a SHA-1 digest"
  | noReplicas => "replicas must be greater than 0"
  | noAz => "at least one AZ is required"
  | noContainer => "at least one container is required"
  | percent found =>
    "update_strategy.max_unavailable_percent '" ++ found ++ "' must look like '25%'"
  | readyOrder => "update_strategy.max_ready_seconds must not be less than min_ready_seconds"

namespace Validation

def defectIf (condition : Bool) (d : Defect) : List Defect := if condition then [d] else []

def require (field value : String) : List Defect :=
  defectIf (Text.allBlank value) (.required field)

def isHexDigit (c : Char) : Bool :=
  ('0' ≤ c && c ≤ '9') || ('a' ≤ c && c ≤ 'f') || ('A' ≤ c && c ≤ 'F')

/-- Forty hexadecimal digits, perhaps after `sha1:`. -/
def isSha1 (s : String) : Bool :=
  let digits := if ['s', 'h', 'a', '1', ':'].isPrefixOf s.toList then s.toList.drop 5 else s.toList
  digits.length == 40 && digits.all isHexDigit

/-- One to three decimal digits, of any script, and a percent sign. -/
def isPercent (s : String) : Bool :=
  let digits := s.toList.dropLast
  s.toList.getLast? == some '%' && 1 ≤ digits.length && digits.length ≤ 3
    && digits.all Text.isDecimalDigit

def digestDefects (sha1 : String) : List Defect :=
  defectIf (!sha1.isEmpty && !isSha1 sha1) (.sha1 sha1)

def indexed (list : String) (i : Nat) (field : String) : String :=
  list ++ "[" ++ toString i ++ "]." ++ field

def strategyDefects (s : UpdateStrategy) : List Defect :=
  (match s.maxUnavailablePercent with
    | none => []
    | some p => defectIf (!p.isEmpty && !isPercent p) (.percent p)) ++
  defectIf (s.maxReadySeconds > 0 && s.maxReadySeconds < s.minReadySeconds) .readyOrder

def containerDefects (i : Nat) (c : Container) : List Defect :=
  require (indexed "containers" i "role") c.role ++
  c.imports.toList.flatMap fun (link, imported) =>
    require (indexed "containers" i ("imported_configuration." ++ link ++ ".imported_from"))
      imported.importedFrom

/-- The problems with a spec, in the order in which they are reported. -/
def specDefects : (k : Kind) → Spec k → List Defect
  | .director, (s : DirectorSpec) =>
    require "url" s.url ++ require "uaa_url" s.uaaUrl ++ require "uaa_client" s.uaaClient ++
      require "uaa_client_secret" s.uaaClientSecret
  | .team, (s : TeamSpec) => require "director" s.director
  | .az, _ | .vmExtension, _ => []
  | .network, (s : NetworkSpec) =>
    defectIf s.subnets.isEmpty .noSubnet ++
    s.subnets.zipIdx.flatMap fun (subnet, i) =>
      require (indexed "subnets" i "range") subnet.range ++
        require (indexed "subnets" i "gateway") subnet.gateway
  | .baseImage, (s : BaseImageSpec) =>
    require "baseImageName" s.imageName ++ require "version" s.version ++ require "url" s.url ++
      digestDefects s.sha1
  | .release, (s : ReleaseSpec) =>
    require "releaseName" s.releaseName ++ require "version" s.version ++ require "url" s.url ++
      digestDefects s.sha1
  | .role, (s : RoleSpec) =>
    require "source.release" s.source.release ++ require "source.job" s.source.job
  | .compilation, (s : CompilationSpec) =>
    require "director" s.director ++ require "subnet_range" s.subnetRange ++
      require "subnet_gateway" s.subnetGateway ++ defectIf (s.replicas == 0) .noReplicas
  | .deployment, (s : DeploymentSpec) =>
    require "base_image" s.baseImage ++ require "network" s.network ++
      defectIf s.azs.isEmpty .noAz ++ defectIf s.containers.isEmpty .noContainer ++
      (s.containers.zipIdx.flatMap fun (c, i) => containerDefects i c) ++
      strategyDefects s.updateStrategy

def defects (r : AnyRecord) : List Defect :=
  defectIf (r.record.apiVersion != Reconciliation.apiVersion) (.apiVersion r.record.apiVersion) ++
  defectIf (!isDnsLabel r.metadata.ns) (.namespaceLabel r.metadata.ns) ++
  defectIf (!isDnsSubdomain r.metadata.name) (.recordName r.metadata.name) ++
  specDefects r.kind r.record.spec

def problems (rs : List AnyRecord) : List (Key × Defect) :=
  rs.flatMap fun r => (defects r).map (r.key, ·)

/-- All problems of a batch in one text, or nothing if there are none. -/
def complaint? (rs : List AnyRecord) : Option String :=
  match problems rs with
  | [] => none
  | ps => some ("; ".intercalate (ps.map fun (k, d) => k.text ++ ": " ++ d.message))

end Validation

end Reconciliation
