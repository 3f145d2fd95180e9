import Reconciliation.Metadata
import Reconciliation.Spec.Deployment
import Reconciliation.Spec.Infrastructure
import Reconciliation.Spec.Software
import Reconciliation.Status

namespace Reconciliation

def Spec : Kind → Type
  | .director => DirectorSpec
  | .team => TeamSpec
  | .az => AzSpec
  | .network => NetworkSpec
  | .baseImage => BaseImageSpec
  | .release => ReleaseSpec
  | .role => RoleSpec
  | .vmExtension => VmExtensionSpec
  | .compilation => CompilationSpec
  | .deployment => DeploymentSpec

def Status : Kind → Type
  | .director | .role => EmptyStatus
  | .team => TeamStatus
  | .az => FrozenStatus AzSpec
  | .network => FrozenStatus NetworkSpec
  | .baseImage => FrozenStatus BaseImageSpec
  | .release => FrozenStatus ReleaseSpec
  | .vmExtension => FrozenStatus VmExtensionSpec
  | .compilation => FrozenStatus CompilationSpec
  | .deployment => DeploymentStatus

namespace Spec

def decode : (k : Kind) → Decoder (Spec k)
  | .director => DirectorSpec.decode
  | .team => TeamSpec.decode
  | .az => AzSpec.decode
  | .network => NetworkSpec.decode
  | .baseImage => BaseImageSpec.decode
  | .release => ReleaseSpec.decode
  | .role => RoleSpec.decode
  | .vmExtension => VmExtensionSpec.decode
  | .compilation => CompilationSpec.decode
  | .deployment => DeploymentSpec.decode

def toJson : (k : Kind) → Spec k → Json
  | .director => DirectorSpec.toJson
  | .team => TeamSpec.toJson
  | .az => AzSpec.toJson
  | .network => NetworkSpec.toJson
  | .baseImage => BaseImageSpec.toJson
  | .release => ReleaseSpec.toJson
  | .role => RoleSpec.toJson
  | .vmExtension => VmExtensionSpec.toJson
  | .compilation => CompilationSpec.toJson
  | .deployment => DeploymentSpec.toJson

end Spec

namespace Status

/-- The status of a record that was never reconciled. -/
def initial : (k : Kind) → Status k
  | .director | .role => ({} : EmptyStatus)
  | .team => ({} : TeamStatus)
  | .az | .network | .baseImage | .release | .vmExtension | .compilation =>
    FrozenStatus.mk "" none false
  | .deployment => ({} : DeploymentStatus)

instance (k : Kind) : Inhabited (Status k) := ⟨initial k⟩

def decode : (k : Kind) → Decoder (Status k)
  | .director | .role => EmptyStatus.decode
  | .team => TeamStatus.decode
  | .az => FrozenStatus.decode AzSpec.decode
  | .network => FrozenStatus.decode NetworkSpec.decode
  | .baseImage => FrozenStatus.decode BaseImageSpec.decode
  | .release => FrozenStatus.decode ReleaseSpec.decode
  | .vmExtension => FrozenStatus.decode VmExtensionSpec.decode
  | .compilation => FrozenStatus.decode CompilationSpec.decode
  | .deployment => DeploymentStatus.decode

def toJson : (k : Kind) → Status k → Json
  | .director | .role => EmptyStatus.toJson
  | .team => TeamStatus.toJson
  | .az => FrozenStatus.toJson AzSpec.toJson
  | .network => FrozenStatus.toJson NetworkSpec.toJson
  | .baseImage => FrozenStatus.toJson BaseImageSpec.toJson
  | .release => FrozenStatus.toJson ReleaseSpec.toJson
  | .vmExtension => FrozenStatus.toJson VmExtensionSpec.toJson
  | .compilation => FrozenStatus.toJson CompilationSpec.toJson
  | .deployment => DeploymentStatus.toJson

end Status

/-- The version that records are expected to have. -/
def apiVersion : String := "boshsync.io/v1"

structure Record (k : Kind) where
  apiVersion : String
  metadata : Metadata
  spec : Spec k
  status : Status k

namespace Record

variable {k : Kind}

/-- A record that was never stored or reconciled. -/
def new (ns name : String) (spec : Spec k) : Record k where
  apiVersion := Reconciliation.apiVersion
  metadata := { ns, name }
  spec
  status := Status.initial k

def key (r : Record k) : Key := ⟨k, r.metadata.ns, r.metadata.name⟩

def internalName (r : Record k) : String := r.key.internalName

def beingDeleted (r : Record k) : Bool := r.metadata.beingDeleted

/-- Whether the record holds the finalizer of its own kind. -/
def hasFinalizer (r : Record k) : Bool := r.metadata.hasFinalizer k.finalizer

def withFinalizer (r : Record k) : Record k :=
  { r with metadata := r.metadata.withFinalizer k.finalizer }

def withoutFinalizer (r : Record k) : Record k :=
  { r with metadata := r.metadata.withoutFinalizer k.finalizer }

def layout (k : Kind) : Layout (Record k) :=
  (fun v (_ : Kind) m s t => ⟨v, m, s, t⟩) <$> .required "apiVersion" .string
    <*> .required "kind" Kind.decode <*> .required "metadata" Metadata.decode
    <*> .required "spec" (Spec.decode k)
    <*> .optional "status" (Status.initial k) (Status.decode k)

def decode (k : Kind) : Decoder (Record k) := (layout k).decode "Resource"

def toJson (r : Record k) : Json :=
  .obj [("apiVersion", .str r.apiVersion), ("kind", .str k.title), ("metadata", r.metadata.toJson),
    ("spec", Spec.toJson k r.spec), ("status", Status.toJson k r.status)]

/-- The team through which a Director's own system namespace gets its credentials. -/
def ownTeam (r : Record .director) : Record .team :=
  let name := r.metadata.name
  Record.new r.metadata.ns ("director-" ++ name ++ "-team") (⟨name⟩ : TeamSpec)

end Record

structure AnyRecord where
  kind : Kind
  record : Record kind

namespace AnyRecord

def metadata (r : AnyRecord) : Metadata := r.record.metadata

def withMetadata (r : AnyRecord) (m : Metadata) : AnyRecord :=
  ⟨r.kind, { r.record with metadata := m }⟩

def key (r : AnyRecord) : Key := r.record.key

def hasFinalizer (r : AnyRecord) : Bool := r.record.hasFinalizer

/-- The record as one of the given kind, if it is of that kind. -/
def ofKind? (k : Kind) (r : AnyRecord) : Option (Record k) :=
  if h : r.kind = k then some (h ▸ r.record) else none

@[simp]
theorem ofKind?_mk (k : Kind) (r : Record k) : ofKind? k ⟨k, r⟩ = some r := by simp [ofKind?]

/-- The record with the status of another one, if both are of one kind. -/
def withStatusOf (r other : AnyRecord) : Option AnyRecord :=
  (other.ofKind? r.kind).map fun o => ⟨r.kind, { r.record with status := o.status }⟩

/-- The kind is read first and decides how the rest is read. -/
def decode : Decoder AnyRecord := fun v =>
  match v.get? "kind" with
  | none => .error (.missingField "kind")
  | some kind => do
    let k ← Kind.decode kind
    return ⟨k, ← Record.decode k v⟩

def toJson (r : AnyRecord) : Json := r.record.toJson

end AnyRecord

instance {k : Kind} : CoeOut (Record k) AnyRecord := ⟨fun r => ⟨k, r⟩⟩

end Reconciliation
