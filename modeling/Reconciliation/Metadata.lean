import Reconciliation.Kind
import Reconciliation.Instant

namespace Reconciliation

structure Metadata where
  name : String
  ns : String := ""
  uid : String := ""
  /-- Raised by the store on every write. -/
  version : Nat := 0
  deletedAt : Option Instant := none
  /-- Tokens that keep the record stored after its deletion was requested. -/
  finalizers : List String := []
  labels : Table String String := ∅
  annotations : Table String String := ∅

namespace Metadata

instance : Inhabited Metadata := ⟨{ name := "" }⟩

def beingDeleted (m : Metadata) : Bool := m.deletedAt.isSome

def hasFinalizer (m : Metadata) (token : String) : Bool := m.finalizers.contains token

def withFinalizer (m : Metadata) (token : String) : Metadata :=
  if m.hasFinalizer token then m else { m with finalizers := m.finalizers ++ [token] }

/-- Every copy of the token is removed, all other tokens keep their order. -/
def withoutFinalizer (m : Metadata) (token : String) : Metadata :=
  { m with finalizers := m.finalizers.filter (· != token) }

def withLabel (m : Metadata) (key value : String) : Metadata :=
  { m with labels := m.labels.insert key value }

theorem hasFinalizer_withFinalizer (m : Metadata) (token : String) :
    (m.withFinalizer token).hasFinalizer token = true := by
  by_cases h : m.hasFinalizer token <;> simp_all [withFinalizer, hasFinalizer]

theorem hasFinalizer_withoutFinalizer (m : Metadata) (token other : String) :
    (m.withoutFinalizer token).hasFinalizer other = (m.hasFinalizer other && other != token) := by
  rw [Bool.eq_iff_iff]
  simp [withoutFinalizer, hasFinalizer, List.mem_filter]

def instant : Decoder Instant
  | .str s =>
    match Instant.read s with
    | .ok t => .ok t
    | .error e => .error (.malformed e.message)
  | v => .error (.invalidType v "an RFC 3339 formatted date and time string")

def layout : Layout Metadata :=
  Metadata.mk <$> .required "name" .string <*> .optional "namespace" "" .string
    <*> .optional "uid" "" .string
    <*> .optional "resourceVersion" 0 (.natBelow UInt64.size "u64")
    <*> .optionalNullable "deletionTimestamp" instant
    <*> .optional "finalizers" [] (.list .string)
    <*> .optional "labels" ∅ (.table .string)
    <*> .optional "annotations" ∅ (.table .string)

def decode : Decoder Metadata := layout.decode "ObjectMeta"

def toJson (m : Metadata) : Json :=
  .obj (("name", .str m.name) :: ("namespace", .str m.ns) ::
    Json.memberUnless m.uid.isEmpty "uid" (.str m.uid) ++
    [("resourceVersion", .nat m.version.toUInt64)] ++
    Json.memberIfSome "deletionTimestamp" (fun t => .str t.text) m.deletedAt ++
    Json.memberUnless m.finalizers.isEmpty "finalizers" (Json.strings m.finalizers) ++
    Json.memberUnless m.labels.isEmpty "labels" (Json.ofTable .str m.labels) ++
    Json.memberUnless m.annotations.isEmpty "annotations" (Json.ofTable .str m.annotations))

end Metadata

end Reconciliation
