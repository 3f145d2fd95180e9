import Reconciliation.Json.Writer
import Reconciliation.Text.Quoted

/-! A decoder either gives a value or the one reason why there is none. A compound value is
described once, by a `Layout`: the list of its fields with their decoders. An object may hold the
fields in any order and others besides; an array holds them in the order of the layout. -/
namespace Reconciliation

inductive DecodeError where
  | invalidType (found : Json) (expected : String)
  | invalidValue (found : Json) (expected : String)
  | invalidLength (count : Nat) (expected : String)
  | missingField (name : String)
  | unknownVariant (name : String) (known : List String)
  /-- A value that fits none of the forms of the named type. -/
  | noVariant (type : String)
  /-- A text that is not in the format its field asks for, with that format's own complaint. -/
  | malformed (complaint : String)
deriving Repr

namespace DecodeError

def quotedNames : List String → String
  | [] => ""
  | [n] => "`" ++ n ++ "`"
  | n :: rest => "`" ++ n ++ "`, " ++ quotedNames rest

/-- How a message names the value it found. -/
def describe : Json → String
  | .null => "null"
  | .bool b => "boolean `" ++ toString b ++ "`"
  | .num (.double x) => "floating point `" ++ Json.doubleStyle.text x ++ "`"
  | .num n => "integer `" ++ n.text ++ "`"
  | .str s => "string " ++ Text.quoted s
  | .arr _ => "sequence"
  | .obj _ => "map"

def message : DecodeError → String
  | invalidType found expected => "invalid type: " ++ describe found ++ ", expected " ++ expected
  | invalidValue found expected => "invalid value: " ++ describe found ++ ", expected " ++ expected
  | invalidLength count expected =>
    "invalid length " ++ toString count ++ ", expected " ++ expected
  | missingField name => "missing field `" ++ name ++ "`"
  | unknownVariant name known =>
    "unknown variant `" ++ name ++ "`, expected one of " ++ quotedNames known
  | noVariant type => "data did not match any variant of untagged enum " ++ type
  | malformed complaint => complaint

end DecodeError

abbrev Decoder (α : Type) := Json → Except DecodeError α

namespace Decoder

def json : Decoder Json := .ok

def string : Decoder String
  | .str s => .ok s
  | v => .error (.invalidType v "a string")

def bool : Decoder Bool
  | .bool b => .ok b
  | v => .error (.invalidType v "a boolean")

/-- A natural number below a bound. Doubles are never taken for integers. -/
def natBelow (bound : Nat) (type : String) : Decoder Nat
  | .num (.natural n) =>
    if n.toNat < bound then .ok n.toNat else .error (.invalidValue (.num (.natural n)) type)
  | .num (.negative m) => .error (.invalidValue (.num (.negative m)) type)
  | v => .error (.invalidType v type)

def u32 : Decoder UInt32 := fun v => (natBelow UInt32.size "u32" v).map Nat.toUInt32

def u64 : Decoder UInt64 := fun v => (natBelow UInt64.size "u64" v).map Nat.toUInt64

def each {α : Type} (item : Decoder α) : List Json → Except DecodeError (List α)
  | [] => .ok []
  | v :: rest => do return (← item v) :: (← each item rest)

def list {α : Type} (item : Decoder α) : Decoder (List α)
  | .arr items => each item items
  | v => .error (.invalidType v "a sequence")

def eachMember {α : Type} (value : Decoder α) :
    List (String × Json) → Except DecodeError (List (String × α))
  | [] => .ok []
  | (k, v) :: rest => do return (k, ← value v) :: (← eachMember value rest)

def table {α : Type} (value : Decoder α) : Decoder (Table String α)
  | .obj members => (eachMember value members).map Table.ofList
  | v => .error (.invalidType v "a map")

def nullable {α : Type} (value : Decoder α) : Decoder (Option α)
  | .null => .ok none
  | v => (value v).map some

end Decoder

/-- One field as it is checked, without its value. -/
structure FieldRule where
  name : String
  required : Bool
  check : Json → Except DecodeError Unit

/-- The fields of a compound value in order, and how to put the value together from a lookup. -/
structure Layout (α : Type) where
  rules : List FieldRule
  build : (String → Option Json) → Except DecodeError α

namespace Layout

instance : Applicative Layout where
  pure a := ⟨[], fun _ => .ok a⟩
  seq f x := ⟨f.rules ++ (x ()).rules, fun find => do
    let g ← f.build find
    let a ← (x ()).build find
    return g a⟩

def required {α : Type} (name : String) (value : Decoder α) : Layout α :=
  ⟨[⟨name, true, fun v => (value v).map fun _ => ()⟩], fun find =>
    match find name with
    | some v => value v
    | none => .error (.missingField name)⟩

def optional {α : Type} (name : String) (default : α) (value : Decoder α) : Layout α :=
  ⟨[⟨name, false, fun v => (value v).map fun _ => ()⟩], fun find =>
    match find name with
    | some v => value v
    | none => .ok default⟩

def optionalNullable {α : Type} (name : String) (value : Decoder α) : Layout (Option α) :=
  optional name none (Decoder.nullable value)

/-- Checks the members that belong to a field, in the order of the members. -/
def checkMembers (rules : List FieldRule) : List (String × Json) → Except DecodeError Unit
  | [] => .ok ()
  | (k, v) :: rest =>
    match rules.find? (·.name == k) with
    | none => checkMembers rules rest
    | some rule => do
      rule.check v
      checkMembers rules rest

/-- The first field that has no value and needs one. -/
def firstMissing (find : String → Option Json) (rules : List FieldRule) : Option FieldRule :=
  rules.find? fun r => r.required && (find r.name).isNone

def ofObject {α : Type} (layout : Layout α) (members : List (String × Json)) :
    Except DecodeError α := do
  checkMembers layout.rules members
  let find := fun name => Entries.get? name members
  match firstMissing find layout.rules with
  | some rule => .error (.missingField rule.name)
  | none => layout.build find

def sizeText (count : Nat) : String :=
  toString count ++ if count = 1 then " element" else " elements"

def ofArray {α : Type} (type : String) (layout : Layout α) (items : List Json) :
    Except DecodeError α := do
  let members := (layout.rules.map (·.name)).zip items
  checkMembers layout.rules members
  match (layout.rules.drop items.length).findIdx? (·.required) with
  | some i =>
    .error (.invalidLength (items.length + i)
      ("struct " ++ type ++ " with " ++ sizeText layout.rules.length))
  | none =>
    if items.length > layout.rules.length then
      .error (.invalidLength items.length "fewer elements in array")
    else layout.build fun name => Entries.get? name members

def decode {α : Type} (type : String) (layout : Layout α) : Decoder α
  | .obj members => layout.ofObject members
  | .arr items => layout.ofArray type items
  | v => .error (.invalidType v ("struct " ++ type))

/-- Whether a field of the layout comes twice. -/
def repeatsField {α : Type} (layout : Layout α) (members : List (String × Json)) : Bool :=
  layout.rules.any fun rule => 1 < (members.filter (·.1 == rule.name)).length

/-- Refuses an object that has a field twice. -/
def decodeOnce {α : Type} (type : String) (layout : Layout α) : Decoder α
  | .obj members =>
    if layout.repeatsField members then .error (.malformed "duplicate field")
    else layout.ofObject members
  | v => layout.decode type v

end Layout

namespace Json

/-- A member that is left out in some cases. -/
def memberUnless (omitted : Bool) (name : String) (v : Json) : List (String × Json) :=
  if omitted then [] else [(name, v)]

def memberIfSome {α : Type} (name : String) (value : α → Json) (x : Option α) :
    List (String × Json) :=
  match x with
  | none => []
  | some a => [(name, value a)]

def strings (xs : List String) : Json := arr (xs.map str)

def ofTable {α : Type} (value : α → Json) (t : Table String α) : Json :=
  obj (t.toList.map fun (k, v) => (k, value v))

def u32 (n : UInt32) : Json := nat n.toUInt64

end Json

end Reconciliation
