import Reconciliation.Yaml.Value

/-! A reader takes a node at a path of its document to a value, or to a complaint with the path and
the place. What is expected decides how a scalar is taken, so that any scalar can be read as a
text. -/
namespace Reconciliation.Yaml

structure ReadError where
  path : String
  mark : Mark
  complaint : String

/-- The path is left out at the root, and the place at the start of the text. -/
def ReadError.message (e : ReadError) : String :=
  (if e.path.isEmpty then "" else e.path ++ ": ") ++ e.complaint ++
    (if e.mark.line = 0 && e.mark.column = 0 then "" else " at " ++ e.mark.text)

abbrev Reader (α : Type) := (d : Document) → (path : String) → Node → Except ReadError α

namespace Node

def mark : Node → Mark
  | nothing | aliasOf _ => {}
  | scalar m .. | sequence m .. | mapping m .. => m

/-- How a message names the node it found. -/
def describe : Node → String
  | nothing | aliasOf _ => "unit value"
  | sequence .. => "sequence"
  | mapping .. => "map"
  | scalar _ tag style text =>
    (Value.scalar ((Value.ofTaggedScalar? tag style text).getD (.text text))).describe

/-- Nothing after a colon. -/
def isBlank : Node → Bool
  | nothing => true
  | scalar _ _ .plain text => text.isEmpty
  | _ => false

end Node

namespace Reader

def unexpected {α : Type} (path : String) (n : Node) (expected : String) : Except ReadError α :=
  .error ⟨path, n.mark, "invalid type: " ++ n.describe ++ ", expected " ++ expected⟩

/-- The text of any scalar as it is spelled. -/
def text (expected : String) : Reader String := fun d path n =>
  match d.resolve n with
  | .scalar _ _ _ s => .ok s
  | n => unexpected path n expected

/-- Whether a scalar may be taken by its spelling as something of the core schema. -/
def isBare (core : String) (tag : Option String) : ScalarStyle → Bool
  | .plain => true
  | .literal => tag = some (Value.coreTag core)
  | _ => false

def bySpelling {α : Type} (core expected : String) (ofText? : String → Option α) : Reader α :=
  fun d path n =>
    match d.resolve n with
    | .scalar mark tag style s =>
      match if isBare core tag style then ofText? s else none with
      | some a => .ok a
      | none => unexpected path (.scalar mark tag style s) expected
    | n => unexpected path n expected

def bool : Reader Bool := bySpelling "bool" "a boolean" fun s =>
  if Scalar.trueSpellings.contains s then some true
  else if Scalar.falseSpellings.contains s then some false
  else none

/-- An integer without a minus sign. -/
def natural? (bound : Nat) (s : String) : Option Nat :=
  if s.toList.head? = some '-' then none
  else (Scalar.int? s.toList).map Int.toNat |>.filter (· < bound)

def u64 : Reader UInt64 :=
  bySpelling "int" "u64" fun s => (natural? UInt64.size s).map Nat.toUInt64

/-- Whether a node says that there is no value. One that is tagged as null has to be spelled so. -/
def absent? : Node → Option Bool
  | .nothing => some true
  | .scalar _ none .plain s => some (s.isEmpty || Scalar.nullSpellings.contains s)
  | .scalar _ (some tag) .plain s =>
    if tag ≠ Value.coreTag "null" then some false
    else if Scalar.nullSpellings.contains s then some true
    else none
  | _ => some false

def nullable {α : Type} (read : Reader α) : Reader (Option α) := fun d path n =>
  let found := d.resolve n
  match absent? found with
  | some true => .ok none
  | some false => (read d path n).map some
  | none => .error ⟨path, found.mark, "invalid value: " ++ found.describe ++ ", expected null"⟩

def item (path : String) (i : Nat) : String := path ++ "[" ++ toString i ++ "]"

def items {α : Type} (read : Reader α) (d : Document) (path : String) :
    (i : Nat) → List Node → Except ReadError (List α)
  | _, [] => .ok []
  | i, n :: rest => do return (← read d (item path i) n) :: (← items read d path (i + 1) rest)

def list {α : Type} (read : Reader α) : Reader (List α) := fun d path n =>
  match d.resolve n with
  | .sequence _ _ ns => items read d path 0 ns
  | n => if n.isBlank then .ok [] else unexpected path n "a sequence"

/-- The path of the value under a key. A key that is an alias is not spelled out. -/
def child (path : String) (key : Node) : String :=
  let name := match key with
    | .scalar _ _ _ s => s
    | _ => "?"
  if path.isEmpty then name else path ++ "." ++ name

/-- The fields of a structure by name: each reads a value and tells how it changes the structure. -/
abbrev Fields (α : Type) := List (String × Reader (α → α))

def field {α β : Type} (name : String) (read : Reader β) (set : β → α → α) :
    String × Reader (α → α) :=
  (name, fun d path n => (read d path n).map set)

/-- Reads the entries in their order. Unknown keys are passed over and their values not read. -/
def entries {α : Type} (fields : Fields α) (d : Document) (path : String) (mark : Mark) :
    List String → α → List (Node × Node) → Except ReadError α
  | _, a, [] => .ok a
  | seen, a, (key, value) :: rest => do
    let name ← text "field identifier" d path key
    match fields.lookup name with
    | none => entries fields d path mark seen a rest
    | some read =>
      if seen.contains name then throw ⟨path, mark, "duplicate field `" ++ name ++ "`"⟩
      let set ← read d (child path key) value
      entries fields d path mark (name :: seen) (set a) rest

/-- Reads a mapping into a structure, from what it is without any field. -/
def record {α : Type} (type : String) (start : α) (fields : Fields α) : Reader α :=
  fun d path n =>
    match d.resolve n with
    | .mapping mark _ ns => entries fields d path mark [] start ns
    | n => if n.isBlank then .ok start else unexpected path n ("struct " ++ type)

/-- Goes on from what was read. A complaint is about the whole node. -/
def andThen {α β : Type} (read : Reader α) (finish : α → Except String β) : Reader β :=
  fun d path n => do
    match finish (← read d path n) with
    | .ok b => return b
    | .error complaint => throw ⟨path, (d.resolve n).mark, complaint⟩

end Reader

end Reconciliation.Yaml
