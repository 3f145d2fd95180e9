import Reconciliation.Text.Quoted
import Reconciliation.Yaml.Node
import Reconciliation.Yaml.Scalar

/-! What a document says when nothing is expected of it. Collections may be nested 128 deep, a
mapping has no key twice, and aliases may be followed a hundred times for each part of the
document. -/
namespace Reconciliation.Yaml

inductive Value where
  | scalar (s : Scalar)
  | sequence (items : List Value)
  | mapping (entries : List (Value × Value))
  /-- A value with a tag of its own. -/
  | tagged (tag : String) (v : Value)

namespace Scalar

/-- Integers and floats are kept apart. -/
def same : Scalar → Scalar → Bool
  | float x, float y => x.same y
  | a, b => a = b

/-- The integers that fit 64 bits, unsigned or signed. -/
def fits64 (n : Int) : Bool := -(Nat.pow 2 63 : Int) ≤ n && n < (UInt64.size : Int)

end Scalar

namespace Value

def nobang (tag : String) : String :=
  match tag.toList with
  | '!' :: c :: rest => String.ofList (c :: rest)
  | cs => String.ofList cs

mutual

/-- Sameness of keys: the order of the entries of a mapping does not matter. -/
def same : Value → Value → Bool
  | scalar a, scalar b => a.same b
  | sequence a, sequence b => sameItems a b
  | mapping a, mapping b => a.length == b.length && sameEntries a b
  | tagged s a, tagged t b => nobang s == nobang t && same a b
  | _, _ => false

def sameItems : List Value → List Value → Bool
  | [], [] => true
  | a :: as, b :: bs => same a b && sameItems as bs
  | _, _ => false

def sameEntries : List (Value × Value) → List (Value × Value) → Bool
  | [], _ => true
  | (k, v) :: rest, entries =>
    entries.any (fun e => same k e.1 && same v e.2) && sameEntries rest entries

end

def untagged : Value → Value
  | tagged _ v => v.untagged
  | v => v

def isNull (v : Value) : Bool :=
  match v.untagged with
  | scalar .null => true
  | _ => false

def coreTag (name : String) : String := "tag:yaml.org,2002:" ++ name

/-- A tag that is not of the core schema is told by its exclamation mark. -/
def localTag? (tag : Option String) : Option String :=
  tag.filter (·.toList.head? = some '!') |>.map nobang

def ofBool? (s : String) : Option Scalar :=
  if Scalar.trueSpellings.contains s then some (.bool true)
  else if Scalar.falseSpellings.contains s then some (.bool false)
  else none

def ofScalar (style : ScalarStyle) (text : String) : Scalar :=
  if style = .plain then Scalar.ofPlain text else .text text

/-- What a scalar stands for by its tag, or by its spelling if it has none or a local one. -/
def ofTaggedScalar? (tag : Option String) (style : ScalarStyle) (text : String) : Option Scalar :=
  match tag with
  | none => some (ofScalar style text)
  | some tag =>
    if (localTag? (some tag)).isSome then some (ofScalar style text)
    else if tag = coreTag "bool" then ofBool? text
    else if tag = coreTag "int" then ((Scalar.int? text.toList).filter Scalar.isWideInt).map .int
    else if tag = coreTag "float" then (Scalar.float? text.toList).map .float
    else if tag = coreTag "null" then
      if Scalar.nullSpellings.contains text then some .null else none
    else some (.text text)

def fits : Scalar → Bool
  | .int n => Scalar.fits64 n
  | _ => true

/-- A step of reading, which counts the aliases followed. -/
abbrev Read := StateT Nat Option

def follow (d : Document) (n : Node) : Read Node := do
  match n with
  | .aliasOf _ =>
    modify (· + 1)
    if (← get) > 100 * d.root.size then failure
    return d.resolve n
  | n => return n

def tag (name : Option String) (v : Value) : Value :=
  match name with
  | some name => tagged name v
  | none => v

def ofLeaf : Node → Read Value
  | .nothing => return scalar .null
  | .scalar _ name style text => do
    match (ofTaggedScalar? name style text).filter fits with
    | some s => return tag (localTag? name) (scalar s)
    | none => failure
  | _ => failure

/-- The entries of a mapping, after the keys that were seen. -/
def ofEntries (read : Node → Read Value) :
    List Value → List (Node × Node) → Read (List (Value × Value))
  | _, [] => return []
  | seen, (k, v) :: rest => do
    let key ← read k
    if seen.any (same key) then failure
    let value ← read v
    return (key, value) :: (← ofEntries read (key :: seen) rest)

/-- The value of a node, with `depth` collections still allowed inside each other. -/
def ofNode (d : Document) : (depth : Nat) → Node → Read Value
  | 0, n => do ofLeaf (← follow d n)
  | depth + 1, n => do
    match ← follow d n with
    | .sequence _ name items =>
      return tag (localTag? name) (sequence (← items.mapM (ofNode d depth)))
    | .mapping _ name entries =>
      return tag (localTag? name) (mapping (← ofEntries (ofNode d depth) [] entries))
    | leaf => ofLeaf leaf

def deepest : Nat := 128

def ofDocument? (d : Document) : Option Value := ((ofNode d deepest d.root).run 0).map (·.1)

end Value

/-- Why a value is no JSON value. -/
inductive ValueError where
  /-- A key that is no text. -/
  | key (found : Value) (expected : String)
  | tagged

namespace Value

/-- How a message names the value it found. -/
def describe : Value → String
  | scalar .null => "unit value"
  | scalar (.bool b) => "boolean `" ++ toString b ++ "`"
  | scalar (.int n) => "integer `" ++ toString n ++ "`"
  | scalar (.float x) => "floating point `" ++ x.text ++ "`"
  | scalar (.text s) => "string " ++ Text.quoted s
  | sequence _ => "sequence"
  | mapping _ => "map"
  | tagged _ v => v.describe

end Value

def ValueError.message : ValueError → String
  | key found expected => "invalid type: " ++ found.describe ++ ", expected " ++ expected
  | tagged => "invalid type: enum, expected any valid JSON value"

namespace Scalar

/-- An integer of 64 bits, unsigned or signed; others have no JSON form. -/
def intJson (n : Int) : Json :=
  if n < 0 then
    if h : n.natAbs - 1 < Nat.pow 2 63 then .num (.negative ⟨n.natAbs - 1, h⟩) else .null
  else .nat n.natAbs.toUInt64

def toJson : Scalar → Json
  | null => .null
  | bool b => .bool b
  | int n => intJson n
  | float (.finite x) => .num (.double x)
  | float _ => .null
  | text s => .str s

end Scalar

namespace Value

/-- The text of a key. -/
def keyText (first : Bool) (k : Value) : Except ValueError String :=
  match k.untagged with
  | scalar (.text s) => .ok s
  | k => .error (.key k (if first then "a string key" else "a string"))

mutual

def toJson : Value → Except ValueError Json
  | scalar s => .ok s.toJson
  | sequence items => do return .arr (← itemsJson items)
  | mapping entries => do return .obj (Entries.ofList (← entriesJson true entries))
  | tagged .. => .error .tagged

def itemsJson : List Value → Except ValueError (List Json)
  | [] => .ok []
  | v :: rest => do return (← v.toJson) :: (← itemsJson rest)

def entriesJson (first : Bool) : List (Value × Value) → Except ValueError (List (String × Json))
  | [] => .ok []
  | (k, v) :: rest => do
    let key ← keyText first k
    let value ← v.toJson
    return (key, value) :: (← entriesJson false rest)

end

end Value

end Reconciliation.Yaml
