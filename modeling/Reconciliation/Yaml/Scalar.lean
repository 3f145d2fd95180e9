import Reconciliation.Double.Extended

/-! A plain scalar is null, a boolean, a number or a text, by the core schema: `~` and three
spellings of null, three spellings of each boolean, integers with a sign and in bases two, eight,
ten and sixteen, and floats. Digits with a needless leading zero are a text. -/
namespace Reconciliation.Yaml

open Double (Extended)
open Double.Extended (dropSign)

inductive Scalar where
  | null
  | bool (b : Bool)
  | int (n : Int)
  | float (x : Extended)
  | text (s : String)
deriving DecidableEq, Repr

namespace Scalar

def nullSpellings : List String := ["null", "Null", "NULL", "~"]

def trueSpellings : List String := ["true", "True", "TRUE"]

def falseSpellings : List String := ["false", "False", "FALSE"]

/-- More than one digit, the first of them a zero. -/
def hasNeedlessZero (cs : List Char) : Bool :=
  match dropSign cs with
  | '0' :: d :: rest => (d :: rest).all Json.isDigit
  | _ => false

/-- The value of a digit in a base up to sixteen. -/
def digitIn? (base : Nat) (c : Char) : Option Nat := (Json.hexValue? c).filter (· < base)

def natIn? (base : Nat) : List Char → Option Nat
  | [] => none
  | cs => cs.foldlM (fun n c => (digitIn? base c).map (n * base + ·)) 0

/-- Digits after a base mark, or decimal digits without a needless zero. -/
def magnitude? (cs : List Char) : Option Nat :=
  let marked := match cs with
    | '0' :: 'x' :: rest => natIn? 16 rest
    | '0' :: 'o' :: rest => natIn? 8 rest
    | '0' :: 'b' :: rest => natIn? 2 rest
    | _ => none
  match marked with
  | some n => some n
  | none => if hasNeedlessZero cs then none else natIn? 10 cs

def int? (cs : List Char) : Option Int :=
  match cs with
  | '-' :: rest => (magnitude? rest).map fun n => -(n : Int)
  | '+' :: rest => (magnitude? rest).map fun n => (n : Int)
  | cs => (magnitude? cs).map fun n => (n : Int)

/-- The integers that are kept as integers: those of 128 bits. -/
def isWideInt (n : Int) : Bool := -(Nat.pow 2 127 : Int) ≤ n && n < (Nat.pow 2 128 : Int)

def infinitySpellings : List String := [".inf", ".Inf", ".INF"]

def nanSpellings : List String := [".nan", ".NaN", ".NAN"]

/-- A number past the largest double is no float. -/
def float? (cs : List Char) : Option Extended :=
  let unsigned := String.ofList (dropSign cs)
  if infinitySpellings.contains unsigned then some (.infinite (cs.head? == some '-'))
  else if nanSpellings.contains (String.ofList cs) then some .nan
  else (Extended.ofDecimal? cs).filter (·.isFinite)

def ofPlain (s : String) : Scalar :=
  let cs := s.toList
  if s.isEmpty || nullSpellings.contains s then .null
  else if trueSpellings.contains s then .bool true
  else if falseSpellings.contains s then .bool false
  else
    match (int? cs).filter isWideInt with
    | some n => .int n
    | none =>
      match if hasNeedlessZero cs then none else float? cs with
      | some x => .float x
      | none => .text s

/-- Whether a text would be read as something else, or might be by other readers, if it were
written plainly. -/
def needsQuotes (s : String) : Bool :=
  match ofPlain s with
  | .text _ => hasNeedlessZero s.toList
  | _ => true

end Scalar

end Reconciliation.Yaml
