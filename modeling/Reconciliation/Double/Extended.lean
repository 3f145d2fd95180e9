import Reconciliation.Double.Notation
import Reconciliation.Json.Reader

namespace Reconciliation

inductive Double.Extended where
  | finite (x : Double)
  | infinite (negative : Bool)
  | nan
deriving DecidableEq, Repr

namespace Double.Extended

/-- Equality of numbers: the two zeros are the same, and not-a-number is the same as itself. -/
def same : Extended → Extended → Bool
  | finite x, finite y => x = y || (x.isZero && y.isZero)
  | x, y => x = y

def plainStyle : Style := ⟨fun _ => true, false⟩

/-- Always positional. -/
def text : Extended → String
  | finite x => plainStyle.text x
  | infinite negative => if negative then "-inf" else "inf"
  | nan => "NaN"

def dropSign : List Char → List Char
  | '-' :: rest => rest
  | '+' :: rest => rest
  | cs => cs

/-- The significand and the exponent of an unsigned spelling. -/
def decimal? (cs : List Char) : Option (Nat × Int) :=
  let (whole, rest) := Json.digits cs
  let (fraction, rest) := match rest with
    | '.' :: rest => Json.digits rest
    | rest => ([], rest)
  if whole.isEmpty && fraction.isEmpty then none else
    let significand := Json.decimalValue (whole ++ fraction)
    match rest with
    | [] => some (significand, -(fraction.length : Int))
    | e :: rest =>
      if e = 'e' || e = 'E' then
        let (ds, after) := Json.digits (dropSign rest)
        if ds.isEmpty || !after.isEmpty then none else
          let exponent : Int := Json.decimalValue ds
          let exponent := if rest.head? = some '-' then -exponent else exponent
          some (significand, exponent - fraction.length)
      else none

/-- The nearest number to a spelling with or without a sign, infinite past the largest. -/
def ofDecimal? (cs : List Char) : Option Extended :=
  let negative := cs.head? == some '-'
  (decimal? (dropSign cs)).map fun (digits, exponent) =>
    match Double.ofDecimal negative digits exponent with
    | some x => finite x
    | none => infinite negative

def isFinite : Extended → Bool
  | finite _ => true
  | _ => false

end Double.Extended

end Reconciliation
