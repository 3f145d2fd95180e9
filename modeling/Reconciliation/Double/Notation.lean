import Reconciliation.Double.Shortest

/-! A format that prints numbers is described by one `Style`: which decimal exponents are written
positionally and whether a positive exponent has a sign. The digits are always the shortest that
read back, and a positional form always has a decimal point. -/
namespace Reconciliation.Double

structure Style where
  /-- Whether a number with this decimal exponent is written without an exponent. -/
  positional : Int → Bool
  plusSign : Bool

/-- Positional with at least one decimal, for a positive number. -/
def positionalText (d : Decimal) : String :=
  let ds := toString d.digits
  if d.exponent ≥ 0 then
    ds ++ String.ofList (List.replicate d.exponent.natAbs '0') ++ ".0"
  else
    let places := d.exponent.natAbs
    let padded := String.ofList (List.replicate (places + 1 - ds.length) '0') ++ ds
    let whole := padded.length - places
    String.ofList (padded.toList.take whole) ++ "." ++ String.ofList (padded.toList.drop whole)

/-- One digit before the point, and a point only if a digit follows it. -/
def scientificText (plusSign : Bool) (d : Decimal) : String :=
  let ds := (toString d.digits).toList
  let e := d.exponent + (ds.length - 1 : Nat)
  let mantissa := match ds with
    | [] => ""
    | [c] => String.ofList [c]
    | c :: rest => String.ofList (c :: '.' :: rest)
  mantissa ++ "e" ++ (if plusSign && e ≥ 0 then "+" else "") ++ toString e

def Style.text (style : Style) (x : Double) : String :=
  let sign := if x.negative then "-" else ""
  if x.isZero then sign ++ "0.0" else
    let d := shortest x.rank
    let e := d.exponent + ((toString d.digits).length - 1 : Nat)
    sign ++ (if style.positional e then positionalText d else scientificText style.plusSign d)

end Reconciliation.Double
