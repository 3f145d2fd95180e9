import Reconciliation.Double

/-! Every real number between the two midpoints around a magnitude rounds to that magnitude. The
shortest decimal is the one with the fewest digits in this interval, and of those the one nearest
to the magnitude. For each digit count only the two neighbours on that decimal grid are tested: if
any point of the grid lies in the interval, one of the two does. -/
namespace Reconciliation.Double

/-- `digits * 10 ^ exponent`. -/
structure Decimal where
  digits : Nat
  exponent : Int
deriving DecidableEq, Repr

/-- The decimal as a fraction. -/
def Decimal.ratio (d : Decimal) : Nat × Nat :=
  if d.exponent < 0 then (d.digits, Nat.pow 10 d.exponent.natAbs)
  else (d.digits * Nat.pow 10 d.exponent.natAbs, 1)

def Decimal.trimmed : Nat → Decimal → Decimal
  | 0, d => d
  | fuel + 1, d =>
    if d.digits ≠ 0 ∧ d.digits % 10 = 0 then trimmed fuel ⟨d.digits / 10, d.exponent + 1⟩ else d

/-- Whether a decimal lies between the two midpoints around the magnitude of this rank. The
midpoints themselves round to the magnitude exactly when its significand is even. All numbers
are compared in units of `2 ^ (-1076)`, in which both midpoints are whole. -/
def readsBack (rank : Nat) (d : Decimal) : Bool :=
  let unit := Nat.pow 2 (scale rank)
  let mid := 4 * significand rank * unit
  let above := mid + 2 * unit
  let narrow := significand rank = Nat.pow 2 52 ∧ scale rank ≠ 0
  let below := if narrow then mid - unit else mid - 2 * unit
  let (num, den) := d.ratio
  let value := num * Nat.pow 2 1076
  if significand rank % 2 = 0 then below * den ≤ value && value ≤ above * den
  else below * den < value && value < above * den

/-- The largest `e` with `10 ^ e ≤ num / den`, for a positive fraction. The estimate from the
binary length is off by at most one. -/
def decimalExponent (num den : Nat) : Int :=
  let estimate := (((num.log2 : Int) - den.log2) * 30103).fdiv 100000
  let reaches (e : Int) : Bool :=
    if e < 0 then den ≤ num * Nat.pow 10 e.natAbs else den * Nat.pow 10 e.natAbs ≤ num
  if reaches (estimate + 1) then estimate + 1
  else if reaches estimate then estimate
  else estimate - 1

/-- The neighbours with `count` digits of a positive fraction, the nearer first. -/
def neighbours (num den : Nat) (count : Nat) : List Decimal :=
  let k := decimalExponent num den - (count - 1 : Nat)
  let (n, d) := if k < 0 then (num * Nat.pow 10 k.natAbs, den) else (num, den * Nat.pow 10 k.natAbs)
  let low : Decimal := ⟨n / d, k⟩
  let high : Decimal := ⟨n / d + 1, k⟩
  if 2 * (n % d) ≤ d then [low, high] else [high, low]

/-- The shortest decimal that rounds to the magnitude of this rank. Seventeen digits always
suffice. -/
def shortest (rank : Nat) : Decimal :=
  if rank = 0 then ⟨0, 0⟩ else
    let num := significand rank * Nat.pow 2 (scale rank)
    let candidates := (List.range 17).flatMap fun i => neighbours num (Nat.pow 2 1074) (i + 1)
    ((candidates.find? (readsBack rank)).getD ⟨0, 0⟩).trimmed 20

end Reconciliation.Double
