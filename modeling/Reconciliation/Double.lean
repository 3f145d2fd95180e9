/-! A finite binary64 number is a sign and the position of its magnitude in the increasing list of
all finite magnitudes. Arithmetic goes through exact rational numbers: `ofRatio` is the only
rounding step, to the nearest magnitude and to the even one of two equally near. -/
namespace Reconciliation

/-- The number of finite magnitudes of the binary64 format. -/
def Double.magnitudes : Nat := 2047 * Nat.pow 2 52

structure Double where
  negative : Bool
  rank : Fin Double.magnitudes
deriving DecidableEq, Repr

namespace Double

def zero : Double := ⟨false, ⟨0, by decide⟩⟩

instance : Inhabited Double := ⟨zero⟩

def neg (x : Double) : Double := { x with negative := !x.negative }

def isZero (x : Double) : Bool := x.rank.val == 0

/-- The integer significand of a magnitude, below `2 ^ 53`. -/
def significand (rank : Nat) : Nat :=
  if rank < Nat.pow 2 52 then rank else Nat.pow 2 52 + rank % Nat.pow 2 52

/-- A magnitude is `significand * 2 ^ (scale - 1074)`. -/
def scale (rank : Nat) : Nat :=
  if rank < Nat.pow 2 52 then 0 else rank / Nat.pow 2 52 - 1

/-- The exact value of a magnitude as a numerator and a denominator. -/
def ratio (x : Double) : Nat × Nat :=
  (significand x.rank * Nat.pow 2 (scale x.rank), Nat.pow 2 1074)

/-- `num / den` to the nearest integer, a half to the even neighbour. -/
def roundHalfEven (num den : Nat) : Nat :=
  let q := num / den
  let r := num % den
  if 2 * r < den then q
  else if 2 * r > den then q + 1
  else if q % 2 = 0 then q else q + 1

/-- How many times the unit `2 ^ (-1074)` is doubled to become the spacing of the magnitudes
around `num / den`. -/
def spacing (num den : Nat) : Nat :=
  let units := num * Nat.pow 2 1074 / den
  units.log2 - 52

/-- The magnitude nearest to `num / den`, or nothing if that lies past the largest one. -/
def magnitude? (num den : Nat) : Option (Fin magnitudes) :=
  let s := spacing num den
  let rank := s * Nat.pow 2 52 + roundHalfEven (num * Nat.pow 2 1074) (den * Nat.pow 2 s)
  if h : rank < magnitudes then some ⟨rank, h⟩ else none

def ofRatio (negative : Bool) (num den : Nat) : Option Double :=
  (magnitude? num den).map (⟨negative, ·⟩)

def ofNat (n : Nat) : Option Double := ofRatio false n 1

def mul (x y : Double) : Option Double :=
  ofRatio (x.negative != y.negative) (x.ratio.1 * y.ratio.1) (x.ratio.2 * y.ratio.2)

def div (x y : Double) : Option Double :=
  ofRatio (x.negative != y.negative) (x.ratio.1 * y.ratio.2) (x.ratio.2 * y.ratio.1)

/-- The number nearest to `digits * 10 ^ exponent`, or nothing if that is too large. The two
early cases keep the powers of ten small and do not change the answer. -/
def ofDecimal (negative : Bool) (digits : Nat) (exponent : Int) : Option Double :=
  let size : Int := digits.log2 / 3 + 1
  if digits = 0 || exponent + size < -400 then some ⟨negative, zero.rank⟩
  else if exponent > 400 then none
  else if exponent < 0 then ofRatio negative digits (Nat.pow 10 exponent.natAbs)
  else ofRatio negative (digits * Nat.pow 10 exponent.natAbs) 1

end Double

end Reconciliation
