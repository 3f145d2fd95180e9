/-! Labels of host names that are not ASCII, as RFC 3492 writes them: the ASCII characters first,
then for each other character, from the lowest on, how far the decoder has to go from the one
before. -/
namespace Reconciliation.Url.Punycode

def digit (n : Nat) : Char := if n < 26 then Char.ofNat (97 + n) else Char.ofNat (22 + n)

/-- How much of a digit's range the last digit takes, at a position. -/
def threshold (bias position : Nat) : Nat := max 1 (min 26 (position - bias))

theorem one_le_threshold (bias position : Nat) : 1 ≤ threshold bias position := by
  simp only [threshold]
  omega

/-- A number in digits, the lowest first. -/
def number (bias position n : Nat) : List Char :=
  let t := threshold bias position
  if t ≤ n then digit (t + (n - t) % (36 - t)) :: number bias (position + 36) ((n - t) / (36 - t))
  else [digit n]
termination_by n
decreasing_by
  have h1 := one_le_threshold bias position
  exact Nat.lt_of_le_of_lt (Nat.div_le_self _ _) (by omega)

def reduce (position n : Nat) : Nat × Nat :=
  if 455 < n then reduce (position + 36) (n / 35) else (position, n)
termination_by n
decreasing_by omega

/-- The bias after a step, which depends on how large the step was. -/
def adapt (first : Bool) (step points : Nat) : Nat :=
  let n := if first then step / 700 else step / 2
  let (position, n) := reduce 0 (n + n / points)
  position + 36 * n / (n + 38)

structure State where
  /-- How many characters are written. -/
  handled : Nat
  bias : Nat := 72
  delta : Nat := 0
  text : List Char

/-- Goes over the label once for a character `c` that comes next, counting what is lower. -/
def visit (c : Nat) (first : Bool) (s : State) (x : Char) : State :=
  if x.toNat < c then { s with delta := s.delta + 1 }
  else if x.toNat = c then
    { handled := s.handled + 1
      bias := adapt first s.delta (s.handled + 1)
      delta := 0
      text := s.text ++ number s.bias 36 s.delta }
  else s

def visitAll (c basic : Nat) (label : List Char) (s : State) : State :=
  label.foldl (fun s x => visit c (s.handled = basic) s x) s

/-- One round for each of the characters that are not ASCII, in ascending order. -/
def rounds (basic : Nat) (label : List Char) : (low : Nat) → List Nat → State → State
  | _, [], s => s
  | low, c :: rest, s =>
    let s := { s with delta := s.delta + (c - low) * (s.handled + 1) }
    let s := visitAll c basic label s
    rounds basic label (c + 1) rest { s with delta := s.delta + 1 }

def encode (label : List Char) : List Char :=
  let basic := label.filter (·.toNat < 128)
  let others := ((label.map Char.toNat).filter (128 ≤ ·)).mergeSort.eraseDups
  let start := if basic.isEmpty then [] else basic ++ ['-']
  (rounds basic.length label 128 others { handled := basic.length, text := start }).text

end Reconciliation.Url.Punycode
