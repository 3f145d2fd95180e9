/-! Bytes are read one character at a time. Where they are no character, the longest start of one
is a single bad run, or one byte if not even that. A lossy reading shows U+FFFD for each bad run.
-/
namespace Reconciliation.Text.Utf8

/-- What a leading byte asks for. -/
structure Lead where
  /-- How many bytes follow. -/
  owed : Nat
  /-- The bounds of the first of them. -/
  low : UInt8 := 0x80
  high : UInt8 := 0xbf

def lead? (b : UInt8) : Option Lead :=
  if b < 0x80 then some { owed := 0 }
  else if 0xc2 ≤ b && b ≤ 0xdf then some { owed := 1 }
  else if b = 0xe0 then some { owed := 2, low := 0xa0 }
  else if b = 0xed then some { owed := 2, high := 0x9f }
  else if 0xe1 ≤ b && b ≤ 0xef then some { owed := 2 }
  else if b = 0xf0 then some { owed := 3, low := 0x90 }
  else if 0xf1 ≤ b && b ≤ 0xf3 then some { owed := 3 }
  else if b = 0xf4 then some { owed := 3, high := 0x8f }
  else none

/-- The bits of a leading byte that belong to the character. -/
def leadBits (owed : Nat) (b : UInt8) : Nat :=
  match owed with
  | 0 => b.toNat
  | owed + 1 => b.toNat % Nat.pow 2 (5 - owed)

/-- Takes the owed bytes as long as they are within bounds. -/
def following (value : Nat) (low high : UInt8) : (owed : Nat) → List UInt8 → Option Nat × List UInt8
  | 0, rest => (some value, rest)
  | _ + 1, [] => (none, [])
  | owed + 1, b :: rest =>
    if low ≤ b && b ≤ high then following (value * 64 + b.toNat % 64) 0x80 0xbf owed rest
    else (none, b :: rest)

theorem length_following_le (value : Nat) (low high : UInt8) (owed : Nat) (bytes : List UInt8) :
    (following value low high owed bytes).2.length ≤ bytes.length := by
  induction owed generalizing value low high bytes with
  | zero => simp [following]
  | succ owed ih =>
    cases bytes with
    | nil => simp [following]
    | cons b rest =>
      simp only [following]
      split
      · exact Nat.le_succ_of_le (ih _ _ _ rest)
      · simp

/-- The first character, or nothing for a bad run, and the bytes after it. -/
def first (b : UInt8) (rest : List UInt8) : Option Char × List UInt8 :=
  match lead? b with
  | none => (none, rest)
  | some l =>
    let (value, rest) := following (leadBits l.owed b) l.low l.high l.owed rest
    (value.map Char.ofNat, rest)

theorem length_first_le (b : UInt8) (rest : List UInt8) :
    (first b rest).2.length ≤ rest.length := by
  simp only [first]
  split
  · simp
  · exact length_following_le ..

/-- The characters, with nothing in the place of each bad run. -/
def chars : List UInt8 → List (Option Char)
  | [] => []
  | b :: rest => (first b rest).1 :: chars (first b rest).2
termination_by bytes => bytes.length
decreasing_by exact Nat.lt_succ_of_le (length_first_le b rest)

def decode? (bytes : List UInt8) : Option String := ((chars bytes).mapM id).map String.ofList

def decodeLossy (bytes : List UInt8) : String :=
  String.ofList ((chars bytes).map (·.getD '\ufffd'))

def encode (s : String) : List UInt8 := s.toUTF8.toList

/-- The last place between two characters that is not beyond the byte, searched backwards from
there. The search ends at the start of the text at the latest. -/
def boundaryUpTo (s : String) : (byte : Nat) → s.Pos
  | 0 => s.startPos
  | byte + 1 =>
    if h : String.Pos.Raw.IsValid s ⟨byte + 1⟩ then ⟨⟨byte + 1⟩, h⟩ else boundaryUpTo s byte

/-- What stands before that place. -/
def takeBytes (budget : Nat) (s : String) : String := (s.sliceTo (boundaryUpTo s budget)).copy

end Reconciliation.Text.Utf8
