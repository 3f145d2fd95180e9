namespace Reconciliation.Yaml

def isSpace (c : Char) : Bool := c = ' '

/-- A space or a tab. -/
def isBlank (c : Char) : Bool := c = ' ' || c = '\t'

def isBreak (c : Char) : Bool :=
  c = '\n' || c = '\r' || c = '\u0085' || c = '\u2028' || c = '\u2029'

/-- A space, a tab, a break or the end of the text, which a NUL stands for as well. -/
def endsWord : Option Char → Bool
  | none => true
  | some c => isBlank c || isBreak c || c.toNat = 0

/-- A place, counted in characters from zero. -/
structure Mark where
  index : Nat := 0
  line : Nat := 0
  column : Nat := 0
deriving DecidableEq, Repr

structure Spot where
  char : Char
  mark : Mark

namespace Mark

def next (m : Mark) : Mark := { m with index := m.index + 1, column := m.column + 1 }

def nextLine (m : Mark) : Mark := ⟨m.index + 1, m.line + 1, 0⟩

/-- The place after a character. A carriage return before a line feed does not end the line. -/
def after (m : Mark) (c : Char) (following : Option Char) : Mark :=
  if isBreak c && !(c = '\r' && following = some '\n') then m.nextLine else m.next

/-- The way a place is told to a reader, who counts lines and columns from one. -/
def text (m : Mark) : String :=
  "line " ++ toString (m.line + 1) ++ " column " ++ toString (m.column + 1)

end Mark

abbrev Spots := List Spot

namespace Spots

/-- The characters with their places, and the place after the last of them. -/
def place (m : Mark) : List Char → Spots × Mark
  | [] => ([], m)
  | c :: rest =>
    let (spots, stop) := place (m.after c rest.head?) rest
    (⟨c, m⟩ :: spots, stop)

def head (s : Spots) : Option Char := s.head?.map (·.char)

/-- Whether the spot is the first half of a break made of two characters. -/
def halfBreak (a : Spot) (rest : Spots) : Bool := a.char = '\r' && head rest = some '\n'

/-- A break as it is kept in a text: all but two kinds become line feeds. -/
def keptBreak (c : Char) : Char := if c = '\u2028' || c = '\u2029' then c else '\n'

def takeBreak : Spots → Option (Char × Spots)
  | [] => none
  | a :: rest =>
    if halfBreak a rest then some ('\n', rest.drop 1)
    else if isBreak a.char then some (keptBreak a.char, rest)
    else none

def isMarker (a b c : Spot) : Bool :=
  (a.char = '-' && b.char = '-' && c.char = '-') || (a.char = '.' && b.char = '.' && c.char = '.')

/-- Whether a line starts here with one of the marks between documents. -/
def atMarker : Spots → Bool
  | a :: b :: c :: rest => a.mark.column = 0 && isMarker a b c && endsWord (head rest)
  | _ => false

/-- The characters that a text may hold at all. -/
def isAllowed (c : Char) : Bool :=
  let n := c.toNat
  n = 0x9 || n = 0xa || n = 0xd || (0x20 ≤ n && n ≤ 0x7e) || n = 0x85 || (0xa0 ≤ n && n ≤ 0xd7ff) ||
    (0xe000 ≤ n && n ≤ 0xfffd) || 0x10000 ≤ n

end Spots

end Reconciliation.Yaml
