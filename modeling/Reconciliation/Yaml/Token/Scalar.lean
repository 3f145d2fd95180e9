import Reconciliation.Json.Reader
import Reconciliation.Yaml.Token

/-! How the five styles are read. Inside plain and quoted scalars a line break is folded: a single
one becomes a space, of several the first is dropped. Block scalars keep their lines as they are or
fold them, and end where the indentation does. -/
namespace Reconciliation.Yaml

/-- The blanks and breaks between two words. -/
structure Gap where
  blanks : List Char := []
  /-- Whether a line has ended. Blanks after that are dropped. -/
  broken : Bool := false
  first : List Char := []
  more : List Char := []

namespace Gap

def addBreak (g : Gap) (c : Char) : Gap :=
  if g.broken then { g with more := g.more ++ [c] }
  else { g with blanks := [], broken := true, first := [c] }

/-- What the gap becomes in the text. -/
def text (g : Gap) : List Char :=
  if !g.broken then g.blanks
  else if g.first = ['\n'] then
    if g.more.isEmpty then [' '] else g.more
  else g.first ++ g.more

/-- Reads a gap on. A tab at the start of a line must not stand for indentation. -/
def read (indent : Int) (g : Gap) : Spots → Option (Gap × Spots)
  | [] => some (g, [])
  | a :: rest =>
    if isBlank a.char then
      if !g.broken then read indent { g with blanks := g.blanks ++ [a.char] } rest
      else if a.char = '\t' && a.mark.column < indent then none
      else read indent g rest
    else if Spots.halfBreak a rest then read indent g rest
    else if isBreak a.char then read indent (g.addBreak (Spots.keptBreak a.char)) rest
    else some (g, a :: rest)

end Gap

def atGap (s : Spots) : Bool := s.head?.any fun a => isBlank a.char || isBreak a.char

namespace Plain

def flowMarks : List Char := [',', '[', ']', '\x7b', '\x7d']

def endsHere (inFlow : Bool) (c : Char) (next : Option Char) : Bool :=
  (c = ':' && endsWord next) || (inFlow && flowMarks.contains c)

/-- A colon before a flow mark is neither part of a word nor the end of a key. -/
def misplacedColon (inFlow : Bool) (c : Char) (next : Option Char) : Bool :=
  inFlow && c = ':' && next.any fun n => n = '?' || flowMarks.contains n

def word (inFlow : Bool) : Spots → Option (List Char × Spots)
  | [] => some ([], [])
  | a :: rest =>
    let next := Spots.head rest
    if isBlank a.char || isBreak a.char || endsHere inFlow a.char next then
      if misplacedColon inFlow a.char next then none else some ([], a :: rest)
    else if misplacedColon inFlow a.char next then none
    else do
      let (cs, rest) ← word inFlow rest
      return (a.char :: cs, rest)

/-- The words of a scalar from a gap on, and whether the line ended after the last of them. -/
def read (inFlow : Bool) (indent : Int) (g : Gap) (s : Spots) :
    Option (List Char × Bool × Spots) := do
  if Spots.atMarker s || Spots.head s = some '#' then return ([], g.broken, s)
  let (cs, s₁) ← word inFlow s
  let text := if cs.isEmpty then [] else g.text ++ cs
  if !atGap s₁ then return (text, g.broken && cs.isEmpty, s₁)
  let (g, s₂) ← Gap.read indent {} s₁
  if !inFlow && s₂.head?.any (·.mark.column < indent) then return (text, g.broken, s₂)
  if _h : s₂.length < s.length then
    let (more, broken, s₃) ← read inFlow indent g s₂
    return (text ++ more, broken, s₃)
  else return (text, g.broken, s₂)
termination_by s.length

end Plain

namespace Quoted

/-- Where a run of characters without blanks ends. -/
inductive RunEnd where
  | quote
  | gap
  | escapedBreak

def singleRun : Spots → Option (List Char × RunEnd × Spots)
  | [] => some ([], .gap, [])
  | [a] => if a.char = '\'' then some ([], .quote, []) else
    if isBlank a.char || isBreak a.char then some ([], .gap, [a]) else some ([a.char], .gap, [])
  | a :: b :: rest =>
    if a.char = '\'' then
      if b.char = '\'' then do
        let (cs, stop, rest) ← singleRun rest
        return ('\'' :: cs, stop, rest)
      else some ([], .quote, b :: rest)
    else if isBlank a.char || isBreak a.char then some ([], .gap, a :: b :: rest)
    else do
      let (cs, stop, rest) ← singleRun (b :: rest)
      return (a.char :: cs, stop, rest)

def simpleEscapes : List (Char × Nat) :=
  [('0', 0), ('a', 7), ('b', 8), ('t', 9), ('\t', 9), ('n', 10), ('v', 11), ('f', 12), ('r', 13),
    ('e', 0x1b), (' ', 0x20), ('"', 0x22), ('/', 0x2f), ('\\', 0x5c), ('N', 0x85), ('_', 0xa0),
    ('L', 0x2028), ('P', 0x2029)]

def codeWidth? : Char → Option Nat
  | 'x' => some 2
  | 'u' => some 4
  | 'U' => some 8
  | _ => none

def hexCode? (ds : List Char) : Option Nat :=
  ds.foldlM (fun n c => (Json.hexValue? c).map (n * 16 + ·)) 0

/-- The character of a code point, if it is one. -/
def charOf? (n : Nat) : Option Char := if h : n.isValidChar then some (Char.ofNatAux n h) else none

/-- The character of an escape sequence without its backslash, and what follows it. -/
def escape : Spots → Option (Char × Spots)
  | [] => none
  | a :: rest =>
    match simpleEscapes.lookup a.char, codeWidth? a.char with
    | some n, _ => some (Char.ofNat n, rest)
    | none, some width =>
      if rest.length < width then none else do
        let c ← charOf? (← hexCode? ((rest.take width).map (·.char)))
        return (c, rest.drop width)
    | none, none => none

def doubleRun (s : Spots) : Option (List Char × RunEnd × Spots) :=
  match s with
  | [] => some ([], .gap, [])
  | a :: rest =>
    if a.char = '"' then some ([], .quote, rest)
    else if isBlank a.char || isBreak a.char then some ([], .gap, a :: rest)
    else if a.char = '\\' then
      match Spots.takeBreak rest with
      | some (_, rest) => some ([], .escapedBreak, rest)
      | none => do
        let (c, rest') ← escape rest
        if _h : rest'.length < (a :: rest).length then
          let (cs, stop, rest'') ← doubleRun rest'
          return (c :: cs, stop, rest'')
        else none
    else do
      let (cs, stop, rest') ← doubleRun rest
      return (a.char :: cs, stop, rest')
termination_by s.length
decreasing_by all_goals simp only [List.length_cons] at *; omega

/-- The text up to the closing quote, and what follows the quote. -/
def read (single : Bool) (s : Spots) : Option (List Char × Spots) := do
  if Spots.atMarker s || s.isEmpty then none
  let (cs, stop, s₁) ← if single then singleRun s else doubleRun s
  match stop with
  | .quote => return (cs, s₁)
  | .gap | .escapedBreak =>
    let (g, s₂) ← Gap.read 0 { broken := stop matches .escapedBreak } s₁
    if _h : s₂.length < s.length then
      let (more, s₃) ← read single s₂
      return (cs ++ g.text ++ more, s₃)
    else none
termination_by s.length

end Quoted

namespace Block

inductive Chomping where
  | strip
  | clip
  | keep
deriving DecidableEq

structure Header where
  chomping : Chomping := .clip
  /-- The indentation given, zero if none is. -/
  increment : Nat := 0

def chomping? : Spots → Option (Chomping × Spots)
  | a :: rest =>
    if a.char = '+' then some (.keep, rest) else if a.char = '-' then some (.strip, rest) else none
  | [] => none

/-- A digit for the indentation; zero is refused. -/
def increment (s : Spots) : Option (Nat × Spots) :=
  match s with
  | a :: rest =>
    if a.char = '0' then none
    else if Json.isDigit a.char then some (Json.digitValue a.char, rest)
    else some (0, s)
  | [] => some (0, s)

/-- The two indicators in either order. -/
def header (s : Spots) : Option (Header × Spots) :=
  match chomping? s with
  | some (chomping, s) => do
    let (increment, s) ← increment s
    return (⟨chomping, increment⟩, s)
  | none => do
    let (n, s) ← increment s
    match if n = 0 then none else chomping? s with
    | some (chomping, s) => return (⟨chomping, n⟩, s)
    | none => return (⟨.clip, n⟩, s)

/-- Skips blanks and a comment up to the end of the line. -/
def restOfLine (s : Spots) : Option Spots :=
  let s := s.dropWhile fun a => isBlank a.char
  let s := if Spots.head s = some '#' then s.dropWhile fun a => !isBreak a.char else s
  match Spots.takeBreak s with
  | some (_, s) => some s
  | none => if s.isEmpty then some [] else none

/-- The breaks of empty lines, the widest indentation among them, and the line that is not empty.
An indentation of zero is not known yet. -/
def emptyLines (indent : Nat) : Spots → Option (List Char × Nat × Spots)
  | [] => some ([], 0, [])
  | a :: rest =>
    let outside := indent = 0 || a.mark.column < indent
    if outside && a.char = ' ' then emptyLines indent rest
    else if outside && a.char = '\t' then none
    else
      let put (c : Char) (r : List Char × Nat × Spots) : List Char × Nat × Spots :=
        (c :: r.1, max a.mark.column r.2.1, r.2.2)
      match a.char, rest with
      | '\r', b :: rest' =>
        if b.char = '\n' then (emptyLines indent rest').map (put '\n')
        else (emptyLines indent (b :: rest')).map (put '\n')
      | c, rest =>
        if isBreak c then (emptyLines indent rest).map (put (Spots.keptBreak c))
        else some ([], a.mark.column, a :: rest)

/-- The breaks that are still to be written before the next line. -/
structure Pending where
  first : List Char := []
  more : List Char
  /-- Whether the line before started with a blank. -/
  afterBlank : Bool := false

namespace Pending

/-- The breaks before a line. Lines are folded only where neither starts with a blank. -/
def text (folded : Bool) (p : Pending) (blank : Bool) : List Char :=
  if folded && p.first = ['\n'] && !p.afterBlank && !blank then
    if p.more.isEmpty then [' '] else p.more
  else p.first ++ p.more

/-- The breaks at the end of the scalar. -/
def last (p : Pending) : Chomping → List Char
  | .strip => []
  | .clip => p.first
  | .keep => p.first ++ p.more

end Pending

def lines (folded : Bool) (indent : Nat) (p : Pending) (s : Spots) :
    Option (List Char × Pending × Spots) :=
  match s with
  | [] => some ([], p, [])
  | a :: rest =>
    if a.mark.column ≠ indent then some ([], p, a :: rest)
    else do
      let blank := isBlank a.char
      let line := (a :: rest).takeWhile fun b => !isBreak b.char
      let s₁ := (a :: rest).drop line.length
      let (first, s₂) := match Spots.takeBreak s₁ with
        | some (c, s) => ([c], s)
        | none => ([], s₁)
      let (more, _, s₃) ← emptyLines indent s₂
      let text := p.text folded blank ++ line.map (·.char)
      let p := ⟨first, more, blank⟩
      if _h : s₃.length < (a :: rest).length then
        let (cs, p, s₄) ← lines folded indent p s₃
        return (text ++ cs, p, s₄)
      else return (text, p, s₃)
termination_by s.length
decreasing_by exact _h

/-- The text of a scalar after its indicator. An indentation that is not given is that of the first
line that is not empty, but more than that of the block around. -/
def read (folded : Bool) (outer : Int) (s : Spots) : Option (List Char × Spots) := do
  let (h, s) ← header s
  let s ← restOfLine s
  let given := if h.increment = 0 then 0 else (max outer 0).toNat + h.increment
  let (more, widest, s) ← emptyLines given s
  let indent := if given = 0 then max (max widest (outer + 1).toNat) 1 else given
  let (cs, p, s) ← lines folded indent { more } s
  return (cs ++ p.last h.chomping, s)

end Block

end Reconciliation.Yaml
