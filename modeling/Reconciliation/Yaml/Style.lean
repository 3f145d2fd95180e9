import Reconciliation.Yaml.Scalar
import Reconciliation.Yaml.Source

/-! Which of the four styles a text can be written in follows from one walk over its characters. A
plain scalar must not look like anything else, a quoted one cannot hold every arrangement of blanks
and breaks, and only the double-quoted style has escapes for what is not printable. -/
namespace Reconciliation.Yaml

/-- Characters that are written without an escape. The tab is not among them, nor is the byte order
mark. -/
def isPrintable (c : Char) : Bool :=
  let n := c.toNat
  n = 0x0a || (0x20 ≤ n && n ≤ 0x7e) || (0xa0 ≤ n && n ≤ 0xd7ff) ||
    (0xe000 ≤ n && n ≤ 0xfffd && n ≠ 0xfeff) || 0x10000 ≤ n

inductive Style where
  | plain
  | singleQuoted
  | doubleQuoted
  | literal
deriving DecidableEq, Repr

/-- What the choice of a style depends on. -/
structure Shape where
  /-- A character with a meaning of its own at its place. -/
  indicator : Bool := false
  breaks : Bool := false
  unprintable : Bool := false
  /-- Blanks or breaks at one of the ends. -/
  blankEnds : Bool := false
  trailingSpace : Bool := false
  spaceAfterBreak : Bool := false
  breakAfterSpace : Bool := false

namespace Shape

def leadIndicators : List Char :=
  ['#', ',', '[', ']', '\x7b', '\x7d', '&', '*', '!', '|', '>', '\'', '"', '%', '@', '\x60']

/-- Whether the first character of a text, followed by `next`, has a meaning of its own. -/
def leadIndicator (c : Char) (next : Option Char) : Bool :=
  leadIndicators.contains c || ((c = '?' || c = ':' || c = '-') && endsWord next)

/-- The same for a later character. -/
def innerIndicator (previous c : Char) (next : Option Char) : Bool :=
  (c = ':' && endsWord next) || (c = '#' && endsWord (some previous))

/-- Adds what the characters after `previous` bring. -/
def addInner (shape : Shape) (previous : Char) : List Char → Shape
  | [] =>
    { shape with
      blankEnds := shape.blankEnds || isSpace previous || isBreak previous
      trailingSpace := isSpace previous }
  | c :: rest =>
    addInner
      { shape with
        indicator := shape.indicator || innerIndicator previous c rest.head?
        breaks := shape.breaks || isBreak c
        unprintable := shape.unprintable || !isPrintable c
        spaceAfterBreak := shape.spaceAfterBreak || (isBreak previous && isSpace c)
        breakAfterSpace := shape.breakAfterSpace || (isSpace previous && isBreak c) }
      c rest

def isMarker : List Char → Bool
  | '-' :: '-' :: '-' :: _ => true
  | '.' :: '.' :: '.' :: _ => true
  | _ => false

def ofText : List Char → Shape
  | [] => {}
  | c :: rest =>
    addInner
      { indicator := isMarker (c :: rest) || leadIndicator c rest.head?
        breaks := isBreak c
        unprintable := !isPrintable c
        blankEnds := isSpace c || isBreak c } c rest

def plainAllowed (s : Shape) : Bool :=
  !(s.indicator || s.breaks || s.unprintable || s.blankEnds || s.spaceAfterBreak ||
    s.breakAfterSpace)

def singleQuotedAllowed (s : Shape) : Bool :=
  !(s.spaceAfterBreak || s.breakAfterSpace || s.unprintable)

def literalAllowed (s : Shape) : Bool :=
  !(s.trailingSpace || s.breakAfterSpace || s.unprintable)

end Shape

def Shape.quotedStyle (s : Shape) : Style :=
  if s.singleQuotedAllowed then .singleQuoted else .doubleQuoted

/-- The style of a text as a value, or as a key after which a colon can follow at once. -/
def styleOf (text : String) (simpleKey : Bool) : Style :=
  let cs := text.toList
  let shape := Shape.ofText cs
  if cs.contains '\n' then
    if shape.literalAllowed && !simpleKey then .literal else .doubleQuoted
  else if simpleKey && shape.breaks then .doubleQuoted
  else if Scalar.needsQuotes text || !shape.plainAllowed then shape.quotedStyle
  else .plain

end Reconciliation.Yaml
