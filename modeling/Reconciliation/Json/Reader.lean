import Reconciliation.Json

/-! A reader takes a value off the front of the text and gives back the rest. Nesting is limited,
and the reader recurses on what is left of that limit. Integers that fit 64 bits stay integers; any
other number becomes a double: the significand keeps as many leading digits as fit 64 bits and is
then scaled by a power of ten, each step rounded once. -/
namespace Reconciliation.Json

abbrev Reader (α : Type) := List Char → Option (α × List Char)

def isBlank (c : Char) : Bool := c = ' ' || c = '\n' || c = '\r' || c = '\t'

def skipBlanks : List Char → List Char := List.dropWhile isBlank

def expect (c : Char) : List Char → Option (List Char)
  | [] => none
  | c' :: rest => if c = c' then some rest else none

def expectAll : List Char → List Char → Option (List Char)
  | [], rest => some rest
  | c :: cs, text => (expect c text).bind (expectAll cs)

def isDigit (c : Char) : Bool := '0' ≤ c && c ≤ '9'

def digitValue (c : Char) : Nat := c.toNat - 48

def hexValue? (c : Char) : Option Nat :=
  if '0' ≤ c && c ≤ '9' then some (c.toNat - 48)
  else if 'a' ≤ c && c ≤ 'f' then some (c.toNat - 87)
  else if 'A' ≤ c && c ≤ 'F' then some (c.toNat - 55)
  else none

/-- Four hexadecimal digits. -/
def hexUnit : Reader Nat
  | a :: b :: c :: d :: rest => do
    return (((← hexValue? a) * 16 + (← hexValue? b)) * 256 + (← hexValue? c) * 16 + (← hexValue? d),
      rest)
  | _ => none

/-- What follows `\u`. A high surrogate has to be followed by an escaped low one. -/
def unicodeEscape (text : List Char) : Option (Char × List Char) := do
  let (high, rest) ← hexUnit text
  if 0xDC00 ≤ high && high ≤ 0xDFFF then none
  else if 0xD800 ≤ high && high ≤ 0xDBFF then
    let (low, rest) ← hexUnit (← expectAll ['\\', 'u'] rest)
    if 0xDC00 ≤ low && low ≤ 0xDFFF then
      some (Char.ofNat (0x10000 + (high - 0xD800) * 0x400 + (low - 0xDC00)), rest)
    else none
  else some (Char.ofNat high, rest)

def simpleEscape? (c : Char) : Option Char :=
  if c = '"' || c = '\\' || c = '/' then some c
  else if c = 'b' then some '\x08'
  else if c = 'f' then some '\x0c'
  else if c = 'n' then some '\n'
  else if c = 'r' then some '\r'
  else if c = 't' then some '\t'
  else none

/-- The characters up to the closing quote; the fuel is the length of the text. -/
def stringBody : Nat → Reader (List Char)
  | 0, _ => none
  | _ + 1, [] => none
  | fuel + 1, c :: rest =>
    if c = '"' then some ([], rest)
    else if c.toNat < 0x20 then none
    else if c = '\\' then
      match rest with
      | [] => none
      | 'u' :: rest => do
        let (x, rest) ← unicodeEscape rest
        let (xs, rest) ← stringBody fuel rest
        return (x :: xs, rest)
      | e :: rest => do
        let x ← simpleEscape? e
        let (xs, rest) ← stringBody fuel rest
        return (x :: xs, rest)
    else do
      let (xs, rest) ← stringBody fuel rest
      return (c :: xs, rest)

def string (text : List Char) : Option (String × List Char) := do
  let (cs, rest) ← stringBody text.length (← expect '"' text)
  return (String.ofList cs, rest)

/-- The parts of a number as written. -/
structure NumberText where
  negative : Bool
  whole : List Char
  fraction : Option (List Char)
  /-- Whether the exponent is negative, and its digits. -/
  exponent : Option (Bool × List Char)

def digits (text : List Char) : List Char × List Char :=
  (text.takeWhile isDigit, text.dropWhile isDigit)

def digits1 (text : List Char) : Option (List Char × List Char) :=
  match digits text with
  | ([], _) => none
  | r => some r

def fractionText : Reader (Option (List Char))
  | '.' :: rest => (digits1 rest).map fun (ds, rest) => (some ds, rest)
  | text => some (none, text)

def exponentText : Reader (Option (Bool × List Char))
  | c :: rest =>
    if c = 'e' || c = 'E' then
      match rest with
      | '+' :: rest => (digits1 rest).map fun (ds, rest) => (some (false, ds), rest)
      | '-' :: rest => (digits1 rest).map fun (ds, rest) => (some (true, ds), rest)
      | rest => (digits1 rest).map fun (ds, rest) => (some (false, ds), rest)
    else some (none, c :: rest)
  | [] => some (none, [])

/-- A whole part of more than one digit does not begin with a zero. -/
def wholeText (text : List Char) : Option (List Char × List Char) :=
  match digits1 text with
  | some ('0' :: _ :: _, _) => none
  | r => r

def numberText (text : List Char) : Option (NumberText × List Char) := do
  let (negative, text) := match text with
    | '-' :: rest => (true, rest)
    | text => (false, text)
  let (whole, text) ← wholeText text
  let (fraction, text) ← fractionText text
  let (exponent, text) ← exponentText text
  return (⟨negative, whole, fraction, exponent⟩, text)

/-- Appends digits to a significand while it fits 64 bits; also gives the digits left over. -/
def accumulate : Nat → List Char → Nat × List Char
  | s, [] => (s, [])
  | s, c :: rest =>
    let s' := s * 10 + digitValue c
    if s' < UInt64.size then accumulate s' rest else (s, c :: rest)

/-- `x * 10 ^ exponent` in steps of at most 308 places, each rounded. A result past the largest
double is an error, one below the smallest is zero. -/
def scaled : Nat → Double → Int → Option Double
  | 0, _, _ => none
  | fuel + 1, x, exponent =>
    if exponent.natAbs ≤ 308 then do
      let power ← Double.ofNat (Nat.pow 10 exponent.natAbs)
      if exponent ≥ 0 then x.mul power else x.div power
    else if x.isZero then some x
    else if exponent ≥ 0 then none
    else do
      scaled fuel (← x.div (← Double.ofNat (Nat.pow 10 308))) (exponent + 308)

def decimalValue (ds : List Char) : Nat := ds.foldl (fun n c => n * 10 + digitValue c) 0

/-- The double that a number text with a fraction, an exponent or too many digits stands for. -/
def NumberText.toDouble? (t : NumberText) : Option Double := do
  let (s, restWhole) := accumulate 0 t.whole
  let fraction := t.fraction.getD []
  let (s, restFraction) := accumulate s fraction
  let places : Int := restWhole.length - (fraction.length - restFraction.length : Nat)
  let exponent : Int := match t.exponent with
    | none => 0
    | some (true, ds) => -(decimalValue ds)
    | some (false, ds) => decimalValue ds
  let x ← scaled 4 (← Double.ofNat s) (places + exponent)
  return if t.negative then x.neg else x

def NumberText.toNumber? (t : NumberText) : Option Number :=
  let n := decimalValue t.whole
  if t.fraction.isSome || t.exponent.isSome then t.toDouble?.map .double
  else if !t.negative then
    if n < UInt64.size then some (.natural n.toUInt64) else t.toDouble?.map .double
  else if h : n - 1 < Nat.pow 2 63 ∧ n ≠ 0 then some (.negative ⟨n - 1, h.1⟩)
  else t.toDouble?.map .double

def scalar : Reader Json
  | [] => none
  | c :: rest =>
    if c = 'n' then (expectAll ['u', 'l', 'l'] rest).map (null, ·)
    else if c = 't' then (expectAll ['r', 'u', 'e'] rest).map (bool true, ·)
    else if c = 'f' then (expectAll ['a', 'l', 's', 'e'] rest).map (bool false, ·)
    else if c = '"' then (string (c :: rest)).map fun (s, rest) => (str s, rest)
    else do
      let (t, rest) ← numberText (c :: rest)
      return (num (← t.toNumber?), rest)

/-- Comma-separated items up to the closing character. -/
def items {α : Type} (item : Reader α) (close : Char) : Nat → Reader (List α)
  | 0, _ => none
  | fuel + 1, text => do
    let (x, text) ← item (skipBlanks text)
    match skipBlanks text with
    | ',' :: rest =>
      let (xs, rest) ← items item close fuel rest
      return (x :: xs, rest)
    | text => return ([x], ← expect close text)

/-- What follows an opening bracket. -/
def sequence {α : Type} (item : Reader α) (close : Char) (text : List Char) :
    Option (List α × List Char) :=
  match expect close (skipBlanks text) with
  | some rest => some ([], rest)
  | none => items item close text.length text

def member (value : Reader Json) (text : List Char) : Option ((String × Json) × List Char) := do
  let (k, text) ← string text
  let (v, text) ← value (skipBlanks (← expect ':' (skipBlanks text)))
  return ((k, v), text)

/-- A value without leading blanks, in which brackets nest at most `depth` deep. -/
def value : (depth : Nat) → Reader Json
  | 0, text => scalar text
  | depth + 1, text =>
    match text with
    | '[' :: rest => (sequence (value depth) ']' rest).map fun (vs, rest) => (arr vs, rest)
    | '\x7b' :: rest =>
      (sequence (member (value depth)) '\x7d' rest).map fun (ms, rest) => (obj ms, rest)
    | text => scalar text

/-- The deepest nesting that is read. -/
def maxDepth : Nat := 127

/-- Reads a whole text and keeps members in the order of the text, repeated ones included. -/
def readMembers? (text : List Char) : Option Json := do
  let (v, rest) ← value maxDepth (skipBlanks text)
  if (skipBlanks rest).isEmpty then some v else none

/-- Reads a whole text as a value with sorted members. -/
def parse? (text : String) : Option Json := (readMembers? text.toList).map sorted

end Reconciliation.Json

namespace Reconciliation.Text

/-- A number below the bound, in decimal digits and perhaps after a plus sign. -/
def naturalBelow? (bound : Nat) (cs : List Char) : Option Nat :=
  let ds := match cs with
    | '+' :: rest => rest
    | cs => cs
  if ds.isEmpty || !ds.all Json.isDigit then none
  else some (Json.decimalValue ds) |>.filter (· < bound)

end Reconciliation.Text
