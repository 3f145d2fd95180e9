import Reconciliation.Json.Writer
import Reconciliation.Yaml.Style

/-! Block style with two spaces of indentation; a sequence below a key stands at the indentation of
the key, empty collections are written `[]` and `\x7b\x7d`, and lines are never wrapped. Writing
moves a cursor, which knows where on its line it is and what precedes it there. -/
namespace Reconciliation.Yaml

/-- Positional decimal exponents are those from -5 to 15, a positive exponent has no sign. -/
def doubleStyle : Double.Style := ⟨fun e => -5 ≤ e && e ≤ 15, false⟩

structure Cursor where
  /-- The text so far, last character first. -/
  written : List Char := []
  column : Nat := 0
  /-- Nothing is needed to separate what comes next. -/
  afterBlank : Bool := true
  /-- Only indentation and collection marks stand on the line. -/
  onlyMarks : Bool := true

namespace Cursor

def put (c : Cursor) (ch : Char) : Cursor :=
  { c with written := ch :: c.written, column := c.column + 1 }

def putAll (c : Cursor) (cs : List Char) : Cursor := cs.foldl put c

/-- A character that may end the line. -/
def putBreak (c : Cursor) (ch : Char) : Cursor :=
  { c with written := ch :: c.written, column := 0 }

def newline (c : Cursor) : Cursor := c.putBreak '\n'

def indentTo (c : Cursor) (indent : Nat) : Cursor :=
  let c :=
    if !c.onlyMarks || c.column > indent || (c.column = indent && !c.afterBlank) then c.newline
    else c
  { c.putAll (List.replicate (indent - c.column) ' ') with afterBlank := true, onlyMarks := true }

/-- A mark such as `-` or a quote. -/
def mark (c : Cursor) (text : List Char) (needsBlank blankAfter marksOnly : Bool) : Cursor :=
  let c := if needsBlank && !c.afterBlank then c.put ' ' else c
  { c.putAll text with afterBlank := blankAfter, onlyMarks := c.onlyMarks && marksOnly }

def plain (c : Cursor) (cs : List Char) : Cursor :=
  let c := if !c.afterBlank && !cs.isEmpty then c.put ' ' else c
  { c.putAll cs with afterBlank := false, onlyMarks := false }

/-- The text between single quotes. A line feed is written twice, and what follows a break is
indented. -/
def singleQuotedBody (indent : Nat) : (afterBreak : Bool) → Cursor → List Char → Cursor
  | afterBreak, c, [] => if afterBreak then c.indentTo indent else c
  | afterBreak, c, ch :: rest =>
    if isBreak ch then
      let c := if !afterBreak && ch = '\n' then c.newline else c
      singleQuotedBody indent true { c.putBreak ch with onlyMarks := true } rest
    else if isSpace ch then singleQuotedBody indent afterBreak (c.put ch) rest
    else
      let c := if afterBreak then c.indentTo indent else c
      let c := if ch = '\'' then c.put '\'' else c
      singleQuotedBody indent false { c.put ch with onlyMarks := false } rest

def singleQuoted (c : Cursor) (indent : Nat) (cs : List Char) : Cursor :=
  let c := singleQuotedBody indent false (c.mark ['\''] true false false) cs
  { c.mark ['\''] false false false with afterBlank := false, onlyMarks := false }

def upperHex (n : Nat) : Char := (Json.hexDigit n).toUpper

def hexPadded (width n : Nat) : List Char :=
  (List.range width).reverse.map fun i => upperHex (n / Nat.pow 16 i % 16)

def escape (ch : Char) : List Char :=
  let n := ch.toNat
  let short (c : Char) : List Char := ['\\', c]
  if n = 0 then short '0'
  else if n = 0x07 then short 'a'
  else if n = 0x08 then short 'b'
  else if n = 0x09 then short 't'
  else if n = 0x0a then short 'n'
  else if n = 0x0b then short 'v'
  else if n = 0x0c then short 'f'
  else if n = 0x0d then short 'r'
  else if n = 0x1b then short 'e'
  else if n = 0x22 then short '"'
  else if n = 0x5c then short '\\'
  else if n = 0x85 then short 'N'
  else if n = 0xa0 then short '_'
  else if n = 0x2028 then short 'L'
  else if n = 0x2029 then short 'P'
  else if n ≤ 0xff then '\\' :: 'x' :: hexPadded 2 n
  else if n ≤ 0xffff then '\\' :: 'u' :: hexPadded 4 n
  else '\\' :: 'U' :: hexPadded 8 n

def needsEscape (ch : Char) : Bool :=
  !isPrintable ch || isBreak ch || ch = '"' || ch = '\\'

def doubleQuoted (c : Cursor) (cs : List Char) : Cursor :=
  let body := cs.flatMap fun ch => if needsEscape ch then escape ch else [ch]
  let c := (c.mark ['"'] true false false).putAll body
  { c.mark ['"'] false false false with afterBlank := false, onlyMarks := false }

/-- An indentation digit before a leading blank, and `-` or `+` for no break or several breaks at
the end. -/
def literalHints (cs : List Char) : List Char :=
  let digit := if cs.head?.any fun ch => isSpace ch || isBreak ch then ['2'] else []
  let chomping := match cs.reverse with
    | [] => ['-']
    | [ch] => if isBreak ch then ['+'] else ['-']
    | a :: b :: _ => if !isBreak a then ['-'] else if isBreak b then ['+'] else []
  digit ++ chomping

def literalBody (indent : Nat) : (afterBreak : Bool) → Cursor → List Char → Cursor
  | _, c, [] => c
  | afterBreak, c, ch :: rest =>
    if isBreak ch then literalBody indent true { c.putBreak ch with onlyMarks := true } rest
    else
      let c := if afterBreak then c.indentTo indent else c
      literalBody indent false { c.put ch with onlyMarks := false } rest

def literal (c : Cursor) (indent : Nat) (cs : List Char) : Cursor :=
  let c := (c.mark ['|'] true false false).mark (literalHints cs) false false false
  literalBody indent true { c.newline with onlyMarks := true, afterBlank := true } cs

/-- A scalar inside a collection at `indent`; its own lines are indented once more. -/
def scalar (c : Cursor) (indent : Nat) (text : String) (simpleKey : Bool) : Cursor :=
  let cs := text.toList
  match styleOf text simpleKey with
  | .plain => c.plain cs
  | .singleQuoted => c.singleQuoted indent cs
  | .doubleQuoted => c.doubleQuoted cs
  | .literal => c.literal indent cs

end Cursor

/-- A key that stands on one line and is not too long may have its colon follow at once. -/
def isSimpleKey (key : String) : Bool := key.utf8ByteSize ≤ 128 && !key.toList.any isBreak

def numberText : Json.Number → String
  | .double x => doubleStyle.text x
  | n => n.text

/-- Where a value stands: the indentation of the collection around it, if any, and whether it is
the value of a key. -/
structure Place where
  outer : Option Nat
  belowKey : Bool

namespace Place

def scalarIndent (p : Place) : Nat := (p.outer.map (· + 2)).getD 2

def mappingIndent (p : Place) : Nat := (p.outer.map (· + 2)).getD 0

/-- A sequence is not indented where its key stands before it on the line. -/
def sequenceIndent (p : Place) (c : Cursor) : Nat :=
  match p.outer with
  | none => 0
  | some n => if p.belowKey && !c.onlyMarks then n else n + 2

end Place

mutual

def write (p : Place) (c : Cursor) : Json → Cursor
  | .null => c.plain ['n', 'u', 'l', 'l']
  | .bool true => c.plain ['t', 'r', 'u', 'e']
  | .bool false => c.plain ['f', 'a', 'l', 's', 'e']
  | .num n => c.plain (numberText n).toList
  | .str s => c.scalar p.scalarIndent s false
  | .arr [] => (c.mark ['['] true true false).mark [']'] false false false
  | .arr items => writeItems (p.sequenceIndent c) c items
  | .obj [] => (c.mark ['\x7b'] true true false).mark ['\x7d'] false false false
  | .obj members => writeMembers p.mappingIndent c members

def writeItems (indent : Nat) (c : Cursor) : List Json → Cursor
  | [] => c
  | v :: rest =>
    let c := (c.indentTo indent).mark ['-'] true false true
    writeItems indent (write ⟨some indent, false⟩ c v) rest

def writeMembers (indent : Nat) (c : Cursor) : List (String × Json) → Cursor
  | [] => c
  | (k, v) :: rest =>
    let c := c.indentTo indent
    let c :=
      if isSimpleKey k then (c.scalar (indent + 2) k true).mark [':'] false false false
      else
        let c := (c.mark ['?'] true false true).scalar (indent + 2) k false
        (c.indentTo indent).mark [':'] true false true
    writeMembers indent (write ⟨some indent, true⟩ c v) rest

end

/-- A document that holds one value. -/
def text (v : Json) : String :=
  String.ofList ((write ⟨none, false⟩ {} v).indentTo 0).written.reverse

end Reconciliation.Yaml
