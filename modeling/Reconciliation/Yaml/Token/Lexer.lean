import Reconciliation.Yaml.Token.Scalar

/-! Blocks have no closing marks of their own: they begin and end with the indentation, and the
tokens for it are made up here. That a mapping has begun is often seen only at the colon after its
first key, so each place where a key may begin is kept until the line is over, and its tokens are
put in before the key afterwards. A text that is no YAML gives no tokens. -/
namespace Reconciliation.Yaml

/-- A place where a key may have begun. -/
structure KeyPlace where
  /-- Where a key has to begin, because the line stands at the indentation of the block. -/
  required : Bool
  /-- How many tokens there were before it. -/
  position : Nat
  mark : Mark

structure Lexer where
  rest : Spots
  /-- The place after the last character. -/
  finish : Mark
  /-- The latest first. -/
  tokens : List Token := []
  /-- The columns of the open blocks, the innermost first. -/
  indents : List Nat := []
  /-- For each open flow collection and the block around them, the innermost first. -/
  keys : List (Option KeyPlace) := [none]
  /-- Whether a key may begin here. -/
  keyAllowed : Bool := true

namespace Lexer

def mark (s : Lexer) : Mark := (s.rest.head?.map (·.mark)).getD s.finish

def inFlow (s : Lexer) : Bool := s.keys.length > 1

/-- The column of the innermost block, or one less than the first if there is none. -/
def indent (s : Lexer) : Int := (s.indents.head?.map (fun n => (n : Int))).getD (-1)

def push (sign : Sign) (mark stop : Mark) (s : Lexer) : Lexer :=
  { s with tokens := ⟨sign, mark, stop⟩ :: s.tokens }

/-- Puts a token before the tokens from a position on. -/
def insertAt (position : Nat) (sign : Sign) (mark : Mark) (s : Lexer) : Lexer :=
  { s with tokens := s.tokens.insertIdx (s.tokens.length - position) ⟨sign, mark, mark⟩ }

/-- Drops `n` characters and gives the token for them. -/
def take (n : Nat) (sign : Sign) (s : Lexer) : Lexer :=
  let mark := s.mark
  let s := { s with rest := s.rest.drop n }
  s.push sign mark s.mark

/-- Forgets the innermost key place, unless a key is required there. -/
def dropKey (s : Lexer) : Option Lexer :=
  match s.keys with
  | some place :: keys => if place.required then none else some { s with keys := none :: keys }
  | _ => some s

/-- Keeps the current place if a key may begin here. -/
def saveKey (s : Lexer) : Option Lexer :=
  if !s.keyAllowed then some s
  else do
    let s ← s.dropKey
    let required := !s.inFlow && s.indent = s.mark.column
    return { s with keys := some ⟨required, s.tokens.length, s.mark⟩ :: s.keys.drop 1 }

/-- A key is a single line of at most 1024 characters. -/
def isStale (now : Mark) (place : KeyPlace) : Bool :=
  place.mark.line < now.line || place.mark.index + 1024 < now.index

/-- Forgets the places that are too far back for a key. -/
def dropStaleKeys (s : Lexer) : Option Lexer := do
  let keys ← s.keys.mapM fun
    | some place =>
      if isStale s.mark place then if place.required then none else some none else some (some place)
    | none => some none
  return { s with keys }

/-- Opens a block at a column to the right of the block around. -/
def openBlock (column : Nat) (sign : Sign) (mark : Mark) (position : Option Nat) (s : Lexer) :
    Lexer :=
  if s.inFlow || s.indent ≥ column then s
  else
    let s := { s with indents := column :: s.indents }
    match position with
    | some position => s.insertAt position sign mark
    | none => s.push sign mark mark

/-- Closes the blocks to the right of a column, or all of them. -/
def closeBlocks (column : Option Nat) (s : Lexer) : Lexer :=
  if s.inFlow then s
  else
    let closed := s.indents.takeWhile fun n => column.all (· < n)
    let tokens := closed.map fun _ => ⟨.blockEnd, s.mark, s.mark⟩
    { s with indents := s.indents.drop closed.length, tokens := tokens ++ s.tokens }

/-- The characters up to the next token, and whether a key may begin there. Outside flow collections
each line may begin with a key. -/
def skipBlanks (inFlow : Bool) (comment keyAllowed : Bool) : Spots → Bool × Spots
  | [] => (keyAllowed, [])
  | a :: rest =>
    if isBreak a.char then skipBlanks inFlow false (keyAllowed || !inFlow) rest
    else if comment then skipBlanks inFlow true keyAllowed rest
    else if a.char = '#' then skipBlanks inFlow true keyAllowed rest
    else if a.char = ' ' || (a.char = '\t' && (inFlow || !keyAllowed)) ||
        (a.char = '\ufeff' && a.mark.column = 0) then
      skipBlanks inFlow false keyAllowed rest
    else (keyAllowed, a :: rest)

def isWordChar (c : Char) : Bool := c.isAlphanum || c = '_' || c = '-'

/-- The characters up to the first that has not the property. -/
def span (p : Char → Bool) (s : Spots) : String × Spots :=
  let taken := s.takeWhile fun a => p a.char
  (String.ofList (taken.map (·.char)), s.drop taken.length)

def dropBlanks (s : Spots) : Spots := s.dropWhile fun a => isBlank a.char

def expect (c : Char) : Spots → Option Spots
  | a :: rest => if a.char = c then some rest else none
  | [] => none

/-- Up to nine digits. -/
def versionNumber (s : Spots) : Option (Nat × Spots) :=
  let (ds, rest) := span Json.isDigit s
  if ds.isEmpty || ds.length > 9 then none else some (Json.decimalValue ds.toList, rest)

/-- The octet of two hexadecimal digits after a percent sign. -/
def octet : Spots → Option (UInt8 × Spots)
  | p :: a :: b :: rest => do
    if p.char ≠ '%' then none
    return ((16 * (← Json.hexValue? a.char) + (← Json.hexValue? b.char)).toUInt8, rest)
  | _ => none

/-- How many octets a character takes that begins with this one. -/
def octetCount? (b : UInt8) : Option Nat :=
  if b < 0x80 then some 1
  else if b &&& 0xe0 = 0xc0 then some 2
  else if b &&& 0xf0 = 0xe0 then some 3
  else if b &&& 0xf8 = 0xf0 then some 4
  else none

def trailingOctets : Nat → Spots → Option (List UInt8 × Spots)
  | 0, s => some ([], s)
  | n + 1, s => do
    let (b, s) ← octet s
    if b &&& 0xc0 ≠ 0x80 then none
    let (bs, s) ← trailingOctets n s
    return (b :: bs, s)

/-- A character that is written as escaped octets. -/
def escapedChar (s : Spots) : Option (List Char × Spots) := do
  let (b, s) ← octet s
  let (bs, s) ← trailingOctets ((← octetCount? b) - 1) s
  return ((← String.fromUTF8? ⟨(b :: bs).toArray⟩).toList, s)

/-- The characters of tags; three more may stand in a full address. -/
def isTagChar (address : Bool) (c : Char) : Bool :=
  isWordChar c || [';', '/', '?', ':', '@', '&', '=', '+', '$', '.', '%', '!', '~', '*', '\'', '(',
    ')'].contains c || (address && [',', '[', ']'].contains c)

def tagText (address : Bool) (s : Spots) : Option (List Char × Spots) :=
  match s with
  | [] => some ([], [])
  | a :: rest =>
    if !isTagChar address a.char then some ([], a :: rest)
    else do
      let (cs, s₁) ← if a.char = '%' then escapedChar (a :: rest) else some ([a.char], rest)
      if _h : s₁.length < (a :: rest).length then
        let (more, s₂) ← tagText address s₁
        return (cs ++ more, s₂)
      else none
termination_by s.length
decreasing_by exact _h

/-- An exclamation mark, a word, and perhaps another exclamation mark. -/
def tagHandle (s : Spots) : Option (String × Spots) := do
  let s ← expect '!' s
  let (word, s) := span isWordChar s
  match expect '!' s with
  | some s => return ("!" ++ word ++ "!", s)
  | none => return ("!" ++ word, s)

def isFullHandle (handle : String) : Bool := handle.length > 1 && handle.toList.getLast? = some '!'

/-- A tag is an address in angle brackets, a handle with a suffix, or a single exclamation mark with
or without a suffix. -/
def tag (s : Spots) : Option (Sign × Spots) := do
  if Spots.head (s.drop 1) = some '<' then
    let (address, s) ← tagText true (s.drop 2)
    if address.isEmpty then none
    return (.tag "" (String.ofList address), ← expect '>' s)
  else
    let (handle, s₁) ← tagHandle s
    if isFullHandle handle then
      let (suffix, s) ← tagText false s₁
      if suffix.isEmpty then none
      return (.tag handle (String.ofList suffix), s)
    else
      let (suffix, s) ← tagText false s₁
      let suffix := String.ofList (handle.toList.drop 1 ++ suffix)
      return (if suffix.isEmpty then .tag "" "!" else .tag "!" suffix, s)

def directive (s : Spots) : Option (Sign × Spots) := do
  let (name, s) := span isWordChar (s.drop 1)
  if !endsWord (Spots.head s) then none
  if name = "YAML" then
    let (major, s) ← versionNumber (dropBlanks s)
    let (minor, s) ← versionNumber (← expect '.' s)
    return (.versionDirective major minor, s)
  else if name = "TAG" then
    let (handle, s) ← tagHandle (dropBlanks s)
    if handle ≠ "!" && !isFullHandle handle then none
    if !(Spots.head s).any isBlank then none
    let (stem, s) ← tagText true (dropBlanks s)
    if stem.isEmpty || !endsWord (Spots.head s) then none
    return (.tagDirective handle (String.ofList stem), s)
  else none

/-- The name of an anchor or alias. -/
def anchorName (s : Spots) : Option (String × Spots) :=
  let (name, s) := span isWordChar s
  let next := Spots.head s
  let ends := endsWord next || next.any ['?', ':', ',', ']', '\x7d', '%', '@', '\x60'].contains
  if name.isEmpty || !ends then none else some (name, s)

/-- Pushes a token whose text was read. -/
def takeRead (read : Spots → Option (Sign × Spots)) (s : Lexer) : Option Lexer := do
  let (sign, rest) ← read s.rest
  let s' := { s with rest }
  return s'.push sign s.mark s'.mark

def readDirective (s : Lexer) : Option Lexer := do
  let s ← (s.closeBlocks none).dropKey
  let s ← { s with keyAllowed := false }.takeRead directive
  return { s with rest := ← Block.restOfLine s.rest }

def readDocumentMark (sign : Sign) (s : Lexer) : Option Lexer := do
  let s ← (s.closeBlocks none).dropKey
  return { s with keyAllowed := false }.take 3 sign

def openFlow (sign : Sign) (s : Lexer) : Option Lexer := do
  let s ← s.saveKey
  return { s with keys := none :: s.keys, keyAllowed := true }.take 1 sign

def closeFlow (sign : Sign) (s : Lexer) : Option Lexer := do
  let s ← s.dropKey
  let keys := if s.inFlow then s.keys.drop 1 else s.keys
  return { s with keys, keyAllowed := false }.take 1 sign

def readFlowEntry (s : Lexer) : Option Lexer := do
  let s ← s.dropKey
  return { s with keyAllowed := true }.take 1 .flowEntry

/-- A sign that opens a block of its own, where one may begin. -/
def openBlockHere (sign : Sign) (s : Lexer) : Option Lexer :=
  if s.inFlow then some s
  else if !s.keyAllowed then none
  else some (s.openBlock s.mark.column sign s.mark none)

def readBlockEntry (s : Lexer) : Option Lexer := do
  let s ← (← s.openBlockHere .blockSequenceStart).dropKey
  return { s with keyAllowed := true }.take 1 .blockEntry

def readKey (s : Lexer) : Option Lexer := do
  let s ← (← s.openBlockHere .blockMappingStart).dropKey
  return { s with keyAllowed := !s.inFlow }.take 1 .key

/-- A colon makes a key of what stands at the last key place. -/
def readValue (s : Lexer) : Option Lexer :=
  match s.keys with
  | some place :: keys =>
    let s := { s with keys := none :: keys, keyAllowed := false }
    let s := s.insertAt place.position .key place.mark
    let s := s.openBlock place.mark.column .blockMappingStart place.mark (some place.position)
    some (s.take 1 .value)
  | _ => do
    let s ← s.openBlockHere .blockMappingStart
    return { s with keyAllowed := !s.inFlow }.take 1 .value

def readAnchor (sign : String → Sign) (s : Lexer) : Option Lexer := do
  let s ← s.saveKey
  { s with keyAllowed := false }.takeRead fun rest => do
    let (name, rest) ← anchorName (rest.drop 1)
    return (sign name, rest)

/-- After a tag there has to be a blank, a break or the end; in flow collections also a comma. -/
def readTag (s : Lexer) : Option Lexer := do
  let s ← s.saveKey
  let s ← { s with keyAllowed := false }.takeRead tag
  let next := Spots.head s.rest
  if endsWord next || (s.inFlow && next = some ',') then return s else none

def readBlockScalar (style : ScalarStyle) (s : Lexer) : Option Lexer := do
  let s ← s.dropKey
  { s with keyAllowed := true }.takeRead fun rest => do
    let (cs, rest) ← Block.read (style == ScalarStyle.folded) s.indent (rest.drop 1)
    return (.scalar style (String.ofList cs), rest)

def readQuotedScalar (style : ScalarStyle) (s : Lexer) : Option Lexer := do
  let s ← s.saveKey
  { s with keyAllowed := false }.takeRead fun rest => do
    let (cs, rest) ← Quoted.read (style == ScalarStyle.singleQuoted) (rest.drop 1)
    return (.scalar style (String.ofList cs), rest)

def readPlainScalar (s : Lexer) : Option Lexer := do
  let s ← s.saveKey
  let (cs, broken, rest) ← Plain.read s.inFlow (s.indent + 1) {} s.rest
  let s' := { s with rest, keyAllowed := broken }
  return s'.push (.scalar .plain (String.ofList cs)) s.mark s'.mark

/-- Characters with which no plain scalar begins. -/
def isIndicator (c : Char) : Bool :=
  ['-', '?', ':', ',', '[', ']', '\x7b', '\x7d', '#', '&', '*', '!', '|', '>', '\'', '"', '%', '@',
    '\x60'].contains c

/-- Three of the indicators may begin a plain scalar if no blank follows. -/
def beginsPlain (inFlow : Bool) (c : Char) (next : Option Char) : Bool :=
  !(isBlank c || isIndicator c) || (c = '-' && !next.any isBlank) ||
    (!inFlow && (c = '?' || c = ':') && !endsWord next)

/-- Reads the token that begins with a character. -/
def readToken (c : Char) (s : Lexer) : Option Lexer :=
  let next := Spots.head (s.rest.drop 1)
  let alone := endsWord next
  if s.mark.column = 0 && c = '%' then s.readDirective
  else if Spots.atMarker s.rest then
    s.readDocumentMark (if c = '-' then .documentStart else .documentEnd)
  else if c = '[' then s.openFlow .flowSequenceStart
  else if c = '\x7b' then s.openFlow .flowMappingStart
  else if c = ']' then s.closeFlow .flowSequenceEnd
  else if c = '\x7d' then s.closeFlow .flowMappingEnd
  else if c = ',' then s.readFlowEntry
  else if c = '-' && alone then s.readBlockEntry
  else if c = '?' && (s.inFlow || alone) then s.readKey
  else if c = ':' && (s.inFlow || alone) then s.readValue
  else if c = '*' then s.readAnchor .aliasOf
  else if c = '&' then s.readAnchor .anchor
  else if c = '!' then s.readTag
  else if c = '|' && !s.inFlow then s.readBlockScalar .literal
  else if c = '>' && !s.inFlow then s.readBlockScalar .folded
  else if c = '\'' then s.readQuotedScalar .singleQuoted
  else if c = '"' then s.readQuotedScalar .doubleQuoted
  else if beginsPlain s.inFlow c next then s.readPlainScalar
  else none

/-- The end of the text counts as the start of a line. -/
def finished (s : Lexer) : Option Lexer := do
  let m := s.mark
  let m := if m.column = 0 then m else ⟨m.index, m.line + 1, 0⟩
  let s ← ({ s with finish := m }.closeBlocks none).dropKey
  return s.push .streamEnd m m

def run (s : Lexer) : Option Lexer := do
  let (keyAllowed, rest) := skipBlanks s.inFlow false s.keyAllowed s.rest
  let s₁ ← { s with keyAllowed, rest }.dropStaleKeys
  let s₂ := s₁.closeBlocks (some s₁.mark.column)
  match s₂.rest with
  | [] => s₂.finished
  | a :: _ =>
    let s₃ ← s₂.readToken a.char
    if _h : s₃.rest.length < s.rest.length then run s₃ else none
termination_by s.rest.length

end Lexer

/-- The tokens of a text. -/
def Token.ofText? (text : String) : Option (List Token) := do
  if !text.toList.all Spots.isAllowed then none
  let (rest, finish) := Spots.place {} text.toList
  let s ← Lexer.run { rest, finish }
  return s.tokens.reverse

end Reconciliation.Yaml
