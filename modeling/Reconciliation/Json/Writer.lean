import Reconciliation.Json
import Reconciliation.Double.Notation

namespace Reconciliation.Json

/-- Decimal exponents from -5 to 15 are written positionally, a positive exponent has a sign. -/
def doubleStyle : Double.Style := ⟨fun e => -5 ≤ e && e ≤ 15, true⟩

def Number.text : Number → String
  | .natural n => toString n.toNat
  | .negative m => "-" ++ toString (m.val + 1)
  | .double x => doubleStyle.text x

def hexDigit (n : Nat) : Char := if n < 10 then Char.ofNat (48 + n) else Char.ofNat (87 + n)

/-- A quote, a backslash and the control characters are escaped, all else stands for itself. -/
def escapedChar (c : Char) : List Char :=
  if c = '"' then ['\\', '"']
  else if c = '\\' then ['\\', '\\']
  else if c = '\x08' then ['\\', 'b']
  else if c = '\x0c' then ['\\', 'f']
  else if c = '\n' then ['\\', 'n']
  else if c = '\r' then ['\\', 'r']
  else if c = '\t' then ['\\', 't']
  else if c.toNat < 0x20 then
    ['\\', 'u', '0', '0', hexDigit (c.toNat / 16), hexDigit (c.toNat % 16)]
  else [c]

def quoted (s : String) : List Char :=
  '"' :: (s.toList.flatMap escapedChar ++ ['"'])

mutual

def chars : Json → List Char
  | null => ['n', 'u', 'l', 'l']
  | bool true => ['t', 'r', 'u', 'e']
  | bool false => ['f', 'a', 'l', 's', 'e']
  | num n => n.text.toList
  | str s => quoted s
  | arr items => '[' :: (itemChars items ++ [']'])
  | obj members => '\x7b' :: (memberChars members ++ ['\x7d'])

def itemChars : List Json → List Char
  | [] => []
  | [v] => v.chars
  | v :: rest => v.chars ++ ',' :: itemChars rest

def memberChars : List (String × Json) → List Char
  | [] => []
  | [(k, v)] => quoted k ++ ':' :: v.chars
  | (k, v) :: rest => quoted k ++ ':' :: (v.chars ++ ',' :: memberChars rest)

end

def text (v : Json) : String := String.ofList v.chars

/-- Blobs with one canonical text differ in the order of members at most. -/
def canonical (v : Json) : String := v.sorted.text

end Reconciliation.Json
