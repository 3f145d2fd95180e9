import Reconciliation.Json.Reader
import Reconciliation.Text.Utf8

namespace Reconciliation.Url

def upperHex (n : Nat) : Char := if n < 10 then Char.ofNat (48 + n) else Char.ofNat (55 + n)

def percentByte (b : UInt8) : List Char := ['%', upperHex (b.toNat / 16), upperHex (b.toNat % 16)]

/-- The controls and all that is not ASCII. -/
def isControl (c : Char) : Bool := c.toNat < 0x20 || 0x7e < c.toNat

def percentChar (encoded : Char → Bool) (c : Char) : List Char :=
  if encoded c then (Text.Utf8.encode c.toString).flatMap percentByte else [c]

def percentEncode (encoded : Char → Bool) (cs : List Char) : List Char :=
  cs.flatMap (percentChar encoded)

def percentDecode : List UInt8 → List UInt8
  | [] => []
  | b :: rest =>
    if b = 0x25 then
      match rest with
      | x :: y :: rest' =>
        match Json.hexValue? (Char.ofNat x.toNat), Json.hexValue? (Char.ofNat y.toNat) with
        | some h, some l => (h * 16 + l).toUInt8 :: percentDecode rest'
        | _, _ => b :: percentDecode (x :: y :: rest')
      | rest => b :: rest
    else b :: percentDecode rest

def inFragment (c : Char) : Bool := isControl c || [' ', '"', '<', '>', '\x60'].contains c

def inQuery (special : Bool) (c : Char) : Bool :=
  isControl c || [' ', '"', '#', '<', '>'].contains c || (special && c = '\'')

def inPath (c : Char) : Bool :=
  isControl c || [' ', '"', '#', '<', '>', '?', '^', '\x60', '\x7b', '\x7d'].contains c

def inUser (c : Char) : Bool :=
  inPath c || ['/', ':', ';', '=', '@', '[', '\\', ']', '|'].contains c

/-- Form encoding: a blank is a plus sign, and only letters, digits and four marks stay. -/
def formChar (c : Char) : List Char :=
  if c = ' ' then ['+']
  else if c.isAlphanum || ['*', '-', '.', '_'].contains c then [c]
  else (Text.Utf8.encode c.toString).flatMap percentByte

def formText (s : String) : List Char := s.toList.flatMap formChar

def formEncode (pairs : List (String × String)) : String :=
  "&".intercalate (pairs.map fun (k, v) => String.ofList (formText k ++ '=' :: formText v))

end Reconciliation.Url
