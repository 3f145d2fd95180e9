import Reconciliation.Json.Reader
import Reconciliation.Text
import Reconciliation.Url.Percent
import Reconciliation.Url.Punycode

/-! A host is a name, an address of four numbers or one of eight groups in brackets, each brought
into its one normal form. Schemes without rules of their own have hosts that are only
percent-encoded. -/
namespace Reconciliation.Url

/-- Characters that no host may hold. -/
def isForbidden (c : Char) : Bool :=
  c.toNat = 0 || ['\t', '\n', '\r', ' ', '#', '/', ':', '<', '>', '?', '@', '[', '\\', ']', '^',
    '|'].contains c

/-- The same for names, which hold no controls and no percent signs either. -/
def isForbiddenInName (c : Char) : Bool :=
  isForbidden c || c.toNat < 0x20 || c = '%' || c.toNat = 0x7f

namespace FourNumbers

def digitsIn? (base : Nat) (cs : List Char) : Option Nat :=
  cs.foldlM (fun n c => ((Json.hexValue? c).filter (· < base)).map (n * base + ·)) 0

/-- A number in base ten, or after a zero in base eight, or after `0x` in base sixteen. -/
def number? : List Char → Option Nat
  | [] => none
  | '0' :: 'x' :: ds | '0' :: 'X' :: ds => digitsIn? 16 ds
  | '0' :: d :: ds => digitsIn? 8 (d :: ds)
  | ds => digitsIn? 10 ds

/-- The parts between points, without an empty one at the end. -/
def parts (cs : List Char) : List (List Char) :=
  let ps := cs.splitOn '.'
  if ps.length > 1 && ps.getLast? = some [] then ps.dropLast else ps

/-- Whether a name ends in a number, so that it has to be an address. -/
def isMeant (cs : List Char) : Bool :=
  match (parts cs).getLast? with
  | some p => (!p.isEmpty && p.all Json.isDigit) || (number? p).isSome
  | none => false

/-- The last number fills the bytes that are left. -/
def value? : List Nat → Option Nat
  | [] => none
  | ns =>
    let last := ns.getLast?.getD 0
    let leading := ns.dropLast
    if leading.any (· > 255) || last ≥ Nat.pow 256 (4 - leading.length) then none
    else some (leading.zipIdx.foldl (fun n (x, i) => n + x * Nat.pow 256 (3 - i)) last)

def read? (cs : List Char) : Option Nat :=
  if (parts cs).length > 4 then none else ((parts cs).mapM number?).bind value?

def text (n : Nat) : String :=
  ".".intercalate ([3, 2, 1, 0].map fun i => toString (n / Nat.pow 256 i % 256))

end FourNumbers

namespace EightGroups

def group? (cs : List Char) : Option Nat :=
  if cs.isEmpty || 4 < cs.length then none else FourNumbers.digitsIn? 16 cs

/-- One of four decimal numbers at the end, without needless zeros. -/
def byte? (cs : List Char) : Option Nat :=
  if cs.isEmpty || !cs.all Json.isDigit || (1 < cs.length && cs.head? = some '0') then none
  else some (Json.decimalValue cs) |>.filter (· < 256)

/-- The last part may be four decimal numbers, which make two groups. -/
def lastGroups? (cs : List Char) : Option (List Nat) :=
  if cs.contains '.' then do
    match ← (cs.splitOn '.').mapM byte? with
    | [a, b, c, d] => return [a * 256 + b, c * 256 + d]
    | _ => none
  else (group? cs).map ([·])

def groups? (cs : List Char) : Option (List Nat) :=
  if cs.isEmpty then some [] else do
    let ps := cs.splitOn ':'
    let leading ← ps.dropLast.mapM group?
    return leading ++ (← lastGroups? (ps.getLast?.getD []))

/-- Two colons stand once for as many zeros as are missing, at least one. -/
def read? (cs : List Char) : Option (List Nat) :=
  match Text.splitAt [':', ':'] cs with
  | none => (groups? cs).filter (·.length = 8)
  | some (before, after) => do
    if before.contains '.' then none
    let a ← groups? before
    let b ← groups? after
    if a.length + b.length > 7 then none
    return a ++ List.replicate (8 - (a.length + b.length)) 0 ++ b

/-- How many groups in front are zero. -/
def zeros (gs : List Nat) : Nat := (gs.takeWhile (· = 0)).length

/-- The longest run of zeros, the first of several, as its place and its length. -/
def longestRun (gs : List Nat) : Nat × Nat :=
  (List.range gs.length).foldl (fun best i =>
    let n := zeros (gs.drop i)
    if best.2 < n then (i, n) else best) (0, 0)

def groupText (n : Nat) : String :=
  String.ofList (Nat.toDigits 16 n)

def joined (gs : List Nat) : String := ":".intercalate (gs.map groupText)

/-- A run of two zeros or more is written as two colons. -/
def text (gs : List Nat) : String :=
  let (start, count) := longestRun gs
  if count < 2 then joined gs
  else joined (gs.take start) ++ "::" ++ joined (gs.drop (start + count))

end EightGroups

/-- A name in lower case, with labels outside of ASCII in their ASCII form. -/
def nameLabel (label : List Char) : List Char :=
  if label.all (·.toNat < 128) then label.map Char.toLower
  else ['x', 'n', '-', '-'] ++ Punycode.encode (label.map Char.toLower)

def nameHost? (cs : List Char) : Option String :=
  let decoded := Text.Utf8.decodeLossy (percentDecode (Text.Utf8.encode (String.ofList cs)))
  let name := ['.'].intercalate ((decoded.toList.splitOn '.').map nameLabel)
  if name.isEmpty || name.any isForbiddenInName then none
  else if FourNumbers.isMeant name then (FourNumbers.read? name).map FourNumbers.text
  else some (String.ofList name)

def freeHost? (cs : List Char) : Option String :=
  if cs.any isForbidden then none else some (String.ofList (percentEncode isControl cs))

/-- The normal form of a host, unless it is none. -/
def host? (special : Bool) (cs : List Char) : Option String :=
  match cs with
  | '[' :: rest =>
    if rest.getLast? = some ']' then
      (EightGroups.read? rest.dropLast).map fun gs => "[" ++ EightGroups.text gs ++ "]"
    else none
  | cs => if special then nameHost? cs else freeHost? cs

end Reconciliation.Url
