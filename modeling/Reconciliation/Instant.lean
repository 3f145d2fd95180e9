import Reconciliation.Text

/-! An instant counts seconds from 1970-01-01T00:00:00Z. It is written by RFC 3339 in UTC, with no
fraction or with three, six or nine places, and read in a relaxed form of RFC 3339: blanks may
stand between the parts, and a blank may stand for the `T`. A leap second is the second 59 with
more than a thousand million nanoseconds. -/
namespace Reconciliation

structure Instant where
  seconds : Int
  nanos : Nat
deriving DecidableEq, Repr

namespace Instant

instance : Inhabited Instant := ⟨⟨0, 0⟩⟩

inductive ReadError where
  | invalid
  | tooShort
  | tooLong
  | outOfRange
  /-- In the calendar at its own place, but not in UTC. -/
  | impossible
deriving DecidableEq, Repr

def ReadError.message : ReadError → String
  | invalid => "input contains invalid characters"
  | tooShort => "premature end of input"
  | tooLong => "trailing input"
  | outOfRange => "input is out of range"
  | impossible => "no possible date and time matching input"

def isLeapYear (y : Int) : Bool := y % 4 = 0 && (y % 100 ≠ 0 || y % 400 = 0)

def daysInMonth (y : Int) (m : Nat) : Nat :=
  if m = 2 then (if isLeapYear y then 29 else 28)
  else if m = 4 || m = 6 || m = 9 || m = 11 then 30
  else 31

/-- Days from 1970-01-01 to a date. Years are counted from March, so that the leap day comes
last. -/
def dayNumber (y : Int) (m d : Nat) : Int :=
  let y' := if m ≤ 2 then y - 1 else y
  let era := y' / 400
  let yearOfEra := y' - era * 400
  let dayOfYear : Int := (153 * ((m + 9) % 12) + 2) / 5 + d - 1
  era * 146097 + (yearOfEra * 365 + yearOfEra / 4 - yearOfEra / 100 + dayOfYear) - 719468

/-- Year, month and day of a day number. -/
def dateOf (day : Int) : Int × Nat × Nat :=
  let z := day + 719468
  let era := z / 146097
  let dayOfEra := z - era * 146097
  let yearOfEra :=
    (dayOfEra - dayOfEra / 1460 + dayOfEra / 36524 - dayOfEra / 146096) / 365
  let dayOfYear := (dayOfEra - (365 * yearOfEra + yearOfEra / 4 - yearOfEra / 100)).toNat
  let mp := (5 * dayOfYear + 2) / 153
  let d := dayOfYear - (153 * mp + 2) / 5 + 1
  let m := if mp < 10 then mp + 3 else mp - 9
  let y := yearOfEra + era * 400
  (if m ≤ 2 then y + 1 else y, m, d)

def padded (width n : Nat) : String :=
  let ds := toString n
  String.ofList (List.replicate (width - ds.length) '0') ++ ds

/-- A year outside the four-digit range has a sign. -/
def yearText (y : Int) : String :=
  if 0 ≤ y ∧ y ≤ 9999 then padded 4 y.toNat
  else (if y < 0 then "-" else "+") ++ padded 4 y.natAbs

def fractionText (nanos : Nat) : String :=
  if nanos = 0 then ""
  else if nanos % 1000000 = 0 then "." ++ padded 3 (nanos / 1000000)
  else if nanos % 1000 = 0 then "." ++ padded 6 (nanos / 1000)
  else "." ++ padded 9 nanos

def text (t : Instant) : String :=
  let (y, m, d) := dateOf (t.seconds / 86400)
  let s := (t.seconds % 86400).toNat
  let leap := t.nanos / 1000000000
  yearText y ++ "-" ++ padded 2 m ++ "-" ++ padded 2 d ++ "T" ++ padded 2 (s / 3600) ++ ":" ++
    padded 2 (s / 60 % 60) ++ ":" ++ padded 2 (s % 60 + leap) ++
    fractionText (t.nanos % 1000000000) ++ "Z"

abbrev Step (α : Type) := List Char → Except ReadError (α × List Char)

def isDigit (c : Char) : Bool := '0' ≤ c && c ≤ '9'

/-- At least one and at most `width` digits. -/
def number (width : Nat) : Step Nat
  | [] => .error .tooShort
  | c :: rest =>
    if !isDigit c then .error .invalid
    else
      let ds := ((c :: rest).take width).takeWhile isDigit
      let n := ds.foldl (fun n c => n * 10 + (c.toNat - 48)) 0
      if n < Nat.pow 2 63 then .ok (n, (c :: rest).drop ds.length) else .error .outOfRange

def within (low high : Nat) (n : Nat) : Except ReadError Unit :=
  if low ≤ n ∧ n ≤ high then .ok () else .error .outOfRange

/-- A two-digit field with its range, after blanks. -/
def field (low high : Nat) : Step Nat := fun cs => do
  let (n, cs) ← number 2 (Text.trimStart cs)
  within low high n
  return (n, cs)

/-- Four digits, or any number of digits after a sign. -/
def yearField : Step Int := fun cs => do
  let (y, cs) ← match Text.trimStart cs with
    | '-' :: rest => (number rest.length rest).map fun (n, r) => (-(n : Int), r)
    | '+' :: rest => (number rest.length rest).map fun (n, r) => ((n : Int), r)
    | cs => (number 4 cs).map fun (n, r) => ((n : Int), r)
  if -(Nat.pow 2 31 : Int) ≤ y ∧ y < (Nat.pow 2 31 : Int) then return (y, cs) else throw .outOfRange

def mark (c : Char) (cs : List Char) : Except ReadError (List Char) :=
  match Text.trimStart cs with
  | [] => .error .tooShort
  | c' :: rest => if c = c' then .ok rest else .error .invalid

/-- Up to nine digits after a point; further digits are dropped. -/
def fraction : Step Nat
  | '.' :: rest => do
    let (n, after) ← number 9 rest
    let places := rest.length - after.length
    return (n * Nat.pow 10 (9 - places), after.dropWhile isDigit)
  | cs => .ok (0, cs)

def separator : List Char → Except ReadError (List Char)
  | [] => .error .tooShort
  | c :: rest => if c = 't' || c = 'T' || c = ' ' then .ok rest else .error .invalid

/-- The bytes a character takes in UTF-8: two bytes are needed where two digits are read. -/
def atLeastTwoBytes : List Char → Bool
  | [] => false
  | [c] => c.utf8Size ≥ 2
  | _ => true

def twoDigits (firstMax : Char) : Step Nat
  | a :: b :: rest =>
    if !isDigit a || !isDigit b then .error .invalid
    else if a > firstMax then .error .outOfRange
    else .ok ((a.toNat - 48) * 10 + (b.toNat - 48), rest)
  | cs => if atLeastTwoBytes cs then .error .invalid else .error .tooShort

/-- Seconds to subtract for UTC: `Z`, `UTC`, or signed hours and minutes. -/
def zone (cs : List Char) : Except ReadError (Int × List Char) :=
  match Text.trimStart cs with
  | [] => .error .tooShort
  | c :: rest =>
    if (c :: rest).length ≥ 3 && ((c :: rest).take 3).map Char.toUpper = ['U', 'T', 'C'] then
      .ok (0, (c :: rest).drop 3)
    else if c = 'Z' || c = 'z' then .ok (0, rest)
    else if c = '+' || c = '-' || c = '\u2212' then do
      let (h, rest) ← twoDigits '9' rest
      let (m, rest) ← twoDigits '5' (rest.dropWhile fun c => c = ':' || Text.isBlank c)
      let offset : Int := h * 3600 + m * 60
      return (if c = '+' then offset else -offset, rest)
    else .error .invalid

/-- The last year of the supported calendar, and the first. -/
def maxYear : Int := 262142

def minYear : Int := -262143

/-- The first second of the calendar, and the last. -/
def firstSecond : Int := dayNumber minYear 1 1 * 86400

def lastSecond : Int := dayNumber maxYear 12 31 * 86400 + 86399

def read (s : String) : Except ReadError Instant := do
  let (y, cs) ← yearField s.toList
  let (m, cs) ← field 1 12 (← mark '-' cs)
  let (d, cs) ← field 1 31 (← mark '-' cs)
  let (h, cs) ← field 0 23 (← separator cs)
  let (min, cs) ← field 0 59 (← mark ':' cs)
  let (sec, cs) ← field 0 60 (← mark ':' cs)
  let (nanos, cs) ← fraction cs
  let (offset, cs) ← zone cs
  if !(Text.trimStart cs).isEmpty then throw .tooLong
  if y < minYear || y > maxYear || d > daysInMonth y m || offset.natAbs ≥ 86400 then
    throw .outOfRange
  let leap := sec / 60
  let second : Int := h * 3600 + min * 60 + (sec - leap : Nat)
  let seconds := dayNumber y m d * 86400 + second - offset
  if seconds < firstSecond || seconds > lastSecond then throw .impossible
  return ⟨seconds, nanos + leap * 1000000000⟩

instance : Ord Instant := ⟨compareLex (compareOn (·.seconds)) (compareOn (·.nanos))⟩

def isBefore (s t : Instant) : Bool := compare s t = .lt

def addSeconds (t : Instant) (n : Nat) : Instant := { t with seconds := t.seconds + n }

def addMillis (t : Instant) (n : Nat) : Instant :=
  let nanos := t.nanos + n % 1000 * 1000000
  ⟨t.seconds + n / 1000 + nanos / 1000000000, nanos % 1000000000⟩

def isInCalendar (t : Instant) : Bool := t.seconds ≤ lastSecond

/-- Nanoseconds from one instant to a later one. -/
def nanosSince (t earlier : Instant) : Nat :=
  ((t.seconds - earlier.seconds) * 1000000000 + t.nanos - earlier.nanos).toNat

end Instant

end Reconciliation
