import Reconciliation.Double.Extended
import Reconciliation.Host
import Reconciliation.Text
import Reconciliation.Json.Reader

/-! A filter is a list of directives between commas. Each sets the level for a target, for the
spans of a name or for spans with a field, as in `target[span{field=value}]=level`. Directives are
kept with the most specific first, and of two for the same the last one stands. -/
namespace Reconciliation

inductive LogLevel where
  | off
  | error
  | warn
  | info
  | debug
  | trace
deriving DecidableEq, Repr

namespace LogLevel

def all : List LogLevel := [off, error, warn, info, debug, trace]

def text : LogLevel → String
  | off => "off"
  | error => "error"
  | warn => "warn"
  | info => "info"
  | debug => "debug"
  | trace => "trace"

/-- A level is named in any case, or numbered from the quietest. -/
def ofText? (s : String) : Option LogLevel :=
  match Text.naturalBelow? all.length s.toList with
  | some n => all[n]?
  | none => all.find? fun l => l.text = s.map Char.toLower

end LogLevel

/-- What the value of a field is compared with. -/
inductive FieldValue where
  | bool (b : Bool)
  | float (x : Double.Extended)
  | integer (n : Int)
  | pattern (s : String)
deriving DecidableEq, Repr

namespace FieldValue

def specialFloat? (cs : List Char) : Option Double.Extended :=
  let unsigned := (String.ofList (Double.Extended.dropSign cs)).map Char.toLower
  if unsigned = "inf" || unsigned = "infinity" then some (.infinite (cs.head? == some '-'))
  else if unsigned = "nan" then some .nan
  else none

def integer? (cs : List Char) : Option Int :=
  match cs with
  | '-' :: ds =>
    if ds.head? = some '+' then none
    else (Text.naturalBelow? (Nat.pow 2 63 + 1) ds).map fun n => -(n : Int)
  | _ => (Text.naturalBelow? UInt64.size cs).map fun n => (n : Int)

def ofText (s : String) : FieldValue :=
  let cs := s.toList
  if s = "true" then .bool true
  else if s = "false" then .bool false
  else
    match integer? cs with
    | some n => .integer n
    | none =>
      match (specialFloat? cs).orElse fun _ => Double.Extended.ofDecimal? cs with
      | some x => .float x
      | none => .pattern s

/-- Without a needless fraction. -/
def floatText (x : Double.Extended) : String :=
  let s := x.text
  if s.endsWith ".0" then String.ofList (s.toList.take (s.length - 2)) else s

def text : FieldValue → String
  | bool b => toString b
  | float x => floatText x
  | integer n => toString n
  | pattern s => s

def rank : FieldValue → Nat
  | bool _ => 0
  | float .nan => 2
  | float _ => 1
  | integer n => if n < 0 then 4 else 3
  | pattern _ => 5

/-- A finite number as an integer that grows with it. -/
def position : Double.Extended → Int
  | .finite x => if x.negative then -(x.rank.val : Int) else x.rank.val
  | .infinite negative => if negative then -(UInt64.size : Int) else UInt64.size
  | .nan => 0

def order (a b : FieldValue) : Ordering :=
  (compare a.rank b.rank).then
    (match a, b with
    | bool x, bool y => compare x y
    | float x, float y => compare (position x) (position y)
    | integer x, integer y => compare x y
    | pattern x, pattern y => compare x y
    | _, _ => .eq)

end FieldValue

structure FieldMatch where
  name : String
  value : Option FieldValue
deriving DecidableEq, Repr

namespace FieldMatch

/-- What follows a second equals sign is not looked at. -/
def ofText (s : String) : FieldMatch :=
  match s.toList.splitOn '=' with
  | name :: value :: _ =>
    ⟨String.ofList name, some (FieldValue.ofText (String.ofList value))⟩
  | _ => ⟨s, none⟩

def text (f : FieldMatch) : String :=
  f.name ++ match f.value with
    | some v => "=" ++ v.text
    | none => ""

def order (a b : FieldMatch) : Ordering :=
  (compare a.value.isSome b.value.isSome).then <| (compare a.name b.name).then <|
    match a.value, b.value with
    | some x, some y => x.order y
    | _, _ => .eq

end FieldMatch

structure LogDirective where
  target : Option String := none
  span : Option String := none
  field : Option FieldMatch := none
  level : LogLevel := .trace
deriving DecidableEq, Repr

namespace LogDirective

/-- What is being read, with the place where it started. -/
inductive Phase where
  | start
  | levelOrTarget (start : Nat)
  | span (start : Nat)
  | field (start : Nat)
  | fieldEnd
  | spanEnd
  | level (start : Nat)

/-- The part of a text from one place to another. -/
def part (cs : List Char) (start stop : Nat) : String :=
  String.ofList ((cs.drop start).take (stop - start))

def mayStart (c : Char) : Bool :=
  c = '-' || c = ':' || c = '_' || Text.Alphanumeric.isAlphanumeric c

def advance (cs : List Char) (s : Phase × LogDirective) (spot : Char × Nat) :
    Option (Phase × LogDirective) :=
  let (phase, d) := s
  let (c, i) := spot
  match phase with
  | .start =>
    if c = '[' then some (.span (i + 1), d)
    else if mayStart c then some (.levelOrTarget i, d)
    else none
  | .levelOrTarget start =>
    if c = '=' then some (.level (i + 1), { d with target := some (part cs start i) })
    else if c = '[' then some (.span (i + 1), { d with target := some (part cs start i) })
    else some (phase, d)
  | .span start =>
    if c = ']' then some (.spanEnd, { d with span := some (part cs start i) })
    else if c = '\x7b' then
      some (.field (i + 1), { d with span := (some (part cs start i)).filter (!·.isEmpty) })
    else some (phase, d)
  | .field start =>
    if c = '\x7d' then
      let field := part cs start i
      if field.isEmpty then none
      else some (.fieldEnd, { d with field := some (FieldMatch.ofText field) })
    else some (phase, d)
  | .fieldEnd => if c = ']' then some (.spanEnd, d) else none
  | .spanEnd => if c = '=' then some (.level (i + 1), d) else none
  | .level _ => some (phase, d)

/-- What is left at the end is a level, or a target without one. -/
def finish (cs : List Char) : Phase × LogDirective → Option LogDirective
  | (.levelOrTarget start, d) =>
    let s := part cs start cs.length
    match LogLevel.ofText? s with
    | some level => some { d with level }
    | none => some { d with target := some s }
  | (.level start, d) =>
    let s := part cs start cs.length
    if s.isEmpty then some d else (LogLevel.ofText? s).map fun level => { d with level }
  | (.spanEnd, d) => some d
  | _ => none

/-- Reads a directive. Places are counted without the blanks around it, but the parts are cut out
of the text with the blanks. -/
def ofText? (s : String) : Option LogDirective := do
  let cs := s.toList
  let trimmed := (Text.trim s).toList
  finish cs (← trimmed.zipIdx.foldlM (advance cs) (.start, {}))

/-- Compares how specific directives are, and after that their parts. -/
def order (a b : LogDirective) : Ordering :=
  let size (d : LogDirective) := d.target.map String.utf8ByteSize
  (compare (size a) (size b)).then <|
    (compare a.span.isSome b.span.isSome).then <|
    (compare a.field.isSome b.field.isSome).then <|
    (compare a.target b.target).then <|
    (compare a.span b.span).then <|
    match a.field, b.field with
    | some x, some y => x.order y
    | _, _ => .eq

/-- Puts a directive before the less specific ones, over one for the same. -/
def insert (d : LogDirective) : List LogDirective → List LogDirective
  | [] => [d]
  | e :: rest =>
    match d.order e with
    | .gt => d :: e :: rest
    | .eq => d :: rest
    | .lt => e :: insert d rest

/-- Whether it depends on the spans entered. -/
def isDynamic (d : LogDirective) : Bool := d.span.isSome || d.field.isSome

/-- Whether it can be told at the place of a log line. A field without a value can. -/
def isStatic (d : LogDirective) : Bool :=
  d.span.isNone && (d.field.bind (·.value)).isNone

def text (d : LogDirective) : String :=
  let field := match d.field with
    | some f => "\x7b" ++ f.text ++ "\x7d"
    | none => ""
  let spans := if d.isDynamic then "[" ++ d.span.getD "" ++ field ++ "]" else ""
  let named := d.target.isSome || d.isDynamic
  d.target.getD "" ++ spans ++ (if named then "=" else "") ++ d.level.text

end LogDirective

structure LogFilter where
  statics : List LogDirective := []
  dynamics : List LogDirective := []
deriving DecidableEq, Repr

namespace LogFilter

def ofDirectives (ds : List LogDirective) : LogFilter :=
  let dynamics := ds.filter (·.isDynamic)
  let statics := ds.filter (!·.isDynamic) ++ dynamics.filter (·.isStatic)
  ⟨statics.foldl (fun l d => d.insert l) [], dynamics.foldl (fun l d => d.insert l) []⟩

/-- Reads the directives between the commas; there need not be any. -/
def ofText? (s : String) : Option LogFilter := do
  let parts := (s.toList.splitOn ',').filter (!·.isEmpty)
  return ofDirectives (← parts.mapM fun p => LogDirective.ofText? (String.ofList p))

def text (f : LogFilter) : String := ",".intercalate ((f.statics ++ f.dynamics).map (·.text))

def filterVariable : String := "RUST_LOG"

/-- The filter of the environment, or else the configured one if that can be read. -/
def choose? (h : Host) (configured : String) : Option LogFilter :=
  match (h.lookUp filterVariable).toOption.bind ofText? with
  | some f => some f
  | none => ofText? configured

end LogFilter

end Reconciliation
