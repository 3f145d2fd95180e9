import Reconciliation.Url.Host

/-! An address is read by the rules that browsers follow: blanks around it are dropped, the scheme
and the host are brought into lower case, a default port is left out, `.` and `..` in the path are
resolved, and each part is percent-encoded. A reference is read against the address it stands in.
-/
namespace Reconciliation

structure Url.Authority where
  user : String := ""
  password : String := ""
  host : String
  port : Option Nat := none
deriving DecidableEq, Repr

inductive Url.Path where
  /-- A path that is a text and not made of segments. -/
  | text (s : String)
  | segments (names : List String)
deriving DecidableEq, Repr

structure Url where
  scheme : String
  authority : Option Url.Authority
  path : Url.Path
  query : Option String := none
  fragment : Option String := none
deriving DecidableEq, Repr

namespace Url

def Authority.text (a : Authority) : String :=
  let password := if a.password.isEmpty then "" else ":" ++ a.password
  let user := if a.user.isEmpty && a.password.isEmpty then "" else a.user ++ password ++ "@"
  user ++ a.host ++ match a.port with
    | some p => ":" ++ toString p
    | none => ""

def Path.asText : Path → String
  | text s => s
  | segments names => String.join (names.map ("/" ++ ·))

/-- Two slashes in front of a path would be taken for an authority. -/
def pathGuard (u : Url) : String :=
  match u.authority, u.path with
  | none, .segments ("" :: _ :: _) => "/."
  | _, _ => ""

def withoutFragment (u : Url) : String :=
  u.scheme ++ ":" ++ (match u.authority with
    | some a => "//" ++ a.text
    | none => "") ++ u.pathGuard ++ u.path.asText ++ match u.query with
    | some q => "?" ++ q
    | none => ""

def text (u : Url) : String :=
  u.withoutFragment ++ match u.fragment with
    | some f => "#" ++ f
    | none => ""

/-- The schemes with rules of their own, with the ports that they are served at. -/
def specialSchemes : List (String × Option Nat) :=
  [("http", some 80), ("https", some 443), ("ws", some 80), ("wss", some 443), ("ftp", some 21),
    ("file", none)]

def isSpecial (scheme : String) : Bool := (specialSchemes.lookup scheme).isSome

def defaultPort (scheme : String) : Option Nat := (specialSchemes.lookup scheme).join

def scheme? (cs : List Char) : Option (String × List Char) := do
  let (name, rest) ← Text.splitOnce ':' cs
  let valid := name.all fun c => c.isAlphanum || c = '+' || c = '-' || c = '.'
  if valid && name.head?.any Char.isAlpha then
    return (String.ofList (name.map Char.toLower), rest)
  else none

def isSlash (special : Bool) (c : Char) : Bool := c = '/' || (special && c = '\\')

/-- The pieces between slashes. -/
def pieces (special : Bool) (cs : List Char) : List (List Char) :=
  (cs.map fun c => if isSlash special c then '/' else c).splitOn '/'

/-- A dot may be written as its percent-encoding. -/
def isDot (piece : List Char) : Bool :=
  [".", "%2e"].contains (String.ofList (piece.map Char.toLower))

def isDoubleDot (piece : List Char) : Bool :=
  ["..", ".%2e", "%2e.", "%2e%2e"].contains (String.ofList (piece.map Char.toLower))

/-- Adds pieces to the segments in front of them. -/
def addPieces : List String → List (List Char) → List String
  | segments, [] => segments
  | segments, p :: rest =>
    let close (segments : List String) := if rest.isEmpty then segments ++ [""] else segments
    if isDoubleDot p then addPieces (close segments.dropLast) rest
    else if isDot p then addPieces (close segments) rest
    else addPieces (segments ++ [String.ofList (percentEncode inPath p)]) rest

/-- A path from the root, which is there in any case for the special schemes. -/
def rootedPath (special : Bool) (cs : List Char) : Path :=
  match cs with
  | [] => .segments (if special then [""] else [])
  | c :: rest =>
    .segments (addPieces [] (pieces special (if isSlash special c then rest else c :: rest)))

def port? (scheme : String) (cs : List Char) : Option (Option Nat) :=
  if cs.isEmpty then some none
  else if !cs.all Json.isDigit then none
  else
    let n := Json.decimalValue cs
    if n < UInt16.size then some ((some n).filter fun n => defaultPort scheme ≠ some n) else none

/-- The host and what follows its colon. -/
def hostAndPort (cs : List Char) : Option (List Char × List Char) :=
  match cs with
  | '[' :: _ =>
    let inner := cs.takeWhile (· != ']')
    match cs.drop inner.length with
    | [']'] => some (inner ++ [']'], [])
    | ']' :: ':' :: port => some (inner ++ [']'], port)
    | _ => none
  | cs => some ((Text.splitOnce ':' cs).getD (cs, []))

def authority? (scheme : String) (cs : List Char) : Option Authority := do
  let (login, address) := match Text.splitAtLast ['@'] cs with
    | some (login, address) => (login, address)
    | none => ([], cs)
  let (user, password) := (Text.splitOnce ':' login).getD (login, [])
  let (host, port) ← hostAndPort address
  if host.isEmpty && (isSpecial scheme || address.length ≠ cs.length || !port.isEmpty) then none
  let name ← if host.isEmpty then some "" else host? (isSpecial scheme) host
  return {
    user := String.ofList (percentEncode inUser user)
    password := String.ofList (percentEncode inUser password)
    host := name
    port := ← port? scheme port }

/-- The authority at the front of a text, and what follows it. -/
def splitAuthority (special : Bool) (cs : List Char) : List Char × List Char :=
  (cs.takeWhile (!isSlash special ·), cs.dropWhile (!isSlash special ·))

/-- The parts of a text that are told apart before anything else. -/
structure Parts where
  main : List Char
  query : Option (List Char)
  fragment : Option (List Char)

def Parts.ofText (s : String) : Parts :=
  let outer (c : Char) := c.toNat ≤ 0x20
  let trimmed := ((s.toList.dropWhile outer).reverse.dropWhile outer).reverse
  let cs := trimmed.filter fun c => !(c = '\t' || c = '\n' || c = '\r')
  let (before, fragment) := match Text.splitOnce '#' cs with
    | some (before, f) => (before, some f)
    | none => (cs, none)
  match Text.splitOnce '?' before with
  | some (main, q) => ⟨main, some q, fragment⟩
  | none => ⟨before, none, fragment⟩

def Parts.finish (p : Parts) (scheme : String) (authority : Option Authority) (path : Path) :
    Url where
  scheme := scheme
  authority := authority
  path := path
  query := p.query.map fun q => String.ofList (percentEncode (inQuery (isSpecial scheme)) q)
  fragment := p.fragment.map fun f => String.ofList (percentEncode inFragment f)

/-- What follows two slashes. -/
def afterSlashes (p : Parts) (scheme : String) (cs : List Char) : Option Url := do
  let special := isSpecial scheme
  let (authority, path) := splitAuthority special cs
  return p.finish scheme (some (← authority? scheme authority)) (rootedPath special path)

/-- A file may have a host; the own host is left out. -/
def fileUrl (p : Parts) (cs : List Char) : Option Url := do
  match cs with
  | a :: b :: rest =>
    if isSlash true a && isSlash true b then
      let (host, path) := splitAuthority true rest
      let name ← if host.isEmpty then some "" else host? true host
      let name := if name = "localhost" then "" else name
      return p.finish "file" (some { host := name }) (rootedPath true path)
    else return p.finish "file" (some { host := "" }) (rootedPath true cs)
  | cs => return p.finish "file" (some { host := "" }) (rootedPath true cs)

def absolute (p : Parts) (scheme : String) (cs : List Char) : Option Url :=
  if scheme = "file" then fileUrl p cs
  else if isSpecial scheme then afterSlashes p scheme (cs.dropWhile (isSlash true))
  else
    match cs with
    | '/' :: '/' :: rest => afterSlashes p scheme rest
    | '/' :: _ => some (p.finish scheme none (rootedPath false cs))
    | cs => some (p.finish scheme none (.text (String.ofList (percentEncode isControl cs))))

def parse? (s : String) : Option Url := do
  let p := Parts.ofText s
  let (scheme, rest) ← scheme? p.main
  absolute p scheme rest

/-- Reads what has no scheme of its own. -/
def relative (base : Url) (p : Parts) (cs : List Char) : Option Url :=
  let special := isSpecial base.scheme
  let slashes := (cs.takeWhile (isSlash special)).length
  if slashes ≥ 2 then afterSlashes p base.scheme (cs.drop 2)
  else if slashes = 1 then some (p.finish base.scheme base.authority (rootedPath special cs))
  else
    match base.path with
    | .text _ => if cs.isEmpty && p.query.isNone then some { base with fragment := none } else none
    | .segments names =>
      if cs.isEmpty then
        let u := p.finish base.scheme base.authority base.path
        some (if p.query.isNone then { u with query := base.query } else u)
      else
        let path := addPieces names.dropLast (pieces special cs)
        some (p.finish base.scheme base.authority (.segments path))

/-- Reads a reference that stands in `base`. -/
def join? (base : Url) (s : String) : Option Url :=
  let p := Parts.ofText s
  match scheme? p.main with
  | none => relative base p p.main
  | some (scheme, rest) =>
    let slashes := (rest.takeWhile (isSlash true)).length
    if scheme = base.scheme && isSpecial scheme && slashes < 2 then relative base p rest
    else absolute p scheme rest

/-- Adds pairs to the query. -/
def addQuery (u : Url) (pairs : List (String × String)) : Url :=
  let more := formEncode pairs
  match u.query with
  | some q => { u with query := some (if q.isEmpty then more else q ++ "&" ++ more) }
  | none => { u with query := some more }

def port (u : Url) : Option Nat := (u.authority.bind (·.port)).or (defaultPort u.scheme)

def host (u : Url) : Option String := (u.authority.map (·.host)).filter (!·.isEmpty)

end Url

end Reconciliation
