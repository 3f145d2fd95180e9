import Reconciliation.Table
import Reconciliation.Text.Utf8

namespace Reconciliation

/-- Why a file cannot be read. -/
inductive FileError where
  | missing
  | isDirectory
  | notDirectory
  | tooManyLinks
  | nameTooLong
  | notText
  /-- A path with a NUL in it. -/
  | invalidPath
deriving DecidableEq, Repr

def FileError.message : FileError → String
  | missing => "No such file or directory (os error 2)"
  | isDirectory => "Is a directory (os error 21)"
  | notDirectory => "Not a directory (os error 20)"
  | tooManyLinks => "Too many levels of symbolic links (os error 40)"
  | nameTooLong => "File name too long (os error 36)"
  | notText => "stream did not contain valid UTF-8"
  | invalidPath => "file name contained an unexpected NUL byte"

abbrev Place := List String

inductive FileNode where
  | directory
  | file (content : List UInt8)
  | link (target : String)

structure FileTree where
  nodes : List (Place × FileNode) := []

namespace FileTree

/-- The root is always a directory. -/
def node? (t : FileTree) (p : Place) : Option FileNode :=
  if p.isEmpty then some .directory else t.nodes.lookup p

/-- Puts a node at a place and makes the directories on the way that are missing. -/
def put (p : Place) (n : FileNode) (t : FileTree) : FileTree :=
  let ways := ((List.range p.length).drop 1).map (p.take ·)
  let made := ways.filter fun w => (t.node? w).isNone
  ⟨(p, n) :: (made.map fun w => (w, FileNode.directory)) ++ t.nodes⟩

def isAbsolute (path : String) : Bool := path.toList.head? = some '/'

/-- The names of a path, with an empty one before each needless slash. -/
def names (path : String) : List String :=
  if path.isEmpty then [] else (path.toList.splitOn '/').map String.ofList

/-- A path continued by another, which replaces it if absolute. -/
def join (path name : String) : String :=
  if isAbsolute name || path.isEmpty then name
  else if path.toList.getLast? = some '/' then path ++ name
  else path ++ "/" ++ name

def longestName : Nat := 255

def mostLinks : Nat := 40

/-- Goes from a directory along the names. At most `links` links are followed. -/
def go (t : FileTree) (links : Nat) (here : Place) (path : List String) : Except FileError Place :=
  match path with
  | [] => .ok here
  | name :: rest =>
    match t.node? here with
    | some .directory =>
      if name.isEmpty || name = "." then go t links here rest
      else if name = ".." then go t links here.dropLast rest
      else if name.utf8ByteSize > longestName then .error .nameTooLong
      else
        match t.node? (here ++ [name]) with
        | none => .error .missing
        | some (.link target) =>
          match links with
          | 0 => .error .tooManyLinks
          | links + 1 =>
            if target.isEmpty then .error .missing
            else go t links (if isAbsolute target then [] else here) (names target ++ rest)
        | some _ => go t links (here ++ [name]) rest
    | some _ => .error .notDirectory
    | none => .error .missing
termination_by (links, path.length)

/-- The place that a path leads to, from a directory to start at. -/
def locate (t : FileTree) (start : Place) (path : String) : Except FileError Place :=
  if path.toList.any (·.toNat = 0) then .error .invalidPath
  else if path.isEmpty then .error .missing
  else go t mostLinks (if isAbsolute path then [] else start) (names path)

def read (t : FileTree) (start : Place) (path : String) : Except FileError String := do
  match t.node? (← locate t start path) with
  | some (.file content) =>
    match Text.Utf8.decode? content with
    | some text => return text
    | none => throw .notText
  | some _ => throw .isDirectory
  | none => throw .missing

def exists? (t : FileTree) (start : Place) (path : String) : Bool :=
  match locate t start path with
  | .ok p => (t.node? p).isSome
  | .error _ => false

/-- The place of a directory. -/
def directory? (t : FileTree) (start : Place) (path : String) : Option Place :=
  match locate t start path with
  | .ok p => if (t.node? p) matches (some .directory) then some p else none
  | .error _ => none

/-- The names in a directory, in order. -/
def entries (t : FileTree) (p : Place) : List String :=
  let inside := t.nodes.filterMap fun (q, _) =>
    if q.dropLast = p then q.getLast?.map fun name => (name, ()) else none
  (Entries.ofList inside).map (·.1)

/-- What a walk finds: a file by the names on the way to it, or a link that leads nowhere or back
to a directory on the way. -/
inductive Found where
  | file (way : List String)
  | stray

/-- Everything below a directory, in the order of the names, links followed. The directories on the
way are `above`, the nearest first. -/
def below (t : FileTree) : (fuel : Nat) → (above : List Place) → (way : List String) → List Found
  | 0, _, _ => []
  | _, [], _ => []
  | fuel + 1, here :: above, way =>
    (t.entries here).flatMap fun name =>
      let place := here ++ [name]
      let way := way ++ [name]
      match t.node? place with
      | some .directory => below t fuel (place :: here :: above) way
      | some (.file _) => [.file way]
      | some (.link _) =>
        match go t mostLinks here [name] with
        | .error _ => [.stray]
        | .ok target =>
          match t.node? target with
          | some .directory =>
            if (here :: above).contains target then [.stray]
            else below t fuel (target :: here :: above) way
          | _ => [.file way]
      | none => []

/-- A way enters each directory through a link at most once, and between two links it goes down. -/
def deepest (t : FileTree) : Nat := (t.nodes.length + 2) * (t.nodes.length + 2)

def walk (t : FileTree) (root : Place) : List Found := below t t.deepest [root] []

end FileTree

end Reconciliation
