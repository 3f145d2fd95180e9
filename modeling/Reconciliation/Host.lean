import Reconciliation.FileTree

namespace Reconciliation

structure Host where
  files : FileTree := {}
  environment : Table String (List UInt8) := ∅
  workingDirectory : Place := []
  /-- The home directory of the account, for want of a variable. -/
  accountHome : String := "/"

inductive VariableError where
  | notSet
  | notText
deriving DecidableEq, Repr

namespace Host

def lookUp (h : Host) (name : String) : Except VariableError String :=
  match h.environment.get? name with
  | none => .error .notSet
  | some bytes =>
    match Text.Utf8.decode? bytes with
    | some text => .ok text
    | none => .error .notText

def read (h : Host) (path : String) : Except FileError String :=
  h.files.read h.workingDirectory path

def directory? (h : Host) (path : String) : Option Place :=
  h.files.directory? h.workingDirectory path

def exists? (h : Host) (path : String) : Bool := h.files.exists? h.workingDirectory path

/-- The directory that a variable names, unless it is empty. -/
def directoryIn (h : Host) (name : String) : Option String :=
  ((h.environment.get? name).map Text.Utf8.decodeLossy).filter (!·.isEmpty)

def home (h : Host) : String := (h.directoryIn "HOME").getD h.accountHome

/-- Where configurations are kept. A relative directory is not taken. -/
def configDirectory (h : Host) : String :=
  match (h.directoryIn "XDG_CONFIG_HOME").filter FileTree.isAbsolute with
  | some d => d
  | none => FileTree.join h.home ".config"

/-- A leading `~` stands for the home directory. -/
def expanded (h : Host) (path : String) : String :=
  match path.toList with
  | ['~'] => h.home
  | '~' :: '/' :: rest => h.home ++ String.ofList ('/' :: rest)
  | _ => path

end Host

end Reconciliation
