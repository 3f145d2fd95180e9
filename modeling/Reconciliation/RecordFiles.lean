import Reconciliation.Host
import Reconciliation.Store
import Reconciliation.Validation
import Reconciliation.Yaml.Value

namespace Reconciliation

inductive DocumentError where
  /-- The text is no YAML, or one of its documents says nothing that can be held. -/
  | malformed
  | value (e : Yaml.ValueError)
  | record (e : DecodeError)

/-- No message is given for what is wrong with the YAML as such. -/
def DocumentError.message? : DocumentError → Option String
  | malformed => none
  | value e => some e.message
  | record e => some e.message

namespace AnyRecord

def ofValue (v : Yaml.Value) : Except DocumentError AnyRecord :=
  match v.toJson with
  | .error e => .error (.value e)
  | .ok j => (AnyRecord.decode j).mapError .record

/-- The records of a text. Empty documents are skipped. -/
def ofYaml (text : String) : Except DocumentError (List AnyRecord) :=
  match (Yaml.Document.ofText? text).bind (·.mapM Yaml.Value.ofDocument?) with
  | none => .error .malformed
  | some values => (values.filter (!·.isNull)).mapM ofValue

end AnyRecord

inductive LoadError where
  | directoryNotFound (root : String)
  /-- A link that leads nowhere or back. -/
  | strayLink (root : String)
  | unreadable (path : String) (cause : FileError)
  | malformed (path : String) (cause : DocumentError)
  | duplicate (key : Key)
  | invalid (complaint : String)
  | store (e : StoreError)

namespace LoadError

def message? : LoadError → Option String
  | directoryNotFound root => some ("Manifest directory not found: " ++ root)
  | strayLink _ => none
  | unreadable path cause => some ("Failed to read file '" ++ path ++ "': " ++ cause.message)
  | malformed path cause =>
    cause.message?.map fun m => "Failed to parse YAML in '" ++ path ++ "': " ++ m
  | duplicate key => some ("Duplicate record: " ++ key.text)
  | invalid complaint => some ("Validation error: " ++ complaint)
  | store e => some e.message

end LoadError

/-- A record and the file it came from, by its path below the directory. -/
structure RecordEntry where
  path : String
  record : AnyRecord

namespace RecordFiles

/-- Hidden files and directories are passed over. -/
def isHidden (way : List String) : Bool := way.any fun name => name.toList.head? = some '.'

def isRecordFile (way : List String) : Bool :=
  match way.getLast? with
  | some name => name.endsWith ".yaml" || name.endsWith ".yml"
  | none => false

def add (path : String) : List RecordEntry → List AnyRecord → Except LoadError (List RecordEntry)
  | entries, [] => .ok entries
  | entries, r :: rest =>
    if entries.any (·.record.key = r.key) then .error (.duplicate r.key)
    else add path (entries ++ [⟨path, r⟩]) rest

def addFile (h : Host) (root : String) (entries : List RecordEntry) (way : List String) :
    Except LoadError (List RecordEntry) := do
  let path := "/".intercalate way
  let file := FileTree.join root path
  match h.read file with
  | .error e => .error (.unreadable file e)
  | .ok text =>
    match AnyRecord.ofYaml text with
    | .error e => .error (.malformed file e)
    | .ok records => add path entries records

def addFound (h : Host) (root : String) (entries : List RecordEntry) :
    FileTree.Found → Except LoadError (List RecordEntry)
  | .stray => .error (.strayLink root)
  | .file way =>
    if isHidden way || !isRecordFile way then .ok entries else addFile h root entries way

/-- The records of a directory in the order of their keys. -/
def load (h : Host) (root : String) : Except LoadError (List RecordEntry) :=
  match h.directory? root with
  | none => .error (.directoryNotFound root)
  | some place => do
    let entries ← (h.files.walk place).foldlM (addFound h root) []
    match Validation.complaint? (entries.map (·.record)) with
    | some complaint => .error (.invalid complaint)
    | none => return entries.mergeSort fun a b => (compare a.record.key b.record.key).isLE

variable {τ : Type} [RecordStore τ]

/-- Creates the records that are not stored yet, and tells how many. -/
def create : List RecordEntry → Step τ LoadError Nat
  | [] => return 0
  | e :: rest => do
    match ← (RecordStore.create e.record).attempt with
    | .ok _ => return (← create rest) + 1
    | .error (.alreadyExists _) => create rest
    | .error e => throw (.store e)

def seed (h : Host) (root : String) : Step τ LoadError Nat := do
  create (← Step.ofExcept (load h root))

end RecordFiles

end Reconciliation
