import Reconciliation.Record
import Reconciliation.Step

/-! Records are stored under their keys. Every write has to carry the version that is stored, so
that a writer with an old copy is refused. A record that holds finalizers is only marked by a
deletion; it goes away with the write that drops its last finalizer. -/
namespace Reconciliation

inductive StoreError where
  | notFound (key : Key)
  | alreadyExists (key : Key)
  /-- The version of the writer's copy and the version stored. -/
  | conflict (key : Key) (expected found : Nat)
  | kindMismatch (key : Key) (expected found : Kind)
  /-- An earlier writer left the store unusable. -/
  | lockPoisoned
deriving DecidableEq, Repr

namespace StoreError

def message : StoreError → String
  | notFound key => "Record not found: " ++ key.text
  | alreadyExists key => "Record already exists: " ++ key.text
  | conflict key expected found =>
    "Conflict writing " ++ key.text ++ ": expected version " ++ toString expected ++ ", found " ++
      toString found
  | kindMismatch key expected found =>
    "Record " ++ key.text ++ " is a " ++ found.title ++ ", expected a " ++ expected.title
  | lockPoisoned => "Store lock poisoned"

def isNotFound : StoreError → Bool
  | notFound _ => true
  | _ => false

def isAlreadyExists : StoreError → Bool
  | alreadyExists _ => true
  | _ => false

/-- Whether reading again and writing again may succeed. -/
def isRetryable : StoreError → Bool
  | conflict .. => true
  | _ => false

end StoreError

/-- What reconciling needs of a record store. -/
class RecordStore (σ : Type) where
  get : Key → Step σ StoreError AnyRecord
  list : Kind → Option String → Step σ StoreError (List AnyRecord)
  create : AnyRecord → Step σ StoreError AnyRecord
  /-- Writes metadata and spec; the stored status is kept. -/
  update : AnyRecord → Step σ StoreError AnyRecord
  /-- Writes the status; stored metadata and spec are kept. -/
  updateStatus : AnyRecord → Step σ StoreError AnyRecord
  /-- Asks for deletion at the given time. -/
  delete : Instant → Key → Step σ StoreError Unit

namespace RecordStore

def typed (key : Key) (k : Kind) (r : AnyRecord) : Except StoreError (Record k) :=
  match r.ofKind? k with
  | some r => .ok r
  | none => .error (.kindMismatch key k r.kind)

variable {σ : Type} [RecordStore σ]

def fetch (k : Kind) (ns name : String) : Step σ StoreError (Record k) := do
  let key : Key := ⟨k, ns, name⟩
  Step.ofExcept (typed key k (← get key))

/-- The records of one kind in one namespace. -/
def fetchAll (k : Kind) (ns : String) : Step σ StoreError (List (Record k)) := do
  Step.ofExcept ((← list k (some ns)).mapM fun r => typed r.key k r)

/-- Writes metadata and spec and gives back the stored record. -/
def write {k : Kind} (r : Record k) : Step σ StoreError (Record k) := do
  Step.ofExcept (typed r.key k (← update r))

/-- Writes the status and gives back the stored record. -/
def writeStatus {k : Kind} (r : Record k) : Step σ StoreError (Record k) := do
  Step.ofExcept (typed r.key k (← updateStatus r))

/-- Creates a record unless its key is taken. -/
def createUnlessStored (r : AnyRecord) : Step σ StoreError Unit :=
  (create r).tolerate StoreError.isAlreadyExists

def deleteIfStored (now : Instant) (key : Key) : Step σ StoreError Unit :=
  (delete now key).tolerate StoreError.isNotFound

end RecordStore

/-- Records in memory. -/
structure Store where
  records : Table Key AnyRecord := ∅
  /-- How many uids were given out. -/
  issued : Nat := 0

namespace Store

instance : Inhabited Store := ⟨{}⟩

instance : EmptyCollection Store := ⟨{}⟩

def get? (s : Store) (key : Key) : Option AnyRecord := s.records.get? key

def hexText (width n : Nat) : List Char :=
  (List.range width).reverse.map fun i => Json.hexDigit (n / Nat.pow 16 i % 16)

/-- The uid with this number, in the usual five groups. -/
def uidText (n : Nat) : String :=
  String.ofList (hexText 8 (n >>> 96) ++ '-' :: hexText 4 (n >>> 80) ++ '-' :: hexText 4 (n >>> 64) ++
    '-' :: hexText 4 (n >>> 48) ++ '-' :: hexText 12 n)

def get (key : Key) (s : Store) : Except StoreError AnyRecord :=
  match s.get? key with
  | some r => .ok r
  | none => .error (.notFound key)

def list (k : Kind) (ns : Option String) (s : Store) : List AnyRecord :=
  (s.records.toList.filter fun (key, _) => key.kind == k && ns.all (· == key.ns)).map (·.2)

def put (s : Store) (key : Key) (r : AnyRecord) : Store :=
  { s with records := s.records.insert key r }

/-- A new record gets a uid if it has none, the first version and no deletion mark. -/
def create (r : AnyRecord) (s : Store) : Except StoreError AnyRecord × Store :=
  if (s.get? r.key).isSome then (.error (.alreadyExists r.key), s)
  else
    let fresh := r.metadata.uid.isEmpty
    let r' := r.withMetadata
      { r.metadata with
        uid := if fresh then uidText s.issued else r.metadata.uid
        version := 1
        deletedAt := none }
    (.ok r', { s.put r.key r' with issued := if fresh then s.issued + 1 else s.issued })

def checkVersion (key : Key) (stored incoming : AnyRecord) : Except StoreError Unit :=
  let expected := incoming.metadata.version
  let found := stored.metadata.version
  if expected = found then .ok () else .error (.conflict key expected found)

/-- The writer's metadata and spec with the stored status, uid and deletion mark. -/
def updated (stored incoming : AnyRecord) : AnyRecord :=
  ((incoming.withStatusOf stored).getD incoming).withMetadata
    { incoming.metadata with
      uid := stored.metadata.uid
      deletedAt := stored.metadata.deletedAt
      version := stored.metadata.version + 1 }

def update (r : AnyRecord) (s : Store) : Except StoreError AnyRecord × Store :=
  match s.get? r.key with
  | none => (.error (.notFound r.key), s)
  | some stored =>
    match checkVersion r.key stored r with
    | .error e => (.error e, s)
    | .ok () =>
      let r' := updated stored r
      if r'.metadata.beingDeleted && r'.metadata.finalizers.isEmpty then
        (.ok r', { s with records := s.records.erase r.key })
      else (.ok r', s.put r.key r')

def updateStatus (r : AnyRecord) (s : Store) : Except StoreError AnyRecord × Store :=
  match s.get? r.key with
  | none => (.error (.notFound r.key), s)
  | some stored =>
    match checkVersion r.key stored r with
    | .error e => (.error e, s)
    | .ok () =>
      match stored.withStatusOf r with
      | none => (.error (.kindMismatch r.key stored.kind r.kind), s)
      | some r' =>
        let r' := r'.withMetadata { r'.metadata with version := r'.metadata.version + 1 }
        (.ok r', s.put r.key r')

def delete (now : Instant) (key : Key) (s : Store) : Except StoreError Unit × Store :=
  match s.get? key with
  | none => (.error (.notFound key), s)
  | some stored =>
    if stored.metadata.finalizers.isEmpty then
      (.ok (), { s with records := s.records.erase key })
    else if stored.metadata.beingDeleted then (.ok (), s)
    else
      (.ok (), s.put key (stored.withMetadata
        { stored.metadata with deletedAt := some now, version := stored.metadata.version + 1 }))

instance : RecordStore Store where
  get key := .answer (get key)
  list k ns := .answer fun s => .ok (s.list k ns)
  create r := .mk (create r)
  update r := .mk (update r)
  updateStatus r := .mk (updateStatus r)
  delete now key := .mk (delete now key)

end Store

end Reconciliation
