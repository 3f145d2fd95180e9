import Reconciliation.Store

namespace Reconciliation

namespace Json

mutual

/-- A patch that is an object changes the members it names: null removes a member, any other value
is merged into it. A patch that is no object replaces the target (RFC 7386). -/
def merge (target : Json) : (patch : Json) → Json
  | obj changes =>
    match target with
    | obj members => obj (mergeMembers members changes)
    | _ => obj (mergeMembers [] changes)
  | v => v

def mergeMembers (members : List (String × Json)) : List (String × Json) → List (String × Json)
  | [] => members
  | (k, change) :: rest =>
    match change with
    | null => mergeMembers (Entries.erase k members) rest
    | change =>
      let old := (Entries.get? k members).getD null
      mergeMembers (Entries.insert k (merge old change) members) rest

end

end Json

inductive EditError where
  | store (cause : StoreError)
  /-- The patched value is no record. -/
  | malformed (cause : DecodeError)

namespace AnyRecord

def patched (patch : Json) (r : AnyRecord) : Except DecodeError AnyRecord :=
  decode (Json.merge r.toJson.sorted patch)

end AnyRecord

namespace RecordStore

variable {σ : Type} [RecordStore σ]

def readPatched (patch : Json) (key : Key) : Step σ EditError AnyRecord := do
  let r ← (get key).mapError EditError.store
  Step.ofExcept ((r.patched patch).mapError EditError.malformed)

/-- An owner merges a patch into the JSON form of a record and writes it back with the version that
was read. -/
def edit (patch : Json) (key : Key) : Step σ EditError AnyRecord := do
  (update (← readPatched patch key)).mapError .store

def editStatus (patch : Json) (key : Key) : Step σ EditError AnyRecord := do
  (updateStatus (← readPatched patch key)).mapError .store

end RecordStore

end Reconciliation
