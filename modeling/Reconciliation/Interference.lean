import Reconciliation.Secret
import Reconciliation.Store.Edit

/-! A disturbed store is a store in which something happens just before chosen calls: another
writer edits, deletes or creates, or the call fails, or it is answered with a foreign record. What
is to happen is armed beforehand, with the number of matching calls to let pass. -/
namespace Reconciliation

structure Armed (κ δ : Type) where
  call : κ
  skip : Nat := 0
  effect : δ

namespace Armed

variable {κ δ : Type} [DecidableEq κ]

/-- The first entry for this call that has nothing left to skip, and the entries left over. Those
passed on the way have one call less to skip. -/
def fire (call : κ) : List (Armed κ δ) → Option δ × List (Armed κ δ)
  | [] => (none, [])
  | a :: rest =>
    if a.call = call then
      if a.skip = 0 then (some a.effect, rest)
      else
        let (effect, left) := fire call rest
        (effect, { a with skip := a.skip - 1 } :: left)
    else
      let (effect, left) := fire call rest
      (effect, a :: left)

end Armed

inductive StoreCall where
  | get
  | list
  | create
  | update
  | updateStatus
  | delete
deriving DecidableEq, Repr

inductive StoreFault where
  | lockPoisoned
  | notFound
  | alreadyExists
deriving DecidableEq, Repr

def StoreFault.error (key : Key) : StoreFault → StoreError
  | lockPoisoned => .lockPoisoned
  | notFound => .notFound key
  | alreadyExists => .alreadyExists key

inductive StoreDisturbance where
  | fail (fault : StoreFault)
  | edit (patch : Json) (key : Key)
  | delete (now : Instant) (key : Key)
  | create (r : AnyRecord)
  /-- The call does not reach the store and gives this record. -/
  | answer (r : AnyRecord)

structure DisturbedStore (σ : Type) where
  inner : σ
  armed : List (Armed StoreCall StoreDisturbance) := []

namespace DisturbedStore

variable {σ α : Type} [RecordStore σ]

def act : StoreDisturbance → σ → σ
  | .edit patch key, s => (RecordStore.edit patch key s).2
  | .delete now key, s => (RecordStore.delete now key s).2
  | .create r, s => (RecordStore.create r s).2
  | .fail _, s | .answer _, s => s

def disturbed (call : StoreCall) (key : Key) (answer : AnyRecord → α) (x : Step σ StoreError α) :
    Step (DisturbedStore σ) StoreError α :=
  .mk fun s =>
    let (effect, armed) := Armed.fire call s.armed
    match effect with
    | some (.fail fault) => (.error (fault.error key), ⟨s.inner, armed⟩)
    | some (.answer r) => (.ok (answer r), ⟨s.inner, armed⟩)
    | some d =>
      let (r, inner) := x (act d s.inner)
      (r, ⟨inner, armed⟩)
    | none =>
      let (r, inner) := x s.inner
      (r, ⟨inner, armed⟩)

instance : RecordStore (DisturbedStore σ) where
  get key := disturbed .get key id (RecordStore.get key)
  list k ns := disturbed .list ⟨k, ns.getD "", ""⟩ (fun r => [r]) (RecordStore.list k ns)
  create r := disturbed .create r.key id (RecordStore.create r)
  update r := disturbed .update r.key id (RecordStore.update r)
  updateStatus r := disturbed .updateStatus r.key id (RecordStore.updateStatus r)
  delete now key := disturbed .delete key (fun _ => ()) (RecordStore.delete now key)

end DisturbedStore

inductive SecretCall where
  | get
  | create
  | delete
deriving DecidableEq, Repr

inductive SecretDisturbance where
  | fail (fault : SecretError)
  | create (name : SecretName) (value : String)
  | delete (name : SecretName)

structure DisturbedSecrets (τ : Type) where
  inner : τ
  armed : List (Armed SecretCall SecretDisturbance) := []

namespace DisturbedSecrets

variable {τ α : Type} [SecretStore τ]

def act : SecretDisturbance → τ → τ
  | .create name value, s => (SecretStore.create name value s).2
  | .delete name, s => (SecretStore.delete name s).2
  | .fail _, s => s

def disturbed (call : SecretCall) (x : Step τ SecretError α) :
    Step (DisturbedSecrets τ) SecretError α :=
  .mk fun s =>
    let (effect, armed) := Armed.fire call s.armed
    match effect with
    | some (.fail fault) => (.error fault, ⟨s.inner, armed⟩)
    | some d =>
      let (r, inner) := x (act d s.inner)
      (r, ⟨inner, armed⟩)
    | none =>
      let (r, inner) := x s.inner
      (r, ⟨inner, armed⟩)

instance : SecretStore (DisturbedSecrets τ) where
  get name := disturbed .get (SecretStore.get name)
  create name value := disturbed .create (SecretStore.create name value)
  delete name := disturbed .delete (SecretStore.delete name)

end DisturbedSecrets

end Reconciliation
