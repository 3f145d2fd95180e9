import Reconciliation.Reconcile

namespace Reconciliation

/-- The outcome of each visit, in the order of the visits. -/
abbrev SweepReport := List (Key × Except ReconcileError Unit)

namespace SweepReport

def reconciled (report : SweepReport) : List Key :=
  report.filterMap fun (key, r) => if r.toBool then some key else none

def failed (report : SweepReport) : List (Key × ReconcileError) :=
  report.filterMap fun
    | (key, .error e) => some (key, e)
    | (_, .ok ()) => none

def isClean (report : SweepReport) : Bool := report.failed.isEmpty

end SweepReport

namespace Sweep

/-- The order of visits for the records stored, listed kind by kind. -/
def order (stored : List AnyRecord) : List Key :=
  let deleted := stored.filter (·.metadata.beingDeleted)
  let live := stored.filter (!·.metadata.beingDeleted)
  live.map (·.key) ++ (deleted.map (·.key)).reverse

variable {σ τ : Type} [RecordStore σ]

def stored : Step σ StoreError (List AnyRecord) := do
  return (← Kind.inDependencyOrder.mapM fun k => RecordStore.list k none).flatten

variable [SecretStore τ]

def visit (sys : String) (key : Key) :
    Step (World σ τ) StoreError (Key × Except ReconcileError Unit) := do
  return (key, ← (reconcile sys key).attempt)

end Sweep

variable {σ τ : Type} [RecordStore σ] [SecretStore τ]

/-- Reconciles each stored record once: first the live ones, a kind only after the kinds that it
refers to, then the deleted ones the other way round. What fails is tried again by the next sweep. -/
def sweep (sys : String) : Step (World σ τ) StoreError SweepReport := do
  let keys := Sweep.order (← World.onRecords id Sweep.stored)
  keys.mapM (Sweep.visit sys)

/-- Sweeps one after the other. One that cannot list the records is only skipped. -/
def sweeps (sys : String) : Nat → World σ τ → World σ τ
  | 0, w => w
  | n + 1, w => sweeps sys n (sweep sys w).2

end Reconciliation
