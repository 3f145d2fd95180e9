/-! A step takes a state to an outcome and a next state, also when it fails: what was changed
before the failure stays changed. -/
namespace Reconciliation

abbrev Step (σ ε α : Type) := ExceptT ε (StateM σ) α

namespace Step

variable {σ ω ε δ α : Type}

def mk (f : σ → Except ε α × σ) : Step σ ε α := f

/-- A step that gives an outcome and changes nothing. -/
def answer (f : σ → Except ε α) : Step σ ε α := mk fun s => (f s, s)

/-- A step on a part of the state. -/
def onPart (part : ω → σ) (replace : ω → σ → ω) (wrap : ε → δ) (x : Step σ ε α) : Step ω δ α :=
  mk fun w =>
    match x (part w) with
    | (.ok a, s) => (.ok a, replace w s)
    | (.error e, s) => (.error (wrap e), replace w s)

def mapError (f : ε → δ) (x : Step σ ε α) : Step σ δ α := x.onPart id (fun _ s => s) f

/-- The outcome as a value, so that the caller decides about the failure. -/
def attempt (x : Step σ ε α) : Step σ δ (Except ε α) :=
  mk fun s =>
    let (r, s) := x s
    (.ok r, s)

/-- Some failures are as good as success. -/
def tolerate (harmless : ε → Bool) (x : Step σ ε α) : Step σ ε Unit :=
  mk fun s =>
    match x s with
    | (.ok _, s) => (.ok (), s)
    | (.error e, s) => (if harmless e then .ok () else .error e, s)

def ofExcept (r : Except ε α) : Step σ ε α := mk fun s => (r, s)

end Step

end Reconciliation
