import Reconciliation.Proofs.Effect
import Reconciliation.Sweep

/-! Owners create, change and delete records, records are reconciled one at a time or in sweeps,
and the remote services cease to answer and answer again, all in any order. A sweep is no more than
a row of reconciles, so that a run can be looked at move by move. -/
namespace Reconciliation

inductive Move where
  | create (r : AnyRecord)
  | update (r : AnyRecord)
  | delete (key : Key)
  | reconcile (key : Key)
  /-- The Director rejects every call for this reason from now on, or none. -/
  | directorFails (failure : Option String)
  | identityFails (failure : Option String)
  | clock (now : Instant)

namespace Move

def act (sys : String) : Move → World Store Secrets → World Store Secrets
  | create r, w => { w with records := (Store.create r w.records).2 }
  | update r, w => { w with records := (Store.update r w.records).2 }
  | delete key, w => { w with records := (Store.delete w.now key w.records).2 }
  | reconcile key, w => (Reconciliation.reconcile sys key w).2
  | directorFails failure, w => { w with director := { w.director with failure := failure } }
  | identityFails failure, w => { w with identity := { w.identity with failure := failure } }
  | clock now, w => { w with now := now }

end Move

inductive Event where
  | move (m : Move)
  | sweep

namespace Sweep

/-- The keys that a sweep visits, in order. -/
def keys (s : Store) : List Key :=
  order (Kind.inDependencyOrder.map fun k => s.list k none).flatten

end Sweep

namespace Event

def act (sys : String) : Event → World Store Secrets → World Store Secrets
  | move m, w => m.act sys w
  | sweep, w => (Reconciliation.sweep sys w).2

/-- The moves that an event consists of. -/
def moves (w : World Store Secrets) : Event → List Move
  | move m => [m]
  | sweep => (Sweep.keys w.records).map .reconcile

end Event

/-- The world after these moves. -/
def after (sys : String) (ms : List Move) (w : World Store Secrets) : World Store Secrets :=
  ms.foldl (fun w m => m.act sys w) w

/-- The world after these events. -/
def run (sys : String) (es : List Event) (w : World Store Secrets) : World Store Secrets :=
  es.foldl (fun w e => e.act sys w) w

/-- The world after the first `i` of these moves. -/
def stateAt (sys : String) (ms : List Move) (w : World Store Secrets) (i : Nat) :
    World Store Secrets :=
  after sys (ms.take i) w

/-- All moves of a run, one after the other. -/
def moves (sys : String) : List Event → World Store Secrets → List Move
  | [], _ => []
  | e :: es, w => e.moves w ++ moves sys es (e.act sys w)

variable {sys : String} {w : World Store Secrets}

theorem after_append (ms ms' : List Move) (w : World Store Secrets) :
    after sys (ms ++ ms') w = after sys ms' (after sys ms w) :=
  List.foldl_append

theorem stateAt_zero (ms : List Move) (w : World Store Secrets) : stateAt sys ms w 0 = w := rfl

theorem stateAt_length (ms : List Move) (w : World Store Secrets) :
    stateAt sys ms w ms.length = after sys ms w := by
  rw [stateAt, List.take_length]

theorem stateAt_succ {ms : List Move} {i : Nat} (h : i < ms.length) (w : World Store Secrets) :
    stateAt sys ms w (i + 1) = (ms[i]).act sys (stateAt sys ms w i) := by
  rw [stateAt, List.take_succ_eq_append_getElem h, after_append]
  rfl

namespace Sweep

theorem stored_apply (s : Store) : (stored : Step Store StoreError (List AnyRecord)) s =
    (.ok (Kind.inDependencyOrder.map fun k => s.list k none).flatten, s) := by
  have hlist : ∀ ks : List Kind,
      (ks.mapM fun k => RecordStore.list k none : Step Store StoreError _) s =
        (.ok (ks.map fun k => s.list k none), s) := by
    intro ks
    induction ks with
    | nil => rfl
    | cons k ks ih =>
      have hk : (RecordStore.list k none : Step Store StoreError (List AnyRecord)) s =
          (.ok (s.list k none), s) := rfl
      rw [List.mapM_cons, Step.bind_ok hk, Step.bind_ok ih]
      rfl
  rw [stored, Step.bind_ok (hlist _)]
  rfl

theorem visit_apply (sys : String) (key : Key) (w : World Store Secrets) :
    visit sys key w = (.ok (key, (reconcile sys key w).1), (reconcile sys key w).2) := by
  rw [visit, Step.bind_ok (Step.attempt_apply _ w)]
  rfl

theorem visits_apply (sys : String) (ks : List Key) (w : World Store Secrets) :
    ∃ report, (ks.mapM (visit sys)) w = (.ok report, after sys (ks.map .reconcile) w) := by
  induction ks generalizing w with
  | nil => exact ⟨[], rfl⟩
  | cons key ks ih =>
    obtain ⟨report, hr⟩ := ih (reconcile sys key w).2
    rw [List.mapM_cons, Step.bind_ok (visit_apply sys key w), Step.bind_ok hr]
    exact ⟨_, rfl⟩

end Sweep

/-- A sweep ignores the logs, as its reconciles do. -/
theorem sweep_ignoresLogs {σ τ : Type} [RecordStore σ] [SecretStore τ] (sys : String) :
    World.IgnoresLogs (sweep sys : Step (World σ τ) StoreError SweepReport) := by
  refine (World.IgnoresLogs.onRecords id Sweep.stored).bind fun stored => ?_
  refine Step.Related.mapM (fun key => ?_) (Sweep.order stored)
  refine Step.Related.bind (Step.Related.attempt (reconcile_ignoresLogs sys key)) ?_
  rintro outcome _ rfl
  exact .pure rfl

/-- A sweep visits one key after the other. -/
theorem sweep_eq_visits (sys : String) (w : World Store Secrets) :
    sweep sys w = ((Sweep.keys w.records).mapM (Sweep.visit sys)) w := by
  have hs : World.onRecords (τ := Secrets) id Sweep.stored w = (.ok _, w) :=
    Step.onPart_ok (Sweep.stored_apply w.records)
  exact Step.bind_ok hs _

/-- Whatever becomes of each visit, the next key is reconciled. -/
theorem sweep_eq (sys : String) (w : World Store Secrets) :
    (sweep sys w).2 = after sys ((Sweep.keys w.records).map .reconcile) w := by
  obtain ⟨report, hr⟩ := Sweep.visits_apply sys (Sweep.keys w.records) w
  rw [sweep_eq_visits, hr]

theorem act_eq_after (sys : String) (e : Event) (w : World Store Secrets) :
    e.act sys w = after sys (e.moves w) w := by
  cases e with
  | move m => rfl
  | sweep => exact sweep_eq sys w

/-- A run makes the moves of its events and reconciles. -/
theorem mem_moves {es : List Event} {m : Move} (h : m ∈ moves sys es w) :
    .move m ∈ es ∨ ∃ key, m = .reconcile key := by
  induction es generalizing w with
  | nil => cases h
  | cons e es ih =>
    rcases List.mem_append.1 h with h | h
    · cases e with
      | move m' =>
        obtain rfl := List.mem_singleton.1 h
        exact .inl List.mem_cons_self
      | sweep =>
        obtain ⟨key, -, rfl⟩ := List.mem_map.1 h
        exact .inr ⟨key, rfl⟩
    · rcases ih h with h | h
      · exact .inl (List.mem_cons_of_mem _ h)
      · exact .inr h

/-- The moves of a run lead where the run leads. -/
theorem after_moves (sys : String) (es : List Event) (w : World Store Secrets) :
    after sys (moves sys es w) w = run sys es w := by
  induction es generalizing w with
  | nil => rfl
  | cons e es ih =>
    rw [moves, after_append, ← act_eq_after, ih]
    rfl

/-- What every move keeps holds after any number of them. -/
theorem after_invariant {I : World Store Secrets → Prop} {ms : List Move}
    (hstep : ∀ m ∈ ms, ∀ w, I w → I (m.act sys w)) (h : I w) : I (after sys ms w) := by
  induction ms generalizing w with
  | nil => exact h
  | cons m ms ih =>
    have hm := hstep m List.mem_cons_self w h
    exact ih (fun m' hm' => hstep m' (List.mem_cons_of_mem _ hm')) hm

theorem act_wellFormed (sys : String) (m : Move) (hw : w.records.WellFormed) :
    (m.act sys w).records.WellFormed := by
  cases m with
  | create r => exact hw.create r
  | update r => exact hw.update r
  | delete key => exact hw.delete w.now key
  | reconcile key => exact reconcile_wellFormed hw sys key
  | directorFails | identityFails | clock => exact hw

theorem after_wellFormed (sys : String) (ms : List Move) (hw : w.records.WellFormed) :
    (after sys ms w).records.WellFormed :=
  after_invariant (I := fun v => v.records.WellFormed) (fun m _ _ h => act_wellFormed sys m h) hw

end Reconciliation
