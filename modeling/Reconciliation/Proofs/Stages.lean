import Reconciliation.Proofs.Drift
import Reconciliation.Proofs.Store
import Reconciliation.Reconcile

/-! A reconcile takes a stored record through a few stages, each written to the store before the
next one begins: its force flag is consumed, its spec is frozen, its finalizer is attached, its
object is published, and at the end of its life its finalizer is dropped. A stage that was reached
before is not written again. -/
namespace Reconciliation

namespace Record

variable {k : Kind}

/-- The stage after freezing. -/
def frozenBy (sys : String) (r : Record k) : Record k :=
  if r.needsPreparing sys then (r.prepared sys).bumped else r

/-- The stage after attaching the finalizer. -/
def guarded (r : Record k) : Record k := if r.hasFinalizer then r else r.withFinalizer.bumped

/-- The stage from which the remote object may be brought into place. -/
def readied (sys : String) (r : Record k) : Record k := (r.frozenBy sys).guarded

/-- The stage after publishing. -/
def settled (r : Record k) : Record k := if r.available then r else r.published.bumped

/-- The stage after the force flag was consumed; only deployments have one. -/
def consumed : {k : Kind} → Record k → Record k
  | .deployment, r => if r.forced then r.unforced.bumped else r
  | _, r => r

/-- The stage after dropping the finalizer. -/
def released (r : Record k) : Record k := r.withoutFinalizer.bumped

@[simp]
theorem key_frozenBy (sys : String) (r : Record k) : (r.frozenBy sys).key = r.key := by
  unfold frozenBy
  split <;> rfl

@[simp]
theorem key_withFinalizer (r : Record k) : r.withFinalizer.key = r.key := by
  simp only [withFinalizer, key, Metadata.withFinalizer]
  split <;> rfl

@[simp]
theorem key_guarded (r : Record k) : r.guarded.key = r.key := by
  unfold guarded
  split
  · rfl
  · rw [key_bumped, key_withFinalizer]

@[simp]
theorem key_readied (sys : String) (r : Record k) : (r.readied sys).key = r.key := by
  simp [readied]

@[simp]
theorem key_settled (r : Record k) : r.settled.key = r.key := by
  unfold settled
  split <;> rfl

@[simp]
theorem key_consumed (r : Record k) : r.consumed.key = r.key := by
  cases k with
  | deployment =>
    simp only [consumed]
    split <;> rfl
  | _ => rfl

@[simp]
theorem key_released (r : Record k) : r.released.key = r.key := rfl

theorem internalName_eq {r r' : Record k} (h : r'.key = r.key) :
    r'.internalName = r.internalName := by
  rw [internalName, internalName, h]

theorem beingDeleted_consumed (r : Record k) : r.consumed.beingDeleted = r.beingDeleted := by
  cases k with
  | deployment =>
    simp only [consumed]
    split <;> rfl
  | _ => rfl

theorem finalizers_consumed (r : Record k) :
    r.consumed.metadata.finalizers = r.metadata.finalizers := by
  cases k with
  | deployment =>
    simp only [consumed]
    split <;> rfl
  | _ => rfl

theorem hasFinalizer_consumed (r : Record k) : r.consumed.hasFinalizer = r.hasFinalizer := by
  simp only [hasFinalizer, Metadata.hasFinalizer, finalizers_consumed]

theorem beingDeleted_frozenBy (sys : String) (r : Record k) :
    (r.frozenBy sys).beingDeleted = r.beingDeleted := by
  unfold frozenBy
  split <;> rfl

theorem hasFinalizer_frozenBy (sys : String) (r : Record k) :
    (r.frozenBy sys).hasFinalizer = r.hasFinalizer := by
  unfold frozenBy
  split <;> rfl

theorem deletedAt_withFinalizer (r : Record k) :
    r.withFinalizer.metadata.deletedAt = r.metadata.deletedAt := by
  simp only [withFinalizer, Metadata.withFinalizer]
  split <;> rfl

theorem beingDeleted_guarded (r : Record k) : r.guarded.beingDeleted = r.beingDeleted := by
  unfold guarded
  split
  · rfl
  · exact congrArg Option.isSome (deletedAt_withFinalizer r)

theorem beingDeleted_settled (r : Record k) : r.settled.beingDeleted = r.beingDeleted := by
  unfold settled
  split <;> rfl

theorem hasFinalizer_guarded (r : Record k) : r.guarded.hasFinalizer = true := by
  unfold guarded
  split
  · next h => exact h
  · exact Metadata.hasFinalizer_withFinalizer _ _

theorem hasFinalizer_readied (sys : String) (r : Record k) : (r.readied sys).hasFinalizer = true :=
  hasFinalizer_guarded _

theorem hasFinalizer_settled (r : Record k) : r.settled.hasFinalizer = r.hasFinalizer := by
  unfold settled
  split <;> rfl

theorem hasFinalizer_released (r : Record k) : r.released.hasFinalizer = false := by
  have h := Metadata.hasFinalizer_withoutFinalizer r.metadata k.finalizer k.finalizer
  rwa [bne_self_eq_false, Bool.and_false] at h

theorem finalizers_ne_nil {r : Record k} (h : r.hasFinalizer = true) :
    r.metadata.finalizers ≠ [] := by
  intro hf
  simp [hasFinalizer, Metadata.hasFinalizer, hf] at h

theorem spec_frozenBy (sys : String) (r : Record k) : (r.frozenBy sys).spec = r.spec := by
  unfold frozenBy
  split <;> rfl

theorem spec_guarded (r : Record k) : r.guarded.spec = r.spec := by
  unfold guarded
  split <;> rfl

theorem spec_settled (r : Record k) : r.settled.spec = r.spec := by
  unfold settled
  split <;> rfl

theorem secretNamespace_settled (r : Record .team) :
    r.settled.secretNamespace = r.secretNamespace := by
  unfold settled
  split <;> rfl

theorem status_guarded (r : Record k) : r.guarded.status = r.status := by
  unfold guarded
  split <;> rfl

theorem status_consumed (r : Record k) : r.consumed.status = r.status := by
  cases k with
  | deployment =>
    simp only [consumed]
    split <;> rfl
  | _ => rfl

theorem available_frozenBy (sys : String) (r : Record k) :
    (r.frozenBy sys).available = r.available := by
  unfold frozenBy
  split
  · exact Status.available_prepared sys r.spec r.status
  · rfl

theorem available_readied (sys : String) (r : Record k) :
    (r.readied sys).available = r.available := by
  rw [readied, available, status_guarded]
  exact available_frozenBy sys r

theorem available_settled (r : Record k) : r.settled.available = true := by
  unfold settled
  split
  · next h => exact h
  · exact Status.available_published r.status

theorem needsPreparing_frozenBy (sys : String) (r : Record k) :
    (r.frozenBy sys).needsPreparing sys = false := by
  unfold frozenBy
  split
  · exact Status.needsPreparing_prepared sys r.spec r.status
  · next h => exact Bool.eq_false_iff.2 h

theorem needsPreparing_guarded (sys : String) (r : Record k) :
    r.guarded.needsPreparing sys = r.needsPreparing sys := by
  rw [needsPreparing, spec_guarded, status_guarded]
  rfl

theorem needsPreparing_settled (sys : String) (r : Record k) :
    r.settled.needsPreparing sys = r.needsPreparing sys := by
  unfold settled
  split
  · rfl
  · exact Status.needsPreparing_published sys r.spec r.status

theorem needsPreparing_readied (sys : String) (r : Record k) :
    (r.readied sys).needsPreparing sys = false := by
  rw [readied, needsPreparing_guarded, needsPreparing_frozenBy]

theorem frozenBy_eq_self {sys : String} {r : Record k} (h : r.needsPreparing sys = false) :
    r.frozenBy sys = r := by
  simp [frozenBy, h]

theorem guarded_eq_self {r : Record k} (h : r.hasFinalizer = true) : r.guarded = r := by
  simp [guarded, h]

theorem readied_eq_self {sys : String} {r : Record k} (h : r.needsPreparing sys = false)
    (hf : r.hasFinalizer = true) : r.readied sys = r := by
  rw [readied, frozenBy_eq_self h, guarded_eq_self hf]

theorem readied_readied (sys : String) (r : Record k) :
    (r.readied sys).readied sys = r.readied sys :=
  readied_eq_self (needsPreparing_readied sys r) (hasFinalizer_readied sys r)

theorem readied_settled (sys : String) (r : Record k) :
    (r.readied sys).settled.readied sys = (r.readied sys).settled := by
  refine readied_eq_self ?_ ?_
  · rw [needsPreparing_settled, needsPreparing_readied]
  · rw [hasFinalizer_settled, hasFinalizer_readied]

theorem settled_settled (r : Record k) : r.settled.settled = r.settled := by
  unfold settled
  split
  · simp
  · have ha : r.published.bumped.available = true := Status.available_published r.status
    simp [ha]

theorem forced_bumped_unforced (r : Record .deployment) : r.unforced.bumped.forced = false := rfl

theorem consumed_consumed (r : Record k) : r.consumed.consumed = r.consumed := by
  cases k with
  | deployment =>
    simp only [consumed]
    split <;> simp [forced_bumped_unforced]
  | _ => rfl

/-- Later stages keep the spec, so that a consumed flag stays consumed. -/
theorem consumed_eq_self {r r' : Record k} (h : r'.spec = r.consumed.spec) : r'.consumed = r' := by
  cases k with
  | deployment =>
    have hf : r.consumed.forced = false := by
      simp only [consumed]
      split
      · rfl
      · next h => exact Bool.eq_false_iff.2 h
    have hf' : r'.forced = false := by rw [← hf, forced, forced, h]
    simp [consumed, hf']
  | _ => rfl

theorem edits_withFinalizer (r : Record k) : r.withFinalizer.Edits r := by
  refine ⟨key_withFinalizer r, rfl, ?_, ?_, deletedAt_withFinalizer r⟩ <;>
  · simp only [withFinalizer, Metadata.withFinalizer]
    split <;> rfl

theorem edits_withoutFinalizer (r : Record k) : r.withoutFinalizer.Edits r :=
  ⟨rfl, rfl, rfl, rfl, rfl⟩

theorem edits_unforced (r : Record .deployment) : r.unforced.Edits r :=
  ⟨rfl, rfl, rfl, rfl, rfl⟩

end Record

namespace World

variable {σ τ ε α : Type} {k : Kind}

theorem onRecords_ok {wrap : ε → ReconcileError} {x : Step σ ε α} {w : World σ τ} {a : α} {s : σ}
    (h : x w.records = (.ok a, s)) : onRecords wrap x w = (.ok a, { w with records := s }) := by
  rw [onRecords, Step.onPart_ok h]

theorem onRecords_error {wrap : ε → ReconcileError} {x : Step σ ε α} {w : World σ τ} {e : ε}
    {s : σ} (h : x w.records = (.error e, s)) :
    onRecords wrap x w = (.error (wrap e), { w with records := s }) := by
  rw [onRecords, Step.onPart_error h]

theorem ok_of_onRecords {wrap : ε → ReconcileError} {x : Step σ ε α} {w w' : World σ τ} {a : α}
    (h : onRecords wrap x w = (.ok a, w')) :
    ∃ s, x w.records = (.ok a, s) ∧ w' = { w with records := s } :=
  Step.ok_of_onPart h

theorem onSecrets_ok {x : Step τ SecretError α} {w : World σ τ} {a : α} {s : τ}
    (h : x w.secrets = (.ok a, s)) : onSecrets x w = (.ok a, { w with secrets := s }) := by
  rw [onSecrets, Step.onPart_ok h]

theorem ok_of_onSecrets {x : Step τ SecretError α} {w w' : World σ τ} {a : α}
    (h : onSecrets x w = (.ok a, w')) :
    ∃ s, x w.secrets = (.ok a, s) ∧ w' = { w with secrets := s } :=
  Step.ok_of_onPart h

/-- The world after the secrets and the supply of random bytes were used. -/
def supplied (w : World σ τ) (s : τ × Entropy) : World σ τ :=
  { w with secrets := s.1, entropy := s.2 }

theorem onSecretSupply_ok {x : Step (τ × Entropy) SecretError α} {w : World σ τ} {a : α}
    {s : τ × Entropy} (h : x (w.secrets, w.entropy) = (.ok a, s)) :
    onSecretSupply x w = (.ok a, w.supplied s) := by
  simp only [onSecretSupply, Step.onPart, Step.mk_apply, h]
  rfl

theorem onSecretSupply_error {x : Step (τ × Entropy) SecretError α} {w : World σ τ}
    {e : SecretError} {s : τ × Entropy} (h : x (w.secrets, w.entropy) = (.error e, s)) :
    onSecretSupply x w = (.error (.secret e), w.supplied s) := by
  simp only [onSecretSupply, Step.onPart, Step.mk_apply, h]
  rfl

def withDirector (w : World σ τ) (d : Director) : World σ τ := { w with director := d }

def withIdentity (w : World σ τ) (i : Identity) : World σ τ := { w with identity := i }

def keep (w : World Store τ) (r : Record k) : World Store τ :=
  { w with records := w.records.keep r }

def accept (w : World Store τ) (r : Record k) : World Store τ :=
  { w with records := w.records.accept r }

@[simp]
theorem records_keep (w : World Store τ) (r : Record k) :
    (w.keep r).records = w.records.keep r := rfl

theorem keep_of_holds {w : World Store τ} {r : Record k} (h : w.records.Holds r) :
    w.keep r = w := by
  rw [keep, Store.keep_of_holds h]

theorem keep_keep (w : World Store τ) {r r' : Record k} (h : r'.key = r.key) :
    (w.keep r).keep r' = w.keep r' := by
  simp only [keep, Store.keep_keep _ h]

theorem holds_keep (w : World Store τ) (r : Record k) : (w.keep r).records.Holds r :=
  Store.holds_keep _ _

end World

theorem Store.accept_eq_keep {k : Kind} (s : Store) {r : Record k}
    (h : r.beingDeleted = true → r.metadata.finalizers ≠ []) : s.accept r = s.keep r := by
  rw [accept, if_neg]
  simpa using h

namespace Reconcile

variable {τ : Type} {k : Kind} {w : World Store τ}

theorem write_eq {r r' : Record k} (h : w.records.Holds r) (he : r'.Edits r) :
    World.write r' w = (.ok r'.bumped, w.accept r'.bumped) :=
  World.onRecords_ok (Store.write_of_holds h he)

theorem writeStatus_eq {r : Record k} (h : w.records.Holds r) (st : Status k) :
    World.writeStatus { r with status := st } w =
      (.ok { r with status := st }.bumped, w.keep { r with status := st }.bumped) :=
  World.onRecords_ok (Store.writeStatus_of_holds h st)

theorem freeze_eq {r : Record k} (h : w.records.Holds r) (sys : String) :
    freeze sys r w = (.ok (r.frozenBy sys), w.keep (r.frozenBy sys)) := by
  unfold freeze Record.frozenBy
  split
  · exact writeStatus_eq h _
  · rw [World.keep_of_holds h, Step.pure_apply]

theorem attachFinalizer_eq {r : Record k} (h : w.records.Holds r) :
    attachFinalizer r w = (.ok r.guarded, w.keep r.guarded) := by
  unfold attachFinalizer Record.guarded
  split
  · rw [World.keep_of_holds h, Step.pure_apply]
  · rw [write_eq h r.edits_withFinalizer, World.accept, Store.accept_eq_keep, World.keep]
    intro _
    exact Record.finalizers_ne_nil (Metadata.hasFinalizer_withFinalizer _ _)

/-- What was frozen is made ready. -/
theorem attachFinalizer_frozenBy (sys : String) (r : Record k) (w : World Store τ) :
    attachFinalizer (r.frozenBy sys) (w.keep (r.frozenBy sys)) =
      (.ok (r.readied sys), w.keep (r.readied sys)) := by
  rw [attachFinalizer_eq (World.holds_keep w _), World.keep_keep w (by simp)]
  rfl

theorem publish_eq {r : Record k} (h : w.records.Holds r) :
    publish r w = (.ok (), w.keep r.settled) := by
  unfold publish Record.settled
  by_cases ha : r.available = true
  · simp [ha, World.keep_of_holds h]
  · have hw : World.writeStatus r.published w =
        (.ok r.published.bumped, w.keep r.published.bumped) :=
      writeStatus_eq h _
    simp only [ha, Bool.not_false, if_true]
    rw [Step.bind_ok hw]
    simp

/-- The force flag of a deployment is consumed, whatever else is the matter with it. -/
theorem consumeForce_eq {r : Record .deployment} (h : w.records.Holds r)
    (hm : r.beingDeleted = true → r.metadata.finalizers ≠ []) :
    consumeForce r w = (.ok r.consumed, w.keep r.consumed) := by
  simp only [consumeForce, Record.consumed]
  split
  · have ha : w.records.accept r.unforced.bumped = w.records.keep r.unforced.bumped :=
      Store.accept_eq_keep _ hm
    rw [write_eq h r.edits_unforced, World.accept, ha, World.keep]
  · rw [World.keep_of_holds h, Step.pure_apply]

theorem dropFinalizer_eq {r : Record k} (h : w.records.Holds r) :
    dropFinalizer r w = (.ok (), w.accept r.released) := by
  rw [dropFinalizer, Step.bind_ok (write_eq h r.edits_withoutFinalizer)]
  rfl

end Reconcile

end Reconciliation
