import Mathlib.Data.List.Induction
import Reconciliation.Proofs.Store

/-! The store in memory under any sequence of calls, from any number of writers, starting from the
empty store. What one call can make of a stored record is said once, as the fate of the record;
what a record keeps from its creation to its removal follows from it by induction on the calls. -/
namespace Reconciliation

namespace Store

/-- A call of one of the operations of the store. -/
inductive Call where
  | get (key : Key)
  | list (k : Kind) (ns : Option String)
  | create (r : AnyRecord)
  | update (r : AnyRecord)
  | updateStatus (r : AnyRecord)
  | delete (now : Instant) (key : Key)

namespace Call

/-- Runs the call. On success the outcome is the copies of records that it hands out. -/
def perform : Call → Step Store StoreError (List AnyRecord)
  | get key => (fun r => [r]) <$> RecordStore.get key
  | list k ns => RecordStore.list k ns
  | create r => (fun r => [r]) <$> RecordStore.create r
  | update r => (fun r => [r]) <$> RecordStore.update r
  | updateStatus r => (fun r => [r]) <$> RecordStore.updateStatus r
  | delete now key => (fun _ => []) <$> RecordStore.delete now key

def outcome (c : Call) (s : Store) : Except StoreError (List AnyRecord) := (c.perform s).1

def accepted (c : Call) (s : Store) : Bool := (c.outcome s).isOk

/-- The store after the call. -/
def act (c : Call) (s : Store) : Store := (c.perform s).2

/-- The key that the call names. A list names none. -/
def key? : Call → Option Key
  | get key => some key
  | list _ _ => none
  | create r | update r | updateStatus r => some r.key
  | delete _ key => some key

/-- Whether the call is a write of the record under the key that the store accepts: an update, a
status update, or the first request to delete a record that has to wait for its finalizers. -/
def writes (key : Key) (s : Store) : Call → Bool
  | update r => r.key = key && (update r).accepted s
  | updateStatus r => r.key = key && (updateStatus r).accepted s
  | delete _ key' => key' = key &&
    (s.get? key).any fun r => !r.metadata.beingDeleted && !r.metadata.finalizers.isEmpty
  | _ => false

variable {s : Store} {k : Kind}

theorem perform_get (key : Key) (s : Store) :
    (get key).perform s = ((Store.get key s).map fun r => [r], s) :=
  Step.map_apply _ _ _

theorem perform_list (k : Kind) (ns : Option String) (s : Store) :
    (list k ns).perform s = (.ok (s.list k ns), s) := rfl

theorem perform_create (r : AnyRecord) (s : Store) :
    (create r).perform s = ((Store.create r s).1.map fun r => [r], (Store.create r s).2) :=
  Step.map_apply _ _ _

theorem perform_update (r : AnyRecord) (s : Store) :
    (update r).perform s = ((Store.update r s).1.map fun r => [r], (Store.update r s).2) :=
  Step.map_apply _ _ _

theorem perform_updateStatus (r : AnyRecord) (s : Store) :
    (updateStatus r).perform s =
      ((Store.updateStatus r s).1.map fun r => [r], (Store.updateStatus r s).2) :=
  Step.map_apply _ _ _

theorem perform_delete (now : Instant) (key : Key) (s : Store) :
    (delete now key).perform s =
      ((Store.delete now key s).1.map fun _ => [], (Store.delete now key s).2) :=
  Step.map_apply _ _ _

@[simp]
theorem act_get (key : Key) (s : Store) : (get key).act s = s := by
  rw [act, perform_get]

@[simp]
theorem act_list (k : Kind) (ns : Option String) (s : Store) : (list k ns).act s = s := rfl

@[simp]
theorem act_create (r : AnyRecord) (s : Store) : (create r).act s = (Store.create r s).2 := by
  rw [act, perform_create]

@[simp]
theorem act_update (r : AnyRecord) (s : Store) : (update r).act s = (Store.update r s).2 := by
  rw [act, perform_update]

@[simp]
theorem act_updateStatus (r : AnyRecord) (s : Store) :
    (updateStatus r).act s = (Store.updateStatus r s).2 := by
  rw [act, perform_updateStatus]

@[simp]
theorem act_delete (now : Instant) (key : Key) (s : Store) :
    (delete now key).act s = (Store.delete now key s).2 := by
  rw [act, perform_delete]

theorem isOk_map {ε α β : Type} (f : α → β) (r : Except ε α) : (r.map f).isOk = r.isOk := by
  cases r <;> rfl

theorem accepted_update (r : AnyRecord) (s : Store) :
    (update r).accepted s = (Store.update r s).1.isOk := by
  rw [accepted, outcome, perform_update, isOk_map]

theorem accepted_updateStatus (r : AnyRecord) (s : Store) :
    (updateStatus r).accepted s = (Store.updateStatus r s).1.isOk := by
  rw [accepted, outcome, perform_updateStatus, isOk_map]

theorem act_wellFormed (hs : s.WellFormed) (c : Call) : (c.act s).WellFormed := by
  cases c with
  | get key => rwa [act_get]
  | list k ns => rwa [act_list]
  | create r => rw [act_create]; exact hs.create r
  | update r => rw [act_update]; exact hs.update r
  | updateStatus r => rw [act_updateStatus]; exact hs.updateStatus r
  | delete now key => rw [act_delete]; exact hs.delete now key

/-- A call leaves alone every key but the one that it names. -/
theorem get?_act_of_ne (hs : s.WellFormed) {c : Call} {key : Key} (h : c.key? ≠ some key) :
    (c.act s).get? key = s.get? key := by
  cases c with
  | get key' => rw [act_get]
  | list k ns => rw [act_list]
  | create r =>
    have hne : key ≠ r.key := fun he => h (congrArg some he.symm)
    rw [act_create, get?_create_of_ne hne]
  | update r =>
    rw [act_update]
    rcases update_eq hs r with hu | ⟨k, p, incoming, -, rfl, -, hu⟩
    · rw [hu]
    · rw [hu]
      refine get?_accept_of_ne s ?_
      rintro rfl
      exact h rfl
  | updateStatus r =>
    rw [act_updateStatus]
    rcases updateStatus_eq hs r with hu | ⟨k, p, incoming, -, rfl, hk, hu⟩
    · rw [hu]
    · rw [hu, get?_keep, if_neg]
      rintro rfl
      exact h (congrArg some hk)
  | delete now key' =>
    rw [act_delete]
    refine get?_delete_of_ne now ?_
    rintro rfl
    exact h rfl

theorem writes_of_ne {c : Call} {key : Key} (h : c.key? ≠ some key) :
    c.writes key s = false := by
  cases c with
  | get | list | create => rfl
  | update r =>
    have hr : r.key ≠ key := fun he => h (congrArg some he)
    simp [writes, hr]
  | updateStatus r =>
    have hr : r.key ≠ key := fun he => h (congrArg some he)
    simp [writes, hr]
  | delete now key' =>
    have hr : key' ≠ key := fun he => h (congrArg some he)
    simp [writes, hr]

/-- What a call makes of a stored record: what is then stored under its key, and whether the call
was a write of it. -/
inductive Fate (p : Record k) : Call → Option AnyRecord → Bool → Prop
  | kept (c : Call) : Fate p c (some ⟨k, p⟩) false
  | updated {incoming : Record k} (hk : incoming.key = p.key)
      (hv : incoming.metadata.version = p.metadata.version) :
      Fate p (.update ⟨k, incoming⟩) (some ⟨k, p.merged incoming⟩) true
  | restated {incoming : Record k} (hk : incoming.key = p.key)
      (hv : incoming.metadata.version = p.metadata.version) :
      Fate p (.updateStatus ⟨k, incoming⟩) (some ⟨k, p.restated incoming⟩) true
  | marked (now : Instant) (hd : p.beingDeleted = false) (hf : p.metadata.finalizers ≠ []) :
      Fate p (.delete now p.key) (some ⟨k, p.markedAt now⟩) true
  | released {incoming : Record k} (hk : incoming.key = p.key)
      (hv : incoming.metadata.version = p.metadata.version) (hd : p.beingDeleted = true)
      (hf : incoming.metadata.finalizers = []) : Fate p (.update ⟨k, incoming⟩) none true
  | deleted (now : Instant) (hf : p.metadata.finalizers = []) : Fate p (.delete now p.key) none false

theorem update_fate {p incoming : Record k} (hp : s.Holds p) (hk : incoming.key = p.key) :
    Fate p (update ⟨k, incoming⟩) (((update ⟨k, incoming⟩).act s).get? p.key)
      ((update ⟨k, incoming⟩).writes p.key s) := by
  have hkey : AnyRecord.key ⟨k, incoming⟩ = p.key := hk
  have hmerged : p.key = (p.merged incoming).key := hk.symm
  rw [act_update, writes, accepted_update, update_of_stored hp hk, decide_eq_true hkey]
  by_cases hv : incoming.metadata.version = p.metadata.version
  · rw [if_pos hv]
    unfold accept
    split
    · next hgone =>
      rw [Bool.and_eq_true, List.isEmpty_iff] at hgone
      rw [get?_without, if_pos hmerged]
      exact .released hk hv hgone.1 hgone.2
    · rw [get?_keep, if_pos hmerged]
      exact .updated hk hv
  · rw [if_neg hv, hp]
    exact .kept _

theorem updateStatus_fate {p incoming : Record k} (hp : s.Holds p) (hk : incoming.key = p.key) :
    Fate p (updateStatus ⟨k, incoming⟩) (((updateStatus ⟨k, incoming⟩).act s).get? p.key)
      ((updateStatus ⟨k, incoming⟩).writes p.key s) := by
  have hkey : AnyRecord.key ⟨k, incoming⟩ = p.key := hk
  rw [act_updateStatus, writes, accepted_updateStatus, updateStatus_of_stored hp hk,
    decide_eq_true hkey]
  by_cases hv : incoming.metadata.version = p.metadata.version
  · rw [if_pos hv, get?_keep, if_pos (Record.key_restated p incoming).symm]
    exact .restated hk hv
  · rw [if_neg hv, hp]
    exact .kept _

theorem delete_fate {p : Record k} (hp : s.Holds p) (now : Instant) :
    Fate p (delete now p.key) (((delete now p.key).act s).get? p.key)
      ((delete now p.key).writes p.key s) := by
  rw [act_delete, delete_of_stored hp, writes, hp]
  simp only [decide_true, Bool.true_and, Option.any_some, AnyRecord.metadata]
  by_cases hf : p.metadata.finalizers = []
  · simp only [hf, List.isEmpty_nil, if_true, get?_without, Bool.not_true, Bool.and_false]
    exact .deleted now hf
  · have hempty : p.metadata.finalizers.isEmpty = false := by simp [hf]
    by_cases hd : p.metadata.beingDeleted = true
    · simp only [hempty, hd, if_true, Bool.false_eq_true, if_false, Bool.not_true, Bool.false_and]
      rw [hp]
      exact .kept _
    · have hd : p.metadata.beingDeleted = false := by simpa using hd
      simp only [hempty, hd, Bool.false_eq_true, if_false, get?_put, if_true, Bool.not_false,
        Bool.and_self]
      exact .marked now hd hf

theorem fate (hs : s.WellFormed) {p : Record k} (hp : s.Holds p) (c : Call) :
    Fate p c ((c.act s).get? p.key) (c.writes p.key s) := by
  by_cases hne : c.key? = some p.key
  · cases c with
    | get key =>
      rw [act_get, hp]
      exact .kept _
    | list k ns => cases hne
    | create r =>
      have hr : s.get? r.key = some ⟨k, p⟩ := Option.some.inj hne ▸ hp
      rw [act_create, create_of_stored hr, hp]
      exact .kept _
    | update r =>
      obtain ⟨k', incoming⟩ := r
      have hk : incoming.key = p.key := Option.some.inj hne
      obtain rfl : k' = k := congrArg Key.kind hk
      exact update_fate hp hk
    | updateStatus r =>
      obtain ⟨k', incoming⟩ := r
      have hk : incoming.key = p.key := Option.some.inj hne
      obtain rfl : k' = k := congrArg Key.kind hk
      exact updateStatus_fate hp hk
    | delete now key =>
      obtain rfl : key = p.key := Option.some.inj hne
      exact delete_fate hp now
  · rw [get?_act_of_ne hs hne, hp, writes_of_ne hne]
    exact .kept c

/-- Only a creation brings in a record under a free key. -/
theorem created_of_none (hs : s.WellFormed) {c : Call} {key : Key} {q : AnyRecord}
    (hn : s.get? key = none) (hq : (c.act s).get? key = some q) :
    ∃ r, c = create r ∧ r.key = key ∧ q = s.issue r := by
  by_cases hne : c.key? = some key
  · cases c with
    | get key' =>
      rw [act_get, hn] at hq
      cases hq
    | list k ns => cases hne
    | create r =>
      rw [act_create] at hq
      rcases get?_of_create hq with h | ⟨-, hk, rfl⟩
      · rw [hn] at h
        cases h
      · exact ⟨r, rfl, hk.symm, rfl⟩
    | update r =>
      obtain rfl : r.key = key := Option.some.inj hne
      rw [act_update, update_of_none hn, hn] at hq
      cases hq
    | updateStatus r =>
      obtain rfl : r.key = key := Option.some.inj hne
      rw [act_updateStatus, updateStatus_of_none hn, hn] at hq
      cases hq
    | delete now key' =>
      obtain rfl : key' = key := Option.some.inj hne
      rw [act_delete, delete_of_none hn, hn] at hq
      cases hq
  · rw [get?_act_of_ne hs hne, hn] at hq
    cases hq

/-- The call writes this record, in full or its status only. -/
inductive Carries (r : AnyRecord) : Call → Prop
  | update : Carries r (.update r)
  | updateStatus : Carries r (.updateStatus r)

/-- What the store answers to a write of this record, and the store after it. -/
inductive Answer (s : Store) (r : AnyRecord) : Except StoreError (List AnyRecord) × Store → Prop
  | missing (hn : s.get? r.key = none) : Answer s r (.error (.notFound r.key), s)
  | conflict {q : AnyRecord} (hq : s.get? r.key = some q)
      (hv : r.metadata.version ≠ q.metadata.version) :
      Answer s r (.error (.conflict r.key r.metadata.version q.metadata.version), s)
  | accepted {q q' : AnyRecord} {t : Store} (hq : s.get? r.key = some q)
      (hv : r.metadata.version = q.metadata.version)
      (hq' : t.get? q'.key = none ∨ t.get? q'.key = some q') : Answer s r (.ok [q'], t)

theorem update_answer (hs : s.WellFormed) (r : AnyRecord) : Answer s r ((update r).perform s) := by
  rw [perform_update]
  cases hr : s.get? r.key with
  | none =>
    rw [update_of_none hr]
    exact .missing hr
  | some q =>
    obtain ⟨k, p, incoming, rfl, hp, rfl, hk⟩ := hs.exists_target hr
    rw [update_of_stored hp hk]
    by_cases hv : incoming.metadata.version = p.metadata.version
    · rw [if_pos hv]
      exact .accepted hr hv (get?_accept_self s (p.merged incoming))
    · rw [if_neg hv, ← hk]
      exact .conflict hr hv

theorem updateStatus_answer (hs : s.WellFormed) (r : AnyRecord) :
    Answer s r ((updateStatus r).perform s) := by
  rw [perform_updateStatus]
  cases hr : s.get? r.key with
  | none =>
    rw [updateStatus_of_none hr]
    exact .missing hr
  | some q =>
    obtain ⟨k, p, incoming, rfl, hp, rfl, hk⟩ := hs.exists_target hr
    rw [updateStatus_of_stored hp hk]
    by_cases hv : incoming.metadata.version = p.metadata.version
    · rw [if_pos hv]
      exact .accepted hr hv (.inr (holds_keep s (p.restated incoming)))
    · rw [if_neg hv, ← hk]
      exact .conflict hr hv

theorem Carries.answer {c : Call} {r : AnyRecord} (h : c.Carries r) (hs : s.WellFormed) :
    Answer s r (c.perform s) := by
  cases h with
  | update => exact update_answer hs r
  | updateStatus => exact updateStatus_answer hs r

theorem Carries.act_of_error {c : Call} {r : AnyRecord} (h : c.Carries r) (hs : s.WellFormed)
    {e : StoreError} (he : c.outcome s = .error e) : c.act s = s := by
  have hanswer := h.answer hs
  unfold outcome at he
  unfold act
  generalize c.perform s = answer at hanswer he ⊢
  cases hanswer with
  | missing | conflict => rfl
  | accepted => cases he

/-- A refused call leaves the store as it was. -/
theorem act_of_error (hs : s.WellFormed) {c : Call} {e : StoreError}
    (h : c.outcome s = .error e) : c.act s = s := by
  cases c with
  | get key => rw [act_get]
  | list k ns => rw [act_list]
  | create r =>
    cases hr : s.get? r.key with
    | some q => rw [act_create, create_of_stored hr]
    | none =>
      rw [outcome, perform_create, create_of_none hr] at h
      cases h
  | update r => exact Carries.update.act_of_error hs h
  | updateStatus r => exact Carries.updateStatus.act_of_error hs h
  | delete now key =>
    cases hr : s.get? key with
    | none => rw [act_delete, delete_of_none hr]
    | some q =>
      rw [outcome, perform_delete, delete_of_stored hr] at h
      cases h

theorem updateStatus_ne_kindMismatch (hs : s.WellFormed) (r : AnyRecord) (key : Key)
    (expected found : Kind) :
    (updateStatus r).outcome s ≠ .error (.kindMismatch key expected found) := by
  have hanswer := updateStatus_answer hs r
  unfold outcome
  generalize (updateStatus r).perform s = answer at hanswer
  cases hanswer <;> exact nofun

end Call

end Store

/-- The record `q` is stored in the place of `r` after this many writes. -/
structure Record.Follows {k : Kind} (r : Record k) (n : Nat) (q : Record k) : Prop where
  key : q.key = r.key
  uid : q.metadata.uid = r.metadata.uid
  deletedAt : r.beingDeleted = true → q.metadata.deletedAt = r.metadata.deletedAt
  version : q.metadata.version = r.metadata.version + n

namespace Record.Follows

variable {k : Kind} {r q t : Record k} {m n : Nat}

theorem refl (r : Record k) : r.Follows 0 r := ⟨rfl, rfl, fun _ => rfl, rfl⟩

theorem trans (hq : r.Follows m q) (ht : q.Follows n t) : r.Follows (m + n) t where
  key := ht.key.trans hq.key
  uid := ht.uid.trans hq.uid
  deletedAt hd := by
    have hq' : q.metadata.deletedAt = r.metadata.deletedAt := hq.deletedAt hd
    have hqd : q.beingDeleted = true := by
      rw [Record.beingDeleted, Metadata.beingDeleted, hq']
      exact hd
    rw [ht.deletedAt hqd, hq']
  version := by
    have hq' := hq.version
    have ht' := ht.version
    omega

theorem merged {incoming : Record k} (h : incoming.key = r.key) :
    r.Follows 1 (r.merged incoming) where
  key := h
  uid := rfl
  deletedAt _ := rfl
  version := rfl

theorem restated (r incoming : Record k) : r.Follows 1 (r.restated incoming) where
  key := rfl
  uid := rfl
  deletedAt _ := rfl
  version := rfl

theorem markedAt (h : r.beingDeleted = false) (now : Instant) : r.Follows 1 (r.markedAt now) where
  key := rfl
  uid := rfl
  deletedAt hd := by
    rw [h] at hd
    cases hd
  version := rfl

end Record.Follows

namespace Store

namespace Call

variable {s : Store} {k : Kind}

/-- What a call may make of a record that stays stored. -/
structure Respects (c : Call) (written : Bool) (p q : Record k) : Prop
    extends p.Follows written.toNat q where
  unwritten : written = false → q = p
  status : ∀ r, c = update r → q.status = p.status
  rest : ∀ r, c = updateStatus r → q.spec = p.spec ∧ q.apiVersion = p.apiVersion ∧
    q.metadata = { p.metadata with version := q.metadata.version }

theorem Fate.respects {p : Record k} {c : Call} {q : AnyRecord} {written : Bool}
    (h : Fate p c (some q) written) : ∃ q' : Record k, q = ⟨k, q'⟩ ∧ c.Respects written p q' := by
  cases h with
  | kept => exact ⟨p, rfl, .refl p, fun _ => rfl, fun _ _ => rfl, fun _ _ => ⟨rfl, rfl, rfl⟩⟩
  | @updated incoming hk hv =>
    refine ⟨_, rfl, .merged hk, ?_, fun _ _ => rfl, ?_⟩
    · rintro ⟨⟩
    · rintro _ ⟨⟩
  | @restated incoming hk hv =>
    refine ⟨_, rfl, .restated p incoming, ?_, ?_, fun _ _ => ⟨rfl, rfl, rfl⟩⟩
    · rintro ⟨⟩
    · rintro _ ⟨⟩
  | marked now hd hf =>
    refine ⟨_, rfl, .markedAt hd now, ?_, ?_, ?_⟩
    · rintro ⟨⟩
    · rintro _ ⟨⟩
    · rintro _ ⟨⟩

/-- What is stored after a call is new, or what the call made of the record that was stored. -/
theorem created_or_respects (hs : s.WellFormed) {c : Call} {key : Key} {q : AnyRecord}
    (hq : (c.act s).get? key = some q) :
    (s.get? key = none ∧ ∃ r, q = s.issue r) ∨
      ∃ k, ∃ p q' : Record k, s.get? key = some ⟨k, p⟩ ∧ q = ⟨k, q'⟩ ∧
        c.Respects (c.writes key s) p q' := by
  cases hp : s.get? key with
  | none =>
    obtain ⟨r, -, -, rfl⟩ := created_of_none hs hp hq
    exact .inl ⟨rfl, r, rfl⟩
  | some p =>
    obtain ⟨k, p⟩ := p
    obtain rfl : p.key = key := hs.key_eq hp
    have hfate := fate hs hp c
    rw [hq] at hfate
    obtain ⟨q, rfl, hres⟩ := hfate.respects
    exact .inr ⟨k, p, q, rfl, rfl, hres⟩

/-- A record that stays stored over a call is still of its kind, and is what the call may make of
it. -/
theorem exists_respects (hs : s.WellFormed) {p : Record k} (hp : s.Holds p) (c : Call)
    (hstored : (c.act s).Stored p.key) :
    ∃ q : Record k, (c.act s).Holds q ∧ c.Respects (c.writes p.key s) p q := by
  obtain ⟨q, hq⟩ := Option.isSome_iff_exists.1 hstored
  have hfate := fate hs hp c
  rw [hq] at hfate
  obtain ⟨q, rfl, hres⟩ := hfate.respects
  exact ⟨q, (act_wellFormed hs c).holds hq, hres⟩

end Call

/-- The store after these calls. -/
def run (s : Store) : List Call → Store
  | [] => s
  | c :: calls => (c.act s).run calls

/-- How many of these calls are accepted writes of the record under the key. -/
def countWrites (s : Store) (key : Key) : List Call → Nat
  | [] => 0
  | c :: calls => (c.writes key s).toNat + (c.act s).countWrites key calls

/-- The key is stored now and after each of these calls. -/
def StaysStored (s : Store) (key : Key) : List Call → Prop
  | [] => s.Stored key
  | c :: calls => s.Stored key ∧ (c.act s).StaysStored key calls

variable {s : Store} {k : Kind}

theorem StaysStored.stored {key : Key} {calls : List Call} (h : s.StaysStored key calls) :
    s.Stored key := by
  cases calls with
  | nil => exact h
  | cons c calls => exact h.1

theorem run_append (s : Store) (calls calls' : List Call) :
    s.run (calls ++ calls') = (s.run calls).run calls' := by
  induction calls generalizing s with
  | nil => rfl
  | cons c calls ih => exact ih (c.act s)

theorem countWrites_append (s : Store) (key : Key) (calls calls' : List Call) :
    s.countWrites key (calls ++ calls') =
      s.countWrites key calls + (s.run calls).countWrites key calls' := by
  induction calls generalizing s with
  | nil => simp [countWrites, run]
  | cons c calls ih =>
    simp only [List.cons_append, countWrites, run, ih]
    omega

theorem run_wellFormed (hs : s.WellFormed) (calls : List Call) : (s.run calls).WellFormed := by
  induction calls generalizing s with
  | nil => exact hs
  | cons c calls ih => exact ih (c.act_wellFormed hs)

/-- A record that stays stored keeps its identity, and its version counts the writes. -/
theorem exists_follows (hs : s.WellFormed) {r : Record k} (hr : s.Holds r) {calls : List Call}
    (hstay : s.StaysStored r.key calls) :
    ∃ q : Record k, (s.run calls).Holds q ∧ r.Follows (s.countWrites r.key calls) q := by
  induction calls generalizing s r with
  | nil => exact ⟨r, hr, .refl r⟩
  | cons c calls ih =>
    obtain ⟨p, hp, hres⟩ := c.exists_respects hs hr hstay.2.stored
    have hstay' : (c.act s).StaysStored p.key calls := hres.key ▸ hstay.2
    obtain ⟨q, hq, hfollows⟩ := ih (c.act_wellFormed hs) hp hstay'
    rw [hres.key] at hfollows
    exact ⟨q, hq, hres.toFollows.trans hfollows⟩

theorem uidText_ne_empty (n : Nat) : uidText n ≠ "" := by
  intro h
  have := congrArg String.toList h
  simp [uidText] at this

theorem uid_issue_ne_empty (s : Store) (r : AnyRecord) : (s.issue r).metadata.uid ≠ "" := by
  change (if r.metadata.uid.isEmpty then uidText s.issued else r.metadata.uid) ≠ ""
  split
  · exact uidText_ne_empty _
  · next h =>
    rintro he
    exact h (by simp [he])

/-- What holds of every record that is stored after these calls on the empty store. -/
structure Consistent (calls : List Call) : Prop where
  wellFormed : ((∅ : Store).run calls).WellFormed
  uid : ∀ {key r}, ((∅ : Store).run calls).get? key = some r → r.metadata.uid ≠ ""
  version : ∀ {key r}, ((∅ : Store).run calls).get? key = some r →
    1 ≤ r.metadata.version ∧ r.metadata.version ≤ (∅ : Store).countWrites key calls + 1

theorem consistent_nil : Consistent [] where
  wellFormed := wellFormed_empty
  uid h := by cases h
  version h := by cases h

theorem Consistent.concat {calls : List Call} (hs : Consistent calls) (c : Call) :
    Consistent (calls ++ [c]) := by
  have hrun : (∅ : Store).run (calls ++ [c]) = c.act ((∅ : Store).run calls) := run_append _ _ _
  refine ⟨run_wellFormed wellFormed_empty _, ?_, ?_⟩
  · intro key q hq
    rw [hrun] at hq
    rcases Call.created_or_respects hs.wellFormed hq with ⟨-, r, rfl⟩ | ⟨k, p, q, hp, rfl, hres⟩
    · exact uid_issue_ne_empty _ r
    · have huid : q.metadata.uid = p.metadata.uid := hres.uid
      have hp' : p.metadata.uid ≠ "" := hs.uid hp
      exact huid ▸ hp'
  · intro key q hq
    have hcount : (∅ : Store).countWrites key (calls ++ [c]) =
        (∅ : Store).countWrites key calls + (c.writes key ((∅ : Store).run calls)).toNat :=
      countWrites_append _ _ _ _
    rw [hrun] at hq
    rw [hcount]
    rcases Call.created_or_respects hs.wellFormed hq with ⟨-, r, rfl⟩ | ⟨k, p, q, hp, rfl, hres⟩
    · have hone : (((∅ : Store).run calls).issue r).metadata.version = 1 := rfl
      omega
    · have hq' : q.metadata.version = p.metadata.version + _ := hres.version
      have hp' : 1 ≤ p.metadata.version ∧ p.metadata.version ≤ _ := hs.version hp
      change 1 ≤ q.metadata.version ∧ q.metadata.version ≤ _
      omega

theorem consistent (calls : List Call) : Consistent calls := by
  induction calls using List.reverseRecOn with
  | nil => exact consistent_nil
  | append_singleton calls c ih => exact ih.concat c

/-- What every call keeps to, whatever the store. -/
structure Call.Confined (c : Call) (s : Store) : Prop where
  refused : ∀ e, c.outcome s = .error e → c.act s = s
  kindMismatch : ∀ r key expected found, c = .updateStatus r →
    c.outcome s ≠ .error (.kindMismatch key expected found)
  frame : ∀ key, c.key? ≠ some key → (c.act s).get? key = s.get? key
  created : ∀ {key q}, s.get? key = none → (c.act s).get? key = some q →
    q.metadata.version = 1 ∧ q.metadata.beingDeleted = false
  respects : ∀ {k : Kind} {p : Record k}, s.Holds p → (c.act s).Stored p.key →
    ∃ q : Record k, (c.act s).Holds q ∧ c.Respects (c.writes p.key s) p q

theorem Call.confined (hs : s.WellFormed) (c : Call) : c.Confined s where
  refused _ h := act_of_error hs h
  kindMismatch r key expected found h := by
    rw [h]
    exact updateStatus_ne_kindMismatch hs r key expected found
  frame _ h := get?_act_of_ne hs h
  created hn hq := by
    obtain ⟨r, -, -, rfl⟩ := created_of_none hs hn hq
    exact ⟨rfl, rfl⟩
  respects hp h := exists_respects hs hp c h

/-- The store under any sequence of calls. Its records are well-formed, each call keeps within its
bounds, and a record keeps its identity for as long as it stays stored, with a version that counts
the writes. -/
theorem store_invariant (calls : List Call) :
    Consistent calls ∧ (∀ c : Call, c.Confined ((∅ : Store).run calls)) ∧
      ∀ {k : Kind} {r : Record k}, ((∅ : Store).run calls).Holds r →
        ∀ later, ((∅ : Store).run calls).StaysStored r.key later →
          ∃ q : Record k, (((∅ : Store).run calls).run later).Holds q ∧
            r.Follows (((∅ : Store).run calls).countWrites r.key later) q := by
  have hs : Consistent calls := consistent calls
  refine ⟨hs, fun c => c.confined hs.wellFormed, ?_⟩
  intro k r hr later hstay
  exact exists_follows hs.wellFormed hr hstay

namespace Small

/-- A zone that waits for its finalizer, as its owner creates it. -/
def heldZone : Record .az :=
  let zone : Record .az := Record.new "team-a" "z" ({} : AzSpec)
  zone.withFinalizer

/-- The zone as it is stored at first. -/
def firstZone : Record .az :=
  { heldZone with metadata := { heldZone.metadata with uid := uidText 0, version := 1 } }

/-- The zone is marked for deletion, asked to go once more, and its status is written. -/
def ending : List Call :=
  [.delete ⟨5, 0⟩ firstZone.key, .delete ⟨6, 0⟩ firstZone.key,
    .updateStatus (firstZone.markedAt ⟨5, 0⟩)]

end Small

theorem store_invariant_small :
    ((∅ : Store).run [.create Small.heldZone]).Holds Small.firstZone ∧
      ∃ q : Record .az, (((∅ : Store).run [.create Small.heldZone]).run Small.ending).Holds q ∧
        Small.firstZone.Follows 2 q := by
  have hr : ((∅ : Store).run [.create Small.heldZone]).Holds Small.firstZone := rfl
  have hstay : ((∅ : Store).run [.create Small.heldZone]).StaysStored Small.firstZone.key
    Small.ending := ⟨rfl, rfl, rfl, rfl⟩
  exact ⟨hr, (store_invariant [.create Small.heldZone]).2.2 hr Small.ending hstay⟩

end Store

end Reconciliation
