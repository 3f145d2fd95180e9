import Reconciliation.Proofs.Step
import Reconciliation.Store

namespace Reconciliation

namespace Record

variable {k : Kind}

/-- The record as the store gives it back after a write. -/
def bumped (r : Record k) : Record k :=
  { r with metadata := { r.metadata with version := r.metadata.version + 1 } }

@[simp]
theorem key_bumped (r : Record k) : r.bumped.key = r.key := rfl

/-- The record after a deletion was requested. -/
def markedAt (now : Instant) (r : Record k) : Record k :=
  { r with metadata :=
    { r.metadata with deletedAt := some now, version := r.metadata.version + 1 } }

/-- The record that an accepted update leaves in the place of `r`. -/
def merged (r incoming : Record k) : Record k :=
  { incoming with
    status := r.status
    metadata :=
      { incoming.metadata with
        uid := r.metadata.uid
        deletedAt := r.metadata.deletedAt
        version := r.metadata.version + 1 } }

@[simp]
theorem key_merged (r incoming : Record k) : (r.merged incoming).key = incoming.key := rfl

/-- The record that an accepted status update leaves in the place of `r`. -/
def restated (r incoming : Record k) : Record k := { r with status := incoming.status }.bumped

@[simp]
theorem key_restated (r incoming : Record k) : (r.restated incoming).key = r.key := rfl

@[simp]
theorem key_markedAt (now : Instant) (r : Record k) : (r.markedAt now).key = r.key := rfl

/-- An edit of a stored copy that leaves alone what the store assigns. -/
structure Edits (r' r : Record k) : Prop where
  key : r'.key = r.key
  status : r'.status = r.status
  uid : r'.metadata.uid = r.metadata.uid
  version : r'.metadata.version = r.metadata.version
  deletedAt : r'.metadata.deletedAt = r.metadata.deletedAt

theorem Edits.merged_eq {r' r : Record k} (h : r'.Edits r) : r.merged r' = r'.bumped := by
  simp only [merged, bumped, ← h.status, ← h.uid, ← h.version, ← h.deletedAt]

end Record

namespace Store

variable {k : Kind}

/-- Each record is stored under its own key, and one that is marked for deletion holds a finalizer
that keeps it stored. -/
structure WellFormed (s : Store) : Prop where
  key_eq : ∀ {key r}, s.get? key = some r → r.key = key
  marked : ∀ {key r}, s.get? key = some r → r.metadata.beingDeleted = true →
    r.metadata.finalizers ≠ []

theorem wellFormed_empty : WellFormed ∅ where
  key_eq h := by cases h
  marked h := by cases h

/-- The record is stored as it is. -/
def Holds (s : Store) (r : Record k) : Prop := s.get? r.key = some ⟨k, r⟩

def keep (s : Store) (r : Record k) : Store := s.put r.key ⟨k, r⟩

def without (s : Store) (key : Key) : Store := { s with records := s.records.erase key }

/-- The store after an accepted write: a record that is marked for deletion goes away with its last
finalizer. -/
def accept (s : Store) (r : Record k) : Store :=
  if r.beingDeleted && r.metadata.finalizers.isEmpty then s.without r.key else s.keep r

@[simp]
theorem get?_put (s : Store) (key key' : Key) (r : AnyRecord) :
    (s.put key r).get? key' = if key' = key then some r else s.get? key' :=
  Table.get?_insert _ _ _ _

@[simp]
theorem get?_keep (s : Store) (r : Record k) (key : Key) :
    (s.keep r).get? key = if key = r.key then some ⟨k, r⟩ else s.get? key :=
  get?_put _ _ _ _

@[simp]
theorem get?_without (s : Store) (key key' : Key) :
    (s.without key).get? key' = if key' = key then none else s.get? key' :=
  Table.get?_erase _ _ _

theorem get?_accept_of_ne (s : Store) {r : Record k} {key : Key} (h : key ≠ r.key) :
    (s.accept r).get? key = s.get? key := by
  unfold accept
  split <;> simp [h]

theorem get?_accept_self (s : Store) (r : Record k) :
    (s.accept r).get? r.key = none ∨ (s.accept r).get? r.key = some ⟨k, r⟩ := by
  unfold accept
  split <;> simp

theorem issued_keep (s : Store) (r : Record k) : (s.keep r).issued = s.issued := rfl

theorem holds_keep (s : Store) (r : Record k) : (s.keep r).Holds r := by
  simp [Holds]

theorem keep_of_holds {s : Store} {r : Record k} (h : s.Holds r) : s.keep r = s :=
  congrArg (fun t => { s with records := t }) (Table.insert_eq_self h)

theorem keep_keep (s : Store) {r r' : Record k} (h : r'.key = r.key) :
    (s.keep r).keep r' = s.keep r' := by
  simp only [keep, put, h]
  exact congrArg (fun t => { s with records := t }) (Table.insert_insert _ _ _ _)

theorem accept_keep (s : Store) {r r' : Record k} (h : r'.key = r.key) :
    (s.keep r).accept r' = s.accept r' := by
  unfold accept
  split
  · rw [h]
    exact congrArg (fun t => { s with records := t }) (Table.erase_insert _ _ _)
  · exact keep_keep s h

theorem put_comm (s : Store) {key key' : Key} (h : key ≠ key') (r r' : AnyRecord) :
    (s.put key r).put key' r' = (s.put key' r').put key r :=
  congrArg (fun t => { s with records := t }) (Table.insert_comm _ h _ _)

namespace WellFormed

variable {s : Store}

theorem holds (hs : s.WellFormed) {key : Key} {r : Record k} (h : s.get? key = some ⟨k, r⟩) :
    s.Holds r := by
  have hk : r.key = key := hs.key_eq h
  rw [Holds, hk, h]

theorem put (hs : s.WellFormed) {r : AnyRecord}
    (hm : r.metadata.beingDeleted = true → r.metadata.finalizers ≠ []) :
    (s.put r.key r).WellFormed where
  key_eq {key q} h := by
    rw [get?_put] at h
    split at h
    · next hk =>
      cases h
      exact hk.symm
    · exact hs.key_eq h
  marked {key q} h hd := by
    rw [get?_put] at h
    split at h
    · cases h
      exact hm hd
    · exact hs.marked h hd

theorem keep (hs : s.WellFormed) {r : Record k}
    (hm : r.beingDeleted = true → r.metadata.finalizers ≠ []) : (s.keep r).WellFormed :=
  hs.put (r := ⟨k, r⟩) hm

theorem without (hs : s.WellFormed) (key : Key) : (s.without key).WellFormed where
  key_eq h := by
    rw [get?_without] at h
    split at h
    · cases h
    · exact hs.key_eq h
  marked h hd := by
    rw [get?_without] at h
    split at h
    · cases h
    · exact hs.marked h hd

theorem accept (hs : s.WellFormed) (r : Record k) : (s.accept r).WellFormed := by
  unfold Store.accept
  split
  · exact hs.without _
  · next h =>
    refine hs.keep fun hd hf => h ?_
    simp [hd, hf]

end WellFormed

variable {s : Store}

theorem get_of_some {key : Key} {r : AnyRecord} (h : s.get? key = some r) :
    (RecordStore.get key : Step Store StoreError AnyRecord) s = (.ok r, s) := by
  simp only [RecordStore.get, Step.answer_apply, get, h]

theorem get_of_none {key : Key} (h : s.get? key = none) :
    (RecordStore.get key : Step Store StoreError AnyRecord) s = (.error (.notFound key), s) := by
  simp only [RecordStore.get, Step.answer_apply, get, h]

theorem updated_mk (r incoming : Record k) :
    updated ⟨k, r⟩ ⟨k, incoming⟩ = ⟨k, r.merged incoming⟩ := by
  simp only [updated, AnyRecord.withStatusOf, AnyRecord.ofKind?_mk, Option.map_some,
    Option.getD_some]
  rfl

theorem checkVersion_mk (key : Key) (p incoming : Record k) :
    checkVersion key ⟨k, p⟩ ⟨k, incoming⟩ =
      if incoming.metadata.version = p.metadata.version then .ok ()
      else .error (.conflict key incoming.metadata.version p.metadata.version) := rfl

/-- What an update does to a stored record: with the stored version it is accepted, with any other
it is refused. -/
theorem update_of_stored {p incoming : Record k} (h : s.Holds p) (hk : incoming.key = p.key) :
    update ⟨k, incoming⟩ s =
      if incoming.metadata.version = p.metadata.version then
        (.ok ⟨k, p.merged incoming⟩, s.accept (p.merged incoming))
      else (.error (.conflict p.key incoming.metadata.version p.metadata.version), s) := by
  have hget : s.get? p.key = some ⟨k, p⟩ := h
  have hkey : AnyRecord.key ⟨k, incoming⟩ = p.key := hk
  simp only [update, hget, checkVersion_mk, updated_mk, hkey]
  by_cases hv : incoming.metadata.version = p.metadata.version
  · simp only [if_pos hv, accept, keep, Record.key_merged, hk]
    exact (apply_ite (Prod.mk (Except.ok _)) _ _ _).symm
  · simp only [if_neg hv]

theorem update_of_none {r : AnyRecord} (h : s.get? r.key = none) :
    update r s = (.error (.notFound r.key), s) := by
  simp only [update, h]

/-- What a status update does to a stored record. It finds a record of its own kind, as the kind is
part of the key. -/
theorem updateStatus_of_stored {p incoming : Record k} (h : s.Holds p)
    (hk : incoming.key = p.key) :
    updateStatus ⟨k, incoming⟩ s =
      if incoming.metadata.version = p.metadata.version then
        (.ok ⟨k, p.restated incoming⟩, s.keep (p.restated incoming))
      else (.error (.conflict p.key incoming.metadata.version p.metadata.version), s) := by
  have hget : s.get? p.key = some ⟨k, p⟩ := h
  have hkey : AnyRecord.key ⟨k, incoming⟩ = p.key := hk
  simp only [updateStatus, hget, checkVersion_mk, AnyRecord.withStatusOf, AnyRecord.ofKind?_mk,
    Option.map_some, hkey]
  by_cases hv : incoming.metadata.version = p.metadata.version
  · simp only [if_pos hv]
    rfl
  · simp only [if_neg hv]

theorem updateStatus_of_none {r : AnyRecord} (h : s.get? r.key = none) :
    updateStatus r s = (.error (.notFound r.key), s) := by
  simp only [updateStatus, h]

/-- Writing an edit of the stored copy is accepted. -/
theorem write_of_holds {r r' : Record k} (h : s.Holds r) (he : r'.Edits r) :
    RecordStore.write r' s = (.ok r'.bumped, s.accept r'.bumped) := by
  have hup : (RecordStore.update (⟨k, r'⟩ : AnyRecord) : Step Store StoreError AnyRecord) s =
      (.ok ⟨k, r'.bumped⟩, s.accept r'.bumped) := by
    rw [← he.merged_eq]
    exact (update_of_stored h he.key).trans (if_pos he.version)
  rw [RecordStore.write, Step.bind_ok hup]
  simp [RecordStore.typed]

/-- Writing the status of the stored copy is accepted. -/
theorem writeStatus_of_holds {r : Record k} (h : s.Holds r) (st : Status k) :
    RecordStore.writeStatus { r with status := st } s =
      (.ok { r with status := st }.bumped, s.keep { r with status := st }.bumped) := by
  have hup : (RecordStore.updateStatus (⟨k, { r with status := st }⟩ : AnyRecord) :
      Step Store StoreError AnyRecord) s =
      (.ok ⟨k, { r with status := st }.bumped⟩, s.keep { r with status := st }.bumped) := by
    have hk : Record.key { r with status := st } = r.key := rfl
    exact (updateStatus_of_stored h hk).trans (if_pos rfl)
  rw [RecordStore.writeStatus, Step.bind_ok hup]
  simp [RecordStore.typed]

/-- The record as it is stored at first. -/
def issue (s : Store) (r : AnyRecord) : AnyRecord :=
  r.withMetadata
    { r.metadata with
      uid := if r.metadata.uid.isEmpty then uidText s.issued else r.metadata.uid
      version := 1
      deletedAt := none }

theorem create_of_stored {r q : AnyRecord} (h : s.get? r.key = some q) :
    create r s = (.error (.alreadyExists r.key), s) := by
  simp [create, h]

theorem create_of_none {r : AnyRecord} (h : s.get? r.key = none) :
    create r s = (.ok (s.issue r), { s.put r.key (s.issue r) with
      issued := if r.metadata.uid.isEmpty then s.issued + 1 else s.issued }) := by
  simp [create, h, issue]

theorem get?_create (r : AnyRecord) (key : Key) :
    (create r s).2.get? key =
      if key = r.key ∧ s.get? r.key = none then some (s.issue r) else s.get? key := by
  cases h : s.get? r.key with
  | some q => simp [create_of_stored h]
  | none =>
    rw [create_of_none h]
    exact (get?_put s _ _ _).trans (by simp)

theorem get?_create_of_ne {r : AnyRecord} {key : Key} (h : key ≠ r.key) :
    (create r s).2.get? key = s.get? key := by
  rw [get?_create, if_neg fun hboth => h hboth.1]

/-- A stored record stays as it is, also if it is asked to be created again. -/
theorem get?_create_of_some {key : Key} {q : AnyRecord} (h : s.get? key = some q) (r : AnyRecord) :
    (create r s).2.get? key = some q := by
  rw [get?_create, if_neg]
  · exact h
  · rintro ⟨rfl, hn⟩
    rw [hn] at h
    cases h

theorem WellFormed.create (hs : s.WellFormed) (r : AnyRecord) : (create r s).2.WellFormed := by
  cases h : s.get? r.key with
  | some q => rwa [create_of_stored h]
  | none =>
    rw [create_of_none h]
    have := hs.put (r := s.issue r) fun hd => by cases hd
    exact ⟨this.key_eq, this.marked⟩

/-- The record marked for deletion at the given time. -/
def marking (now : Instant) (r : AnyRecord) : AnyRecord :=
  r.withMetadata { r.metadata with deletedAt := some now, version := r.metadata.version + 1 }

/-- What a deletion does: it removes a record without finalizers and marks one that is not marked
yet. -/
theorem delete_of_stored {now : Instant} {key : Key} {r : AnyRecord} (h : s.get? key = some r) :
    delete now key s = (.ok (), if r.metadata.finalizers.isEmpty then s.without key
      else if r.metadata.beingDeleted then s else s.put key (marking now r)) := by
  simp only [delete, h]
  split
  · rfl
  · split <;> rfl

theorem delete_of_none {now : Instant} {key : Key} (h : s.get? key = none) :
    delete now key s = (.error (.notFound key), s) := by
  simp [delete, h]

theorem get?_delete_of_ne (now : Instant) {key key' : Key} (h : key' ≠ key) :
    (delete now key s).2.get? key' = s.get? key' := by
  cases hr : s.get? key with
  | none => rw [delete_of_none hr]
  | some r =>
    rw [delete_of_stored hr]
    split
    · simp [h]
    · split <;> simp [h]

/-- A deletion either changes nothing, or is an accepted write of the marked record. -/
theorem delete_eq (hs : s.WellFormed) (now : Instant) (key : Key) :
    (delete now key s).2 = s ∨
      ∃ k, ∃ r : Record k, s.Holds r ∧ (delete now key s).2 = s.accept (r.markedAt now) := by
  cases hr : s.get? key with
  | none => exact .inl (by rw [delete_of_none hr])
  | some r =>
    obtain ⟨k, r⟩ := r
    obtain rfl : r.key = key := hs.key_eq hr
    rw [delete_of_stored hr]
    have hkey : (r.markedAt now).key = r.key := rfl
    have hmark : (r.markedAt now).beingDeleted = true := rfl
    have hfin : (r.markedAt now).metadata.finalizers = r.metadata.finalizers := rfl
    split
    · next hf =>
      refine .inr ⟨k, r, hr, ?_⟩
      have hf : r.metadata.finalizers.isEmpty = true := hf
      rw [accept, hmark, hfin, hf, hkey]
      rfl
    · next hf =>
      have hf : ¬r.metadata.finalizers.isEmpty = true := hf
      split
      · exact .inl rfl
      · refine .inr ⟨k, r, hr, ?_⟩
        rw [accept, hmark, hfin, Bool.eq_false_iff.2 hf]
        rfl

theorem WellFormed.delete (hs : s.WellFormed) (now : Instant) (key : Key) :
    (delete now key s).2.WellFormed := by
  rcases delete_eq hs now key with h | ⟨k, r, -, h⟩
  · rwa [h]
  · rw [h]
    exact hs.accept _

theorem isSome_get?_create (r : AnyRecord) (s : Store) :
    ((create r s).2.get? r.key).isSome = true := by
  rw [get?_create]
  split
  · rfl
  · next h =>
    rw [Option.isSome_iff_ne_none]
    exact fun hn => h ⟨rfl, hn⟩

/-- A record is created only once. -/
theorem create_create (r : AnyRecord) (s : Store) :
    (create r (create r s).2).2 = (create r s).2 := by
  obtain ⟨q, hq⟩ := Option.isSome_iff_exists.1 (isSome_get?_create r s)
  rw [create_of_stored hq]

/-- Asking for a deletion once more changes nothing. -/
theorem delete_delete (now now' : Instant) (key : Key) (s : Store) :
    (delete now' key (delete now key s).2).2 = (delete now key s).2 := by
  cases hr : s.get? key with
  | none => rw [delete_of_none hr, delete_of_none hr]
  | some r =>
    rw [delete_of_stored hr]
    by_cases hf : r.metadata.finalizers.isEmpty = true
    · simp only [hf, if_true]
      rw [delete_of_none (by simp)]
    · by_cases hd : r.metadata.beingDeleted = true
      · simp only [hf, hd, if_true]
        rw [if_neg Bool.false_ne_true, delete_of_stored hr]
        simp [hf, hd]
      · simp only [hf, hd]
        have hm : (s.put key (marking now r)).get? key = some (marking now r) := by simp
        have hf' : (marking now r).metadata.finalizers.isEmpty = false := Bool.eq_false_iff.2 hf
        have hd' : (marking now r).metadata.beingDeleted = true := rfl
        rw [if_neg Bool.false_ne_true, if_neg Bool.false_ne_true, delete_of_stored hm, hf', hd']
        rfl

theorem createUnlessStored_apply (r : AnyRecord) (s : Store) :
    RecordStore.createUnlessStored r s = (.ok (), (create r s).2) := by
  simp only [RecordStore.createUnlessStored, Step.tolerate, Step.mk_apply, RecordStore.create]
  cases h : s.get? r.key with
  | some q => simp [create_of_stored h, StoreError.isAlreadyExists]
  | none => simp [create_of_none h]

theorem deleteIfStored_apply (now : Instant) (key : Key) (s : Store) :
    RecordStore.deleteIfStored now key s = (.ok (), (delete now key s).2) := by
  simp only [RecordStore.deleteIfStored, Step.tolerate, Step.mk_apply, RecordStore.delete]
  cases h : s.get? key with
  | none => simp [delete_of_none h, StoreError.isNotFound]
  | some q => simp [delete_of_stored h]

/-- After a creation, a record is found that was found before, or the new one. -/
theorem get?_of_create {r : AnyRecord} {key : Key} {q : AnyRecord}
    (h : (create r s).2.get? key = some q) :
    s.get? key = some q ∨ s.get? key = none ∧ key = r.key ∧ q = s.issue r := by
  rw [get?_create] at h
  split at h
  · next hn =>
    cases h
    exact .inr ⟨hn.1 ▸ hn.2, hn.1, rfl⟩
  · exact .inl h

/-- A record that is written under a stored key is of the kind of the stored one, as the kind is
part of the key. -/
theorem WellFormed.exists_target (hs : s.WellFormed) {r stored : AnyRecord}
    (h : s.get? r.key = some stored) :
    ∃ k, ∃ p incoming : Record k, stored = ⟨k, p⟩ ∧ s.Holds p ∧ r = ⟨k, incoming⟩ ∧
      incoming.key = p.key := by
  obtain ⟨k', p⟩ := stored
  obtain ⟨k, incoming⟩ := r
  have hkey : p.key = incoming.key := hs.key_eq h
  obtain rfl : k' = k := congrArg Key.kind hkey
  exact ⟨k', p, incoming, rfl, hs.holds h, rfl, hkey.symm⟩

/-- An update with another version than the stored one is refused, and any other is an accepted
write of what it merges. -/
theorem update_cases (hs : s.WellFormed) (r : AnyRecord) :
    (update r s).2 = s ∨ ∃ k, ∃ p incoming : Record k, s.Holds p ∧ r = ⟨k, incoming⟩ ∧
      incoming.key = p.key ∧ incoming.metadata.version = p.metadata.version ∧
      (update r s).2 = s.accept (p.merged incoming) := by
  cases hr : s.get? r.key with
  | none => exact .inl (by rw [update_of_none hr])
  | some stored =>
    obtain ⟨k, p, incoming, -, hp, rfl, hk⟩ := hs.exists_target hr
    rw [update_of_stored hp hk]
    split
    · next hv => exact .inr ⟨k, p, incoming, hp, rfl, hk, hv, rfl⟩
    · exact .inl rfl

/-- An update either is refused, or is an accepted write of what it merges. -/
theorem update_eq (hs : s.WellFormed) (r : AnyRecord) :
    (update r s).2 = s ∨ ∃ k, ∃ p incoming : Record k, s.Holds p ∧ r = ⟨k, incoming⟩ ∧
      incoming.key = p.key ∧ (update r s).2 = s.accept (p.merged incoming) := by
  rcases update_cases hs r with h | ⟨k, p, incoming, hp, hr, hk, -, h⟩
  · exact .inl h
  · exact .inr ⟨k, p, incoming, hp, hr, hk, h⟩

/-- A status update either is refused, or keeps all but the status and the version. -/
theorem updateStatus_eq (hs : s.WellFormed) (r : AnyRecord) :
    (updateStatus r s).2 = s ∨ ∃ k, ∃ p incoming : Record k, s.Holds p ∧ r = ⟨k, incoming⟩ ∧
      incoming.key = p.key ∧ (updateStatus r s).2 = s.keep (p.restated incoming) := by
  cases hr : s.get? r.key with
  | none => exact .inl (by rw [updateStatus_of_none hr])
  | some stored =>
    obtain ⟨k, p, incoming, -, hp, rfl, hk⟩ := hs.exists_target hr
    rw [updateStatus_of_stored hp hk]
    split
    · exact .inr ⟨k, p, incoming, hp, rfl, hk, rfl⟩
    · exact .inl rfl

theorem WellFormed.update (hs : s.WellFormed) (r : AnyRecord) : (update r s).2.WellFormed := by
  rcases update_eq hs r with h | ⟨k, p, incoming, -, -, -, h⟩
  · rwa [h]
  · rw [h]
    exact hs.accept _

theorem WellFormed.updateStatus (hs : s.WellFormed) (r : AnyRecord) :
    (updateStatus r s).2.WellFormed := by
  rcases updateStatus_eq hs r with h | ⟨k, p, incoming, hp, -, -, h⟩
  · rwa [h]
  · rw [h]
    exact hs.keep fun hd => hs.marked hp hd

def Stored (s : Store) (key : Key) : Prop := (s.get? key).isSome = true

theorem Holds.stored {r : Record k} (h : s.Holds r) : s.Stored r.key := by
  rw [Stored, h]
  rfl

/-- A key holds one record only. -/
theorem Holds.unique {r : Record k} {k' : Kind} {r' : Record k'} (h : s.Holds r)
    (h' : s.Holds r') (hk : r'.key = r.key) : (⟨k', r'⟩ : AnyRecord) = ⟨k, r⟩ := by
  have hr' : s.get? r.key = some ⟨k', r'⟩ := hk ▸ h'
  rw [show s.get? r.key = some ⟨k, r⟩ from h] at hr'
  cases hr'
  rfl

theorem WellFormed.exists_holds (hs : s.WellFormed) {key : Key} (h : s.Stored key) :
    ∃ k, ∃ r : Record k, s.Holds r ∧ r.key = key := by
  obtain ⟨⟨k, r⟩, hr⟩ := Option.isSome_iff_exists.1 h
  obtain rfl : r.key = key := hs.key_eq hr
  exact ⟨k, r, hr, rfl⟩

/-- The record under a key is of the kind that the key says. -/
theorem WellFormed.holds_of_stored (hs : s.WellFormed) {key : Key} (h : s.Stored key) :
    ∃ r : Record key.kind, s.Holds r ∧ r.key = key := by
  obtain ⟨k, r, hr, rfl⟩ := hs.exists_holds h
  exact ⟨r, hr, rfl⟩

theorem WellFormed.fetch_stored (hs : s.WellFormed) {ns name : String}
    (h : s.Stored ⟨k, ns, name⟩) :
    ∃ r : Record k, RecordStore.fetch k ns name s = (.ok r, s) ∧ s.Holds r ∧
      r.key = ⟨k, ns, name⟩ := by
  obtain ⟨r, hr, hk⟩ := hs.holds_of_stored h
  refine ⟨r, ?_, hr, hk⟩
  have hget : s.get? ⟨k, ns, name⟩ = some ⟨k, r⟩ := hk ▸ hr
  rw [RecordStore.fetch, Step.bind_ok (get_of_some hget)]
  simp [RecordStore.typed]

/-- The name leads to the record. -/
def Finds (s : Store) (ns name : String) {k : Kind} (r : Record k) : Prop :=
  s.get? ⟨k, ns, name⟩ = some ⟨k, r⟩

theorem Finds.unique {r r' : Record k} (h : s.Finds ns name r) (h' : s.Finds ns name r') :
    r = r' := by
  have heq : (some ⟨k, r⟩ : Option AnyRecord) = some ⟨k, r'⟩ := h.symm.trans h'
  simpa using heq

theorem Holds.finds {r : Record k} (h : s.Holds r) (hkey : r.key = ⟨k, ns, name⟩) :
    s.Finds ns name r := by
  rw [Finds, ← hkey]
  exact h

theorem WellFormed.exists_finds_iff (hs : s.WellFormed) :
    (∃ r : Record k, s.Finds ns name r) ↔ s.Stored ⟨k, ns, name⟩ := by
  constructor
  · intro ⟨r, hr⟩
    have hget : s.get? ⟨k, ns, name⟩ = some ⟨k, r⟩ := hr
    rw [Stored, hget]
    rfl
  · intro h
    obtain ⟨r, hr, hkey⟩ := hs.holds_of_stored h
    exact ⟨r, hr.finds hkey⟩

/-- A record that is the only one of its kind in its namespace is listed alone. -/
theorem list_of_unique {r : Record k} (hr : s.Holds r)
    (hu : ∀ name, s.Stored ⟨k, r.metadata.ns, name⟩ → name = r.metadata.name) :
    s.list k (some r.metadata.ns) = [⟨k, r⟩] := by
  have hlist : s.list k (some r.metadata.ns) =
    (s.records.toList.filter fun e : Key × AnyRecord =>
      e.1.kind == k && (some r.metadata.ns).all (· == e.1.ns)).map (·.2) := rfl
  generalize hl : (s.records.toList.filter fun e : Key × AnyRecord =>
    e.1.kind == k && (some r.metadata.ns).all (· == e.1.ns)) = l at hlist
  have hentry : ∀ e ∈ l, e = (r.key, ⟨k, r⟩) := by
    rintro ⟨⟨k', ns, name⟩, q⟩ he
    obtain ⟨hmem, hp⟩ := List.mem_filter.1 (hl ▸ he)
    simp only [Option.all_some, Bool.and_eq_true, beq_iff_eq] at hp
    obtain ⟨rfl, rfl⟩ := hp
    have hq : s.get? ⟨k', r.metadata.ns, name⟩ = some q := Table.get?_eq_some_iff.2 hmem
    obtain rfl := hu name (by rw [Stored, hq]; rfl)
    have hq : s.get? r.key = some q := hq
    rw [show s.get? r.key = some ⟨k', r⟩ from hr] at hq
    cases hq
    rfl
  have hmem : (r.key, (⟨k, r⟩ : AnyRecord)) ∈ l := by
    rw [← hl]
    refine List.mem_filter.2 ⟨Table.get?_eq_some_iff.1 hr, ?_⟩
    simp [Record.key]
  have hnodup : l.Nodup := by
    rw [← hl]
    refine List.Pairwise.filter _ (s.records.ascending.imp ?_)
    rintro a _ hlt rfl
    simp [Std.ReflCmp.compare_self] at hlt
  rw [List.eq_replicate_of_mem hentry] at hnodup hlist
  have hone : l.length = 1 :=
    Nat.le_antisymm (List.nodup_replicate.1 hnodup) (List.length_pos_of_mem hmem)
  rw [hlist, hone]
  rfl

/-- What is stored after these records were created one after the other was stored before or is one
of them. -/
theorem get?_of_creates {l : List AnyRecord} {key : Key} {q : AnyRecord}
    (h : (l.foldl (fun s r => (create r s).2) s).get? key = some q) :
    s.get? key = some q ∨ ∃ r ∈ l, ∃ t : Store, q = t.issue r := by
  induction l generalizing s with
  | nil => exact .inl h
  | cons r l ih =>
    rcases ih h with h | ⟨r', hr', hq⟩
    · rcases get?_of_create h with h | ⟨-, -, h⟩
      · exact .inl h
      · exact .inr ⟨r, List.mem_cons_self, s, h⟩
    · exact .inr ⟨r', List.mem_cons_of_mem _ hr', hq⟩

theorem WellFormed.creates (hs : s.WellFormed) (l : List AnyRecord) :
    (l.foldl (fun s r => (Store.create r s).2) s).WellFormed := by
  induction l generalizing s with
  | nil => exact hs
  | cons r l ih => exact ih (hs.create r)

theorem stored_creates {l : List AnyRecord} {key : Key}
    (h : s.Stored key ∨ key ∈ l.map (·.key)) :
    (l.foldl (fun s r => (create r s).2) s).Stored key := by
  induction l generalizing s with
  | nil => exact h.resolve_right List.not_mem_nil
  | cons r l ih =>
    refine ih ?_
    rcases h with h | h
    · refine .inl ?_
      rw [Stored, get?_create]
      split
      · rfl
      · exact h
    · rcases List.mem_cons.1 h with rfl | h
      · exact .inl (isSome_get?_create r s)
      · exact .inr h

theorem mem_list {ns : Option String} {r : AnyRecord} :
    r ∈ s.list k ns ↔
      ∃ key, s.get? key = some r ∧ key.kind = k ∧ ns.all (· == key.ns) = true := by
  simp only [list, List.mem_map, List.mem_filter, Bool.and_eq_true, beq_iff_eq, Prod.exists]
  constructor
  · rintro ⟨key, _, ⟨hmem, hk, hns⟩, rfl⟩
    exact ⟨key, Table.get?_eq_some_iff.2 hmem, hk, hns⟩
  · rintro ⟨key, hget, hk, hns⟩
    exact ⟨key, r, ⟨Table.get?_eq_some_iff.1 hget, hk, hns⟩, rfl⟩

/-- A well-formed store lists records of the kind that was asked for. -/
theorem WellFormed.exists_list (hs : s.WellFormed) (k : Kind) (ns : Option String) :
    ∃ rs : List (Record k), s.list k ns = rs.map fun r => ⟨k, r⟩ := by
  have hkind : ∀ q ∈ s.list k ns, q.kind = k := by
    intro q hq
    obtain ⟨key, hget, hk, -⟩ := mem_list.1 hq
    rw [← hk, ← hs.key_eq hget]
    rfl
  generalize s.list k ns = l at hkind
  induction l with
  | nil => exact ⟨[], rfl⟩
  | cons q l ih =>
    obtain ⟨rs, rfl⟩ := ih fun q hq => hkind q (List.mem_cons_of_mem _ hq)
    obtain ⟨k', r⟩ := q
    obtain rfl : k' = k := hkind _ List.mem_cons_self
    exact ⟨r :: rs, rfl⟩

theorem list_put {key : Key} (h : key.kind ≠ k) (s : Store) (r : AnyRecord) (ns : Option String) :
    (s.put key r).list k ns = s.list k ns := by
  let chosen : Key → Bool := fun key => key.kind == k && ns.all (· == key.ns)
  have hc : chosen key = false := by simp [chosen, h]
  exact congrArg (List.map Prod.snd) (Entries.filter_insert hc r s.records.entries)

end Store

namespace RecordStore

variable {s t : Store} {k : Kind} {ns name : String}

theorem typed_eq_ok_iff {key : Key} {q : AnyRecord} {r : Record k} :
    typed key k q = .ok r ↔ q = ⟨k, r⟩ := by
  obtain ⟨k', q⟩ := q
  by_cases hk : k' = k
  · subst hk
    simp [typed]
  · have hne : (⟨k', q⟩ : AnyRecord) ≠ ⟨k, r⟩ := fun h => hk (congrArg AnyRecord.kind h)
    simp [typed, AnyRecord.ofKind?, hk, hne]

theorem get_eq_ok_iff {key : Key} {q : AnyRecord} :
    (RecordStore.get key : Step Store StoreError _) s = (.ok q, t) ↔
      s.get? key = some q ∧ t = s := by
  constructor
  · intro h
    cases hq : s.get? key with
    | none =>
      rw [Store.get_of_none hq] at h
      cases h
    | some r =>
      rw [Store.get_of_some hq] at h
      cases h
      exact ⟨rfl, rfl⟩
  · intro ⟨hq, ht⟩
    rw [Store.get_of_some hq, ht]

theorem fetch_eq_ok_iff {r : Record k} :
    fetch k ns name s = (.ok r, t) ↔ s.Finds ns name r ∧ t = s := by
  simp only [fetch, Step.bind_eq_ok_iff, get_eq_ok_iff, Step.ofExcept_eq_ok_iff, typed_eq_ok_iff,
    Store.Finds]
  constructor
  · rintro ⟨q, _, ⟨hq, rfl⟩, rfl, rfl⟩
    exact ⟨hq, rfl⟩
  · rintro ⟨hr, rfl⟩
    exact ⟨_, _, ⟨hr, rfl⟩, rfl, rfl⟩

theorem mapM_typed_eq_ok_iff {l : List AnyRecord} {rs : List (Record k)} :
    l.mapM (fun q => typed q.key k q) = .ok rs ↔ l = rs.map fun r => ⟨k, r⟩ := by
  induction l generalizing rs with
  | nil => cases rs <;> simp [pure, Except.pure]
  | cons q l ih =>
    simp only [List.mapM_cons, Step.except_bind_eq_ok_iff, typed_eq_ok_iff, ih]
    cases rs with
    | nil => simp [pure, Except.pure]
    | cons r rs => simp [pure, Except.pure]

theorem fetchAll_eq_ok_iff {rs : List (Record k)} : fetchAll k ns s = (.ok rs, t) ↔
    (s.list k (some ns) = rs.map fun r => ⟨k, r⟩) ∧ t = s := by
  have hlist : ∀ {l u}, (RecordStore.list k (some ns) : Step Store StoreError _) s = (.ok l, u) ↔
      l = s.list k (some ns) ∧ u = s := Step.pure_eq_ok_iff
  simp only [fetchAll, Step.bind_eq_ok_iff, hlist, Step.ofExcept_eq_ok_iff, mapM_typed_eq_ok_iff]
  constructor
  · rintro ⟨_, _, ⟨rfl, rfl⟩, h⟩
    exact h
  · intro h
    exact ⟨_, _, ⟨rfl, rfl⟩, h⟩

end RecordStore

end Reconciliation
