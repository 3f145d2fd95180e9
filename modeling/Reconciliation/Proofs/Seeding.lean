import Reconciliation.Proofs.Store
import Reconciliation.RecordFiles

namespace Reconciliation

namespace Store

variable {s : Store} {l : List AnyRecord}

/-- A record that is stored already stays as it is. -/
theorem get?_creates_of_stored {key : Key} {q : AnyRecord} (h : s.get? key = some q) :
    (l.foldl (fun s r => (create r s).2) s).get? key = some q := by
  induction l generalizing s with
  | nil => exact h
  | cons r l ih => exact ih (get?_create_of_some h r)

/-- Of records with different keys, each gets in whose key is free. -/
theorem get?_creates_of_none (hl : (l.map (·.key)).Nodup) {r : AnyRecord} (hr : r ∈ l)
    (h : s.get? r.key = none) :
    ∃ t : Store, (l.foldl (fun s r => (create r s).2) s).get? r.key = some (t.issue r) := by
  induction l generalizing s with
  | nil => cases hr
  | cons a l ih =>
    simp only [List.map_cons, List.nodup_cons] at hl
    rcases List.mem_cons.1 hr with rfl | hr
    · refine ⟨s, ?_⟩
      have hissued : (create r s).2.get? r.key = some (s.issue r) := by
        rw [get?_create, if_pos ⟨rfl, h⟩]
      rw [List.foldl_cons]
      exact get?_creates_of_stored hissued
    · have hne : r.key ≠ a.key := fun he => hl.1 (he ▸ List.mem_map_of_mem hr)
      apply ih hl.2 hr
      rw [get?_create_of_ne hne, h]

end Store

namespace RecordFiles

variable {host : Host} {root path : String} {entries gathered : List RecordEntry}

def Distinct (entries : List RecordEntry) : Prop := (entries.map (·.record.key)).Nodup

theorem Distinct.add {rs : List AnyRecord} (hd : Distinct entries)
    (h : add path entries rs = .ok gathered) : Distinct gathered := by
  induction rs generalizing entries with
  | nil =>
    cases h
    exact hd
  | cons r rs ih =>
    unfold RecordFiles.add at h
    split at h
    · cases h
    · next hnew =>
      refine ih ?_ h
      have hfresh : r.key ∉ entries.map (·.record.key) := by simpa using hnew
      simp only [Distinct, List.map_append, List.map_cons, List.map_nil]
      exact List.nodup_append.2 ⟨hd, by simp, by simpa using hfresh⟩

theorem Distinct.addFile {way : List String} (hd : Distinct entries)
    (h : addFile host root entries way = .ok gathered) : Distinct gathered := by
  unfold RecordFiles.addFile at h
  dsimp only at h
  split at h
  · cases h
  · split at h
    · cases h
    · exact hd.add h

theorem Distinct.addFound {found : FileTree.Found} (hd : Distinct entries)
    (h : addFound host root entries found = .ok gathered) : Distinct gathered := by
  cases found with
  | stray => cases h
  | file way =>
    simp only [RecordFiles.addFound] at h
    split at h
    · cases h
      exact hd
    · exact hd.addFile h

theorem Distinct.gather {found : List FileTree.Found} (hd : Distinct entries)
    (h : found.foldlM (RecordFiles.addFound host root) entries = .ok gathered) :
    Distinct gathered := by
  induction found generalizing entries with
  | nil =>
    cases h
    exact hd
  | cons f found ih =>
    rw [List.foldlM_cons, Step.except_bind_eq_ok_iff] at h
    obtain ⟨next, hnext, h⟩ := h
    exact ih (hd.addFound hnext) h

/-- What is loaded was gathered from the files, found valid and then sorted. -/
theorem exists_gathered_of_load (h : load host root = .ok entries) :
    ∃ place gathered, host.directory? root = some place ∧
      (host.files.walk place).foldlM (addFound host root) [] = .ok gathered ∧
      Validation.complaint? (gathered.map (·.record)) = none ∧
      entries = gathered.mergeSort fun a b => (compare a.record.key b.record.key).isLE := by
  unfold load at h
  split at h
  · cases h
  · next place hplace =>
    rw [Step.except_bind_eq_ok_iff] at h
    obtain ⟨gathered, hgathered, h⟩ := h
    split at h
    · cases h
    · next hvalid =>
      cases h
      exact ⟨place, gathered, hplace, hgathered, hvalid, rfl⟩

theorem distinct_of_load (h : load host root = .ok entries) : Distinct entries := by
  obtain ⟨place, gathered, -, hgathered, -, rfl⟩ := exists_gathered_of_load h
  have hnil : Distinct [] := List.nodup_nil
  exact (((List.mergeSort_perm _ _).map _).nodup_iff).2 (hnil.gather hgathered)

/-- The records of a directory, none if it cannot be loaded. -/
def loaded (host : Host) (root : String) : List AnyRecord :=
  match load host root with
  | .ok entries => entries.map (·.record)
  | .error _ => []

theorem nodup_loaded (host : Host) (root : String) : ((loaded host root).map (·.key)).Nodup := by
  unfold loaded
  cases h : load host root with
  | error e => exact List.nodup_nil
  | ok entries =>
    have hd : Distinct entries := distinct_of_load h
    simpa [Distinct, List.map_map, Function.comp_def] using hd

theorem create_cons_of_stored {e : RecordEntry} {s : Store} {q : AnyRecord}
    (h : s.get? e.record.key = some q) : create (e :: entries) s = create entries s := by
  have hattempt : ((RecordStore.create e.record).attempt : Step Store LoadError _) s =
      (.ok (.error (.alreadyExists e.record.key)), s) :=
    Step.attempt_of (Store.create_of_stored h)
  rw [create, Step.bind_ok hattempt]

theorem create_cons_of_none {e : RecordEntry} {s s' : Store} {n : Nat}
    (h : s.get? e.record.key = none)
    (hrest : create entries (Store.create e.record s).2 = (.ok n, s')) :
    create (e :: entries) s = (.ok (n + 1), s') := by
  have hattempt : ((RecordStore.create e.record).attempt : Step Store LoadError _) s =
      (.ok (Store.create e.record s).1, (Store.create e.record s).2) := rfl
  have hok : (Store.create e.record s).1 = .ok (s.issue e.record) := by
    rw [Store.create_of_none h]
  rw [create, Step.bind_ok hattempt, hok]
  exact Step.bind_ok hrest _

/-- Creating never fails, as the only complaint of the store is about a key that is taken. -/
theorem create_apply (entries : List RecordEntry) (s : Store) :
    ∃ n, create entries s =
      (.ok n, (entries.map (·.record)).foldl (fun s r => (Store.create r s).2) s) := by
  induction entries generalizing s with
  | nil => exact ⟨0, rfl⟩
  | cons e entries ih =>
    obtain ⟨n, hn⟩ := ih (Store.create e.record s).2
    rw [List.map_cons, List.foldl_cons]
    cases he : s.get? e.record.key with
    | none => exact ⟨n + 1, create_cons_of_none he hn⟩
    | some q =>
      rw [Store.create_of_stored he] at hn ⊢
      exact ⟨n, (create_cons_of_stored he).trans hn⟩

theorem seed_apply (host : Host) (root : String) (s : Store) :
    (seed host root s : Except LoadError Nat × Store).2 =
      (loaded host root).foldl (fun s r => (Store.create r s).2) s := by
  unfold seed loaded
  cases h : load host root with
  | error e => rfl
  | ok entries =>
    obtain ⟨n, hn⟩ := create_apply entries s
    have hload : (Step.ofExcept (Except.ok entries) : Step Store LoadError _) s =
      (.ok entries, s) := rfl
    rw [Step.bind_ok hload, hn]

end RecordFiles

end Reconciliation
