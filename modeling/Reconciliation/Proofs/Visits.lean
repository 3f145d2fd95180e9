import Reconciliation.Proofs.Provision
import Reconciliation.Proofs.Run

/-! The keys to visit are read off the store once, before the first visit. So whatever the visits
make of the store, each record that was stored then is visited once, at a place that depends on its
key and on whether it was to be deleted. -/
namespace Reconciliation

namespace Store

/-- Each record is stored under its own key. -/
def Keyed (s : Store) : Prop := ∀ key r, s.get? key = some r → r.key = key

theorem WellFormed.keyed {s : Store} (hs : s.WellFormed) : s.Keyed := fun _ _ => hs.key_eq

end Store

namespace SweepReport

variable {report : SweepReport} {key : Key}

theorem mem_reconciled : key ∈ report.reconciled ↔ (key, .ok ()) ∈ report := by
  simp only [reconciled, List.mem_filterMap, Prod.exists]
  constructor
  · rintro ⟨key', ⟨e⟩ | ⟨⟨⟩⟩, hmem, h⟩
    · cases h
    · cases h
      exact hmem
  · exact fun hmem => ⟨key, _, hmem, rfl⟩

theorem mem_failed {e : ReconcileError} : (key, e) ∈ report.failed ↔ (key, .error e) ∈ report := by
  simp only [failed, List.mem_filterMap, Prod.exists]
  constructor
  · rintro ⟨key', e' | ⟨⟨⟩⟩, hmem, h⟩
    · cases h
      exact hmem
    · cases h
  · exact fun hmem => ⟨key, _, hmem, rfl⟩

/-- Each visit is reported either as a success or as a failure. -/
theorem perm_visited (report : SweepReport) :
    (report.reconciled ++ report.failed.map (·.1)).Perm (report.map (·.1)) := by
  induction report with
  | nil => exact .nil
  | cons visit report ih =>
    obtain ⟨key, e | ⟨⟨⟩⟩⟩ := visit
    · exact List.perm_middle.trans (ih.cons key)
    · exact ih.cons key

end SweepReport

namespace Sweep

/-- The first key comes before the second where both records are live: its kind comes earlier in
the order of dependency, or the kinds are the same and the key is smaller. -/
def Precedes (a b : Key) : Prop :=
  a.kind.place < b.kind.place ∨ a.kind = b.kind ∧ compare a b = .lt

theorem Precedes.ne {a b : Key} (h : Precedes a b) : a ≠ b := by
  rintro rfl
  rcases h with h | ⟨-, h⟩
  · exact Nat.lt_irrefl _ h
  · simp [Std.ReflCmp.compare_self] at h

/-- The records that a sweep finds, in the order in which it finds them. -/
def snapshot (s : Store) : List AnyRecord :=
  (Kind.inDependencyOrder.map fun k => s.list k none).flatten

/-- The records found that are not to be deleted, or those that are. -/
def found (deleted : Bool) (s : Store) : List Key :=
  ((snapshot s).filter (·.metadata.beingDeleted == deleted)).map (·.key)

variable {s : Store}

theorem keys_eq (s : Store) : keys s = found false s ++ (found true s).reverse := by
  simp [keys, order, found, snapshot]

theorem mem_snapshot {r : AnyRecord} : r ∈ snapshot s ↔ ∃ key, s.get? key = some r := by
  simp only [snapshot, List.mem_flatten, List.mem_map]
  constructor
  · rintro ⟨_, ⟨k, -, rfl⟩, hmem⟩
    obtain ⟨key, hget, -, -⟩ := Store.mem_list.1 hmem
    exact ⟨key, hget⟩
  · rintro ⟨key, hget⟩
    exact ⟨_, ⟨key.kind, key.kind.mem_inDependencyOrder, rfl⟩, Store.mem_list.2 ⟨key, hget, rfl, rfl⟩⟩

/-- The records of one kind are listed in the order of their keys. -/
theorem pairwise_list (hs : s.Keyed) (k : Kind) :
    (s.list k none).Pairwise fun r q => Precedes r.key q.key := by
  have hascending := List.Pairwise.sublist
    (List.filter_sublist (p := fun e : Key × AnyRecord => e.1.kind == k && true))
    s.records.ascending
  refine List.pairwise_map.2 (hascending.imp_of_mem ?_)
  intro a b ha hb hlt
  obtain ⟨hmem, hk⟩ := List.mem_filter.1 ha
  obtain ⟨hmem', hk'⟩ := List.mem_filter.1 hb
  rw [hs _ _ (Table.get?_eq_some_iff.2 hmem), hs _ _ (Table.get?_eq_some_iff.2 hmem')]
  simp only [Bool.and_true, beq_iff_eq] at hk hk'
  exact .inr ⟨hk.trans hk'.symm, hlt⟩

theorem pairwise_snapshot (hs : s.Keyed) :
    (snapshot s).Pairwise fun r q => Precedes r.key q.key := by
  have hplaces : Kind.inDependencyOrder.Pairwise fun k k' => k.place < k'.place := by decide
  refine List.pairwise_flatten.2 ⟨?_, ?_⟩
  · intro l hl
    obtain ⟨k, -, rfl⟩ := List.mem_map.1 hl
    exact pairwise_list hs k
  · refine List.pairwise_map.2 (hplaces.imp ?_)
    intro k k' hlt r hr q hq
    obtain ⟨key, hget, rfl, -⟩ := Store.mem_list.1 hr
    obtain ⟨key', hget', rfl, -⟩ := Store.mem_list.1 hq
    rw [hs _ _ hget, hs _ _ hget']
    exact .inl hlt

theorem pairwise_found (hs : s.Keyed) (deleted : Bool) :
    (found deleted s).Pairwise Precedes :=
  List.pairwise_map.2 ((pairwise_snapshot hs).sublist List.filter_sublist)

theorem mem_found (hs : s.Keyed) {deleted : Bool} {key : Key} : key ∈ found deleted s ↔
    ∃ r, s.get? key = some r ∧ r.metadata.beingDeleted = deleted := by
  simp only [found, List.mem_map, List.mem_filter, mem_snapshot, beq_iff_eq]
  constructor
  · rintro ⟨r, ⟨⟨key', hget⟩, hd⟩, rfl⟩
    exact ⟨r, hs _ _ hget ▸ hget, hd⟩
  · rintro ⟨r, hget, hd⟩
    exact ⟨r, ⟨⟨key, hget⟩, hd⟩, hs _ _ hget⟩

theorem nodup_keys (hs : s.Keyed) : (keys s).Nodup := by
  rw [keys_eq, List.nodup_append]
  refine ⟨(pairwise_found hs false).imp Precedes.ne, ?_, ?_⟩
  · exact List.pairwise_reverse.2 ((pairwise_found hs true).imp fun h => h.ne.symm)
  · rintro key hlive _ hdeleted rfl
    obtain ⟨r, hget, hd⟩ := (mem_found hs).1 hlive
    obtain ⟨r', hget', hd'⟩ := (mem_found hs).1 (List.mem_reverse.1 hdeleted)
    rw [hget] at hget'
    cases hget'
    rw [hd] at hd'
    cases hd'

theorem mem_keys (hs : s.Keyed) {key : Key} : key ∈ keys s ↔ s.Stored key := by
  rw [keys_eq, List.mem_append, List.mem_reverse, mem_found hs, mem_found hs, Store.Stored,
    Option.isSome_iff_exists, ← exists_or]
  refine exists_congr fun r => ?_
  rw [← and_or_left]
  exact and_iff_left (by cases r.metadata.beingDeleted <;> simp)

/-- What becomes of each key when they are reconciled one after the other. -/
def outcomes (sys : String) : List Key → World Store Secrets → SweepReport
  | [], _ => []
  | key :: ks, w => (key, (reconcile sys key w).1) :: outcomes sys ks (reconcile sys key w).2

variable {sys : String} {w : World Store Secrets}

theorem visits_eq_outcomes (sys : String) (ks : List Key) (w : World Store Secrets) :
    (ks.mapM (visit sys)) w = (.ok (outcomes sys ks w), after sys (ks.map .reconcile) w) := by
  induction ks generalizing w with
  | nil => rfl
  | cons key ks ih =>
    rw [List.mapM_cons, Step.bind_ok (visit_apply sys key w), Step.bind_ok (ih _)]
    rfl

theorem map_fst_outcomes (sys : String) (ks : List Key) (w : World Store Secrets) :
    (outcomes sys ks w).map (·.1) = ks := by
  induction ks generalizing w with
  | nil => rfl
  | cons key ks ih => exact congrArg (key :: ·) (ih _)

theorem outcomes_append (sys : String) (ks ks' : List Key) (w : World Store Secrets) :
    outcomes sys (ks ++ ks') w =
      outcomes sys ks w ++ outcomes sys ks' (after sys (ks.map .reconcile) w) := by
  induction ks generalizing w with
  | nil => rfl
  | cons key ks ih => exact congrArg (_ :: ·) (ih _)

/-- A key that is visited once has the outcome of its reconcile after the earlier ones. -/
theorem mem_outcomes {pre post : List Key} {key : Key} (h : (pre ++ key :: post).Nodup)
    {x : Except ReconcileError Unit} : (key, x) ∈ outcomes sys (pre ++ key :: post) w ↔
      (reconcile sys key (after sys (pre.map .reconcile) w)).1 = x := by
  have hmem {ks : List Key} {v : World Store Secrets} (hx : (key, x) ∈ outcomes sys ks v) :
      key ∈ ks := by
    rw [← map_fst_outcomes sys ks v]
    exact List.mem_map_of_mem hx
  have hnodup := List.nodup_append.1 h
  rw [outcomes_append, List.mem_append, outcomes, List.mem_cons, Prod.mk.injEq]
  constructor
  · rintro (hx | ⟨-, rfl⟩ | hx)
    · exact absurd rfl (hnodup.2.2 key (hmem hx) key List.mem_cons_self)
    · rfl
    · exact absurd (hmem hx) (List.nodup_cons.1 hnodup.2.1).1
  · rintro rfl
    exact .inr (.inl ⟨rfl, rfl⟩)

end Sweep

/-- A sweep visits the keys that were stored at its start, each once: first those of the live
records, by kind in the order of dependency and then by key, and after them those of the records to
be deleted, in the reverse of that order. A key is reported as failed with an error exactly if its
reconcile, run where the visits before it have led, ends with this error, and as reconciled exactly
if it succeeds; in both cases the next key is visited. -/
theorem sweep_visits_once {w : World Store Secrets} (hs : w.records.Keyed) (sys : String) :
    ∃ (live deleted : List Key) (report : SweepReport),
      sweep sys w =
        (.ok report, after sys ((live ++ deleted.reverse).map .reconcile) w) ∧
      report.map (·.1) = live ++ deleted.reverse ∧
      live.Pairwise Sweep.Precedes ∧ deleted.Pairwise Sweep.Precedes ∧
      (∀ key, key ∈ live ↔
        ∃ r, w.records.get? key = some r ∧ r.metadata.beingDeleted = false) ∧
      (∀ key, key ∈ deleted ↔
        ∃ r, w.records.get? key = some r ∧ r.metadata.beingDeleted = true) ∧
      (report.reconciled ++ report.failed.map (·.1)).Nodup ∧
      (∀ key, key ∈ report.reconciled ++ report.failed.map (·.1) ↔ w.records.Stored key) ∧
      ∀ pre key post, live ++ deleted.reverse = pre ++ key :: post →
        let u := after sys (pre.map .reconcile) w
        (key ∈ report.reconciled ↔ (reconcile sys key u).1 = .ok ()) ∧
        ∀ e, (key, e) ∈ report.failed ↔ (reconcile sys key u).1 = .error e := by
  have hkeys := Sweep.keys_eq w.records
  have hvisited : (Sweep.outcomes sys (Sweep.keys w.records) w).map (·.1) =
      Sweep.keys w.records := Sweep.map_fst_outcomes _ _ _
  have hperm := SweepReport.perm_visited (Sweep.outcomes sys (Sweep.keys w.records) w)
  rw [hvisited] at hperm
  refine ⟨Sweep.found false w.records, Sweep.found true w.records,
    Sweep.outcomes sys (Sweep.keys w.records) w, ?_, hvisited.trans hkeys,
    Sweep.pairwise_found hs false, Sweep.pairwise_found hs true, fun _ => Sweep.mem_found hs,
    fun _ => Sweep.mem_found hs, hperm.nodup_iff.2 (Sweep.nodup_keys hs),
    fun _ => hperm.mem_iff.trans (Sweep.mem_keys hs), ?_⟩
  · rw [sweep_eq_visits, Sweep.visits_eq_outcomes, ← hkeys]
  · intro pre key post hsplit u
    rw [← hkeys] at hsplit
    have hnodup : (pre ++ key :: post).Nodup := hsplit ▸ Sweep.nodup_keys hs
    rw [hsplit]
    constructor
    · rw [SweepReport.mem_reconciled, Sweep.mem_outcomes hnodup]
    · intro e
      rw [SweepReport.mem_failed, Sweep.mem_outcomes hnodup]

namespace Small

/-- An AZ in a namespace without a team. -/
def strayAz : Record .az := Record.new "other" "z" ({} : AzSpec)

/-- The AZ is visited before that of the team. -/
def strayed : World Store Secrets :=
  { world with records := (Store.create strayAz world.records).2 }

end Small

/-- The stray AZ fails, and the sweep goes on to the AZ of the team. -/
theorem sweep_visits_once_small :
    ∃ (report : SweepReport) (v : World Store Secrets) (e : ReconcileError),
      sweep "sys" Small.strayed = (.ok report, v) ∧
      report.map (·.1) = [Small.director.key, Small.team.key, Small.strayAz.key, Small.az.key] ∧
      (Small.strayAz.key, e) ∈ report.failed ∧ Small.az.key ∈ report.reconciled := by
  have hkeyed : Small.strayed.records.Keyed :=
    (Small.wellFormed_world.create Small.strayAz).keyed
  obtain ⟨live, deleted, report, hsweep, hvisited, -, -, -, -, -, -, houtcome⟩ :=
    sweep_visits_once hkeyed "sys"
  have hkeys : Sweep.keys Small.strayed.records =
      [Small.director.key, Small.team.key, Small.strayAz.key, Small.az.key] := by rfl
  have hreport : report.map (·.1) =
      [Small.director.key, Small.team.key, Small.strayAz.key, Small.az.key] := by
    rw [sweep_eq_visits, Sweep.visits_eq_outcomes] at hsweep
    rw [← Except.ok.inj (congrArg Prod.fst hsweep), Sweep.map_fst_outcomes, hkeys]
  have hlists := hvisited.symm.trans hreport
  obtain ⟨e, he⟩ : ∃ e, (reconcile "sys" Small.strayAz.key (after "sys"
      ([Small.director.key, Small.team.key].map .reconcile) Small.strayed)).1 = .error e :=
    ⟨_, rfl⟩
  have hok : (reconcile "sys" Small.az.key (after "sys"
      ([Small.director.key, Small.team.key, Small.strayAz.key].map .reconcile)
        Small.strayed)).1 = .ok () := by rfl
  exact ⟨report, _, e, hsweep, hreport,
    ((houtcome [_, _] _ [_] hlists).2 e).2 he, (houtcome [_, _, _] _ [] hlists).1.2 hok⟩

end Reconciliation
