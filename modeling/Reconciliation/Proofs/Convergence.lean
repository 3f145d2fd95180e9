import Reconciliation.Proofs.Progress
import Reconciliation.Proofs.Redraft

/-! In a world that is provided for, every sweep succeeds. The first settles all records that were
stored at its start, the second the own teams of the Directors, which the first founded. From then
on a sweep writes nothing, and the objects that it brings to the Director again are those that the
second has left there. -/
namespace Reconciliation

/-- The supply yields this many secrets. -/
def Entropy.Supplies : Nat → Entropy → Prop
  | 0, _ => True
  | n + 1, en => ∃ secret rest, generate en = (.ok secret, rest) ∧ rest.Supplies n

/-- No visit of the sweep fails. -/
def SweepSucceeds (sys : String) (w : World Store Secrets) : Prop :=
  ∃ report v, sweep sys w = (.ok report, v) ∧ report.isClean = true

namespace Sweep

variable {s : Store}

/-- All stored keys, kind by kind. -/
def listed (s : Store) : List Key :=
  (Kind.inDependencyOrder.map fun k => (s.list k none).map (·.key)).flatten

theorem mem_listed (hs : s.WellFormed) {key : Key} : key ∈ listed s ↔ s.Stored key := by
  simp only [listed, List.mem_flatten, List.mem_map]
  constructor
  · rintro ⟨_, ⟨k, -, rfl⟩, hmem⟩
    obtain ⟨r, hr, rfl⟩ := List.mem_map.1 hmem
    obtain ⟨key, hget, -, -⟩ := Store.mem_list.1 hr
    rw [hs.key_eq hget, Store.Stored, hget]
    rfl
  · intro hstored
    obtain ⟨r, hget⟩ := Option.isSome_iff_exists.1 hstored
    have hlisted : r ∈ s.list key.kind none := Store.mem_list.2 ⟨key, hget, rfl, rfl⟩
    exact ⟨_, ⟨key.kind, key.kind.mem_inDependencyOrder, rfl⟩,
      List.mem_map.2 ⟨r, hlisted, hs.key_eq hget⟩⟩

/-- A kind is listed only after the kinds it refers to. -/
theorem sorted_listed (hs : s.WellFormed) :
    (listed s).Pairwise fun a b => a.kind.place ≤ b.kind.place := by
  have hkind : ∀ {k : Kind} {key : Key}, key ∈ (s.list k none).map (·.key) → key.kind = k := by
    intro k key hmem
    obtain ⟨r, hr, rfl⟩ := List.mem_map.1 hmem
    obtain ⟨key, hget, rfl, -⟩ := Store.mem_list.1 hr
    rw [hs.key_eq hget]
  have hplaces : Kind.inDependencyOrder.Pairwise fun k k' => k.place < k'.place := by decide
  refine List.pairwise_flatten.2 ⟨?_, ?_⟩
  · intro l hmem
    obtain ⟨k, -, rfl⟩ := List.mem_map.1 hmem
    refine List.Pairwise.imp_of_mem ?_ (List.pairwise_of_forall fun _ _ => True.intro)
    exact fun ha hb _ => Nat.le_of_eq (congrArg Kind.place ((hkind ha).trans (hkind hb).symm))
  · refine List.pairwise_map.2 (hplaces.imp ?_)
    intro k k' hlt a ha b hb
    rw [hkind ha, hkind hb]
    exact Nat.le_of_lt hlt

/-- What a sweep looks at is stored. -/
theorem get?_of_mem_stored {r : AnyRecord}
    (h : r ∈ (Kind.inDependencyOrder.map fun k => s.list k none).flatten) :
    ∃ key, s.get? key = some r := by
  obtain ⟨l, hl, hr⟩ := List.mem_flatten.1 h
  obtain ⟨k, -, rfl⟩ := List.mem_map.1 hl
  obtain ⟨key, hget, -, -⟩ := Store.mem_list.1 hr
  exact ⟨key, hget⟩

theorem keys_of_live (hl : ∀ {key r}, s.get? key = some r → r.metadata.beingDeleted = false) :
    keys s = listed s := by
  have hlive : ∀ r ∈ (Kind.inDependencyOrder.map fun k => s.list k none).flatten,
      r.metadata.beingDeleted = false := by
    intro r hr
    obtain ⟨key, hget⟩ := get?_of_mem_stored hr
    exact hl hget
  have hdeleted : ∀ r ∈ (Kind.inDependencyOrder.map fun k => s.list k none).flatten,
      ¬r.metadata.beingDeleted = true := fun r hr => by simp [hlive r hr]
  rw [keys, order, List.filter_eq_nil_iff.2 hdeleted, List.filter_eq_self.2 fun r hr => by
    simp [hlive r hr]]
  simp [listed, List.map_flatten, Function.comp_def]

/-- Where every record is to be deleted, the kinds come in the reverse order. -/
theorem keys_of_deleted (hd : ∀ {key r}, s.get? key = some r → r.metadata.beingDeleted = true) :
    keys s = (listed s).reverse := by
  have hdeleted : ∀ r ∈ (Kind.inDependencyOrder.map fun k => s.list k none).flatten,
      r.metadata.beingDeleted = true := by
    intro r hr
    obtain ⟨key, hget⟩ := get?_of_mem_stored hr
    exact hd hget
  have hlive : ∀ r ∈ (Kind.inDependencyOrder.map fun k => s.list k none).flatten,
      ¬(!r.metadata.beingDeleted) = true := fun r hr => by simp [hdeleted r hr]
  rw [keys, order, List.filter_eq_self.2 hdeleted, List.filter_eq_nil_iff.2 hlive]
  simp [listed, List.map_flatten, Function.comp_def]

end Sweep

/-- These keys were reconciled one after the other, each with success. -/
inductive Reconciles (sys : String) : List Key → World Store Secrets → World Store Secrets → Prop
  | nil (w : World Store Secrets) : Reconciles sys [] w w
  | cons {key : Key} {ks : List Key} {w v u : World Store Secrets}
      (hv : reconcile sys key w = (.ok (), v)) (h : Reconciles sys ks v u) :
      Reconciles sys (key :: ks) w u

namespace Reconciles

variable {w v : World Store Secrets} {sys : String} {ks : List Key}

theorem mapM (h : Reconciles sys ks w v) :
    (ks.mapM (Sweep.visit sys)) w = (.ok (ks.map fun key => (key, .ok ())), v) := by
  induction h with
  | nil => rfl
  | @cons key ks w v u hv h ih =>
    have hvisit := Sweep.visit_apply sys key w
    rw [hv] at hvisit
    rw [List.mapM_cons, Step.bind_ok hvisit, Step.bind_ok ih]
    rfl

theorem sweep_eq (h : Reconciles sys (Sweep.keys w.records) w v) :
    SweepSucceeds sys w ∧ (sweep sys w).2 = v := by
  have hsweep := (sweep_eq_visits sys w).trans h.mapM
  refine ⟨⟨_, _, hsweep, ?_⟩, by rw [hsweep]⟩
  simp [SweepReport.isClean, SweepReport.failed]

end Reconciles

variable {w v u : World Store Secrets} {sys : String}

theorem World.Provided.live_stored (hw : w.Provided sys) {key : Key} {r : AnyRecord}
    (h : w.records.get? key = some r) : r.metadata.beingDeleted = false :=
  hw.live (hw.wellFormed.holds h)

theorem World.Provided.mem_keys (hw : w.Provided sys) {key : Key} :
    key ∈ Sweep.keys w.records ↔ w.records.Stored key := by
  rw [Sweep.keys_of_live hw.live_stored, Sweep.mem_listed hw.wellFormed]

/-- A sweep visits the same keys where the same keys are stored. -/
theorem World.Provided.keys_eq (hw : w.Provided sys) (hv : v.Provided sys)
    (h : ∀ key, w.records.Stored key ↔ v.records.Stored key) :
    Sweep.keys v.records = Sweep.keys w.records := by
  let R : AnyRecord → AnyRecord → Prop := fun q q' =>
    q'.key = q.key ∧ q'.metadata.beingDeleted = q.metadata.beingDeleted
  refine Sweep.keys_related (R := R) (fun key => ?_) (fun _ _ hq => hq.1) fun _ _ hq => hq.2
  have hkey := h key
  unfold Store.Stored at hkey
  cases hq : w.records.get? key with
  | none =>
    cases hq' : v.records.get? key with
    | none => exact .none
    | some q' =>
      rw [hq, hq'] at hkey
      exact nomatch hkey.2 rfl
  | some q =>
    rw [hq] at hkey
    obtain ⟨q', hq'⟩ := Option.isSome_iff_exists.1 (hkey.1 rfl)
    rw [hq']
    exact .some ⟨(hv.wellFormed.key_eq hq').trans (hw.wellFormed.key_eq hq).symm,
      (hv.live_stored hq').trans (hw.live_stored hq).symm⟩

/-- These keys were visited one after the other, each with success. -/
inductive Visits (sys : String) : List Key → World Store Secrets → World Store Secrets → Prop
  | nil (w : World Store Secrets) : Visits sys [] w w
  | cons {k : Kind} {r : Record k} {ks : List Key} {w v u : World Store Secrets}
      (hr : w.records.Holds r) (hv : reconcile sys r.key w = (.ok (), v))
      (hp : Progress sys w r v) (h : Visits sys ks v u) : Visits sys (r.key :: ks) w u

namespace Visits

variable {ks : List Key}

theorem reconciles (h : Visits sys ks w v) : Reconciles sys ks w v := by
  induction h with
  | nil => exact .nil _
  | cons hr hv hp h ih => exact .cons hv ih

theorem sweep_eq (h : Visits sys (Sweep.keys w.records) w v) :
    SweepSucceeds sys w ∧ (sweep sys w).2 = v := h.reconciles.sweep_eq

theorem stays_done (h : Visits sys ks w v) {key : Key} (hk : w.Done sys key) : v.Done sys key := by
  induction h with
  | nil => exact hk
  | cons hr hv hp h ih => exact ih (hp.stays_done hr hk)

/-- What was visited is settled in the end. -/
theorem done (h : Visits sys ks w v) : ∀ key ∈ ks, v.Done sys key := by
  induction h with
  | nil => exact fun _ hk => nomatch hk
  | cons hr hv hp h ih =>
    intro key hk
    rcases List.mem_cons.1 hk with rfl | hk
    · exact h.stays_done hp.done
    · exact ih key hk

theorem onward (h : Visits sys ks w v) (hw : w.Provided sys) : w.Onward v := by
  induction h with
  | nil => exact .refl hw.wellFormed
  | cons hr hv hp h ih =>
    have hstep := hp.onward hw hr
    exact hstep.trans (ih (hw.onward hstep))

end Visits

/-- From here the keys can be visited one after the other: whatever they refer to was visited before
or comes earlier among them, and for each team without a secret there is one to be drawn. -/
structure Course (sys : String) (pending ks : List Key) (w : World Store Secrets) : Prop where
  provided : w.Provided sys
  supply : w.entropy.Supplies pending.length
  teams : ∀ {key : Key}, key.kind = .team → w.records.Stored key → w.Done sys key ∨ key ∈ pending
  founded : ∀ {d : Record .director}, w.records.Holds d →
    w.Done sys d.ownTeam.key ∨ d.ownTeam.key ∈ pending
  stored : ∀ key ∈ ks, w.records.Stored key
  sorted : ks.Pairwise fun a b => a.kind.place ≤ b.kind.place
  behind : ∀ {key : Key}, w.records.Stored key → key.ns ≠ sys → w.Done sys key ∨ key ∈ ks

namespace Course

variable {pending ks : List Key} {key : Key}

/-- Whatever comes next in the order is ready. -/
theorem ready (h : Course sys pending (key :: ks) w) : w.Ready sys key := by
  intro key' hstored _ hns hplace
  refine (h.behind hstored hns).resolve_right fun hmem => ?_
  rcases List.mem_cons.1 hmem with rfl | hmem
  · exact Nat.lt_irrefl _ hplace
  · exact Nat.not_le_of_lt hplace (List.rel_of_pairwise_cons h.sorted hmem)

/-- The next visit succeeds. -/
theorem visit (h : Course sys pending (key :: ks) w) : ∃ k, ∃ r : Record k, r.key = key ∧
    w.records.Holds r ∧ ∃ v, reconcile sys r.key w = (.ok (), v) ∧ Progress sys w r v := by
  obtain ⟨k, r, hr, rfl⟩ := h.provided.wellFormed.exists_holds (h.stored key List.mem_cons_self)
  refine ⟨k, r, rfl, hr, reconcile_progress h.provided hr h.ready fun hteam => ?_⟩
  rcases h.teams (hteam : r.key.kind = .team) hr.stored with hdone | hmem
  · exact .inl (hdone.settled hr)
  · have hsupply := h.supply
    rw [← Nat.succ_pred_eq_of_pos (List.length_pos_of_mem hmem)] at hsupply
    obtain ⟨secret, rest, hgenerate, -⟩ := hsupply
    exact .inr ⟨secret, rest, hgenerate⟩

/-- A visit draws at most one secret, and only for a team for which one is pending. -/
theorem spend {k : Kind} {r : Record k} (h : Course sys pending (r.key :: ks) w)
    (hr : w.records.Holds r) (hp : Progress sys w r v) : ∃ pending' : List Key,
      v.entropy.Supplies pending'.length ∧
        ∀ key, w.Done sys key ∨ key ∈ pending → v.Done sys key ∨ key ∈ pending' := by
  have hstays : ∀ key, w.Done sys key ∨ key ∈ pending → v.Done sys key ∨ key ∈ pending :=
    fun key hk => hk.imp_left (hp.stays_done hr)
  by_cases he : v.entropy = w.entropy
  · exact ⟨pending, he ▸ h.supply, hstays⟩
  · obtain ⟨rfl, secret, hgenerate⟩ := hp.entropy.resolve_left he
    have hmem : r.key ∈ pending := by
      refine (h.teams (rfl : r.key.kind = .team) hr.stored).resolve_left fun hdone => ?_
      exact he (hp.idle (hdone.settled hr)).2.1
    refine ⟨pending.erase r.key, ?_, fun key hk => ?_⟩
    · have hsupply := h.supply
      rw [← Nat.succ_pred_eq_of_pos (List.length_pos_of_mem hmem)] at hsupply
      obtain ⟨secret', rest, hgenerate', hrest⟩ := hsupply
      cases hgenerate.symm.trans hgenerate'
      rwa [List.length_erase_of_mem hmem]
    · by_cases hkey : key = r.key
      · exact .inl (hkey ▸ hp.done)
      · exact (hstays key hk).imp_right fun hk => (List.mem_erase_of_ne hkey).2 hk

theorem next {k : Kind} {r : Record k} (h : Course sys pending (r.key :: ks) w)
    (hr : w.records.Holds r) (hp : Progress sys w r v) : ∃ pending', Course sys pending' ks v := by
  have honward := hp.onward h.provided hr
  obtain ⟨pending', hsupply, hpending⟩ := h.spend hr hp
  have hprovided := h.provided.onward honward
  have hfounded : ∀ {d : Record .director}, v.records.Holds d →
      v.Done sys d.ownTeam.key ∨ d.ownTeam.key ∈ pending' := by
    intro d hd
    obtain ⟨d₀, hd₀, hdd⟩ := honward.records.origin_of_ne Kind.noConfusion hd
    rw [hdd.ownTeam_eq]
    exact hpending _ (h.founded hd₀)
  refine ⟨pending', hprovided, hsupply, ?_, hfounded, ?_, h.sorted.of_cons, ?_⟩
  · intro key hk hstored
    obtain ⟨k', t, ht, rfl⟩ := hprovided.wellFormed.exists_holds hstored
    rcases honward.records.origin ht with ⟨t₀, ht₀, htt⟩ | ⟨d, p, hd, heq, hp⟩
    · rw [htt.key]
      exact hpending _ (h.teams (htt.key ▸ hk) ht₀.stored)
    · have hkey : t.key = p.key := congrArg AnyRecord.key heq
      rw [hkey, hp.key]
      exact hfounded hd
  · exact fun key hk =>
      honward.records.stored h.provided.wellFormed (h.stored key (List.mem_cons_of_mem _ hk))
  · intro key hstored hns
    obtain ⟨k', q, hq, rfl⟩ := hprovided.wellFormed.exists_holds hstored
    rcases honward.records.origin hq with ⟨q₀, hq₀, hqq⟩ | ⟨d, p, hd, heq, hp'⟩
    · rw [hqq.key] at hns ⊢
      rcases h.behind hq₀.stored hns with hdone | hmem
      · exact .inl (hp.stays_done hr hdone)
      · rcases List.mem_cons.1 hmem with hkey | hmem
        · exact .inl (hkey ▸ hp.done)
        · exact .inr hmem
    · -- own teams are in the system namespace
      have hkey : q.key = p.key := congrArg AnyRecord.key heq
      rw [hkey, hp'.key] at hns
      exact absurd (hprovided.directors hd).1 hns

/-- All the visits succeed. -/
theorem visits (h : Course sys pending ks w) :
    ∃ v pending', Visits sys ks w v ∧ Course sys pending' [] v := by
  induction ks generalizing w pending with
  | nil => exact ⟨w, pending, .nil w, h⟩
  | cons key ks ih =>
    obtain ⟨k, r, rfl, hr, v, hv, hp⟩ := h.visit
    obtain ⟨pending', hnext⟩ := h.next hr hp
    obtain ⟨u, pending'', hvisits, hend⟩ := ih hnext
    exact ⟨u, pending'', .cons hr hv hp hvisits, hend⟩

/-- The keys of a sweep are such a course, since a sweep visits all that is stored, and in order. -/
theorem start (hw : w.Provided sys) (hsupply : w.entropy.Supplies pending.length)
    (hteams : ∀ {key : Key}, key.kind = .team → w.records.Stored key →
      w.Done sys key ∨ key ∈ pending)
    (hfounded : ∀ {d : Record .director}, w.records.Holds d →
      w.Done sys d.ownTeam.key ∨ d.ownTeam.key ∈ pending) :
    Course sys pending (Sweep.keys w.records) w where
  provided := hw
  supply := hsupply
  teams := hteams
  founded := hfounded
  stored _ hk := hw.mem_keys.1 hk
  sorted := Sweep.keys_of_live hw.live_stored ▸ Sweep.sorted_listed hw.wellFormed
  behind hstored _ := .inr (hw.mem_keys.2 hstored)

end Course

namespace Store

variable {s t : Store}

/-- The same records under the same keys, except that teams may differ. -/
structure SameButTeams (s t : Store) : Prop where
  stored : ∀ {key : Key}, t.Stored key → s.Stored key
  others : ∀ {key : Key}, key.kind ≠ .team → t.get? key = s.get? key

namespace SameButTeams

theorem refl (s : Store) : s.SameButTeams s := ⟨fun h => h, fun _ => rfl⟩

theorem trans {u : Store} (h : s.SameButTeams t) (h' : t.SameButTeams u) : s.SameButTeams u :=
  ⟨fun hk => h.stored (h'.stored hk), fun hk => (h'.others hk).trans (h.others hk)⟩

theorem exchanges : Exchanges SameButTeams :=
  fun _ hk _ _ _ _ h => fetch_agree h (h.others hk)

/-- No object is composed of teams. -/
theorem objectAt_eq (h : s.SameButTeams t) (hs : s.WellFormed) (ht : t.WellFormed) (key : Key) :
    t.objectAt key = s.objectAt key := by
  have hteam : ∀ {u : Store}, u.WellFormed → key.kind = .team → u.objectAt key = none := by
    intro u hu hk
    rw [objectAt]
    cases hr : u.get? key with
    | none => rfl
    | some r =>
      obtain ⟨k, r⟩ := r
      obtain rfl : k = .team := (congrArg Key.kind (hu.key_eq hr)).trans hk
      rfl
  by_cases hk : key.kind = .team
  · rw [hteam hs hk, hteam ht hk]
  · rw [objectAt, objectAt, h.others hk]
    cases s.get? key with
    | none => rfl
    | some r =>
      obtain ⟨k, r⟩ := r
      induction k, r using Reconcile.kindCases with
      | director | team | role => rfl
      | artifact a r =>
        simp only [Option.bind_some, AnyRecord.object?_artifact]
        rw [(Artifact.object_related exchanges a (.refl r)).fst h]

end SameButTeams

end Store

theorem Progress.sameButTeams {k : Kind} {r : Record k} (hr : w.records.Holds r)
    (hp : Progress sys w r v) (h : k ≠ .team → w.Settled sys r) :
    w.records.SameButTeams v.records := by
  by_cases hk : k = .team
  · subst hk
    rw [hp.records, Store.bring_of_ne Kind.noConfusion]
    refine ⟨fun {key} hkey => ?_, fun {key} hkey => ?_⟩
    · by_cases he : key = r.key
      · exact he ▸ hr.stored
      · rwa [Store.Stored, Store.get?_keep, if_neg (by rwa [Record.key_brought])] at hkey
    · rw [Store.get?_keep, if_neg]
      rintro rfl
      exact hkey rfl
  · rw [hp.records_of_settled (h hk)]
    exact .refl _

theorem Director.receiveAll_filterMap_cons {α : Type} (d : Director) (f : α → Option RemoteObject)
    (a : α) (l : List α) :
    d.receiveAll ((a :: l).filterMap f) = (d.receive (f a)).receiveAll (l.filterMap f) := by
  rw [List.filterMap_cons]
  cases f a with
  | none => rfl
  | some o => rfl

namespace Visits

variable {ks : List Key}

/-- Where all but teams are settled, only teams are written, and the objects that arrive are those
of the records in the end. -/
theorem steady (h : Visits sys ks w v) (hw : w.Provided sys)
    (hdone : ∀ key ∈ ks, key.kind ≠ .team → w.Done sys key) : w.records.SameButTeams v.records ∧
      v.director.Same (w.director.receiveAll (ks.filterMap v.records.objectAt)) := by
  induction h with
  | nil w => exact ⟨.refl _, rfl⟩
  | @cons k r ks w v u hr hv hp h ih =>
    have hv := hp.onward hw hr
    have hpv := hw.onward hv
    have hstep := hp.sameButTeams hr fun hk => (hdone r.key List.mem_cons_self hk).settled hr
    obtain ⟨hrest, hdirector⟩ := ih hpv fun key hk hne =>
      hp.stays_done hr (hdone key (List.mem_cons_of_mem _ hk) hne)
    refine ⟨hstep.trans hrest, ?_⟩
    have hobject := hrest.objectAt_eq hv.wellFormed (h.onward hpv).wellFormed r.key
    rw [Director.receiveAll_filterMap_cons, hobject]
    exact Eq.trans hdirector (hp.director.receiveAll _)

/-- Where everything is settled, at most objects arrive at the Director. -/
theorem idle (h : Visits sys ks w v) (hdone : ∀ key ∈ ks, w.Done sys key) :
    v.Same (w.withDirector v.director) := by
  induction h with
  | nil w => rfl
  | @cons k r ks w v u hr hv hp h ih =>
    have hsettled := (hdone r.key List.mem_cons_self).settled hr
    obtain ⟨hsecrets, hentropy, hidentity⟩ := hp.idle hsettled
    obtain ⟨hrecords', hsecrets', hentropy', -, hidentity', hclients', hnow'⟩ :=
      World.same_iff.1 (ih fun key hk => hp.stays_done hr (hdone key (List.mem_cons_of_mem _ hk)))
    exact World.same_iff.2 ⟨hrecords'.trans (hp.records_of_settled hsettled),
      hsecrets'.trans hsecrets, hentropy'.trans hentropy, rfl, Eq.trans hidentity' hidentity,
      hclients'.trans hp.clients, hnow'.trans hp.now⟩

end Visits

theorem sweeps_succ (sys : String) (n : Nat) (w : World Store Secrets) :
    sweeps sys (n + 1) w = (sweep sys (sweeps sys n w)).2 := by
  induction n generalizing w with
  | zero => rfl
  | succ n ih => exact ih (sweep sys w).2

/-- A sweep succeeds and leaves all as it is. -/
structure World.Converged (sys : String) (w : World Store Secrets) : Prop where
  succeeds : SweepSucceeds sys w
  same : (sweep sys w).2.Same w

/-- Where the logs alone differ, a sweep does the same. -/
theorem World.Converged.of_same (h : w.Converged sys) (hv : v.Same w) : v.Converged sys := by
  obtain ⟨report, u, hsweep, hclean⟩ := h.succeeds
  have hu := h.same
  rw [hsweep] at hu
  obtain ⟨_, u', hsweep', rfl, hsame⟩ := (sweep_ignoresLogs sys).ok (Eq.symm hv) hsweep
  refine ⟨⟨_, u', hsweep', hclean⟩, ?_⟩
  rw [hsweep']
  exact Eq.trans (Eq.symm hsame) (Eq.trans hu (Eq.symm hv))

theorem World.Converged.after_sweeps (h : w.Converged sys) (n : Nat) :
    (sweeps sys n w).Converged sys := by
  induction n generalizing w with
  | zero => exact h
  | succ n ih => exact ih (h.of_same h.same)

/-- The name of the team through which a Director's own namespace gets its credentials. -/
def Key.ownTeam (director : Key) : Key :=
  ⟨.team, director.ns, "director-" ++ director.name ++ "-team"⟩

/-- The first sweep settles what was stored before it and founds the own teams. -/
theorem World.Provided.first_sweep (hw : w.Provided sys) (hsupply : w.entropy.Supplies
      ((w.records.list .team none).length + (w.records.list .director none).length)) :
    ∃ v pending, Visits sys (Sweep.keys w.records) w v ∧ Course sys pending [] v := by
  let teams := (w.records.list .team none).map (·.key)
  let own := (w.records.list .director none).map (·.key.ownTeam)
  have hlisted : ∀ {k : Kind} {r : Record k}, w.records.Holds r →
      ⟨k, r⟩ ∈ w.records.list k none := fun hr => Store.mem_list.2 ⟨_, hr, rfl, rfl⟩
  have hsupply : w.entropy.Supplies (teams ++ own).length := by simpa [teams, own] using hsupply
  refine (Course.start hw hsupply ?_ ?_).visits
  · intro key hk hstored
    obtain ⟨k, r, hr, rfl⟩ := hw.wellFormed.exists_holds hstored
    obtain rfl : k = .team := hk
    exact .inr (List.mem_append_left _ (List.mem_map.2 ⟨_, hlisted hr, rfl⟩))
  · intro d hd
    exact .inr (List.mem_append_right _ (List.mem_map.2 ⟨_, hlisted hd, rfl⟩))

/-- Once the sweeps have succeeded twice, a third one changes nothing. -/
theorem Visits.third {w₁ w₂ w₃ : World Store Secrets} (hw : w.Provided sys)
    (h₁ : Visits sys (Sweep.keys w.records) w w₁) (h₂ : Visits sys (Sweep.keys w₁.records) w₁ w₂)
    (h₃ : Visits sys (Sweep.keys w₂.records) w₂ w₃) : w₃.Same w₂ := by
  have hw₁ := hw.onward (h₁.onward hw)
  have hw₂ := hw₁.onward (h₂.onward hw₁)
  have hdone₁ : ∀ key ∈ Sweep.keys w₁.records, key.kind ≠ .team → w₁.Done sys key := by
    intro key hmem hne
    have hstored := hw₁.mem_keys.1 hmem
    obtain ⟨k, q, hq, rfl⟩ := hw₁.wellFormed.exists_holds hstored
    obtain ⟨r, hr, hrq⟩ := (h₁.onward hw).records.origin_of_ne hne hq
    exact hrq.key ▸ h₁.done _ (hw.mem_keys.2 hr.stored)
  obtain ⟨hteams, hdirector₂⟩ := h₂.steady hw₁ hdone₁
  have hkeys : Sweep.keys w₂.records = Sweep.keys w₁.records :=
    hw₁.keys_eq hw₂ fun key =>
      ⟨(h₂.onward hw₁).records.stored hw₁.wellFormed, hteams.stored⟩
  rw [hkeys] at h₃
  have hsame := h₃.idle h₂.done
  obtain ⟨hrecords, -⟩ := World.same_iff.1 hsame
  have hrecords : w₃.records = w₂.records := hrecords
  obtain ⟨-, hdirector₃⟩ := h₃.steady hw₂ fun key hk _ => h₂.done key hk
  -- what the third sweep brings is what the second has brought
  have hdirector : w₃.director.Same w₂.director := by
    rw [hrecords] at hdirector₃
    have hagain := hdirector₂.receiveAll
      ((Sweep.keys w₁.records).filterMap w₂.records.objectAt)
    rw [Director.receiveAll_receiveAll] at hagain
    exact Eq.trans hdirector₃ (Eq.trans hagain (Eq.symm hdirector₂))
  exact Eq.trans hsame (World.same_iff.2 ⟨rfl, rfl, rfl, hdirector, rfl, rfl, rfl⟩)

/-- Where everything that the records refer to is there, the remote services answer, and there is
a secret to be drawn for every team and for the own team of every Director, no sweep ever fails; the
first settles all records that it finds, and from the third on a sweep changes nothing. -/
theorem sweeps_converge (hw : w.Provided sys) (hsupply : w.entropy.Supplies
      ((w.records.list .team none).length + (w.records.list .director none).length)) :
    (∀ n, SweepSucceeds sys (sweeps sys n w)) ∧
      (∀ {k : Kind} {r : Record k}, w.records.Holds r → ∃ q : Record k,
        (sweeps sys 1 w).records.Holds q ∧ q.key = r.key ∧ q.available = true) ∧
      ∀ n, 2 ≤ n → (sweeps sys (n + 1) w).unlogged = (sweeps sys n w).unlogged := by
  obtain ⟨w₁, pending₁, h₁, c₁⟩ := hw.first_sweep hsupply
  obtain ⟨w₂, pending₂, h₂, c₂⟩ :=
    (Course.start c₁.provided c₁.supply c₁.teams c₁.founded).visits
  obtain ⟨w₃, -, h₃, -⟩ := (Course.start c₂.provided c₂.supply c₂.teams c₂.founded).visits
  obtain ⟨hs₁, rfl⟩ := h₁.sweep_eq
  obtain ⟨hs₂, rfl⟩ := h₂.sweep_eq
  obtain ⟨hs₃, rfl⟩ := h₃.sweep_eq
  have hconverged : ∀ n, (sweeps sys (n + 2) w).Converged sys := fun n =>
    World.Converged.after_sweeps ⟨hs₃, h₁.third hw h₂ h₃⟩ n
  refine ⟨fun n => ?_, fun {k r} hr => ?_, fun n hn => ?_⟩
  · match n with
    | 0 => exact hs₁
    | 1 => exact hs₂
    | n + 2 => exact (hconverged n).succeeds
  · have hmem := hw.mem_keys.2 hr.stored
    obtain ⟨q, hq, hrq⟩ := (h₁.onward hw).records.kept hr
    have hsettled := (hrq.key ▸ h₁.done _ hmem :).settled hq
    refine ⟨q, hq, hrq.key, ?_⟩
    rw [← hsettled.brought]
    exact Record.available_brought sys q
  · obtain ⟨m, rfl⟩ := Nat.exists_eq_add_of_le' hn
    rw [sweeps_succ]
    exact (hconverged m).same

theorem sweeps_converge_small : Small.created.Provided "sys" ∧
    SweepSucceeds "sys" Small.created ∧
      (∃ p : Record .deployment, (sweeps "sys" 1 Small.created).records.Holds p ∧
        p.key = ⟨.deployment, "team-a", "p"⟩ ∧ p.available = true) ∧
      SweepSucceeds "sys" (sweeps "sys" 1 Small.created) ∧
      (sweeps "sys" 3 Small.created).unlogged = (sweeps "sys" 2 Small.created).unlogged := by
  have hw := Small.provided_created
  have hteams : (Small.created.records.list .team none).length = 1 := by decide +kernel
  have hdirectors : (Small.created.records.list .director none).length = 1 := by decide +kernel
  have hsupply : Small.created.entropy.Supplies
      ((Small.created.records.list .team none).length +
        (Small.created.records.list .director none).length) := by
    rw [hteams, hdirectors]
    exact ⟨_, _, rfl, _, _, rfl, trivial⟩
  obtain ⟨p, hp, hkey⟩ := hw.wellFormed.holds_of_stored (Small.stored_created .deployment)
  obtain ⟨hsucceeds, havailable, hsteady⟩ := sweeps_converge hw hsupply
  obtain ⟨q, hq, hqp, hav⟩ := havailable hp
  exact ⟨hw, hsucceeds 0, ⟨q, hq, hqp.trans hkey, hav⟩, hsucceeds 1, hsteady 2 (by decide)⟩

end Reconciliation
