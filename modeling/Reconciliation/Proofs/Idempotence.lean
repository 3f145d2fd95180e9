import Reconciliation.Proofs.Resumption

namespace Reconciliation

open World (outcome)

variable {w u : World Store Secrets} {sys : String} {key : Key} {x : Except ReconcileError Unit}

/-- Where nothing was changed, nothing is changed the next time. -/
theorem repeats_of_unchanged (h : outcome (reconcile sys key) w = (x, w.unlogged)) :
    outcome (reconcile sys key) w.unlogged = (x, w.unlogged) := by
  rw [(reconcile_ignoresLogs sys key).outcome_unlogged, h]

namespace Reconcile

section

variable {a : ArtifactKind} {r : Record a.kind}

/-- A published artifact is established again without a change. -/
theorem establishArtifact_settled {o : RemoteObject} {d : Director}
    (hask : (askDirectorOf sys a r w).1 = .ok ())
    (ho : (Artifact.object a (r.readied sys) (w.records.keep (r.readied sys))).1 = .ok o)
    (hd : w.director.established o = .ok d) :
    outcome (establishArtifact sys a (r.readied sys).settled)
        ((w.withDirector d).keep (r.readied sys).settled) =
      (.ok (), ((w.withDirector d).keep (r.readied sys).settled).unlogged) := by
  have hstore : (w.records.keep (r.readied sys)).keep (r.readied sys).settled =
      w.records.keep (r.readied sys).settled :=
    Store.keep_keep _ (r.readied sys).key_settled
  generalize hq : (r.readied sys).settled = q at hstore ⊢
  have hscope : Artifact.scope a q = Artifact.scope a r := by
    rw [← hq, Artifact.scope_settled, Artifact.scope_readied]
  have hready : q.readied sys = q := by rw [← hq, Record.readied_settled]
  have hsettled : q.settled = q := by rw [← hq, Record.settled_settled]
  have hask' : (askDirectorOf sys a q ((w.withDirector d).keep q)).1 = .ok () := by
    have haccess : w.SameAccess ((w.withDirector d).keep q) :=
      ⟨(Artifact.sameAccess_keep w q).records, rfl, rfl⟩
    rw [askDirectorOf_fst sys haccess hscope, hask]
  have ho' : (Artifact.object a q (w.records.keep q)).1 = .ok o := by
    have halike : (r.readied sys).Alike q := hq ▸ (r.readied sys).alike_settled
    have hreplaced : Store.Replaced (r.readied sys) q (w.records.keep (r.readied sys))
        (w.records.keep q) := ⟨Store.holds_keep _ _, hstore.symm⟩
    rw [Artifact.object_of_replaced a halike hreplaced, ho]
  have hkeep : ((w.withDirector d).keep q).records.keep q = w.records.keep q :=
    Store.keep_of_holds (Store.holds_keep w.records q)
  have hdirector : ((w.withDirector d).keep q).director = d := rfl
  have hagain : (((w.withDirector d).keep q).withDirector d).keep q = (w.withDirector d).keep q :=
    World.keep_of_holds (World.holds_keep (w.withDirector d) q)
  rw [establishArtifact_outcome sys (World.holds_keep (w.withDirector d) q)]
  simp only [hready, hsettled, hask', hkeep, ho', hdirector, Director.established_again hd,
    hagain]

theorem establishArtifact_repeats (hw : w.records.WellFormed) (hr : w.records.Holds r)
    (hm : ¬Misplaced sys r) (hc : r.consumed = r) (hl : r.beingDeleted = false)
    (h : outcome (establishArtifact sys a r) w = (x, u)) :
    outcome (reconcile sys r.key) u = (x, u) := by
  cases artifactEstablished hr h with
  | refused =>
    refine repeats_of_unchanged ?_
    rw [outcome, reconcile_of_live hw hr hm hc hl]
    exact h
  | stopped hask =>
    rw [(reconcile_ignoresLogs sys r.key).outcome_unlogged, reconcile_readied hw hr hm hc hl hask]
    exact h
  | @done o d hask ho hd =>
    let q := (r.readied sys).settled
    have hkey : q.key = r.key := by rw [Record.key_settled, Record.key_readied]
    have hl' : q.beingDeleted = false := by
      rw [Record.beingDeleted_settled, Record.beingDeleted_readied, hl]
    have hc' : q.consumed = q := by
      refine Record.consumed_eq_self (r := r) ?_
      rw [Record.spec_settled, Record.spec_readied, hc]
    have hx := establishArtifact_settled hask ho hd
    rw [(reconcile_ignoresLogs sys r.key).outcome_unlogged, outcome, ← hkey,
      reconcile_of_live (w := (w.withDirector d).keep q) (wellFormed_keep_live hw hl')
        (World.holds_keep _ _) (mt (misplaced_iff hkey).1 hm) hc' hl']
    exact hx

/-- A record that was released is gone, or other finalizers keep it; there is nothing to do for it
in either case. -/
theorem repeats_of_released {k : Kind} {r : Record k} (hw : w.records.WellFormed)
    (hrec : ∀ v : World Store Secrets, v.records.WellFormed → v.records.Holds r.released →
      reconcile sys r.key v = (.ok (), v)) :
    outcome (reconcile sys r.key) (w.accept r.released).unlogged =
      (.ok (), (w.accept r.released).unlogged) := by
  rw [(reconcile_ignoresLogs sys r.key).outcome_unlogged]
  refine World.outcome_of_eq ?_
  rcases w.records.get?_accept_self r.released with h | h
  · exact reconcile_of_none h
  · exact hrec _ (hw.accept r.released) h

theorem removeArtifact_repeats (hw : w.records.WellFormed) (hr : w.records.Holds r)
    (hm : ¬Misplaced sys r) (hc : r.consumed = r) (hd : r.beingDeleted = true)
    (h : outcome (removeArtifact sys a r) w = (x, u)) :
    outcome (reconcile sys r.key) u = (x, u) := by
  cases artifactRemoved hr h with
  | unchanged =>
    refine repeats_of_unchanged ?_
    rw [outcome, reconcile_of_deleted hw hr hm hc hd]
    exact h
  | @done d hf hx =>
    refine repeats_of_released (w := w.withDirector d) hw fun v hv hr' => ?_
    have hc' : r.released.consumed = r.released :=
      Record.consumed_eq_self (r := r) (by rw [hc]; rfl)
    have hf' := Record.hasFinalizer_released r
    rw [← r.key_released, reconcile_of_deleted hv hr' hm hc' hd, removeArtifact, hf']
    rfl

/-- The first write, which consumes the force flag, is not repeated. -/
theorem artifact_repeats (hw : w.records.WellFormed) (hr : w.records.Holds r)
    (hm : ¬Misplaced sys r) (h : outcome (reconcile sys r.key) w = (x, u)) :
    outcome (reconcile sys r.key) u = (x, u) := by
  have hkey : r.consumed.key = r.key := r.key_consumed
  have hw' : (w.keep r.consumed).records.WellFormed := wellFormed_consumed hw hr
  have hr' := World.holds_keep w r.consumed
  have hm' : ¬Misplaced sys r.consumed := mt (misplaced_iff hkey).1 hm
  have hc' := r.consumed_consumed
  rw [outcome, reconcile_consumed hw hr hm, ← hkey] at h
  rw [← hkey]
  cases hd : r.consumed.beingDeleted with
  | true =>
    rw [reconcile_of_deleted hw' hr' hm' hc' hd] at h
    exact removeArtifact_repeats hw' hr' hm' hc' hd h
  | false =>
    rw [reconcile_of_live hw' hr' hm' hc' hd] at h
    exact establishArtifact_repeats hw' hr' hm' hc' hd h

end

section

variable {r : Record .team}

/-- A published team is established again without a change. -/
theorem establishTeam_settled {secret : String} {s : Secrets × Entropy} {i : Identity}
    (hask : (askIdentityOf sys (r.frozenBy sys) (w.keep (r.frozenBy sys))).1 = .ok ())
    (hs : SecretStore.getOrGenerate ⟨(r.readied sys).secretNamespace, (r.readied sys).internalName⟩
      (w.secrets, w.entropy) = (.ok secret, s))
    (hi : w.identity.registered (r.readied sys).internalName secret = .ok i) :
    outcome (establishTeam sys (r.readied sys).settled)
        (((w.supplied s).withIdentity i).keep (r.readied sys).settled) =
      (.ok (), (((w.supplied s).withIdentity i).keep (r.readied sys).settled).unlogged) := by
  have hname : (r.readied sys).settled.internalName = (r.readied sys).internalName :=
    Record.internalName_eq (r.readied sys).key_settled
  have hns := Record.secretNamespace_settled (r.readied sys)
  have hfrozen : (r.readied sys).settled.frozen? = (r.frozenBy sys).frozen? := by
    rw [(r.readied sys).alike_settled.frozen?, Record.frozen?_readied]
  have hkey : (r.readied sys).settled.key = (r.frozenBy sys).key := by simp
  have hready : (r.readied sys).settled.readied sys = (r.readied sys).settled :=
    Record.readied_settled sys r
  have hprep : (r.readied sys).settled.frozenBy sys = (r.readied sys).settled :=
    Record.frozenBy_eq_self (by rw [Record.needsPreparing_settled, Record.needsPreparing_readied])
  have hsettled := Record.settled_settled (r.readied sys)
  generalize (r.readied sys).settled = q at hname hns hfrozen hkey hready hprep hsettled ⊢
  obtain ⟨v, hv⟩ : ∃ v, ((w.supplied s).withIdentity i).keep q = v := ⟨_, rfl⟩
  have hholds : v.records.Holds q := hv ▸ World.holds_keep _ q
  have hask' : (askIdentityOf sys q v).1 = .ok () := by
    subst hv
    exact askIdentityOf_stage hask hkey hfrozen rfl
      (fun n value h => SecretStore.get?_of_getOrGenerate hs h) rfl
  have hkeep : v.keep q = v := World.keep_of_holds hholds
  have hsecrets : (v.secrets, v.entropy) = s := by rw [← hv]; rfl
  have hidentity : v.identity = i := by rw [← hv]; rfl
  have hagain : ((v.supplied s).withIdentity i).keep q = v := by
    subst hv
    exact World.keep_of_holds (World.holds_keep _ q)
  rw [hv, establishTeam_outcome sys hholds]
  simp only [hprep, hready, hkeep, hask', hname, hns, hsecrets, hidentity, hsettled, hagain,
    SecretStore.getOrGenerate_again hs, Identity.registered_again hi]

theorem establishTeam_repeats (hr : w.records.Holds r) (hl : r.beingDeleted = false)
    (h : outcome (establishTeam sys r) w = (x, u)) :
    outcome (reconcile sys r.key) u = (x, u) := by
  cases teamEstablished hr h with
  | refused =>
    rw [(reconcile_ignoresLogs sys r.key).outcome_unlogged, reconcile_frozen_team hr hl]
    exact h
  | stopped hask hs =>
    rw [(reconcile_ignoresLogs sys r.key).outcome_unlogged, reconcile_readied_team hr hl hask hs]
    exact h
  | done hask hs hi =>
    have hl' : (r.readied sys).settled.beingDeleted = false := by
      rw [Record.beingDeleted_settled, Record.beingDeleted_readied, hl]
    have hkey : (r.readied sys).settled.key = r.key := by simp
    rw [(reconcile_ignoresLogs sys r.key).outcome_unlogged, outcome, ← hkey,
      reconcile_of_live_team (World.holds_keep _ _) hl']
    exact establishTeam_settled hask hs hi

theorem removeTeam_repeats (hw : w.records.WellFormed) (hr : w.records.Holds r)
    (hd : r.beingDeleted = true) (h : outcome (removeTeam sys r) w = (x, u)) :
    outcome (reconcile sys r.key) u = (x, u) := by
  cases teamRemoved hr h with
  | unchanged =>
    refine repeats_of_unchanged ?_
    rw [outcome, reconcile_of_deleted_team hr hd]
    exact h
  | @done i hf hi =>
    refine repeats_of_released (w := { w.withIdentity i with
      secrets := w.secrets.erase ⟨r.secretNamespace, r.internalName⟩ }) hw fun v hv hr' => ?_
    have hf' := Record.hasFinalizer_released r
    rw [← r.key_released, reconcile_of_deleted_team hr' hd, removeTeam, hf']
    rfl

theorem team_repeats (hw : w.records.WellFormed) (hr : w.records.Holds r)
    (h : outcome (reconcile sys r.key) w = (x, u)) : outcome (reconcile sys r.key) u = (x, u) := by
  cases hd : r.beingDeleted with
  | true =>
    rw [outcome, reconcile_of_deleted_team hr hd] at h
    exact removeTeam_repeats hw hr hd h
  | false =>
    rw [outcome, reconcile_of_live_team hr hd] at h
    exact establishTeam_repeats hr hd h

end

section

variable {r : Record .director}

theorem establishDirector_repeats (hr : w.records.Holds r) (hm : ¬Misplaced sys r)
    (hl : r.beingDeleted = false) (h : outcome (establishDirector r) w = (x, u)) :
    outcome (reconcile sys r.key) u = (x, u) := by
  rw [World.outcome_of_eq (establishDirector_eq hr)] at h
  cases h
  obtain ⟨s, hs⟩ : ∃ s, (Store.create r.ownTeam (w.records.keep r.guarded)).2 = s := ⟨_, rfl⟩
  have hg : ({ w with records := s } : World Store Secrets).records.Holds r.guarded := by
    have hne : r.guarded.key ≠ AnyRecord.key r.ownTeam := by
      rw [Record.key_guarded]
      exact (ownTeam_key_ne r).symm
    rw [Store.Holds, ← hs, Store.get?_create_of_ne hne]
    exact Store.holds_keep w.records r.guarded
  have hl' : r.guarded.beingDeleted = false := by rw [Record.beingDeleted_guarded, hl]
  have hm' : ¬Misplaced sys r.guarded := mt (misplaced_iff r.key_guarded).1 hm
  have hguarded : r.guarded.guarded = r.guarded :=
    Record.guarded_eq_self (Record.hasFinalizer_guarded r)
  -- the finalizer is there and so is the team
  have hsame : (Store.create r.guarded.ownTeam (s.keep r.guarded.guarded)).2 = s := by
    rw [hguarded, key_ownTeam_guarded, Store.keep_of_holds hg, ← hs, Store.create_create]
  rw [hs, (reconcile_ignoresLogs sys r.key).outcome_unlogged, ← r.key_guarded, outcome,
    reconcile_of_live_director hg hm' hl', establishDirector_eq hg, hsame]

theorem removeDirector_repeats (hw : w.records.WellFormed) (hr : w.records.Holds r)
    (hm : ¬Misplaced sys r) (hd : r.beingDeleted = true)
    (h : outcome (removeDirector r) w = (x, u)) : outcome (reconcile sys r.key) u = (x, u) := by
  have hw' : (withoutTeam r w).records.WellFormed := hw.delete _ _
  have hr' := holds_withoutTeam hr
  have hagain : withoutTeam r (withoutTeam r w) = withoutTeam r w := by
    simp only [withoutTeam, Store.delete_delete]
  have hrec : outcome (reconcile sys r.key) w = (x, u) := by
    rw [outcome, reconcile_of_deleted_director hr hm hd]
    exact h
  rw [outcome, removeDirector_eq hr] at h
  by_cases hf : r.hasFinalizer = true
  · rw [if_pos hf] at h
    by_cases ht : ((withoutTeam r w).records.get? r.ownTeam.key).isSome = true
    · rw [if_pos ht] at h
      cases h
      rw [(reconcile_ignoresLogs sys r.key).outcome_unlogged, outcome,
        reconcile_of_deleted_director hr' hm hd, removeDirector_eq hr', hagain, if_pos hf,
        if_pos ht]
    · rw [if_neg ht] at h
      cases h
      refine repeats_of_released hw' fun v hv hv' => ?_
      have hf' := Record.hasFinalizer_released r
      have hx : reconcile sys r.released.key v = removeDirector r.released v :=
        reconcile_of_deleted_director hv' hm hd
      rw [← r.key_released, hx, removeDirector_eq hv', hf']
      rfl
  · rw [if_neg hf] at h
    cases h
    exact repeats_of_unchanged hrec

theorem director_repeats (hw : w.records.WellFormed) (hr : w.records.Holds r)
    (hm : ¬Misplaced sys r) (h : outcome (reconcile sys r.key) w = (x, u)) :
    outcome (reconcile sys r.key) u = (x, u) := by
  cases hd : r.beingDeleted with
  | true =>
    rw [outcome, reconcile_of_deleted_director hr hm hd] at h
    exact removeDirector_repeats hw hr hm hd h
  | false =>
    rw [outcome, reconcile_of_live_director hr hm hd] at h
    exact establishDirector_repeats hr hm hd h

end

end Reconcile

open Reconcile (Misplaced)

/-- A reconcile repeats itself: from where it ended it has the same outcome and ends there again. -/
theorem reconcile_repeats (hw : w.records.WellFormed)
    (h : outcome (reconcile sys key) w = (x, u)) : outcome (reconcile sys key) u = (x, u) := by
  cases hg : w.records.get? key with
  | none =>
    have hnone : reconcile sys key w = (.ok (), w) := reconcile_of_none hg
    have hx := World.outcome_of_eq hnone
    rw [h] at hx
    cases hx
    exact repeats_of_unchanged h
  | some q =>
    obtain ⟨k, r⟩ := q
    obtain rfl : r.key = key := hw.key_eq hg
    by_cases hm : Misplaced sys r
    · have hx := World.outcome_of_eq (reconcile_of_misplaced hg hm)
      rw [h] at hx
      cases hx
      exact repeats_of_unchanged h
    · induction k, r using Reconcile.kindCases with
      | director r => exact Reconcile.director_repeats hw hg hm h
      | team r => exact Reconcile.team_repeats hw hg h
      | role r =>
        have hrole : reconcile sys r.key w = (.ok (), w) := reconcile_of_role hg
        have hx := World.outcome_of_eq hrole
        rw [h] at hx
        cases hx
        exact repeats_of_unchanged h
      | artifact a r => exact Reconcile.artifact_repeats hw hg hm h

/-- A reconcile that succeeded succeeds again and leaves the records, the secrets and whatever the
remote services hold as they are. -/
theorem reconcile_idempotent {w w' : World Store Secrets} (hw : w.records.WellFormed)
    (h : reconcile sys key w = (.ok (), w')) :
    ∃ w'', reconcile sys key w' = (.ok (), w'') ∧ w''.unlogged = w'.unlogged := by
  have hrepeat := reconcile_repeats hw (World.outcome_of_eq h)
  rw [(reconcile_ignoresLogs sys key).outcome_unlogged] at hrepeat
  exact World.eq_of_outcome hrepeat

theorem reconcile_idempotent_small :
    (reconcile "sys" Small.az.key Small.world).1 = .ok () ∧
      ∃ w, reconcile "sys" Small.az.key (reconcile "sys" Small.az.key Small.world).2 = (.ok (), w) ∧
        w.unlogged = (reconcile "sys" Small.az.key Small.world).2.unlogged := by
  have hok : (reconcile "sys" Small.az.key Small.world).1 = .ok () := by rfl
  exact ⟨hok, reconcile_idempotent Small.wellFormed_world (Prod.ext hok rfl)⟩

end Reconciliation
