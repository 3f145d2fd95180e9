import Reconciliation.Proofs.Idempotence

namespace Reconciliation

open World (outcome)

/-- What may be put right after a failure. -/
inductive Repair where
  | directorRecovers
  | identityRecovers
  | releaseSource (url : String) (ref : ReleaseRef)
  | stemcellSource (url : String) (ref : ReleaseRef)
  | create (r : AnyRecord)

namespace Repair

def act : Repair → World Store Secrets → World Store Secrets
  | directorRecovers, w => { w with director := { w.director with failure := none } }
  | identityRecovers, w => { w with identity := { w.identity with failure := none } }
  | releaseSource url ref, w =>
    { w with
      director := { w.director with releaseSources := w.director.releaseSources.insert url ref } }
  | stemcellSource url ref, w =>
    { w with
      director := { w.director with stemcellSources := w.director.stemcellSources.insert url ref } }
  | create r, w => { w with records := (Store.create r w.records).2 }

/-- No record is created under this key. -/
def Spares (key : Key) : Repair → Prop
  | create r => r.key ≠ key
  | _ => True

end Repair

/-- The world after these repairs, in order. -/
def repaired (cs : List Repair) (w : World Store Secrets) : World Store Secrets :=
  cs.foldl (fun w c => c.act w) w

theorem Store.create_keep {k : Kind} (s : Store) {r : AnyRecord} {q : Record k}
    (h : r.key ≠ q.key) : (create r (s.keep q)).2 = (create r s).2.keep q := by
  have hget : (s.keep q).get? r.key = s.get? r.key := by rw [get?_keep, if_neg h]
  cases hr : s.get? r.key with
  | some p => rw [create_of_stored hr, create_of_stored (hget.trans hr)]
  | none =>
    rw [create_of_none hr, create_of_none (hget.trans hr)]
    have hput : (s.keep q).put r.key (s.issue r) = (s.put r.key (s.issue r)).keep q :=
      put_comm s h.symm _ _
    have hissue : (s.keep q).issue r = s.issue r := rfl
    simp only [hissue, hput, issued_keep]
    rfl

section

variable {k : Kind} {w : World Store Secrets} {r : Record k} {cs : List Repair} {key : Key}

theorem repaired_keep (h : ∀ c ∈ cs, c.Spares r.key) (w : World Store Secrets) :
    repaired cs (w.keep r) = (repaired cs w).keep r := by
  induction cs generalizing w with
  | nil => rfl
  | cons c cs ih =>
    have hc := h c List.mem_cons_self
    have hact : c.act (w.keep r) = (c.act w).keep r := by
      cases c with
      | create q =>
        simp only [Repair.act, World.keep, Store.create_keep w.records hc]
      | directorRecovers | identityRecovers | releaseSource | stemcellSource => rfl
    have hrest := ih (fun c hc => h c (List.mem_cons_of_mem _ hc)) (c.act w)
    rw [repaired, List.foldl_cons, hact]
    exact hrest

theorem repaired_supplied (cs : List Repair) (w : World Store Secrets) (s : Secrets × Entropy) :
    repaired cs (w.supplied s) = (repaired cs w).supplied s := by
  induction cs generalizing w with
  | nil => rfl
  | cons c cs ih =>
    have hact : c.act (w.supplied s) = (c.act w).supplied s := by cases c <;> rfl
    rw [repaired, List.foldl_cons, hact]
    exact ih (c.act w)

theorem repaired_unlogged (cs : List Repair) (w : World Store Secrets) :
    (repaired cs w).unlogged = repaired cs w.unlogged := by
  induction cs generalizing w with
  | nil => rfl
  | cons c cs ih =>
    have hact : (c.act w).unlogged = c.act w.unlogged := by cases c <;> rfl
    rw [repaired, List.foldl_cons]
    exact (ih (c.act w)).trans (congrArg (repaired cs) hact)

/-- Neither the secrets nor the supply of random bytes are touched. -/
theorem secrets_repaired (cs : List Repair) (w : World Store Secrets) :
    (repaired cs w).secrets = w.secrets ∧ (repaired cs w).entropy = w.entropy := by
  induction cs generalizing w with
  | nil => exact ⟨rfl, rfl⟩
  | cons c cs ih =>
    have hact : (c.act w).secrets = w.secrets ∧ (c.act w).entropy = w.entropy := by
      cases c <;> exact ⟨rfl, rfl⟩
    have hrest := ih (c.act w)
    exact ⟨hrest.1.trans hact.1, hrest.2.trans hact.2⟩

theorem holds_repaired (h : ∀ c ∈ cs, c.Spares r.key) (hr : w.records.Holds r) :
    (repaired cs w).records.Holds r := by
  rw [← World.keep_of_holds hr, repaired_keep h]
  exact World.holds_keep _ r

theorem wellFormed_repaired (hw : w.records.WellFormed) : (repaired cs w).records.WellFormed := by
  induction cs generalizing w with
  | nil => exact hw
  | cons c cs ih =>
    refine ih (w := c.act w) ?_
    cases c with
    | create q => exact hw.create q
    | directorRecovers | identityRecovers | releaseSource | stemcellSource => exact hw

end

namespace Reconcile

variable {w u : World Store Secrets} {sys : String} {cs : List Repair} {e : ReconcileError}

/-- An attempt that succeeds was given a client of its Director. -/
theorem askDirectorOf_of_established {a : ArtifactKind} {r : Record a.kind}
    (hr : w.records.Holds r) (h : (outcome (establishArtifact sys a r) w).1 = .ok ()) :
    (askDirectorOf sys a r w).1 = .ok () := by
  obtain ⟨v, hx⟩ : ∃ v, outcome (establishArtifact sys a r) w = (.ok (), v) := ⟨_, Prod.ext h rfl⟩
  cases artifactEstablished hr hx with
  | done hask ho hd => exact hask

theorem askIdentityOf_of_established {r : Record .team} (hr : w.records.Holds r)
    (h : (outcome (establishTeam sys r) w).1 = .ok ()) :
    (askIdentityOf sys (r.frozenBy sys) (w.keep (r.frozenBy sys))).1 = .ok () := by
  obtain ⟨v, hx⟩ : ∃ v, outcome (establishTeam sys r) w = (.ok (), v) := ⟨_, Prod.ext h rfl⟩
  cases teamEstablished hr hx with
  | done hask hs hi => exact hask

/-- Where a failed attempt changed nothing, the repaired world is the one without the attempt. -/
theorem repaired_unchanged (sys : String) (key : Key) (cs : List Repair) (w : World Store Secrets) :
    outcome (reconcile sys key) (repaired cs w.unlogged) =
      outcome (reconcile sys key) (repaired cs w) := by
  rw [← repaired_unlogged, (reconcile_ignoresLogs sys key).outcome_unlogged]

theorem consumed_artifact_resumes {a : ArtifactKind} {r : Record a.kind}
    (hw : w.records.WellFormed) (hr : w.records.Holds r) (hm : ¬Misplaced sys r)
    (hc : r.consumed = r) (hcs : ∀ c ∈ cs, c.Spares r.key)
    (h : outcome (reconcile sys r.key) w = (.error e, u))
    (hok : (outcome (reconcile sys r.key) (repaired cs w)).1 = .ok ()) :
    outcome (reconcile sys r.key) (repaired cs u) =
      outcome (reconcile sys r.key) (repaired cs w) := by
  cases hd : r.beingDeleted with
  | true =>
    rw [outcome, reconcile_of_deleted hw hr hm hc hd] at h
    cases artifactRemoved hr h with
    | unchanged => exact repaired_unchanged sys r.key cs w
  | false =>
    rw [outcome, reconcile_of_live hw hr hm hc hd] at h
    cases artifactEstablished hr h with
    | refused => exact repaired_unchanged sys r.key cs w
    | stopped hask =>
      have hwr : (repaired cs w).records.WellFormed := wellFormed_repaired hw
      have hrr := holds_repaired hcs hr
      have hcs' : ∀ c ∈ cs, c.Spares (r.readied sys).key := by rwa [Record.key_readied]
      have hlive : outcome (reconcile sys r.key) (repaired cs w) =
          outcome (establishArtifact sys a r) (repaired cs w) := by
        rw [outcome, reconcile_of_live hwr hrr hm hc hd]
        rfl
      rw [hlive] at hok
      rw [repaired_unchanged, repaired_keep hcs', hlive,
        reconcile_readied hwr hrr hm hc hd (askDirectorOf_of_established hrr hok)]

theorem artifact_resumes {a : ArtifactKind} {r : Record a.kind} (hw : w.records.WellFormed)
    (hr : w.records.Holds r) (hm : ¬Misplaced sys r) (hcs : ∀ c ∈ cs, c.Spares r.key)
    (h : outcome (reconcile sys r.key) w = (.error e, u))
    (hok : (outcome (reconcile sys r.key) (repaired cs w)).1 = .ok ()) :
    outcome (reconcile sys r.key) (repaired cs u) =
      outcome (reconcile sys r.key) (repaired cs w) := by
  -- both runs begin by consuming the force flag
  have hkey : r.consumed.key = r.key := r.key_consumed
  have hcs' : ∀ c ∈ cs, c.Spares r.consumed.key := by rwa [hkey]
  have hstart : outcome (reconcile sys r.key) (repaired cs w) =
      outcome (reconcile sys r.consumed.key) (repaired cs (w.keep r.consumed)) := by
    rw [repaired_keep hcs', hkey, outcome, outcome, reconcile_consumed
      (wellFormed_repaired hw) (holds_repaired hcs hr) hm]
  rw [outcome, reconcile_consumed hw hr hm, ← hkey] at h
  rw [hstart] at hok ⊢
  rw [← hkey]
  exact consumed_artifact_resumes (wellFormed_consumed hw hr) (World.holds_keep w r.consumed)
    (mt (misplaced_iff hkey).1 hm) r.consumed_consumed hcs' h hok

theorem team_resumes {r : Record .team} (hr : w.records.Holds r)
    (hcs : ∀ c ∈ cs, c.Spares r.key) (h : outcome (reconcile sys r.key) w = (.error e, u))
    (hok : (outcome (reconcile sys r.key) (repaired cs w)).1 = .ok ()) :
    outcome (reconcile sys r.key) (repaired cs u) =
      outcome (reconcile sys r.key) (repaired cs w) := by
  cases hd : r.beingDeleted with
  | true =>
    rw [outcome, reconcile_of_deleted_team hr hd] at h
    cases teamRemoved hr h with
    | unchanged => exact repaired_unchanged sys r.key cs w
  | false =>
    have hrr := holds_repaired hcs hr
    have hlive : outcome (reconcile sys r.key) (repaired cs w) =
        outcome (establishTeam sys r) (repaired cs w) := by
      rw [outcome, reconcile_of_live_team hrr hd]
      rfl
    rw [outcome, reconcile_of_live_team hr hd] at h
    rw [hlive] at hok ⊢
    cases teamEstablished hr h with
    | refused =>
      have hcs' : ∀ c ∈ cs, c.Spares (r.frozenBy sys).key := by rwa [Record.key_frozenBy]
      rw [repaired_unchanged, repaired_keep hcs', reconcile_frozen_team hrr hd]
    | stopped hask hs =>
      have hcs' : ∀ c ∈ cs, c.Spares (r.readied sys).key := by rwa [Record.key_readied]
      -- the repairs left the supply of the secret alone
      obtain ⟨hsecrets, hentropy⟩ := secrets_repaired cs w
      rw [← hsecrets, ← hentropy] at hs
      rw [repaired_unchanged, repaired_keep hcs', repaired_supplied,
        reconcile_readied_team hrr hd (askIdentityOf_of_established hrr hok) hs]

/-- A Director's own reconcile cannot fail where it is allowed. -/
theorem director_ok {r : Record .director} (hr : w.records.Holds r) (hm : ¬Misplaced sys r) :
    (reconcile sys r.key w).1 = .ok () := by
  cases hd : r.beingDeleted with
  | true =>
    rw [reconcile_of_deleted_director hr hm hd, removeDirector_eq hr]
    split
    · split <;> rfl
    · rfl
  | false => rw [reconcile_of_live_director hr hm hd, establishDirector_eq hr]

end Reconcile

open Reconcile (Misplaced)

section

variable {w u : World Store Secrets} {sys : String} {key : Key} {cs : List Repair}
  {e : ReconcileError}

/-- Repairs after a failed attempt lead to the same success as repairs without it. -/
theorem reconcile_repaired (hw : w.records.WellFormed) (hcs : ∀ c ∈ cs, c.Spares key)
    (h : outcome (reconcile sys key) w = (.error e, u))
    (hok : (outcome (reconcile sys key) (repaired cs w)).1 = .ok ()) :
    outcome (reconcile sys key) (repaired cs u) = outcome (reconcile sys key) (repaired cs w) := by
  cases hg : w.records.get? key with
  | none =>
    rw [outcome, reconcile_of_none hg] at h
    cases h
  | some q =>
    obtain ⟨k, r⟩ := q
    obtain rfl : r.key = key := hw.key_eq hg
    by_cases hm : Misplaced sys r
    · rw [outcome, reconcile_of_misplaced (holds_repaired hcs hg) hm] at hok
      cases hok
    · induction k, r using Reconcile.kindCases with
      | director r =>
        have hx := Reconcile.director_ok hg hm
        rw [show (reconcile sys r.key w).1 = .error e from congrArg Prod.fst h] at hx
        cases hx
      | team r => exact Reconcile.team_resumes hg hcs h hok
      | role r =>
        rw [outcome, reconcile_of_role hg] at h
        cases h
      | artifact a r => exact Reconcile.artifact_resumes hw hg hm hcs h hok

/-- The world after this many reconciles of a key. -/
def attempts (sys : String) (key : Key) : Nat → World Store Secrets → World Store Secrets
  | 0, w => w
  | n + 1, w => (reconcile sys key (attempts sys key n w)).2

/-- After the first failed attempt nothing moves, and each further one fails like it. -/
theorem attempts_failed (hw : w.records.WellFormed)
    (h : outcome (reconcile sys key) w = (.error e, u)) (n : Nat) :
    (attempts sys key (n + 1) w).unlogged = u ∧
      outcome (reconcile sys key) (attempts sys key n w) = (.error e, u) := by
  induction n with
  | zero => exact ⟨congrArg Prod.snd h, h⟩
  | succ n ih =>
    have hagain : outcome (reconcile sys key) (attempts sys key (n + 1) w) = (.error e, u) := by
      rw [← (reconcile_ignoresLogs sys key).outcome_unlogged, ih.1]
      exact reconcile_repeats hw h
    exact ⟨congrArg Prod.snd hagain, hagain⟩

/-- However often a reconcile failed before its needs were met, the one that then succeeds ends
where it would have ended as the first: with the same records, secrets and remote objects. -/
theorem failed_attempts_leave_no_trace {w₁ wA : World Store Secrets} (hw : w.records.WellFormed)
    (hfail : reconcile sys key w = (.error e, w₁)) (hcs : ∀ c ∈ cs, c.Spares key)
    (hok : reconcile sys key (repaired cs w) = (.ok (), wA)) (n : Nat) :
    (∀ i < n, (reconcile sys key (attempts sys key i w)).1 = .error e) ∧
      ∃ wB, reconcile sys key (repaired cs (attempts sys key n w)) = (.ok (), wB) ∧
        wB.unlogged = wA.unlogged := by
  have hx := World.outcome_of_eq hfail
  have hy := World.outcome_of_eq hok
  refine ⟨fun i _ => congrArg Prod.fst (attempts_failed hw hx i).2, ?_⟩
  refine World.eq_of_outcome ?_
  cases n with
  | zero => exact hy
  | succ n =>
    have hu := (attempts_failed hw hx n).1
    rw [← (reconcile_ignoresLogs sys key).outcome_unlogged, repaired_unlogged, hu,
      reconcile_repaired hw hcs hx (congrArg Prod.fst hy), hy]

end

/-- The small world while its Director is down. -/
def Small.outage : World Store Secrets :=
  { Small.world with director := { failure := some "down" } }

/-- Three attempts fail before the Director recovers. -/
theorem failed_attempts_leave_no_trace_small :
    (∀ i < 3, (reconcile "sys" Small.az.key (attempts "sys" Small.az.key i Small.outage)).1 =
        .error (.remote (.rejected "down"))) ∧
      ∃ w, reconcile "sys" Small.az.key
          (repaired [.directorRecovers] (attempts "sys" Small.az.key 3 Small.outage)) =
          (.ok (), w) ∧
        w.unlogged = (reconcile "sys" Small.az.key
          (repaired [.directorRecovers] Small.outage)).2.unlogged := by
  have hfail : (reconcile "sys" Small.az.key Small.outage).1 =
      .error (.remote (.rejected "down")) := by rfl
  have hfail' : reconcile "sys" Small.az.key Small.outage =
      (.error (.remote (.rejected "down")), (reconcile "sys" Small.az.key Small.outage).2) :=
    Prod.ext hfail rfl
  have hok : (reconcile "sys" Small.az.key (repaired [.directorRecovers] Small.outage)).1 =
      .ok () := by rfl
  have hok' : reconcile "sys" Small.az.key (repaired [.directorRecovers] Small.outage) =
      (.ok (), (reconcile "sys" Small.az.key (repaired [.directorRecovers] Small.outage)).2) :=
    Prod.ext hok rfl
  have hspares : ∀ c ∈ [Repair.directorRecovers], c.Spares Small.az.key := by
    intro c hc
    obtain rfl := List.mem_singleton.1 hc
    trivial
  have hwf : Small.outage.records.WellFormed := Small.wellFormed_world
  exact failed_attempts_leave_no_trace hwf hfail' hspares hok' 3

end Reconciliation
