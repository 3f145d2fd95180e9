import Reconciliation.Proofs.Outcome

namespace Reconciliation

open World (outcome)

namespace Record

variable {k : Kind}

/-- What is frozen, or will be, is settled before the freezing. -/
theorem frozen?_getD_frozenBy (sys : String) (r : Record k) :
    (r.frozenBy sys).frozen?.getD r.spec = r.frozen?.getD r.spec := by
  unfold frozenBy
  split
  · cases hk : k.freezes with
    | true =>
      have hf : (r.prepared sys).bumped.frozen? = some (r.frozen?.getD r.spec) :=
        Status.frozen?_prepared hk sys r.spec r.status
      rw [hf, Option.getD_some]
    | false =>
      rw [frozen?, frozen?, Status.frozen?_of_not_freezes hk, Status.frozen?_of_not_freezes hk]
  · rfl

theorem spec_readied (sys : String) (r : Record k) : (r.readied sys).spec = r.spec := by
  rw [readied, spec_guarded, spec_frozenBy]

theorem frozen?_readied (sys : String) (r : Record k) :
    (r.readied sys).frozen? = (r.frozenBy sys).frozen? := by
  rw [readied, frozen?, status_guarded, frozen?]

theorem beingDeleted_readied (sys : String) (r : Record k) :
    (r.readied sys).beingDeleted = r.beingDeleted := by
  rw [readied, beingDeleted_guarded, beingDeleted_frozenBy]

theorem ns_eq {r r' : Record k} (h : r'.key = r.key) : r'.metadata.ns = r.metadata.ns :=
  congrArg Key.ns h

end Record

namespace Artifact

/-- The Director that a record belongs to is not changed by its stages. -/
theorem scope_eq {a : ArtifactKind} {r r' : Record a.kind} (hk : r'.key = r.key)
    (hf : r'.frozen?.getD r'.spec = r.frozen?.getD r.spec) : scope a r' = scope a r := by
  cases a with
  | compilation =>
    exact congrArg (fun spec : CompilationSpec => DirectorScope.admin spec.director) hf
  | az | network | baseImage | release | vmExtension | deployment =>
    exact congrArg DirectorScope.team (Record.ns_eq hk)

theorem scope_consumed {a : ArtifactKind} (r : Record a.kind) : scope a r.consumed = scope a r := by
  cases a with
  | deployment => exact congrArg DirectorScope.team (Record.ns_eq r.key_consumed)
  | az | network | baseImage | release | vmExtension | compilation => rfl

theorem scope_of_ne {a : ArtifactKind} (ha : a ≠ .compilation) (r : Record a.kind) :
    scope a r = .team r.metadata.ns := by
  cases a with
  | compilation => exact absurd rfl ha
  | az | network | baseImage | release | vmExtension | deployment => rfl

theorem scope_readied (sys : String) {a : ArtifactKind} (r : Record a.kind) :
    scope a (r.readied sys) = scope a r := by
  refine scope_eq (r.key_readied sys) ?_
  rw [Record.spec_readied, Record.frozen?_readied, Record.frozen?_getD_frozenBy]

theorem scope_settled {a : ArtifactKind} (r : Record a.kind) : scope a r.settled = scope a r := by
  have h := r.alike_settled
  exact scope_eq h.key (by rw [h.frozen?, h.spec])

theorem sameAccess_keep {τ : Type} {a : ArtifactKind} (w : World Store τ) (r : Record a.kind) :
    w.SameAccess (w.keep r) := by
  refine .keep ?_ ?_ w r <;> cases a <;> exact Kind.noConfusion

end Artifact

variable {w : World Store Secrets} {sys : String}

namespace Reconcile

/-- A record at a stage after the consumed flag is reconciled as it is. -/
theorem reconcile_of_consumed {a : ArtifactKind} {r : Record a.kind} (hw : w.records.WellFormed)
    (hr : w.records.Holds r) (hm : ¬Misplaced sys r) (hc : r.consumed = r) :
    reconcile sys r.key w = artifact sys a r w := by
  rw [reconcile_of_artifact hw hr hm, hc, World.keep_of_holds hr]

theorem wellFormed_consumed {k : Kind} {r : Record k} (hw : w.records.WellFormed)
    (hr : w.records.Holds r) : (w.keep r.consumed).records.WellFormed := by
  refine hw.keep fun hd => ?_
  rw [Record.finalizers_consumed]
  exact hw.marked hr (by rwa [Record.beingDeleted_consumed] at hd)

/-- The first write of a reconcile is the one that consumes the force flag. -/
theorem reconcile_consumed {a : ArtifactKind} {r : Record a.kind} (hw : w.records.WellFormed)
    (hr : w.records.Holds r) (hm : ¬Misplaced sys r) :
    reconcile sys r.key w = reconcile sys r.key (w.keep r.consumed) := by
  have hm' : ¬Misplaced sys r.consumed := by
    rwa [Misplaced, Record.ns_eq r.key_consumed]
  have hw' : (w.keep r.consumed).records.WellFormed := wellFormed_consumed hw hr
  rw [reconcile_of_artifact hw hr hm, ← r.key_consumed,
    reconcile_of_consumed hw' (World.holds_keep _ _) hm' r.consumed_consumed]

section

variable {a : ArtifactKind} {r : Record a.kind}

theorem reconcile_of_live (hw : w.records.WellFormed) (hr : w.records.Holds r)
    (hm : ¬Misplaced sys r) (hc : r.consumed = r) (hl : r.beingDeleted = false) :
    reconcile sys r.key w = establishArtifact sys a r w := by
  rw [reconcile_of_consumed hw hr hm hc, artifact, hl]
  rfl

theorem reconcile_of_deleted (hw : w.records.WellFormed) (hr : w.records.Holds r)
    (hm : ¬Misplaced sys r) (hc : r.consumed = r) (hd : r.beingDeleted = true) :
    reconcile sys r.key w = removeArtifact sys a r w := by
  rw [reconcile_of_consumed hw hr hm hc, artifact, hd]
  rfl

theorem misplaced_iff {k : Kind} {r r' : Record k} (h : r'.key = r.key) :
    Misplaced sys r' ↔ Misplaced sys r := by
  rw [Misplaced, Misplaced, Record.ns_eq h]

theorem wellFormed_keep_live {s : Store} {k : Kind} {r : Record k} (hs : s.WellFormed)
    (hl : r.beingDeleted = false) : (s.keep r).WellFormed := by
  refine hs.keep fun hd => ?_
  rw [hl] at hd
  cases hd

end

/-- From a stage of the record on, an artifact is established as from the start. -/
theorem establishArtifact_resumes {a : ArtifactKind} {r r' : Record a.kind}
    (hr : w.records.Holds r) (hask : (askDirectorOf sys a r w).1 = .ok ())
    (hs : Artifact.scope a r' = Artifact.scope a r) (hready : r'.readied sys = r.readied sys) :
    outcome (establishArtifact sys a r') (w.keep r') = outcome (establishArtifact sys a r) w := by
  have hask' : (askDirectorOf sys a r' (w.keep r')).1 = .ok () := by
    rw [askDirectorOf_fst sys (Artifact.sameAccess_keep w r') hs, hask]
  have hkey : (r'.readied sys).key = r'.key := r'.key_readied sys
  have hkey' : (r'.readied sys).settled.key = r'.key := by rw [Record.key_settled, hkey]
  have hstore : (w.keep r').records.keep (r'.readied sys) = w.records.keep (r.readied sys) := by
    rw [World.records_keep, Store.keep_keep _ hkey, hready]
  rw [establishArtifact_outcome sys (World.holds_keep w r'), establishArtifact_outcome sys hr]
  simp only [hask, hask', hstore]
  have hkeep : (w.keep r').keep (r'.readied sys) = w.keep (r.readied sys) := by
    rw [World.keep_keep _ hkey, hready]
  have hsettled : ∀ d : Director, ((w.keep r').withDirector d).keep
      (r'.readied sys).settled = (w.withDirector d).keep (r.readied sys).settled := by
    intro d
    rw [← hready]
    exact World.keep_keep (w.withDirector d) hkey'
  simp only [hkeep, hsettled]
  rw [hready]
  rfl

/-- A reconcile that finds the record ready goes on from there. -/
theorem reconcile_readied {a : ArtifactKind} {r : Record a.kind} (hw : w.records.WellFormed)
    (hr : w.records.Holds r) (hm : ¬Misplaced sys r) (hc : r.consumed = r)
    (hl : r.beingDeleted = false) (hask : (askDirectorOf sys a r w).1 = .ok ()) :
    outcome (reconcile sys r.key) (w.keep (r.readied sys)) =
      outcome (establishArtifact sys a r) w := by
  have hl' : (r.readied sys).beingDeleted = false := by rw [Record.beingDeleted_readied, hl]
  have hm' : ¬Misplaced sys (r.readied sys) := mt (misplaced_iff (r.key_readied sys)).1 hm
  have hc' : (r.readied sys).consumed = r.readied sys := by
    refine Record.consumed_eq_self (r := r) ?_
    rw [Record.spec_readied, hc]
  rw [outcome, ← r.key_readied sys, reconcile_of_live (wellFormed_keep_live hw hl')
    (World.holds_keep w (r.readied sys)) hm' hc' hl']
  exact establishArtifact_resumes hr hask (Artifact.scope_readied sys r)
    (Record.readied_readied sys r)

section

variable {r : Record .team}

theorem reconcile_of_live_team (hr : w.records.Holds r) (hl : r.beingDeleted = false) :
    reconcile sys r.key w = establishTeam sys r w := by
  rw [reconcile_of_team hr, team, hl]
  rfl

theorem reconcile_of_deleted_team (hr : w.records.Holds r) (hd : r.beingDeleted = true) :
    reconcile sys r.key w = removeTeam sys r w := by
  rw [reconcile_of_team hr, team, hd]
  rfl

end

theorem frozenDirector_eq {r r' : Record .team} (hk : r'.key = r.key)
    (hf : r'.frozen? = r.frozen?) :
    Credentials.frozenDirector r' = Credentials.frozenDirector r := by
  simp only [Credentials.frozenDirector, Credentials.frozenOf, hk, hf]

theorem sameDirectors_keep (s : Store) (r : Record .team) : s.SameDirectors (s.keep r) :=
  .keep Kind.noConfusion s r

/-- A frozen team is established as from the start. -/
theorem establishTeam_frozenBy {r : Record .team} (hr : w.records.Holds r) :
    establishTeam sys (r.frozenBy sys) (w.keep (r.frozenBy sys)) = establishTeam sys r w := by
  have hfrozen : (r.frozenBy sys).frozenBy sys = r.frozenBy sys :=
    Record.frozenBy_eq_self (Record.needsPreparing_frozenBy sys r)
  have hf := freeze_eq (World.holds_keep w (r.frozenBy sys)) sys
  rw [hfrozen, World.keep_of_holds (World.holds_keep w (r.frozenBy sys))] at hf
  rw [establishTeam, establishTeam, Step.bind_ok hf, Step.bind_ok (freeze_eq hr sys)]

/-- A client that could be asked for is still there for a later stage of the team's record. -/
theorem askIdentityOf_stage {r q : Record .team} {v : World Store Secrets}
    (hask : (askIdentityOf sys r (w.keep r)).1 = .ok ()) (hk : q.key = r.key)
    (hf : q.frozen? = r.frozen?) (hv : v.records = w.records.keep q)
    (hs : ∀ n x, w.secrets.get? n = some x → v.secrets.get? n = some x)
    (hc : v.clients.failure = w.clients.failure) : (askIdentityOf sys q v).1 = .ok () := by
  obtain ⟨u, hu⟩ : ∃ u, askIdentityOf sys r (w.keep r) = (.ok (), u) := ⟨_, Prod.ext hask rfl⟩
  refine askIdentityOf_of_grown hu (frozenDirector_eq hk hf) ?_ hs hc
  rw [hv, ← Store.keep_keep w.records hk]
  exact sameDirectors_keep _ _

/-- A team whose record is ready, and for which a secret may have been generated, is established as
from the start. -/
theorem establishTeam_resumes {r : Record .team} (hr : w.records.Holds r)
    (hask : (askIdentityOf sys (r.frozenBy sys) (w.keep (r.frozenBy sys))).1 = .ok ())
    {x : Except SecretError String} {s : Secrets × Entropy}
    (hs : SecretStore.getOrGenerate ⟨(r.readied sys).secretNamespace, (r.readied sys).internalName⟩
      (w.secrets, w.entropy) = (x, s)) :
    outcome (establishTeam sys (r.readied sys)) ((w.supplied s).keep (r.readied sys)) =
      outcome (establishTeam sys r) w := by
  have hfrozen : (r.readied sys).frozenBy sys = r.readied sys :=
    Record.frozenBy_eq_self (Record.needsPreparing_readied sys r)
  have hready : (r.readied sys).readied sys = r.readied sys := Record.readied_readied sys r
  have hkeep : ((w.supplied s).keep (r.readied sys)).keep (r.readied sys) =
      (w.supplied s).keep (r.readied sys) :=
    World.keep_of_holds (World.holds_keep _ _)
  -- the client of the identity service can still be asked for: secrets were only added
  have hask' : (askIdentityOf sys (r.readied sys) ((w.supplied s).keep (r.readied sys))).1 =
      .ok () := by
    refine askIdentityOf_stage hask ?_ (Record.frozen?_readied sys r) rfl
      (fun n value h => SecretStore.get?_of_getOrGenerate hs h) rfl
    rw [Record.key_readied, Record.key_frozenBy]
  have hsecrets : (((w.supplied s).keep (r.readied sys)).secrets,
      ((w.supplied s).keep (r.readied sys)).entropy) = s := rfl
  have hsupplied : ((w.supplied s).keep (r.readied sys)).supplied s =
      (w.supplied s).keep (r.readied sys) := rfl
  have hidentity : ((w.supplied s).keep (r.readied sys)).identity = w.identity := rfl
  rw [establishTeam_outcome sys (World.holds_keep (w.supplied s) (r.readied sys)),
    establishTeam_outcome sys hr]
  simp only [hfrozen, hready, hask, hkeep, hask', hsecrets, SecretStore.getOrGenerate_again hs, hs,
    hidentity]
  cases x with
  | error e => simp only [hsupplied, hkeep]
  | ok secret =>
    have hsettled : ∀ i : Identity,
        (((w.supplied s).keep (r.readied sys)).withIdentity i).keep (r.readied sys).settled =
        ((w.supplied s).withIdentity i).keep (r.readied sys).settled :=
      fun i => World.keep_keep ((w.supplied s).withIdentity i) (r.readied sys).key_settled
    simp only [hsupplied, hkeep]
    cases w.identity.registered (r.readied sys).internalName secret with
    | error e => rfl
    | ok i => simp only [hsettled]

/-- A reconcile that finds the team frozen goes on from there. -/
theorem reconcile_frozen_team {r : Record .team} (hr : w.records.Holds r)
    (hl : r.beingDeleted = false) :
    outcome (reconcile sys r.key) (w.keep (r.frozenBy sys)) = outcome (establishTeam sys r) w := by
  have hl' : (r.frozenBy sys).beingDeleted = false := by rw [Record.beingDeleted_frozenBy, hl]
  rw [outcome, ← r.key_frozenBy sys, reconcile_of_live_team (World.holds_keep w _) hl',
    establishTeam_frozenBy hr]
  rfl

/-- A reconcile that finds the team ready goes on from there. -/
theorem reconcile_readied_team {r : Record .team} (hr : w.records.Holds r)
    (hl : r.beingDeleted = false)
    (hask : (askIdentityOf sys (r.frozenBy sys) (w.keep (r.frozenBy sys))).1 = .ok ())
    {x : Except SecretError String} {s : Secrets × Entropy}
    (hs : SecretStore.getOrGenerate ⟨(r.readied sys).secretNamespace, (r.readied sys).internalName⟩
      (w.secrets, w.entropy) = (x, s)) :
    outcome (reconcile sys r.key) ((w.supplied s).keep (r.readied sys)) =
      outcome (establishTeam sys r) w := by
  have hl' : (r.readied sys).beingDeleted = false := by rw [Record.beingDeleted_readied, hl]
  rw [outcome, ← r.key_readied sys, reconcile_of_live_team (World.holds_keep _ _) hl']
  exact establishTeam_resumes hr hask hs

section

variable {r : Record .director}

theorem reconcile_of_live_director (hr : w.records.Holds r) (hm : ¬Misplaced sys r)
    (hl : r.beingDeleted = false) : reconcile sys r.key w = establishDirector r w := by
  rw [reconcile_of_director hr hm, director, hl]
  rfl

theorem reconcile_of_deleted_director (hr : w.records.Holds r) (hm : ¬Misplaced sys r)
    (hd : r.beingDeleted = true) : reconcile sys r.key w = removeDirector r w := by
  rw [reconcile_of_director hr hm, director, hd]
  rfl

end

end Reconcile

end Reconciliation
