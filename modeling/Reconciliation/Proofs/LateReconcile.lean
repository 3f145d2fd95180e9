import Reconciliation.Proofs.Orphans

/-! A reconcile works on the copy of the record that it has read. If the record was written or
removed meanwhile, every write of the late reconcile is refused. Its call to the Director is not:
it is stopped only by a refused write that comes before it, and a copy that is frozen and guarded
already needs none. -/
namespace Reconciliation

open World (outcome)

namespace Store

variable {k : Kind} {s : Store} {r : Record k}

/-- The record is not stored in this version: it was written since, removed, or created anew. -/
def Lacks (s : Store) (r : Record k) : Prop :=
  ∀ q, s.get? r.key = some q → r.metadata.version ≠ q.metadata.version

theorem lacks_of_none (h : s.get? r.key = none) : s.Lacks r := by
  intro q hq
  rw [h] at hq
  cases hq

theorem checkVersion_of_ne (key : Key) {stored incoming : AnyRecord}
    (h : incoming.metadata.version ≠ stored.metadata.version) :
    ∃ e, checkVersion key stored incoming = .error e := by
  simp [checkVersion, h]

theorem Lacks.write (h : s.Lacks r) (r' : Record k) (hk : r'.key = r.key)
    (hv : r'.metadata.version = r.metadata.version) :
    ∃ e, RecordStore.write r' s = (.error e, s) := by
  have hkey : AnyRecord.key ⟨k, r'⟩ = r.key := hk
  have hrefused : ∃ e, Store.update ⟨k, r'⟩ s = (.error e, s) := by
    cases hq : s.get? r.key with
    | none => exact ⟨_, update_of_none (hkey ▸ hq)⟩
    | some q =>
      have hne : (⟨k, r'⟩ : AnyRecord).metadata.version ≠ q.metadata.version := hv ▸ h q hq
      obtain ⟨e, he⟩ := checkVersion_of_ne r.key hne
      exact ⟨e, by simp only [Store.update, hkey, hq, he]⟩
  obtain ⟨e, he⟩ := hrefused
  exact ⟨e, Step.bind_error he _⟩

theorem Lacks.writeStatus (h : s.Lacks r) (r' : Record k) (hk : r'.key = r.key)
    (hv : r'.metadata.version = r.metadata.version) :
    ∃ e, RecordStore.writeStatus r' s = (.error e, s) := by
  have hkey : AnyRecord.key ⟨k, r'⟩ = r.key := hk
  have hrefused : ∃ e, Store.updateStatus ⟨k, r'⟩ s = (.error e, s) := by
    cases hq : s.get? r.key with
    | none => exact ⟨_, updateStatus_of_none (hkey ▸ hq)⟩
    | some q =>
      have hne : (⟨k, r'⟩ : AnyRecord).metadata.version ≠ q.metadata.version := hv ▸ h q hq
      obtain ⟨e, he⟩ := checkVersion_of_ne r.key hne
      exact ⟨e, by simp only [Store.updateStatus, hkey, hq, he]⟩
  obtain ⟨e, he⟩ := hrefused
  exact ⟨e, Step.bind_error he _⟩

end Store

namespace Reconcile

variable {k : Kind} {w : World Store Secrets} {sys : String} {r : Record k}

theorem freeze_of_lacks (h : w.records.Lacks r) (hn : r.needsPreparing sys = true) :
    ∃ e, freeze sys r w = (.error (.store e), w) := by
  obtain ⟨e, he⟩ := h.writeStatus (r.prepared sys) rfl rfl
  have hwrite : World.writeStatus (r.prepared sys) w = (.error (.store e), w) :=
    World.onRecords_error he
  exact ⟨e, by simp only [freeze, hn, if_true, hwrite]⟩

theorem attachFinalizer_of_lacks (h : w.records.Lacks r) (hf : r.hasFinalizer = false) :
    ∃ e, attachFinalizer r w = (.error (.store e), w) := by
  have hedits := r.edits_withFinalizer
  obtain ⟨e, he⟩ := h.write _ hedits.key hedits.version
  have hwrite : World.write r.withFinalizer w = (.error (.store e), w) := World.onRecords_error he
  exact ⟨e, by simp [attachFinalizer, hf, hwrite]⟩

theorem publish_of_lacks (h : w.records.Lacks r) : ∃ x, publish r w = (x, w) := by
  cases ha : r.available with
  | true => exact ⟨.ok (), by simp [publish, ha]⟩
  | false =>
    obtain ⟨e, he⟩ := h.writeStatus r.published rfl rfl
    have hwrite : World.writeStatus r.published w = (.error (.store e), w) :=
      World.onRecords_error he
    refine ⟨.error (.store e), ?_⟩
    simp only [publish, ha, Bool.not_false, if_true]
    exact Step.bind_error hwrite _

theorem dropFinalizer_of_lacks (h : w.records.Lacks r) :
    ∃ e, dropFinalizer r w = (.error (.store e), w) := by
  have hedits := r.edits_withoutFinalizer
  obtain ⟨e, he⟩ := h.write _ hedits.key hedits.version
  have hwrite : World.write r.withoutFinalizer w = (.error (.store e), w) :=
    World.onRecords_error he
  exact ⟨e, Step.bind_error hwrite _⟩

variable {a : ArtifactKind} {r : Record a.kind}

/-- Nothing is left to write before the Director is called, and its client is to be had. -/
structure Reaches (sys : String) (a : ArtifactKind) (r : Record a.kind) (w : World Store Secrets) :
    Prop where
  finalizer : r.hasFinalizer = true
  frozen : r.beingDeleted = false → r.needsPreparing sys = false
  client : (askDirectorOf sys a r w).1 = .ok ()

/-- A live copy with something left to write is stopped by the write. -/
theorem establishArtifact_stopped (h : w.records.Lacks r) (hn : ¬Reaches sys a r w) :
    ∃ e, outcome (establishArtifact sys a r) w = (.error e, w.unlogged) := by
  cases hask : (askDirectorOf sys a r w).1 with
  | error e => exact ⟨e, establishArtifact_of_refused hask⟩
  | ok _ =>
    rw [establishArtifact_of_granted hask]
    cases hp : r.needsPreparing sys with
    | true =>
      obtain ⟨e, he⟩ := freeze_of_lacks h hp
      exact ⟨.store e, World.outcome_of_eq (Step.bind_error he _)⟩
    | false =>
      have hf : r.hasFinalizer = false := by
        rw [Bool.eq_false_iff]
        exact fun hf => hn ⟨hf, fun _ => hp, hask⟩
      have hfreeze : freeze sys r w = (.ok r, w) := by simp [freeze, hp]
      obtain ⟨e, he⟩ := attachFinalizer_of_lacks h hf
      rw [World.outcome_bind_of_eq hfreeze]
      exact ⟨.store e, World.outcome_of_eq (Step.bind_error he _)⟩

theorem removeArtifact_stopped (hn : ¬Reaches sys a r w) (hdeleted : r.beingDeleted = true) :
    ∃ x, outcome (removeArtifact sys a r) w = (x, w.unlogged) := by
  cases hf : r.hasFinalizer with
  | false => exact ⟨.ok (), by simp [removeArtifact, hf, outcome]⟩
  | true =>
    cases hask : (askDirectorOf sys a r w).1 with
    | error e => exact ⟨.error e, removeArtifact_of_refused hf hask⟩
    | ok _ =>
      have hlive : r.beingDeleted = false → r.needsPreparing sys = false := by simp [hdeleted]
      exact absurd ⟨hf, hlive, hask⟩ hn

/-- Short of the call, a late reconcile changes nothing, and fails with a live copy. -/
theorem artifact_stays (h : w.records.Lacks r) (hn : ¬Reaches sys a r w) :
    ∃ x, outcome (artifact sys a r) w = (x, w.unlogged) ∧
      (r.beingDeleted = false → ∃ e, x = .error e) := by
  rw [artifact]
  split
  · next hd =>
    obtain ⟨x, hx⟩ := removeArtifact_stopped hn hd
    exact ⟨x, hx, by simp [hd]⟩
  · obtain ⟨e, he⟩ := establishArtifact_stopped h hn
    exact ⟨.error e, he, fun _ => ⟨e, rfl⟩⟩

/-- The Director as the call of this copy leaves it, if the call comes about and succeeds. -/
def called (a : ArtifactKind) (r : Record a.kind) (w : World Store Secrets) : Option Director :=
  if r.beingDeleted then (w.director.removed (Artifact.handle? a r)).toOption
  else (Artifact.object a r w.records).1.toOption.bind fun o =>
    (w.director.established o).toOption

theorem called_of_live {d : Director} (hlive : r.beingDeleted = false) : called a r w = some d ↔
    ∃ o, (Artifact.object a r w.records).1 = .ok o ∧ w.director.established o = .ok d := by
  rw [called, hlive]
  cases ho : (Artifact.object a r w.records).1 with
  | error e => simp [Except.toOption]
  | ok o => cases hd : w.director.established o <;> simp [Except.toOption, hd]

theorem called_of_deleted {d : Director} (hdeleted : r.beingDeleted = true) :
    called a r w = some d ↔ w.director.removed (Artifact.handle? a r) = .ok d := by
  rw [called, hdeleted]
  cases w.director.removed (Artifact.handle? a r) <;> simp [Except.toOption]

theorem establishArtifact_calls (h : w.records.Lacks r) (hr : Reaches sys a r w)
    (hlive : r.beingDeleted = false) : (outcome (establishArtifact sys a r) w).2 =
      (w.withDirector ((called a r w).getD w.director)).unlogged := by
  have hfreeze : freeze sys r w = (.ok r, w) := by simp [freeze, hr.frozen hlive]
  have hattach : attachFinalizer r w = (.ok r, w) := by simp [attachFinalizer, hr.finalizer]
  rw [establishArtifact_of_granted hr.client, World.outcome_bind_of_eq hfreeze,
    World.outcome_bind_of_eq hattach]
  have he := Artifact.establish_outcome a r w
  cases ho : (Artifact.object a r w.records).1 with
  | error e =>
    have hcalled : called a r w = none := by simp [called, hlive, ho, Except.toOption]
    simp only [ho] at he
    rw [World.outcome_bind_error he, hcalled]
    rfl
  | ok o =>
    cases hd : w.director.established o with
    | error e =>
      have hcalled : called a r w = none := by simp [called, hlive, ho, hd, Except.toOption]
      simp only [ho, hd] at he
      rw [World.outcome_bind_error he, hcalled]
      rfl
    | ok d =>
      have hcalled : called a r w = some d := (called_of_live hlive).2 ⟨o, ho, hd⟩
      have hlacks : (w.withDirector d).records.Lacks r := h
      obtain ⟨x, hx⟩ := publish_of_lacks hlacks
      simp only [ho, hd] at he
      rw [World.outcome_bind_ok he (publish_ignoresLogs r), World.outcome_of_eq hx, hcalled]
      rfl

theorem removeArtifact_calls (h : w.records.Lacks r) (hr : Reaches sys a r w)
    (hdeleted : r.beingDeleted = true) : (outcome (removeArtifact sys a r) w).2 =
      (w.withDirector ((called a r w).getD w.director)).unlogged := by
  rw [removeArtifact_of_granted hr.finalizer hr.client]
  have he := Artifact.remove_outcome a r w
  cases hd : w.director.removed (Artifact.handle? a r) with
  | error e =>
    have hcalled : called a r w = none := by simp [called, hdeleted, hd, Except.toOption]
    simp only [hd] at he
    rw [World.outcome_bind_error he, hcalled]
    rfl
  | ok d =>
    have hcalled : called a r w = some d := (called_of_deleted hdeleted).2 hd
    have hlacks : (w.withDirector d).records.Lacks r := h
    obtain ⟨e, hx⟩ := dropFinalizer_of_lacks hlacks
    simp only [hd] at he
    rw [World.outcome_bind_ok he (dropFinalizer_ignoresLogs r), World.outcome_of_eq hx, hcalled]
    rfl

/-- A late reconcile changes the Director as its call does, and nothing else. -/
theorem artifact_calls (h : w.records.Lacks r) (hr : Reaches sys a r w) :
    (outcome (artifact sys a r) w).2 =
      (w.withDirector ((called a r w).getD w.director)).unlogged := by
  rw [artifact]
  split
  · next hd => exact removeArtifact_calls h hr hd
  · next hd => exact establishArtifact_calls h hr (Bool.eq_false_iff.2 hd)

/-- The Director after a late reconcile: called, or as it was. -/
theorem exists_artifact_director (sys : String) (h : w.records.Lacks r) : ∃ d : Director,
    (artifact sys a r w).2.unlogged = (w.withDirector d).unlogged ∧
      (d = w.director ∨ Reaches sys a r w ∧ called a r w = some d) ∧
      ∀ d', Reaches sys a r w → called a r w = some d' → d = d' := by
  by_cases hr : Reaches sys a r w
  · refine ⟨_, artifact_calls h hr, ?_, ?_⟩
    · cases hd : called a r w with
      | none => exact .inl rfl
      | some d => exact .inr ⟨hr, rfl⟩
    · intro d' _ hd
      rw [hd, Option.getD_some]
  · obtain ⟨x, hx, -⟩ := artifact_stays h hr
    have hsame : (artifact sys a r w).2.unlogged = w.unlogged := congrArg Prod.snd hx
    exact ⟨w.director, hsame, .inl rfl, fun _ hreach => absurd hreach hr⟩

end Reconcile

namespace Director

variable {d d' : Director} {x : RemoteHandle}

theorem established_keeps {o : RemoteObject} (h : d.established o = .ok d') (hx : d.Has x) :
    d'.Has x := by
  obtain ⟨d₁, ha, rfl⟩ := established_ok h
  exact has_unlogged.2 (has_of_arrived? ha hx)

end Director

/-- A reconcile that works on a copy which the store no longer holds changes no record, no secret
and no client. It brings objects to the Director exactly if the copy is live and nothing was left to
write before the call, and then those that the call brings; and it takes one away exactly if the
copy is marked for deletion and still has its finalizer, and then the one the copy stands for. A
live copy that does not come as far as the call fails. -/
theorem late_reconcile_effect (sys : String) {a : ArtifactKind} {r : Record a.kind}
    {w : World Store Secrets} (hlate : w.records.Lacks r) :
    let x := (Reconcile.artifact sys a r w).1
    let u := (Reconcile.artifact sys a r w).2
    (u.records = w.records ∧ u.secrets = w.secrets ∧ u.identity.clients = w.identity.clients) ∧
    (∀ h, ¬w.director.Has h → (u.director.Has h ↔
      Reconcile.Reaches sys a r w ∧ r.beingDeleted = false ∧ ∃ o d,
        (Artifact.object a r w.records).1 = .ok o ∧ w.director.established o = .ok d ∧ d.Has h)) ∧
    (∀ h, w.director.Has h → (¬u.director.Has h ↔
      Reconcile.Reaches sys a r w ∧ r.beingDeleted = true ∧ w.director.failure = none ∧
        Artifact.handle? a r = some h)) ∧
    (¬Reconcile.Reaches sys a r w → r.beingDeleted = false → ∃ e, x = .error e) := by
  intro x u
  obtain ⟨d, hu, hd, hunique⟩ := Reconcile.exists_artifact_director sys hlate
  have hhas : ∀ h, u.director.Has h ↔ d.Has h := by
    intro h
    have hdirector : u.director.unlogged = d.unlogged := congrArg World.director hu
    rw [← Director.has_unlogged, hdirector, Director.has_unlogged]
  have hrecords := congrArg World.records hu
  have hsecrets := congrArg World.secrets hu
  have hclients := congrArg (fun v : World Store Secrets => v.identity.clients) hu
  refine ⟨⟨hrecords, hsecrets, hclients⟩, fun h hnew => ?_, fun h hold => ?_, fun hr hlive => ?_⟩
  · rw [hhas]
    constructor
    · intro hx
      rcases hd with rfl | ⟨hr, hcalled⟩
      · exact absurd hx hnew
      · cases hb : r.beingDeleted with
        | false =>
          obtain ⟨o, ho, hestablished⟩ := (Reconcile.called_of_live hb).1 hcalled
          exact ⟨hr, rfl, o, d, ho, hestablished, hx⟩
        | true =>
          have hremoved := (Reconcile.called_of_deleted hb).1 hcalled
          exact absurd ((Director.has_removed_iff hremoved).1 hx).2 hnew
    · intro ⟨hr, hb, o, d', ho, hestablished, hx⟩
      rw [hunique d' hr ((Reconcile.called_of_live hb).2 ⟨o, ho, hestablished⟩)]
      exact hx
  · rw [hhas]
    constructor
    · intro hx
      rcases hd with rfl | ⟨hr, hcalled⟩
      · exact absurd hold hx
      · cases hb : r.beingDeleted with
        | false =>
          obtain ⟨o, ho, hestablished⟩ := (Reconcile.called_of_live hb).1 hcalled
          exact absurd (Director.established_keeps hestablished hold) hx
        | true =>
          have hremoved := (Reconcile.called_of_deleted hb).1 hcalled
          have hhandle : Artifact.handle? a r = some h := by
            simpa [Director.has_removed_iff hremoved, hold] using hx
          rw [hhandle] at hremoved
          exact ⟨hr, rfl, (Director.removed_eq_ok_iff.1 hremoved).1, hhandle⟩
    · intro ⟨hr, hb, hf, hhandle⟩
      have hremoved : w.director.removed (Artifact.handle? a r) =
          .ok (w.director.without h).unlogged := by
        rw [hhandle]
        exact Director.removed_eq_ok_iff.2 ⟨hf, rfl⟩
      rw [hunique _ hr ((Reconcile.called_of_deleted hb).2 hremoved)]
      exact fun hx => ((Director.has_removed_iff hremoved).1 hx).1 hhandle
  · obtain ⟨y, hy, hfails⟩ := Reconcile.artifact_stays hlate hr
    obtain ⟨e, he⟩ := hfails hlive
    have hx : x = y := congrArg Prod.fst hy
    exact ⟨e, hx.trans he⟩

namespace Small

/-- The AZ as a reconcile reads it from the built world. -/
def builtAz : Record .az :=
  { az with
    metadata :=
      { az.metadata with
        uid := Store.uidText 2
        version := 4
        finalizers := [Kind.az.finalizer] }
    status := (FrozenStatus.mk "" (some {}) true : FrozenStatus AzSpec) }

/-- The AZ was deleted after it had been built, and its deletion was reconciled. -/
def razed : World Store Secrets :=
  run "sys" [.move (.delete az.key), .move (.reconcile az.key)] built

end Small

/-- The copy of the AZ from before its deletion comes as far as the call. -/
theorem late_reconcile_effect_small : Small.razed.records.Lacks Small.builtAz ∧
    Reconcile.Reaches "sys" .az Small.builtAz Small.razed ∧
    (Reconcile.artifact "sys" .az Small.builtAz Small.razed).2.records = Small.razed.records := by
  have hlate : Small.razed.records.Lacks Small.builtAz := Store.lacks_of_none rfl
  have hnew : ¬Small.razed.director.Has (.fragment "az.team-a.z") := nofun
  have hback : (Reconcile.artifact "sys" .az Small.builtAz Small.razed).2.director.Has
      (.fragment "az.team-a.z") := by rfl
  obtain ⟨⟨hrecords, -, -⟩, hbrought, -⟩ := late_reconcile_effect "sys" (a := .az) hlate
  have hreaches := ((hbrought _ hnew).1 hback).1
  exact ⟨hlate, hreaches, hrecords⟩

/-- A late reconcile with that copy, after the record and its fragment are gone, brings the fragment
back. -/
theorem late_reconcile_resurrects : Reachable "sys" Small.built ∧
    Small.built.records.get? Small.az.key = some ⟨.az, Small.builtAz⟩ ∧
    Small.razed.records.get? Small.az.key = none ∧
    ¬Small.razed.director.Has (.fragment "az.team-a.z") ∧
    (Reconcile.artifact "sys" .az Small.builtAz Small.razed).2.director.Has
      (.fragment "az.team-a.z") := by
  refine ⟨Small.reachable_built, ?_, ?_, nofun, ?_⟩
  · rfl
  · rfl
  · rfl

end Reconciliation
