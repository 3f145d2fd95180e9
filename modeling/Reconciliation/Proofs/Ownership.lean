import Reconciliation.Proofs.Establishment

/-! Of the stored records, a reconcile writes its own, and for a Director that of the Director's
own team. In its own record it writes the status, its own finalizer and a deployment's force flag,
each in one direction; whatever else the owner wrote there stays. The record goes away only with
its last finalizer. The secrets may be in any store. -/
namespace Reconciliation

/-- The spec stays, except that a deployment's force flag may be used up. -/
def Spec.Tended : (k : Kind) → Spec k → Spec k → Prop
  | .deployment, (s : DeploymentSpec), (t : DeploymentSpec) =>
    t = s ∨ s.forceReconciliation = true ∧ t = { s with forceReconciliation := false }
  | _, s, t => t = s

namespace Spec

variable {k : Kind} {s t u : Spec k}

theorem Tended.of_eq (h : t = s) : Tended k s t := by
  cases k with
  | deployment => exact .inl h
  | _ => exact h

theorem Tended.trans (h : Tended k s t) (h' : Tended k t u) : Tended k s u := by
  cases k with
  | deployment =>
    rcases h with rfl | ⟨hf, rfl⟩
    · exact h'
    · rcases h' with rfl | ⟨hf', -⟩
      · exact .inr ⟨hf, rfl⟩
      · cases hf'
  | _ => exact Eq.trans h' h

end Spec

namespace Status

variable {k : Kind} {s t u : Status k}

/-- What changes in a status besides the warning: a spec is frozen, the secret gets its namespace,
and the object becomes available, each of them once. -/
structure Tended (k : Kind) (s t : Status k) : Prop where
  frozen : frozen? k t = frozen? k s ∨ frozen? k s = none ∧ (frozen? k t).isSome = true
  secret : secretNamespace k t = secretNamespace k s ∨
    secretNamespace k s = "" ∧ secretNamespace k t ≠ ""
  available : available k t = available k s ∨ available k s = false ∧ available k t = true

theorem Tended.refl (s : Status k) : Tended k s s := ⟨.inl rfl, .inl rfl, .inl rfl⟩

theorem Tended.trans (h : Tended k s t) (h' : Tended k t u) : Tended k s u where
  frozen := by
    rcases h'.frozen with hu | ⟨hn, hu⟩
    · rw [hu]
      exact h.frozen
    · rcases h.frozen with ht | ⟨-, ht⟩
      · exact .inr ⟨ht ▸ hn, hu⟩
      · rw [hn] at ht
        cases ht
  secret := by
    rcases h'.secret with hu | ⟨hn, hu⟩
    · rw [hu]
      exact h.secret
    · rcases h.secret with ht | ⟨-, ht⟩
      · exact .inr ⟨ht ▸ hn, hu⟩
      · exact absurd hn ht
  available := by
    rcases h'.available with hu | ⟨hn, hu⟩
    · rw [hu]
      exact h.available
    · rcases h.available with ht | ⟨-, ht⟩
      · exact .inr ⟨ht ▸ hn, hu⟩
      · rw [hn] at ht
        cases ht

theorem tended_prepared (sys : String) (spec : Spec k) (s : Status k) :
    Tended k s (prepared sys k spec s) where
  frozen := by
    cases hk : k.freezes with
    | false => exact .inl (by rw [frozen?_of_not_freezes hk, frozen?_of_not_freezes hk])
    | true =>
      rw [frozen?_prepared hk]
      cases hf : frozen? k s with
      | none => exact .inr ⟨rfl, rfl⟩
      | some frozen => exact .inl rfl
  secret := by
    by_cases hs : secretNamespace k s = ""
    · by_cases ht : secretNamespace k (prepared sys k spec s) = ""
      · exact .inl (ht.trans hs.symm)
      · exact .inr ⟨hs, ht⟩
    · exact .inl (secretNamespace_prepared hs)
  available := .inl (available_prepared sys spec s)

end Status

namespace Record

variable {k : Kind} {r q p : Record k}

/-- The same record after a reconcile: its owner finds all that is the owner's as it was. -/
structure Tended (r q : Record k) : Prop where
  apiVersion : q.apiVersion = r.apiVersion
  key : q.key = r.key
  uid : q.metadata.uid = r.metadata.uid
  labels : q.metadata.labels = r.metadata.labels
  annotations : q.metadata.annotations = r.metadata.annotations
  deletedAt : q.metadata.deletedAt = r.metadata.deletedAt
  /-- The finalizers of others, in the same order. -/
  finalizers : q.metadata.finalizers.filter (· != k.finalizer) =
    r.metadata.finalizers.filter (· != k.finalizer)
  spec : Spec.Tended k r.spec q.spec
  status : Status.Tended k r.status q.status

theorem Tended.refl (r : Record k) : r.Tended r :=
  ⟨rfl, rfl, rfl, rfl, rfl, rfl, rfl, .of_eq rfl, .refl _⟩

theorem Tended.trans (h : r.Tended q) (h' : q.Tended p) : r.Tended p where
  apiVersion := h'.apiVersion.trans h.apiVersion
  key := h'.key.trans h.key
  uid := h'.uid.trans h.uid
  labels := h'.labels.trans h.labels
  annotations := h'.annotations.trans h.annotations
  deletedAt := h'.deletedAt.trans h.deletedAt
  finalizers := h'.finalizers.trans h.finalizers
  spec := h.spec.trans h'.spec
  status := h.status.trans h'.status

theorem tended_bumped_of_status {s : Status k} (h : Status.Tended k r.status s) :
    r.Tended { r with status := s }.bumped :=
  ⟨rfl, rfl, rfl, rfl, rfl, rfl, rfl, .of_eq rfl, h⟩

theorem tended_consumed (r : Record k) : r.Tended r.consumed := by
  cases k with
  | deployment =>
    simp only [consumed]
    split
    · next hf => exact ⟨rfl, rfl, rfl, rfl, rfl, rfl, rfl, .inr ⟨hf, rfl⟩, .refl _⟩
    · exact .refl r
  | _ => exact .refl r

theorem tended_frozenBy (sys : String) (r : Record k) : r.Tended (r.frozenBy sys) := by
  unfold frozenBy
  split
  · exact tended_bumped_of_status (Status.tended_prepared sys r.spec r.status)
  · exact .refl r

theorem tended_guarded (r : Record k) : r.Tended r.guarded := by
  unfold guarded
  split
  · exact .refl r
  · next hf =>
    have hm : r.withFinalizer.metadata =
        { r.metadata with finalizers := r.metadata.finalizers ++ [k.finalizer] } := if_neg hf
    refine ⟨rfl, key_withFinalizer r, ?_, ?_, ?_, ?_, ?_, .of_eq rfl, .refl _⟩ <;>
      simp [bumped, hm]

theorem tended_readied (sys : String) (r : Record k) : r.Tended (r.readied sys) :=
  (tended_frozenBy sys r).trans (tended_guarded _)

theorem tended_settled (r : Record k) : r.Tended r.settled := by
  unfold settled
  split
  · exact .refl r
  · next ha =>
    have ha : Status.available k r.status = false := Bool.eq_false_iff.2 ha
    exact tended_bumped_of_status ⟨.inl (Status.frozen?_published _),
      .inl (Status.secretNamespace_published _), .inr ⟨ha, Status.available_published _⟩⟩

theorem tended_released (r : Record k) : r.Tended r.released := by
  refine ⟨rfl, rfl, rfl, rfl, rfl, rfl, ?_, .of_eq rfl, .refl _⟩
  simp [finalizers_released]

theorem Tended.of_underway {sys : String} (h : Reconcile.Underway sys r q) : r.Tended q := by
  cases h with
  | untouched => exact .refl r
  | frozen => exact tended_frozenBy sys r
  | ready => exact tended_readied sys r

end Record

namespace Store

variable {k : Kind} {r : Record k} {s t : Store}

/-- The record is kept as it has become, or lets go of its finalizer. -/
inductive Tends (r : Record k) (s : Store) : Store → Prop
  | kept {q : Record k} (hq : r.Tended q) : Tends r s (s.keep q)
  | released {q : Record k} (hq : r.Tended q) (hd : r.beingDeleted = true)
      (hf : r.hasFinalizer = true) : Tends r s (s.accept q.released)

theorem Tends.get?_of_ne (h : Tends r s t) {key : Key} (hne : key ≠ r.key) :
    t.get? key = s.get? key := by
  cases h with
  | @kept q hq => rw [get?_keep, if_neg (hq.key.symm ▸ hne)]
  | @released q hq hd hf => exact get?_accept_of_ne s (by rwa [Record.key_released, hq.key])

theorem Tends.tended (h : Tends r s t) {stored : AnyRecord} (hs : t.get? r.key = some stored) :
    ∃ q : Record k, stored = ⟨k, q⟩ ∧ r.Tended q := by
  cases h with
  | @kept q hq =>
    rw [← hq.key, get?_keep, if_pos rfl] at hs
    cases hs
    exact ⟨q, rfl, hq⟩
  | @released q hq hd hf =>
    have hreleased := hq.trans q.tended_released
    rw [← hreleased.key] at hs
    rcases get?_accept_self s q.released with hn | hn <;> rw [hn] at hs
    · cases hs
    · cases hs
      exact ⟨q.released, rfl, hreleased⟩

theorem Tends.gone (h : Tends r s t) (hn : t.get? r.key = none) : r.beingDeleted = true ∧
    r.hasFinalizer = true ∧ ∀ token ∈ r.metadata.finalizers, token = k.finalizer := by
  cases h with
  | @kept q hq =>
    rw [← hq.key, get?_keep, if_pos rfl] at hn
    cases hn
  | @released q hq hd hf =>
    refine ⟨hd, hf, ?_⟩
    have hdq : q.beingDeleted = true := (congrArg Option.isSome hq.deletedAt).trans hd
    rw [← hq.key, get?_accept_released s hdq, Record.finalizers_released, hq.finalizers] at hn
    split at hn
    · next hnil =>
      intro token htoken
      simpa using List.filter_eq_nil_iff.1 hnil token htoken
    · cases hn

theorem Tends.refl (hr : s.Holds r) : Tends r s s := by
  have h : Tends r s (s.keep r) := .kept (.refl r)
  rwa [keep_of_holds hr] at h

/-- What is found after an accepted write depends on what was found there before. -/
theorem get?_accept_congr {key : Key} (h : t.get? key = s.get? key) (r : Record k) :
    (t.accept r).get? key = (s.accept r).get? key := by
  unfold accept
  split <;> simp [h]

end Store

namespace Reconcile

open World (KeepsRecords)
open Store (Tends)

variable {τ : Type} {w : World Store τ} {sys : String} {k : Kind} {r q : Record k}

theorem Established.tends {Done : World Store τ → Prop}
    {y : Except ReconcileError Unit × World Store τ} (hq : r.Tended q)
    (h : Established sys q (w.keep q) Done y) : Tends r w.records y.2.records := by
  cases h with
  | @failed e p v hp hv =>
    have hp := Record.Tended.of_underway hp
    have hkeep : (w.records.keep q).keep p = w.records.keep p := Store.keep_keep _ hp.key
    rw [hv, World.records_keep, hkeep]
    exact .kept (hq.trans hp)
  | @done v hv hd =>
    have hp := (q.tended_readied sys).trans (q.readied sys).tended_settled
    have hkeep : ((w.records.keep q).keep (q.readied sys)).keep (q.readied sys).settled =
        w.records.keep (q.readied sys).settled := by
      rw [Store.keep_keep _ (Record.key_settled _), Store.keep_keep _ hp.key]
    have hrecords : (v.keep (q.readied sys).settled).records =
        w.records.keep (q.readied sys).settled := by
      rw [World.records_keep, hv, World.records_keep, hkeep]
    rw [hrecords]
    exact .kept (hq.trans hp)

/-- The deleted half: the finalizer goes after steps that write no record. -/
theorem removal_tends {x y : Run Store τ Unit} (hx : KeepsRecords x)
    (hy : y = if q.hasFinalizer then x >>= fun _ => dropFinalizer q else pure ())
    (hq : r.Tended q) (hd : r.beingDeleted = true) (hf : q.hasFinalizer = r.hasFinalizer) :
    Tends r w.records (y (w.keep q)).2.records := by
  have hr := World.holds_keep w q
  subst hy
  split
  · next hfin =>
    rcases hxw : x (w.keep q) with ⟨e | ⟨⟩, v⟩ <;> obtain ⟨hv, hrv⟩ := hx.holds hxw hr
    · rw [Step.bind_error hxw, hv]
      exact .kept hq
    · have haccept : (v.accept q.released).records = w.records.accept q.released := by
        rw [World.accept, hv]
        exact Store.accept_keep w.records q.key_released
      rw [Step.bind_ok hxw, dropFinalizer_eq hrv, haccept]
      exact .released hq hd (hf ▸ hfin)
  · exact .kept hq

/-- Reconciling a Director also writes the Director's own team. -/
theorem director_tends {r : Record .director} (hr : w.records.Holds r) :
    ∃ t, Tends r w.records t ∧
      ∀ key, key ≠ r.ownTeam.key → (director r w).2.records.get? key = t.get? key := by
  rw [director]
  split
  · next hd =>
    rw [removeDirector_eq hr]
    split
    · next hf =>
      split
      · exact ⟨w.records, .refl hr, fun key hne => Store.get?_delete_of_ne w.now hne⟩
      · exact ⟨w.records.accept r.released, .released (.refl r) hd hf, fun key hne =>
          Store.get?_accept_congr (Store.get?_delete_of_ne w.now hne) _⟩
    · exact ⟨w.records, .refl hr, fun _ _ => rfl⟩
  · rw [establishDirector_eq hr]
    refine ⟨w.records.keep r.guarded, .kept r.tended_guarded, fun key hne => ?_⟩
    exact Store.get?_create_of_ne (r := r.ownTeam) hne

variable [SecretStore τ]

theorem artifact_tends (sys : String) {a : ArtifactKind} (r : Record a.kind) (w : World Store τ) :
    Tends r w.records (artifact sys a r.consumed (w.keep r.consumed)).2.records := by
  rw [artifact, Record.beingDeleted_consumed]
  split
  · next hd =>
    have hx : KeepsRecords (σ := Store) (τ := τ) (do
        askDirectorOf sys a r.consumed
        Artifact.remove a r.consumed) :=
      (askDirectorOf_keepsRecords sys a _).bind fun _ => Artifact.remove_keepsRecords a _
    refine removal_tends hx ?_ r.tended_consumed hd r.hasFinalizer_consumed
    simp only [removeArtifact, bind_assoc]
  · exact (establishArtifact_established sys (World.holds_keep w _)).tends r.tended_consumed

theorem team_tends (sys : String) (r : Record .team) (w : World Store τ) :
    Tends r w.records (team sys r (w.keep r)).2.records := by
  rw [team]
  split
  · next hd =>
    have hx : KeepsRecords (σ := Store) (τ := τ) (do
        askIdentityOf sys r
        World.onIdentity (Identity.removeClient r.internalName)
        World.onSecrets (SecretStore.deleteIfStored ⟨r.secretNamespace, r.internalName⟩)) :=
      (askIdentityOf_keepsRecords sys r).bind fun _ =>
        (KeepsRecords.onIdentity _).bind fun _ => .onSecrets _
    refine removal_tends hx ?_ (.refl r) hd rfl
    simp only [removeTeam, bind_assoc]
  · have hr : (w.keep r).records.Holds r := World.holds_keep w r
    exact (establishTeam_established sys hr).tends (.refl r)

end Reconcile

variable {τ : Type} [SecretStore τ] {w : World Store τ} {k : Kind} {r : Record k}

theorem reconcile_tends (sys : String) (hw : w.records.WellFormed) (hr : w.records.Holds r) :
    ∃ t, Store.Tends r w.records t ∧ ∀ key, (k = .director → key ≠ ⟨.team, r.metadata.ns,
        "director-" ++ r.metadata.name ++ "-team"⟩) →
      (reconcile sys r.key w).2.records.get? key = t.get? key := by
  by_cases hm : Reconcile.Misplaced sys r
  · rw [reconcile_of_misplaced hr hm]
    exact ⟨w.records, .refl hr, fun _ _ => rfl⟩
  · induction k, r using Reconcile.kindCases with
    | director r =>
      rw [reconcile_of_director hr hm]
      obtain ⟨t, ht, hsame⟩ := Reconcile.director_tends hr
      exact ⟨t, ht, fun key hne => hsame key (hne rfl)⟩
    | team r =>
      have ht := Reconcile.team_tends sys r w
      rw [World.keep_of_holds hr, ← reconcile_of_team hr] at ht
      exact ⟨_, ht, fun _ _ => rfl⟩
    | role r =>
      rw [reconcile_of_role hr]
      exact ⟨w.records, .refl hr, fun _ _ => rfl⟩
    | artifact a r =>
      rw [reconcile_of_artifact hw hr hm]
      exact ⟨_, Reconcile.artifact_tends sys r w, fun _ _ => rfl⟩

/-- Whether it succeeds or fails, a reconcile leaves all stored records but its own as they are,
save for the own team of a Director. Its own record keeps all that is the owner's, and goes away
only if it was marked for deletion and held by no finalizer but its own. -/
theorem reconcile_owns (sys : String) (hw : w.records.WellFormed) (key : Key) :
    (∀ key', key' ≠ key →
      (key.kind = .director → key' ≠ ⟨.team, key.ns, "director-" ++ key.name ++ "-team"⟩) →
        (reconcile sys key w).2.records.get? key' = w.records.get? key') ∧
    (w.records.get? key = none → (reconcile sys key w).2.records.get? key = none) ∧
    ∀ (k : Kind) (r : Record k), w.records.get? key = some ⟨k, r⟩ →
      (∀ stored, (reconcile sys key w).2.records.get? key = some stored →
        ∃ q : Record k, stored = ⟨k, q⟩ ∧ r.Tended q) ∧
      ((reconcile sys key w).2.records.get? key = none → r.beingDeleted = true ∧
        r.hasFinalizer = true ∧ ∀ token ∈ r.metadata.finalizers, token = k.finalizer) := by
  cases hg : w.records.get? key with
  | none =>
    rw [reconcile_of_none hg]
    exact ⟨fun _ _ _ => rfl, fun _ => hg, fun k r h => nomatch h⟩
  | some q =>
    obtain ⟨k, r⟩ := q
    obtain rfl : r.key = key := hw.key_eq hg
    obtain ⟨t, ht, hsame⟩ := reconcile_tends sys hw hg
    have hown := hsame r.key (by rintro rfl h; cases congrArg Key.kind h)
    refine ⟨fun key' hne hteam => (hsame key' hteam).trans (ht.get?_of_ne hne), nofun, ?_⟩
    rintro k' r' h
    cases h
    rw [hown]
    exact ⟨fun stored hs => ht.tended hs, ht.gone⟩

/-- The AZ gets its finalizer, and the team beside it stays as it is. -/
theorem reconcile_owns_small :
    (reconcile "sys" Small.az.key Small.world).2.records.get? Small.team.key =
      Small.world.records.get? Small.team.key ∧
    ∃ r q : Record .az, Small.world.records.get? Small.az.key = some ⟨.az, r⟩ ∧
      (reconcile "sys" Small.az.key Small.world).2.records.get? Small.az.key = some ⟨.az, q⟩ ∧
      r.Tended q ∧ r.metadata.finalizers = [] ∧
      q.metadata.finalizers = ["az.finalizers.boshsync.io"] := by
  obtain ⟨hothers, -, hown⟩ := reconcile_owns "sys" Small.wellFormed_world Small.az.key
  obtain ⟨r, hr, hfinalizers⟩ : ∃ r : Record .az,
      Small.world.records.get? Small.az.key = some ⟨.az, r⟩ ∧ r.metadata.finalizers = [] :=
    ⟨_, rfl, rfl⟩
  have hafter : ((reconcile "sys" Small.az.key Small.world).2.records.get? Small.az.key).map
      (·.metadata.finalizers) = some ["az.finalizers.boshsync.io"] := by rfl
  obtain ⟨stored, hstored, hguard⟩ := Option.map_eq_some_iff.1 hafter
  obtain ⟨q, rfl, htended⟩ := (hown .az r hr).1 stored hstored
  exact ⟨hothers _ (by decide) nofun, r, q, hr, hstored, htended, hfinalizers, hguard⟩

end Reconciliation
