import Reconciliation.Proofs.Frame
import Reconciliation.Proofs.Possession

namespace Reconciliation

/-- A secret store that no longer has a secret once its deletion was answered with success, or with
the answer that there is no such secret. -/
class LawfulSecretStore (τ : Type) [SecretStore τ] : Prop where
  get_of_deleted : ∀ {n : SecretName} {s t : τ} {x : Except SecretError Unit},
    SecretStore.delete n s = (x, t) → x = .ok () ∨ (∃ n', x = .error (.notFound n')) →
      (SecretStore.get n t).1 = .error (.notFound n)

instance : LawfulSecretStore Secrets where
  get_of_deleted {n s t x} h _ := by
    have hn : t.get? n = none := by
      simp only [SecretStore.delete, Step.mk_apply, Secrets.delete] at h
      split at h
      · cases h
        simp
      · next hc =>
        cases h
        simpa [Table.contains] using hc
    rw [SecretStore.get_apply, Secrets.lookup, hn]

theorem SecretStore.get_of_deleteIfStored {τ : Type} [SecretStore τ] [LawfulSecretStore τ]
    {n : SecretName} {s t : τ} (h : deleteIfStored n s = (.ok (), t)) :
    (SecretStore.get n t).1 = .error (.notFound n) := by
  simp only [deleteIfStored, Step.tolerate, Step.mk_apply] at h
  rcases hx : SecretStore.delete n s with ⟨e | ⟨⟩, t'⟩ <;> simp only [hx] at h
  · split at h
    · next hn =>
      cases h
      cases e with
      | notFound n' => exact LawfulSecretStore.get_of_deleted hx (.inr ⟨n', rfl⟩)
      | _ => cases hn
    · cases h
  · cases h
    exact LawfulSecretStore.get_of_deleted hx (.inl rfl)

open World (KeepsRecords)

/-- It is on neither remote service. -/
def Possession.Absent (d : Director) (i : Identity) : Possession → Prop
  | .object h => ¬d.Has h
  | .client id => i.clients.contains id = false

namespace Record

variable {k : Kind}

/-- The name of the secret that was generated for the record; only teams have one. -/
def secretName? : {k : Kind} → Record k → Option SecretName
  | .team, r => some ⟨r.secretNamespace, r.internalName⟩
  | _, _ => none

/-- Nothing is left of what the record stands for. -/
structure Cleared {τ : Type} [SecretStore τ] (r : Record k) (w : World Store τ) : Prop where
  absent : ∀ p, r.possession? = some p → p.Absent w.director w.identity
  secret : ∀ n, r.secretName? = some n → (SecretStore.get n w.secrets).1 = .error (.notFound n)

theorem secretName?_artifact (a : ArtifactKind) (r : Record a.kind) : r.secretName? = none := by
  cases a <;> rfl

theorem possession?_consumed (r : Record k) : r.consumed.possession? = r.possession? :=
  possession?_congr r.key_consumed (congrArg (Status.frozen? k) r.status_consumed)

theorem secretName?_consumed (r : Record k) : r.consumed.secretName? = r.secretName? := by
  cases k <;> rfl

end Record

namespace Reconcile

variable {τ : Type} [SecretStore τ] {w : World Store τ} {sys : String} {k : Kind}

/-- What a reconcile does for a record that is marked for deletion. -/
inductive Removed (r : Record k) (w : World Store τ) :
    Except ReconcileError Unit × World Store τ → Prop
  | idle (hf : r.hasFinalizer = false) : Removed r w (.ok (), w)
  | failed {e : ReconcileError} {v : World Store τ} (hf : r.hasFinalizer = true)
      (hv : v.records = w.records) : Removed r w (.error e, v)
  | done {v : World Store τ} (hf : r.hasFinalizer = true) (hv : v.records = w.records)
      (hc : r.Cleared v) : Removed r w (.ok (), v.accept r.released)

theorem remove_cleared {a : ArtifactKind} {r : Record a.kind} {v : World Store τ}
    (h : Artifact.remove a r w = (.ok (), v)) : r.Cleared v := by
  refine ⟨fun p hp => ?_, fun n hn => ?_⟩
  · rw [Record.possession?_artifact] at hp
    obtain ⟨handle, hhandle, rfl⟩ := Option.map_eq_some_iff.1 hp
    rw [Artifact.remove, hhandle] at h
    obtain ⟨d, hd, rfl⟩ := Step.ok_of_onPart h
    obtain ⟨calls, rfl⟩ := Director.remove_ok hd
    intro hhas
    exact (Director.has_without ((Director.has_calls calls handle).1 hhas)).1 rfl
  · rw [Record.secretName?_artifact] at hn
    cases hn

theorem removeArtifact_removed (sys : String) {a : ArtifactKind} {r : Record a.kind}
    (hr : w.records.Holds r) : Removed r w (removeArtifact sys a r w) := by
  rw [removeArtifact]
  split
  · next hf =>
    rcases hask : askDirectorOf sys a r w with ⟨e | ⟨⟩, u⟩ <;>
      obtain ⟨hu, hru⟩ := (askDirectorOf_keepsRecords sys a r).holds hask hr
    · rw [Step.bind_error hask]
      exact .failed hf hu
    · rw [Step.bind_ok hask]
      rcases hremove : Artifact.remove a r u with ⟨e | ⟨⟩, v⟩ <;>
        obtain ⟨hv, hrv⟩ := (Artifact.remove_keepsRecords a r).holds hremove hru
      · rw [Step.bind_error hremove]
        exact .failed hf (hv.trans hu)
      · rw [Step.bind_ok hremove, dropFinalizer_eq hrv]
        exact .done hf (hv.trans hu) (remove_cleared hremove)
  · next hf => exact .idle (Bool.eq_false_iff.2 hf)

/-- The client goes first, then the secret, and last the finalizer. -/
theorem removeTeam_removed [LawfulSecretStore τ] (sys : String) {r : Record .team}
    (hr : w.records.Holds r) : Removed r w (removeTeam sys r w) := by
  rw [removeTeam]
  split
  · next hf =>
    rcases hask : askIdentityOf sys r w with ⟨e | ⟨⟩, u⟩ <;>
      obtain ⟨hu, hru⟩ := (askIdentityOf_keepsRecords sys r).holds hask hr
    · rw [Step.bind_error hask]
      exact .failed hf hu
    · rw [Step.bind_ok hask]
      rcases hclient : World.onIdentity (Identity.removeClient r.internalName) u with
          ⟨e | ⟨⟩, v⟩ <;>
        obtain ⟨hv, hrv⟩ := (KeepsRecords.onIdentity _).holds hclient hru
      · rw [Step.bind_error hclient]
        exact .failed hf (hv.trans hu)
      · rw [Step.bind_ok hclient]
        rcases hsecret : World.onSecrets (σ := Store)
            (SecretStore.deleteIfStored ⟨r.secretNamespace, r.internalName⟩) v with ⟨e | ⟨⟩, t⟩ <;>
          obtain ⟨ht, hrt⟩ := (KeepsRecords.onSecrets _).holds hsecret hrv
        · rw [Step.bind_error hsecret]
          exact .failed hf (ht.trans (hv.trans hu))
        · rw [Step.bind_ok hsecret, dropFinalizer_eq hrt]
          refine .done hf (ht.trans (hv.trans hu)) ?_
          obtain ⟨i, hi, rfl⟩ := Step.ok_of_onPart hclient
          obtain ⟨calls, rfl⟩ := Identity.removeClient_ok hi
          obtain ⟨s, hs, rfl⟩ := World.ok_of_onSecrets hsecret
          constructor
          · rintro p hp
            cases hp
            simp [Possession.Absent]
          · rintro n hn
            cases hn
            exact SecretStore.get_of_deleteIfStored hs
  · next hf => exact .idle (Bool.eq_false_iff.2 hf)

theorem reconcile_removed [LawfulSecretStore τ] (hw : w.records.WellFormed) {r : Record k}
    (hr : w.records.Holds r) (hd : r.beingDeleted = true) (hk : k ≠ .director) (hk' : k ≠ .role)
    (hns : k = .compilation → r.metadata.ns = sys) :
    Removed r.consumed (w.keep r.consumed) (reconcile sys r.key w) := by
  have hm : ¬Misplaced sys r := by
    rintro ⟨h | h, hne⟩
    · exact hk h
    · exact hne (hns h)
  induction k, r using kindCases with
  | director r => exact absurd rfl hk
  | role r => exact absurd rfl hk'
  | team r =>
    have hkeep : w.keep r.consumed = w := World.keep_of_holds hr
    rw [reconcile_of_team hr, team, if_pos hd, hkeep]
    exact removeTeam_removed sys hr
  | artifact a r =>
    rw [reconcile_of_deleted_artifact hw hr hm hd]
    exact removeArtifact_removed sys (World.holds_keep w _)

end Reconcile

open Reconcile (Removed)

namespace Record

variable {k : Kind}

theorem consumed_of_ne (hk : k ≠ .deployment) (r : Record k) : r.consumed = r := by
  cases k with
  | deployment => exact absurd rfl hk
  | _ => rfl

theorem finalizers_released (r : Record k) :
    r.released.metadata.finalizers = r.metadata.finalizers.filter (· != k.finalizer) := rfl

end Record

/-- A released record stays stored only for the finalizers of others. -/
theorem Store.get?_accept_released {k : Kind} (s : Store) {r : Record k}
    (hd : r.beingDeleted = true) : (s.accept r.released).get? r.key =
      if r.released.metadata.finalizers = [] then none else some ⟨k, r.released⟩ := by
  have hd' : r.released.beingDeleted = true := hd
  simp only [accept, hd', Bool.true_and, List.isEmpty_iff]
  split
  · rw [Record.key_released, get?_without, if_pos rfl]
  · rw [get?_keep, Record.key_released, if_pos rfl]

/-- From any well-formed store, a record marked for deletion, other than a Director or a role, is
reconciled like this. Without its finalizer nothing happens, except that a deployment's force flag
is consumed. With it, a failure leaves all records as they are, that flag apart. A success takes
away the finalizer and none of the others, removes the record unless others hold it, leaves all
other records alone, and comes only after what the record stood for is gone: its object or client,
and the secret of a team. -/
theorem deletion_in_order {τ : Type} [SecretStore τ] [LawfulSecretStore τ] (sys : String)
    {w : World Store τ} (hw : w.records.WellFormed) {key : Key} {k : Kind} {r : Record k}
    (hr : w.records.get? key = some ⟨k, r⟩) (hd : r.beingDeleted = true) (hk : k ≠ .director)
    (hk' : k ≠ .role) (hns : k = .compilation → r.metadata.ns = sys) :
    (k ≠ .deployment → r.consumed = r) ∧
    (r.hasFinalizer = false → reconcile sys key w = (.ok (), w.keep r.consumed)) ∧
    (r.hasFinalizer = true → ∀ e u, reconcile sys key w = (.error e, u) →
      u.records = w.records.keep r.consumed ∧ r.consumed.hasFinalizer = true) ∧
    (r.hasFinalizer = true → ∀ u, reconcile sys key w = (.ok (), u) →
      (u.records.get? key = if r.metadata.finalizers.filter (· != k.finalizer) = [] then none
        else some ⟨k, r.consumed.released⟩) ∧
      r.consumed.released.metadata.finalizers =
        r.metadata.finalizers.filter (· != k.finalizer) ∧
      (∀ key', key' ≠ key → u.records.get? key' = w.records.get? key') ∧
      (∀ p, r.possession? = some p → p.Absent u.director u.identity) ∧
      ∀ n, r.secretName? = some n → (SecretStore.get n u.secrets).1 = .error (.notFound n)) := by
  obtain rfl : r.key = key := hw.key_eq hr
  have hremoved : Removed r.consumed (w.keep r.consumed) (reconcile sys r.key w) :=
    Reconcile.reconcile_removed hw hr hd hk hk' hns
  have hfin := r.hasFinalizer_consumed
  have hkept : r.consumed.released.metadata.finalizers =
      r.metadata.finalizers.filter (· != k.finalizer) := by
    rw [Record.finalizers_released, Record.finalizers_consumed]
  refine ⟨fun hk => Record.consumed_of_ne hk r, fun hf => ?_, fun hf e u h => ?_, fun hf u h => ?_⟩
  · rw [hf] at hfin
    generalize reconcile sys r.key w = y at hremoved
    cases hremoved with
    | idle => rfl
    | failed hf' => rw [hf'] at hfin; cases hfin
    | done hf' => rw [hf'] at hfin; cases hfin
  · rw [h] at hremoved
    cases hremoved with
    | failed hf' hv => exact ⟨hv, hf'⟩
  · rw [h] at hremoved
    rw [hf] at hfin
    cases hremoved with
    | idle hf' => rw [hf'] at hfin; cases hfin
    | @done v hf' hv hc =>
      have hd' : r.consumed.beingDeleted = true := by rw [Record.beingDeleted_consumed, hd]
      refine ⟨?_, hkept, fun key' hne => ?_, fun p hp => ?_, fun n hn => ?_⟩
      · have hget := Store.get?_accept_released v.records hd'
        rw [hkept, Record.key_consumed] at hget
        exact hget
      · have hne' : key' ≠ r.consumed.key := by rwa [Record.key_consumed]
        calc (v.records.accept r.consumed.released).get? key'
            = v.records.get? key' := Store.get?_accept_of_ne _ hne'
          _ = (w.records.keep r.consumed).get? key' := by rw [hv]; rfl
          _ = w.records.get? key' := by rw [Store.get?_keep, if_neg hne']
      · exact hc.absent p (by rwa [Record.possession?_consumed])
      · exact hc.secret n (by rwa [Record.secretName?_consumed])

namespace Small

/-- The team on its way out; its finalizer stands twice, and one of another owner between. -/
def leavingTeam : Record .team :=
  { team with
    metadata := { team.metadata with
      deletedAt := some ⟨0, 0⟩
      finalizers := [Kind.team.finalizer, "other", Kind.team.finalizer] } }

def farewell : World Store Secrets :=
  (world.keep leavingTeam).withIdentity
    (({} : Identity).withTeamClient leavingTeam.internalName "y")

end Small

theorem deletion_in_order_small :
    (reconcile "sys" Small.leavingTeam.key Small.farewell).1 = .ok () ∧
      ∃ u, reconcile "sys" Small.leavingTeam.key Small.farewell = (.ok (), u) ∧
        u.records.get? Small.leavingTeam.key = some ⟨.team, Small.leavingTeam.released⟩ ∧
        Small.leavingTeam.released.metadata.finalizers = ["other"] ∧
        u.identity.clients.contains "team.team-a.t" = false ∧
        u.secrets.lookup ⟨"sys", "team.team-a.t"⟩ =
          .error (.notFound ⟨"sys", "team.team-a.t"⟩) := by
  have hok : (reconcile "sys" Small.leavingTeam.key Small.farewell).1 = .ok () := by rfl
  obtain ⟨u, hu⟩ : ∃ u, reconcile "sys" Small.leavingTeam.key Small.farewell = (.ok (), u) :=
    ⟨_, Prod.ext hok rfl⟩
  have hw : Small.farewell.records.WellFormed := by
    refine Small.wellFormed_world.keep (r := Small.leavingTeam) fun _ h => ?_
    cases h
  have hr : Small.farewell.records.get? Small.leavingTeam.key =
      some ⟨.team, Small.leavingTeam⟩ := Store.holds_keep _ Small.leavingTeam
  have hfin : Small.leavingTeam.hasFinalizer = true := by decide
  have hothers : Small.leavingTeam.metadata.finalizers.filter (· != Kind.team.finalizer) =
      ["other"] := by decide
  obtain ⟨hstored, hkept, -, habsent, hsecret⟩ :=
    (deletion_in_order "sys" hw hr rfl Kind.noConfusion Kind.noConfusion
      fun h => Kind.noConfusion h).2.2.2 hfin u hu
  rw [hothers] at hstored hkept
  exact ⟨hok, u, hu, hstored, hkept, habsent _ rfl, hsecret _ rfl⟩

end Reconciliation
