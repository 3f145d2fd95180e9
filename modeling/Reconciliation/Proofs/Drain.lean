import Reconciliation.Proofs.Convergence
import Reconciliation.Proofs.Deletion

/-! Where all records are to be deleted, one sweep removes them and takes away all that they stood
for. A sweep visits the kinds in the reverse order then, so that a record is visited only when
nothing is left that needs it: what the cleanup of a record relies on, its team, its Director and
their secrets, is still there. A Director's own team comes before the Director, which therefore
does not have to wait. -/
namespace Reconciliation

variable {w v u : World Store Secrets} {sys : String} {k : Kind}

theorem Possession.absent_iff {p : Possession} :
    p.Absent w.director w.identity ↔ ¬w.Has p := by
  cases p with
  | object h => exact Iff.rfl
  | client id => simp [Possession.Absent, World.Has]

theorem Record.cleared_iff {r : Record k} :
    r.Cleared w ↔ (∀ p, r.possession? = some p → ¬w.Has p) ∧
      ∀ n, r.secretName? = some n → w.secrets.get? n = none := by
  have hsecret : ∀ n, (SecretStore.get n w.secrets).1 = .error (.notFound n) ↔
      w.secrets.get? n = none := by
    intro n
    rw [SecretStore.get_apply, Secrets.lookup]
    cases w.secrets.get? n <;> simp
  constructor
  · intro h
    exact ⟨fun p hp => Possession.absent_iff.1 (h.absent p hp),
      fun n hn => (hsecret n).1 (h.secret n hn)⟩
  · rintro ⟨habsent, hnone⟩
    exact ⟨fun p hp => Possession.absent_iff.2 (habsent p hp),
      fun n hn => (hsecret n).2 (hnone n hn)⟩

/-- The record is to be deleted, and waits for its own finalizer only. -/
structure Record.Leaves (r : Record k) : Prop where
  deleted : r.beingDeleted = true
  guarded : r.hasFinalizer = true
  alone : ∀ token ∈ r.metadata.finalizers, token = k.finalizer

theorem Record.Leaves.consumed {r : Record k} (h : r.Leaves) : r.consumed.Leaves where
  deleted := by rw [beingDeleted_consumed, h.deleted]
  guarded := by rw [hasFinalizer_consumed, h.guarded]
  alone := by
    rw [finalizers_consumed]
    exact h.alone

/-- A record that waits for nothing else is removed with its finalizer. -/
theorem Record.Leaves.get?_accept {r : Record k} (h : r.Leaves) (s : Store) (key : Key) :
    (s.accept r.released).get? key = if key = r.key then none else s.get? key := by
  have hnone : r.released.metadata.finalizers = [] := by
    rw [finalizers_released, List.filter_eq_nil_iff]
    intro token htoken
    simp [h.alone token htoken]
  by_cases hkey : key = r.key
  · rw [if_pos hkey, hkey, Store.get?_accept_released s h.deleted, if_pos hnone]
  · rw [if_neg hkey]
    exact Store.get?_accept_of_ne s (by rwa [key_released])

/-- The world `u` is `w` after the record was removed, and with it all that it stood for. Nothing
was added. -/
structure World.Departed (w : World Store Secrets) (r : Record k) (u : World Store Secrets) :
    Prop where
  records : ∀ key, u.records.get? key = if key = r.key then none else w.records.get? key
  secrets : ∀ n, u.secrets.get? n = if r.secretName? = some n then none else w.secrets.get? n
  directorUp : u.director.failure = w.director.failure
  identityUp : u.identity.failure = w.identity.failure
  clientsUp : u.clients.failure = w.clients.failure
  has : ∀ p, u.Has p → w.Has p
  cleared : r.Cleared u

namespace Reconcile

open World (Departed)

theorem remove_of_none (h : w.director.failure = none) (a : ArtifactKind) (r : Record a.kind) :
    ∃ d, Artifact.remove a r w = (.ok (), w.withDirector d) ∧ d.failure = none ∧
      ∀ handle, d.Has handle → w.director.Has handle := by
  rw [Artifact.remove]
  cases Artifact.handle? a r with
  | none => exact ⟨w.director, rfl, h, fun _ hd => hd⟩
  | some handle =>
    obtain ⟨calls, hd⟩ := Director.remove_of_none h handle
    refine ⟨_, Step.onPart_ok hd, (Director.failure_without handle).trans h, fun handle' hhas => ?_⟩
    exact (Director.has_without ((Director.has_calls calls handle').1 hhas)).2

theorem removeArtifact_departed {a : ArtifactKind} {r : Record a.kind} (hr : w.records.Holds r)
    (hl : r.Leaves) (hup : w.director.failure = none)
    (hask : (askDirectorOf sys a r w).1 = .ok ()) :
    ∃ u, removeArtifact sys a r w = (.ok (), u) ∧ w.Departed r u := by
  obtain ⟨c, hc, hasked⟩ := askDirectorOf_snd sys a r w
  have hask' : askDirectorOf sys a r w = (.ok (), { w with clients := c }) := Prod.ext hask hasked
  obtain ⟨d, hremove, hfailure, hhas⟩ := remove_of_none (w := { w with clients := c }) hup a r
  have hcleared : r.Cleared ({ w with clients := c }.withDirector d) := remove_cleared hremove
  have hr' : ({ w with clients := c }.withDirector d).records.Holds r := hr
  rw [removeArtifact, if_pos hl.guarded, Step.bind_ok hask', Step.bind_ok hremove,
    dropFinalizer_eq hr']
  refine ⟨_, rfl, ?_⟩
  exact
    { records := fun key => hl.get?_accept w.records key
      secrets := fun n => by
        rw [Record.secretName?_artifact]
        rfl
      directorUp := hfailure.trans hup.symm
      identityUp := rfl
      clientsUp := hc
      has := fun p hp => by
        cases p with
        | object handle => exact hhas handle hp
        | client id => exact hp
      cleared := ⟨hcleared.absent, hcleared.secret⟩ }

theorem removeTeam_departed {r : Record .team} (hr : w.records.Holds r) (hl : r.Leaves)
    (hup : w.identity.failure = none) (hask : (askIdentityOf sys r w).1 = .ok ()) :
    ∃ u, removeTeam sys r w = (.ok (), u) ∧ w.Departed r u := by
  obtain ⟨c, hc, hasked⟩ := askIdentityOf_snd sys r w
  have hask' : askIdentityOf sys r w = (.ok (), { w with clients := c }) := Prod.ext hask hasked
  obtain ⟨i, hi, hclients, hfailure⟩ : ∃ i, Identity.removeClient r.internalName w.identity =
      (.ok (), i) ∧ i.clients = w.identity.clients.erase r.internalName ∧
        i.failure = w.identity.failure := by
    obtain ⟨calls, hi⟩ := Identity.removeClient_of_none hup r.internalName
    exact ⟨_, hi, rfl, rfl⟩
  let asked : World Store Secrets := { w with clients := c }
  let dismissed : World Store Secrets := { asked with identity := i }
  let forgotten : World Store Secrets :=
    { dismissed with secrets := w.secrets.erase ⟨r.secretNamespace, r.internalName⟩ }
  have hremove : World.onIdentity (Identity.removeClient r.internalName) asked =
      (.ok (), dismissed) := Step.onPart_ok hi
  have hforget : World.onSecrets
      (SecretStore.deleteIfStored ⟨r.secretNamespace, r.internalName⟩) dismissed =
      (.ok (), forgotten) := World.onSecrets_ok (SecretStore.deleteIfStored_apply _ _)
  have hdrop : dropFinalizer r forgotten = (.ok (), forgotten.accept r.released) :=
    dropFinalizer_eq hr
  have hsecrets : ∀ n, forgotten.secrets.get? n =
      if r.secretName? = some n then none else w.secrets.get? n := by
    intro n
    have hname : r.secretName? = some n ↔ n = ⟨r.secretNamespace, r.internalName⟩ := by
      rw [show r.secretName? = some ⟨r.secretNamespace, r.internalName⟩ from rfl, eq_comm]
      exact Option.some_inj
    simp only [hname]
    exact Table.get?_erase _ _ _
  refine ⟨forgotten.accept r.released, ?_, ?_⟩
  · rw [removeTeam, if_pos hl.guarded, Step.bind_ok hask', Step.bind_ok hremove,
      Step.bind_ok hforget, hdrop]
  · exact
      { records := fun key => hl.get?_accept w.records key
        secrets := hsecrets
        directorUp := rfl
        identityUp := hfailure
        clientsUp := hc
        has := fun p hp => by
          cases p with
          | object handle => exact hp
          | client id =>
            have hp : i.clients.contains id = true := hp
            rw [hclients, Table.contains_erase, Bool.and_eq_true] at hp
            exact hp.2
        cleared := by
          refine Record.cleared_iff.2 ⟨fun p hp hhas => ?_, fun n hn => ?_⟩
          · cases hp
            have hhas : i.clients.contains r.internalName = true := hhas
            simp [hclients] at hhas
          · exact (hsecrets n).trans (if_pos hn) }

theorem removeDirector_departed {r : Record .director} (hr : w.records.Holds r) (hl : r.Leaves)
    (hown : ¬w.records.Stored r.ownTeam.key) :
    ∃ u, removeDirector r w = (.ok (), u) ∧ w.Departed r u := by
  have hnone : w.records.get? r.ownTeam.key = none := by simpa [Store.Stored] using hown
  have hsame : withoutTeam r w = w := by rw [withoutTeam, Store.delete_of_none hnone]
  have hremove : removeDirector r w = (.ok (), w.accept r.released) := by
    rw [removeDirector_eq hr, if_pos hl.guarded, hsame, hnone, if_neg (by simp)]
  refine ⟨_, hremove, ?_⟩
  exact
    { records := fun key => hl.get?_accept w.records key
      secrets := fun _ => rfl
      directorUp := rfl
      identityUp := rfl
      clientsUp := rfl
      has := fun _ hp => hp
      cleared := by
        constructor
        · intro p hp
          cases hp
        · intro n hn
          cases hn }

end Reconcile

/-- Every record is to be deleted and waits for its own finalizer only, there are no roles, the
remote services answer, and the credentials for the cleanup of every record are there. -/
structure World.Leaving (sys : String) (w : World Store Secrets) : Prop where
  wellFormed : w.records.WellFormed
  deleted : ∀ {k : Kind} {r : Record k}, w.records.Holds r → r.beingDeleted = true
  alone : ∀ {k : Kind} {r : Record k}, w.records.Holds r →
    ∀ token ∈ r.metadata.finalizers, token = k.finalizer
  roles : ∀ {r : Record .role}, ¬w.records.Holds r
  directorUp : w.director.failure = none
  identityUp : w.identity.failure = none
  clientsUp : w.clients.failure = none
  /-- The admin secret of a Director is not that of a team, which goes away earlier. -/
  directors : ∀ {d : Record .director}, w.records.Holds d → d.metadata.ns = sys ∧
    (w.secrets.get? ⟨sys, (d.spec : DirectorSpec).uaaClientSecret⟩).isSome = true ∧
    ∀ {t : Record .team}, w.records.Holds t →
      t.secretName? ≠ some ⟨sys, (d.spec : DirectorSpec).uaaClientSecret⟩
  teams : ∀ {t : Record .team}, w.records.Holds t → t.frozen?.isSome = true ∧
    w.records.Stored ⟨.director, sys, (t.effective : TeamSpec).director⟩
  compilations : ∀ {r : Record .compilation}, w.records.Holds r → r.metadata.ns = sys ∧
    w.records.Stored ⟨.director, sys, (r.effective : CompilationSpec).director⟩
  /-- Any other artifact is in the namespace of exactly one team. -/
  tenants : ∀ {a : ArtifactKind} {r : Record a.kind}, a ≠ .compilation → w.records.Holds r →
    ∃ t : Record .team, w.records.Holds t ∧ t.metadata.ns = r.metadata.ns ∧
      (∀ name, w.records.Stored ⟨.team, r.metadata.ns, name⟩ → name = t.metadata.name) ∧
      (w.secrets.get? ⟨t.secretNamespace, t.internalName⟩).isSome = true

namespace World

/-- No stored record is of a later kind. -/
def Last (w : World Store Secrets) (k : Kind) : Prop :=
  ∀ {key : Key}, w.records.Stored key → key.kind.place ≤ k.place

theorem Last.not_stored (h : w.Last k) {key : Key} (hk : k.place < key.kind.place) :
    ¬w.records.Stored key := fun hstored => Nat.not_le_of_lt hk (h hstored)

theorem Last.not_holds (h : w.Last k) {k' : Kind} (hk : k.place < k'.place) {q : Record k'} :
    ¬w.records.Holds q := fun hq => Nat.not_le_of_lt hk (h hq.stored)

namespace Leaving

variable (hw : w.Leaving sys)

include hw

theorem leaves {r : Record k} (hr : w.records.Holds r) : r.Leaves where
  deleted := hw.deleted hr
  guarded := by
    obtain ⟨token, htoken⟩ :=
      List.exists_mem_of_ne_nil _ (hw.wellFormed.marked hr (hw.deleted hr))
    have hmem : k.finalizer ∈ r.metadata.finalizers := hw.alone hr token htoken ▸ htoken
    simpa [Record.hasFinalizer, Metadata.hasFinalizer] using hmem
  alone := hw.alone hr

theorem accessible : w.Accessible sys where
  wellFormed := hw.wellFormed
  clientsUp := hw.clientsUp
  adminSecrets hd := (hw.directors hd).2.1

theorem directorEndpoint {a : ArtifactKind} {r : Record a.kind} (hr : w.records.Holds r) :
    Step.Answers (Credentials.directorEndpoint sys (Artifact.scope a r)) w := by
  by_cases ha : a = .compilation
  · subst ha
    exact hw.accessible.adminEndpoint (hw.compilations hr).2
  · obtain ⟨t, ht, hns, hu, hsecret⟩ := hw.tenants ha hr
    rw [Artifact.scope_of_ne ha, ← hns]
    rw [← hns] at hu
    exact hw.accessible.teamEndpoint ht (hw.teams ht).1 (hw.teams ht).2 hsecret hu

theorem not_misplaced {r : Record k} (hr : w.records.Holds r) :
    ¬Reconcile.Misplaced sys r := by
  rintro ⟨rfl | rfl, hns⟩
  · exact hns (hw.directors hr).1
  · exact hns (hw.compilations hr).1

end Leaving

theorem Departed.of_consumed {r : Record k} (h : (w.keep r.consumed).Departed r.consumed u) :
    w.Departed r u where
  records key := by
    rw [h.records, records_keep, Store.get?_keep, Record.key_consumed]
    by_cases hkey : key = r.key
    · rw [if_pos hkey, if_pos hkey]
    · rw [if_neg hkey, if_neg hkey, if_neg hkey]
  secrets n := by
    rw [h.secrets, Record.secretName?_consumed]
    rfl
  directorUp := h.directorUp
  identityUp := h.identityUp
  clientsUp := h.clientsUp
  has p hp := by
    have hp' := h.has p hp
    cases p <;> exact hp'
  cleared := by
    refine ⟨fun p hp => h.cleared.absent p ?_, fun n hn => h.cleared.secret n ?_⟩
    · rwa [Record.possession?_consumed]
    · rwa [Record.secretName?_consumed]

end World

open Reconcile in
/-- A record that nothing needs any more is removed by its reconcile. -/
theorem reconcile_departed (hw : w.Leaving sys) {r : Record k} (hr : w.records.Holds r)
    (hlast : w.Last k) : ∃ u, reconcile sys r.key w = (.ok (), u) ∧ w.Departed r u := by
  have hl : r.Leaves := hw.leaves hr
  have hm : ¬Misplaced sys r := hw.not_misplaced hr
  induction k, r using kindCases with
  | director r =>
    rw [reconcile_of_deleted_director hr hm hl.deleted]
    have hteam : r.ownTeam.key.kind ≠ .director := Kind.noConfusion
    exact removeDirector_departed hr hl (hlast.not_stored (Kind.place_director_lt hteam))
  | team r =>
    rw [reconcile_of_deleted_team hr hl.deleted]
    obtain ⟨hfrozen, hdirector⟩ := hw.teams hr
    exact removeTeam_departed hr hl hw.identityUp (hw.accessible.askIdentityOf hfrozen hdirector)
  | role r => exact absurd hr hw.roles
  | artifact a r =>
    have hask : (askDirectorOf sys a r.consumed (w.keep r.consumed)).1 = .ok () := by
      rw [askDirectorOf_fst sys (Artifact.sameAccess_keep w r.consumed) (Artifact.scope_consumed r)]
      exact hw.accessible.askDirectorOf (hw.directorEndpoint hr)
    have hr' : (w.keep r.consumed).records.Holds r.consumed := World.holds_keep w _
    obtain ⟨u, hu, hdeparted⟩ := removeArtifact_departed hr' hl.consumed hw.directorUp hask
    rw [reconcile_of_deleted_artifact hw.wellFormed hr hm hl.deleted]
    exact ⟨u, hu, hdeparted.of_consumed⟩

namespace World.Departed

variable {r : Record k} (hd : w.Departed r u)

include hd

theorem holds {k' : Kind} {q : Record k'} (hq : u.records.Holds q) :
    q.key ≠ r.key ∧ w.records.Holds q := by
  have hget := hd.records q.key
  rw [show u.records.get? q.key = some ⟨k', q⟩ from hq] at hget
  split at hget
  · cases hget
  · next hne => exact ⟨hne, hget.symm⟩

theorem holds_of_ne {k' : Kind} {q : Record k'} (hq : w.records.Holds q) (hne : q.key ≠ r.key) :
    u.records.Holds q := by
  rw [Store.Holds, hd.records, if_neg hne]
  exact hq

theorem stored_iff {key : Key} : u.records.Stored key ↔ key ≠ r.key ∧ w.records.Stored key := by
  unfold Store.Stored
  rw [hd.records key]
  by_cases hkey : key = r.key <;> simp [hkey]

/-- Only teams take a secret with them. -/
theorem secrets_of_ne (hk : k ≠ .team) (n : SecretName) :
    u.secrets.get? n = w.secrets.get? n := by
  rw [hd.secrets, if_neg]
  cases k with
  | team => exact absurd rfl hk
  | _ => exact nofun

theorem cleared_of_cleared {k' : Kind} {q : Record k'} (hq : q.Cleared w) : q.Cleared u := by
  obtain ⟨habsent, hsecret⟩ := Record.cleared_iff.1 hq
  refine Record.cleared_iff.2 ⟨fun p hp hhas => habsent p hp (hd.has p hhas), fun n hn => ?_⟩
  rw [hd.secrets, hsecret n hn, ite_self]

end World.Departed

/-- What is left after the removal of a record that nothing needs is again on its way out. -/
theorem World.Leaving.departed (hw : w.Leaving sys) {r : Record k} (hr : w.records.Holds r)
    (hlast : w.Last k) (hd : w.Departed r u) : u.Leaving sys := by
  -- a Director goes away only after all that needs it
  have hdirector : ∀ {name : String} {k' : Kind} {q : Record k'}, u.records.Holds q →
      k' ≠ .director → w.records.Stored ⟨.director, sys, name⟩ →
        u.records.Stored ⟨.director, sys, name⟩ := by
    intro name k' q hq hk' hstored
    refine hd.stored_iff.2 ⟨?_, hstored⟩
    rintro hkey
    obtain rfl : Kind.director = k := congrArg Key.kind hkey
    exact hlast.not_holds (Kind.place_director_lt hk') (hd.holds hq).2
  constructor
  case wellFormed =>
    exact
      { key_eq := fun hget => by
          rw [hd.records] at hget
          split at hget
          · cases hget
          · exact hw.wellFormed.key_eq hget
        marked := fun hget => by
          rw [hd.records] at hget
          split at hget
          · cases hget
          · exact hw.wellFormed.marked hget }
  case deleted => exact fun hq => hw.deleted (hd.holds hq).2
  case alone => exact fun hq => hw.alone (hd.holds hq).2
  case roles => exact fun hq => hw.roles (hd.holds hq).2
  case directorUp => exact hd.directorUp.trans hw.directorUp
  case identityUp => exact hd.identityUp.trans hw.identityUp
  case clientsUp => exact hd.clientsUp.trans hw.clientsUp
  case directors =>
    intro d hq
    obtain ⟨hns, hsecret, hother⟩ := hw.directors (hd.holds hq).2
    refine ⟨hns, ?_, fun ht => hother (hd.holds ht).2⟩
    rw [hd.secrets, if_neg]
    · exact hsecret
    · cases k with
      | team => exact hother hr
      | _ => exact nofun
  case teams =>
    intro t hq
    obtain ⟨hfrozen, hstored⟩ := hw.teams (hd.holds hq).2
    exact ⟨hfrozen, hdirector hq Kind.noConfusion hstored⟩
  case compilations =>
    intro c hq
    obtain ⟨hns, hstored⟩ := hw.compilations (hd.holds hq).2
    exact ⟨hns, hdirector hq Kind.noConfusion hstored⟩
  case tenants =>
    intro a q ha hq
    obtain ⟨t, ht, hns, hu, hsecret⟩ := hw.tenants ha (hd.holds hq).2
    have hk : k ≠ .team := by
      rintro rfl
      exact hlast.not_holds a.place_team_lt (hd.holds hq).2
    have hne : t.key ≠ r.key := fun hkey => hk (congrArg Key.kind hkey).symm
    refine ⟨t, hd.holds_of_ne ht hne, hns, fun name hname => hu name (hd.stored_iff.1 hname).2, ?_⟩
    rw [hd.secrets_of_ne hk]
    exact hsecret

/-- These keys, sorted from the latest kind to the earliest, are all that is stored. Reconciling one
after the other succeeds and removes them all. -/
theorem World.Leaving.reconciles (hw : w.Leaving sys) {ks : List Key}
    (hsorted : ks.Pairwise fun a b => b.kind.place ≤ a.kind.place)
    (hall : ∀ {key : Key}, w.records.Stored key → key ∈ ks) :
    ∃ v, Reconciles sys ks w v ∧ (∀ key, v.records.get? key = none) ∧
      (∀ {k : Kind} {r : Record k}, w.records.Holds r → r.Cleared v) ∧
      ∀ {k : Kind} {r : Record k}, r.Cleared w → r.Cleared v := by
  induction ks generalizing w with
  | nil =>
    have hempty : ∀ key, w.records.get? key = none := by
      intro key
      by_contra hne
      exact List.not_mem_nil (hall (Option.isSome_iff_ne_none.2 hne))
    refine ⟨w, .nil w, hempty, fun hr => ?_, fun hc => hc⟩
    rw [Store.Holds, hempty] at hr
    cases hr
  | cons key ks ih =>
    by_cases hstored : w.records.Stored key
    · obtain ⟨k, r, hr, rfl⟩ := hw.wellFormed.exists_holds hstored
      have hlast : w.Last k := by
        intro key' hstored'
        rcases List.mem_cons.1 (hall hstored') with rfl | hmem
        · exact Nat.le_refl _
        · exact List.rel_of_pairwise_cons hsorted hmem
      obtain ⟨u, hu, hd⟩ := reconcile_departed hw hr hlast
      have hall' : ∀ {key' : Key}, u.records.Stored key' → key' ∈ ks := by
        intro key' hstored'
        obtain ⟨hne, hw'⟩ := hd.stored_iff.1 hstored'
        exact List.mem_of_ne_of_mem hne (hall hw')
      obtain ⟨v, hvisits, hempty, hcleared, hstays⟩ :=
        ih (hw.departed hr hlast hd) hsorted.of_cons hall'
      refine ⟨v, .cons hu hvisits, hempty, fun {k' q} hq => ?_, fun hc => ?_⟩
      · by_cases hkey : q.key = r.key
        · cases hr.unique hq hkey
          exact hstays hd.cleared
        · exact hcleared (hd.holds_of_ne hq hkey)
      · exact hstays (hd.cleared_of_cleared hc)
    · have hnone : w.records.get? key = none := by simpa [Store.Stored] using hstored
      have hall' : ∀ {key' : Key}, w.records.Stored key' → key' ∈ ks := by
        intro key' hstored'
        refine List.mem_of_ne_of_mem ?_ (hall hstored')
        rintro rfl
        exact hstored hstored'
      obtain ⟨v, hvisits, hend⟩ := ih hw hsorted.of_cons hall'
      exact ⟨v, .cons (reconcile_of_none hnone) hvisits, hend⟩

/-- Where all records are to be deleted, one sweep succeeds and leaves nothing behind: no record,
and neither an object, a client nor a secret of any of them. -/
theorem sweep_drains (hw : w.Leaving sys) :
    SweepSucceeds sys w ∧ (∀ key, (sweep sys w).2.records.get? key = none) ∧
      ∀ {k : Kind} {r : Record k}, w.records.Holds r →
        (∀ p, r.possession? = some p → ¬(sweep sys w).2.Has p) ∧
          ∀ n, r.secretName? = some n → (sweep sys w).2.secrets.get? n = none := by
  have hkeys : Sweep.keys w.records = (Sweep.listed w.records).reverse :=
    Sweep.keys_of_deleted fun hget => hw.deleted (hw.wellFormed.holds hget)
  have hsorted : (Sweep.keys w.records).Pairwise fun a b => b.kind.place ≤ a.kind.place := by
    rw [hkeys]
    exact List.pairwise_reverse.2 (Sweep.sorted_listed hw.wellFormed)
  have hall : ∀ {key : Key}, w.records.Stored key → key ∈ Sweep.keys w.records := by
    intro key hstored
    rw [hkeys, List.mem_reverse]
    exact (Sweep.mem_listed hw.wellFormed).2 hstored
  obtain ⟨v, hvisits, hempty, hcleared, -⟩ := hw.reconciles hsorted hall
  obtain ⟨hsucceeds, rfl⟩ := hvisits.sweep_eq
  exact ⟨hsucceeds, hempty, fun hr => Record.cleared_iff.1 (hcleared hr)⟩

namespace Small

/-- The record of each kind, frozen, to be deleted, and waiting for its finalizer. -/
def leaving (k : Kind) : Record k :=
  let r := (only k).prepared "sys"
  { r with metadata := { r.metadata with deletedAt := some ⟨0, 0⟩, finalizers := [k.finalizer] } }

/-- A Director, a team with a release, and the compilation workers, all on their way out. -/
def lastDay : World Store Secrets where
  records := ((((∅ : Store).keep (leaving .director)).keep (leaving .team)).keep
    (leaving .release)).keep (leaving .compilation)
  secrets := ((∅ : Secrets).insert ⟨"sys", "s"⟩ "x").insert ⟨"sys", "team.team-a.t"⟩ "y"
  director := { releases := (∅ : Table ReleaseRef Unit).insert ⟨"r", "1"⟩ () }
  identity := ({} : Identity).withTeamClient "team.team-a.t" "y"
  now := ⟨0, 0⟩

theorem holds_lastDay {k : Kind} {r : Record k} (h : lastDay.records.Holds r) :
    k ∈ [Kind.director, .team, .release, .compilation] ∧ r = leaving k := by
  simp only [lastDay, Store.Holds, Store.get?_keep] at h
  split at h
  · cases h
    exact ⟨by decide, rfl⟩
  split at h
  · cases h
    exact ⟨by decide, rfl⟩
  split at h
  · cases h
    exact ⟨by decide, rfl⟩
  split at h
  · cases h
    exact ⟨by decide, rfl⟩
  cases h

theorem wellFormed_lastDay : lastDay.records.WellFormed := by
  have hmarked : ∀ k, (leaving k).beingDeleted = true → (leaving k).metadata.finalizers ≠ [] :=
    fun k _ => List.cons_ne_nil _ _
  exact (((Store.wellFormed_empty.keep (hmarked _)).keep (hmarked _)).keep (hmarked _)).keep
    (hmarked _)

theorem leaving_lastDay : lastDay.Leaving "sys" where
  wellFormed := wellFormed_lastDay
  deleted h := by
    rw [(holds_lastDay h).2]
    rfl
  alone h token htoken := by
    rw [(holds_lastDay h).2] at htoken
    exact List.mem_singleton.1 htoken
  roles h := absurd (holds_lastDay h).1 (by decide)
  directorUp := rfl
  identityUp := rfl
  clientsUp := rfl
  directors h := by
    obtain rfl := (holds_lastDay h).2
    refine ⟨rfl, rfl, fun ht => ?_⟩
    obtain rfl := (holds_lastDay ht).2
    have hne : some (⟨"sys", "team.team-a.t"⟩ : SecretName) ≠ some ⟨"sys", "s"⟩ := by decide
    exact hne
  teams h := by
    obtain rfl := (holds_lastDay h).2
    exact ⟨rfl, rfl⟩
  compilations h := by
    obtain rfl := (holds_lastDay h).2
    exact ⟨rfl, rfl⟩
  tenants {a r} ha h := by
    obtain ⟨hk, rfl⟩ := holds_lastDay h
    obtain rfl : a = .release := by
      cases a <;> first | rfl | exact absurd rfl ha | exact absurd hk (by decide)
    refine ⟨leaving .team, rfl, rfl, fun name hname => ?_, rfl⟩
    obtain ⟨t, ht, hkey⟩ := wellFormed_lastDay.holds_of_stored hname
    obtain rfl := (holds_lastDay ht).2
    exact (congrArg Key.name hkey).symm

end Small

theorem sweep_drains_small :
    SweepSucceeds "sys" Small.lastDay ∧
      (∀ key, (sweep "sys" Small.lastDay).2.records.get? key = none) ∧
      ¬(sweep "sys" Small.lastDay).2.Has (.object (.release ⟨"r", "1"⟩)) ∧
      ¬(sweep "sys" Small.lastDay).2.Has (.client "team.team-a.t") ∧
      (sweep "sys" Small.lastDay).2.secrets.get? ⟨"sys", "team.team-a.t"⟩ = none := by
  obtain ⟨hsucceeds, hempty, hgone⟩ := sweep_drains Small.leaving_lastDay
  have hteam : Small.lastDay.records.Holds (Small.leaving .team) := rfl
  have hrelease : Small.lastDay.records.Holds (Small.leaving .release) := rfl
  obtain ⟨hclient, hsecret⟩ := hgone hteam
  exact ⟨hsucceeds, hempty, (hgone hrelease).1 _ rfl, hclient _ rfl, hsecret _ rfl⟩

end Reconciliation
