import Reconciliation.Proofs.Deletion

namespace Reconciliation.Reconcile

open World (KeepsRecords)

variable {τ : Type} [SecretStore τ] {w : World Store τ} {sys : String} {k : Kind}

/-- How far a live record may have come when its reconcile fails. -/
inductive Underway (sys : String) (r : Record k) : Record k → Prop
  | untouched : Underway sys r r
  | frozen : Underway sys r (r.frozenBy sys)
  | ready : Underway sys r (r.readied sys)

/-- What a reconcile does for a live record: it is published in a world in which all is done. -/
inductive Established (sys : String) (r : Record k) (w : World Store τ)
    (Done : World Store τ → Prop) : Except ReconcileError Unit × World Store τ → Prop
  | failed {e : ReconcileError} {q : Record k} {v : World Store τ} (hq : Underway sys r q)
      (hv : v.records = w.records.keep q) : Established sys r w Done (.error e, v)
  | done {v : World Store τ} (hv : v.records = w.records.keep (r.readied sys)) (hd : Done v) :
      Established sys r w Done (.ok (), v.keep (r.readied sys).settled)

/-- The object was brought into place, built from these records. -/
def Brought (a : ArtifactKind) (r : Record a.kind) (s : Store) (v : World Store τ) : Prop :=
  ∃ u, u.records = s ∧ Artifact.establish a r u = (.ok (), v)

theorem establishArtifact_established (sys : String) {a : ArtifactKind} {r : Record a.kind}
    (hr : w.records.Holds r) :
    Established sys r w (Brought a (r.readied sys) (w.records.keep (r.readied sys)))
      (establishArtifact sys a r w) := by
  rw [establishArtifact]
  rcases hask : askDirectorOf sys a r w with ⟨e | ⟨⟩, u⟩ <;>
    obtain ⟨hu, hru⟩ := (askDirectorOf_keepsRecords sys a r).holds hask hr
  · rw [Step.bind_error hask]
    exact .failed .untouched (hu.trans (Store.keep_of_holds hr).symm)
  · have hready : (u.keep (r.readied sys)).records = w.records.keep (r.readied sys) :=
      congrArg (Store.keep · (r.readied sys)) hu
    rw [Step.bind_ok hask, Step.bind_ok (freeze_eq hru sys),
      Step.bind_ok (attachFinalizer_frozenBy sys r u)]
    rcases hx : Artifact.establish a (r.readied sys) (u.keep (r.readied sys)) with ⟨e | ⟨⟩, v⟩ <;>
      obtain ⟨hv, hrv⟩ := (Artifact.establish_keepsRecords a _).holds hx (World.holds_keep u _)
    · rw [Step.bind_error hx]
      exact .failed .ready (hv.trans hready)
    · rw [Step.bind_ok hx, publish_eq hrv]
      exact .done (hv.trans hready) ⟨_, hready, hx⟩

/-- The client of the team is registered. -/
def Registered (r : Record .team) (v : World Store τ) : Prop :=
  v.identity.clients.contains r.internalName = true

theorem establishTeam_established (sys : String) {r : Record .team} (hr : w.records.Holds r) :
    Established sys r w (Registered r) (establishTeam sys r w) := by
  rw [establishTeam, Step.bind_ok (freeze_eq hr sys)]
  rcases hask : askIdentityOf sys (r.frozenBy sys) (w.keep (r.frozenBy sys)) with ⟨e | ⟨⟩, u⟩ <;>
    obtain ⟨hu, hru⟩ := (askIdentityOf_keepsRecords sys _).holds hask (World.holds_keep w _)
  · rw [Step.bind_error hask]
    exact .failed .frozen hu
  · have hready : (u.keep (r.readied sys)).records = w.records.keep (r.readied sys) := by
      rw [World.records_keep, hu]
      exact Store.keep_keep w.records (Record.key_guarded _)
    have hattach : attachFinalizer (r.frozenBy sys) u =
        (.ok (r.readied sys), u.keep (r.readied sys)) := attachFinalizer_eq hru
    rw [Step.bind_ok hask, Step.bind_ok hattach]
    rcases hs : World.onSecretSupply (SecretStore.getOrGenerate
        ⟨(r.readied sys).secretNamespace, (r.readied sys).internalName⟩) (u.keep (r.readied sys))
      with ⟨e | secret, t⟩ <;>
      obtain ⟨ht, hrt⟩ := (KeepsRecords.onSecretSupply _).holds hs (World.holds_keep u _)
    · rw [Step.bind_error hs]
      exact .failed .ready (ht.trans hready)
    · rw [Step.bind_ok hs]
      rcases hc : World.onIdentity
          (Identity.ensureTeamClient (r.readied sys).internalName secret) t with ⟨e | ⟨⟩, v⟩ <;>
        obtain ⟨hv, hrv⟩ := (KeepsRecords.onIdentity _).holds hc hrt
      · rw [Step.bind_error hc]
        exact .failed .ready (hv.trans (ht.trans hready))
      · rw [Step.bind_ok hc, publish_eq hrv]
        refine .done (hv.trans (ht.trans hready)) ?_
        obtain ⟨i, hi, rfl⟩ := Step.ok_of_onPart hc
        obtain ⟨-, calls, rfl⟩ := Identity.ensureTeamClient_ok hi
        rw [Record.internalName_eq (r.key_readied sys)]
        simp [Registered, Identity.contains_withTeamClient]

end Reconciliation.Reconcile
