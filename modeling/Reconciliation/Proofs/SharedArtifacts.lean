import Reconciliation.Proofs.Orphans

namespace Reconciliation

open World (outcome)

variable {w : World Store Secrets} {a : ArtifactKind} {r : Record a.kind}

/-- A record keeps what it stands for when its force flag is consumed. -/
theorem Artifact.handle?_consumed (r : Record a.kind) :
    Artifact.handle? a r.consumed = Artifact.handle? a r := by
  cases a with
  | deployment => simp only [handle?, Record.internalName_eq r.key_consumed]
  | _ => rfl

namespace Reconcile

theorem removeArtifact_takes (sys : String) (hr : w.records.Holds r) (x : RemoteHandle) :
    (removeArtifact sys a r w).2.director.Has x ↔ w.director.Has x ∧
      ¬((removeArtifact sys a r w).1 = .ok () ∧ r.hasFinalizer = true ∧
        Artifact.handle? a r = some x) := by
  have houtcome := removeArtifact_outcome sys hr
  have hfst : (removeArtifact sys a r w).1 = (outcome (removeArtifact sys a r) w).1 := rfl
  have hsnd : (removeArtifact sys a r w).2.director.Has x ↔
      (outcome (removeArtifact sys a r) w).2.director.Has x := Director.has_unlogged.symm
  have hsame : w.unlogged.director.Has x ↔ w.director.Has x := Director.has_unlogged
  rw [hfst, hsnd, houtcome]
  cases hf : r.hasFinalizer with
  | false => simp [hsame]
  | true =>
    cases hask : (askDirectorOf sys a r w).1 with
    | error e => simp [hsame]
    | ok _ =>
      cases hd : w.director.removed (Artifact.handle? a r) with
      | error e => simp [hsame]
      | ok d =>
        have htaken := Director.has_removed_iff (x := x) hd
        have hdirector : ((w.withDirector d).accept r.released).unlogged.director.Has x ↔ d.Has x :=
          Director.has_unlogged
        simp [hdirector, htaken, and_comm]

end Reconcile

/-- Reconciling a record that is marked for deletion takes away its object, if the record holds its
finalizer and the reconcile succeeds. -/
theorem reconcile_takes (sys : String) (hw : w.records.WellFormed) (hr : w.records.Holds r)
    (hd : r.beingDeleted = true) (x : RemoteHandle) :
    (reconcile sys r.key w).2.director.Has x ↔ w.director.Has x ∧
      ¬((reconcile sys r.key w).1 = .ok () ∧ r.hasFinalizer = true ∧
        Artifact.handle? a r = some x) := by
  by_cases hm : Reconcile.Misplaced sys r
  · simp [reconcile_of_misplaced hr hm]
  · have htakes := Reconcile.removeArtifact_takes sys (World.holds_keep w r.consumed) x
    rw [Record.hasFinalizer_consumed, Artifact.handle?_consumed] at htakes
    rw [reconcile_of_deleted_artifact hw hr hm hd]
    exact htakes

/-- In any run, reconciling a record that is marked for deletion takes its own object off the
Director and no other, and that only if the record holds its finalizer and the reconcile succeeds.
So the artifact of another record, available or not, is lost only if both records stand for the same
one, as two releases do that froze the same name and version; the other record is left as it is. -/
theorem deletion_takes_own_artifact (sys : String) {es : List Event}
    (hw : w.records.WellFormed) (hr : (run sys es w).records.Holds r)
    (hd : r.beingDeleted = true) :
    let v := run sys es w
    let x := (reconcile sys r.key v).1
    let u := (reconcile sys r.key v).2
    (∀ h, u.director.Has h ↔ v.director.Has h ∧
      ¬(x = .ok () ∧ r.hasFinalizer = true ∧ Artifact.handle? a r = some h)) ∧
    ∀ (q : Record a.kind) (h : RemoteHandle), v.records.Holds q → q.key ≠ r.key →
      Artifact.handle? a q = some h →
        u.records.Holds q ∧
        (Artifact.handle? a r ≠ Artifact.handle? a q → (u.director.Has h ↔ v.director.Has h)) ∧
        (Artifact.handle? a r = Artifact.handle? a q → (u.director.Has h ↔
          v.director.Has h ∧ ¬(x = .ok () ∧ r.hasFinalizer = true))) := by
  intro v x u
  have hv : v.records.WellFormed := by
    have hafter := after_wellFormed sys (moves sys es w) hw
    rwa [after_moves] at hafter
  have htakes := reconcile_takes sys hv hr hd
  refine ⟨htakes, fun q h hq hother hhandle => ⟨?_, fun hne => ?_, fun heq => ?_⟩⟩
  · have hkind : r.key.kind ≠ .director := by cases a <;> exact nofun
    have hsame := (reconcile_effect hv sys r.key).get?_of_ne hkind hother
    exact hsame.trans hq
  · rw [hhandle] at hne
    simp [htakes, hne, u, v]
  · rw [hhandle] at heq
    simp [htakes, heq, x, u, v]

namespace Small

/-- A Director that can fetch one release. -/
def depot : World Store Secrets :=
  { blank with
    director := { releaseSources := (∅ : Table String ReleaseRef).insert "u" ⟨"web", "1"⟩ }
    entropy := [List.replicate 20 0, List.replicate 20 0] }

def neighbourTeam : Record .team := Record.new "team-b" "t" (⟨"d"⟩ : TeamSpec)

def leasedRelease (ns : String) : Record .release :=
  Record.new ns "r"
    ({ releaseName := "web", version := "1", url := "u", sha1 := "" } : ReleaseSpec)

/-- Two tenants get the same release, and one of them asks for its deletion. -/
def leases : List Event :=
  [.move (.create director), .move (.create newTeam), .move (.create neighbourTeam),
    .move (.create (leasedRelease "team-a")), .move (.create (leasedRelease "team-b")),
    .move (.reconcile newTeam.key), .move (.reconcile neighbourTeam.key),
    .move (.reconcile (leasedRelease "team-a").key),
    .move (.reconcile (leasedRelease "team-b").key),
    .move (.delete (leasedRelease "team-a").key)]

def sharing : World Store Secrets := run "sys" leases depot

theorem reachable_sharing : Reachable "sys" sharing := by
  have hfits (ns : String) (w : World Store Secrets)
      (hw : w.director.releaseSources = depot.director.releaseSources) :
      (Move.create (leasedRelease ns)).Allowed w := by
    have hyields : depot.director.releaseSources.get? "u" = some ⟨"web", "1"⟩ := by rfl
    refine ⟨rfl, rfl, fun got hgot => ?_⟩
    have hgot : w.director.releaseSources.get? "u" = some got := hgot
    rw [hw, hyields] at hgot
    cases hgot
    rfl
  have h0 : Reachable "sys" depot := .blank ⟨rfl, rfl, rfl, rfl, rfl, rfl⟩
  have h1 := h0.event (.move (.create director)) ⟨rfl, rfl, trivial⟩
  have h2 := h1.event (.move (.create newTeam)) ⟨rfl, rfl, trivial⟩
  have h3 := h2.event (.move (.create neighbourTeam)) ⟨rfl, rfl, trivial⟩
  have h4 := h3.event (.move (.create (leasedRelease "team-a"))) (hfits _ _ rfl)
  have h5 := h4.event (.move (.create (leasedRelease "team-b"))) (hfits _ _ rfl)
  have h6 := h5.event (.move (.reconcile newTeam.key)) trivial
  have h7 := h6.event (.move (.reconcile neighbourTeam.key)) trivial
  have h8 := h7.event (.move (.reconcile (leasedRelease "team-a").key)) trivial
  have h9 := h8.event (.move (.reconcile (leasedRelease "team-b").key)) trivial
  exact h9.event (.move (.delete (leasedRelease "team-a").key)) trivial

end Small

/-- The release goes, and the record of the other tenant is left as it is. -/
theorem deletion_takes_own_artifact_small : ∃ q : Record .release,
    (reconcile "sys" (Small.leasedRelease "team-a").key Small.sharing).2.records.Holds q ∧
      q.metadata.ns = "team-b" ∧ q.available = true ∧
      Artifact.handle? .release q = some (.release ⟨"web", "1"⟩) ∧
      ¬(reconcile "sys" (Small.leasedRelease "team-a").key Small.sharing).2.director.Has
        (.release ⟨"web", "1"⟩) := by
  have hwf : Small.sharing.records.WellFormed := Small.reachable_sharing.accounted.wellFormed
  obtain ⟨r, hget, hd, hf, hown⟩ : ∃ r : Record .release,
      Small.sharing.records.get? (Small.leasedRelease "team-a").key = some ⟨.release, r⟩ ∧
        r.beingDeleted = true ∧ r.hasFinalizer = true ∧
        Artifact.handle? .release r = some (.release ⟨"web", "1"⟩) := ⟨_, rfl, rfl, rfl, rfl⟩
  obtain ⟨q, hgetq, hns, havailable, hhandle⟩ : ∃ q : Record .release,
      Small.sharing.records.get? (Small.leasedRelease "team-b").key = some ⟨.release, q⟩ ∧
        q.metadata.ns = "team-b" ∧ q.available = true ∧
        Artifact.handle? .release q = some (.release ⟨"web", "1"⟩) := ⟨_, rfl, rfl, rfl, rfl⟩
  have hr : (run "sys" Small.leases Small.depot).records.Holds r := hwf.holds hget
  have hkey : r.key = (Small.leasedRelease "team-a").key := hwf.key_eq hget
  have hok : (reconcile "sys" r.key Small.sharing).1 = .ok () := by
    rw [hkey]
    rfl
  obtain ⟨-, hothers⟩ :=
    deletion_takes_own_artifact "sys" (a := .release) Store.wellFormed_empty hr hd
  have hkeyq : q.key = (Small.leasedRelease "team-b").key := hwf.key_eq hgetq
  have hother : q.key ≠ r.key := by
    rw [hkeyq, hkey]
    decide
  obtain ⟨hkept, -, hshared⟩ := hothers q _ (hwf.holds hgetq) hother hhandle
  rw [← hkey]
  refine ⟨q, hkept, hns, havailable, hhandle, fun hhas => ?_⟩
  exact ((hshared (hown.trans hhandle.symm)).1 hhas).2 ⟨hok, hf⟩

/-- Two tenants share a release, and the deletion of one record takes it from the other one, which
is live and available. -/
theorem shared_release_lost : Reachable "sys" Small.sharing ∧ ∃ r q : Record .release,
    Small.sharing.records.get? (Small.leasedRelease "team-a").key = some ⟨.release, r⟩ ∧
    Small.sharing.records.get? (Small.leasedRelease "team-b").key = some ⟨.release, q⟩ ∧
    r.beingDeleted = true ∧ q.beingDeleted = false ∧ q.available = true ∧
    Artifact.handle? .release q = some (.release ⟨"web", "1"⟩) ∧
    Small.sharing.director.Has (.release ⟨"web", "1"⟩) ∧
    ¬(reconcile "sys" (Small.leasedRelease "team-a").key Small.sharing).2.director.Has
      (.release ⟨"web", "1"⟩) := by
  have hgone : (reconcile "sys" (Small.leasedRelease "team-a").key
      Small.sharing).2.director.releases.contains ⟨"web", "1"⟩ = false := by rfl
  refine ⟨Small.reachable_sharing, _, _, rfl, rfl, rfl, rfl, rfl, rfl, rfl, fun hhas => ?_⟩
  have hthere : (reconcile "sys" (Small.leasedRelease "team-a").key
      Small.sharing).2.director.releases.contains ⟨"web", "1"⟩ = true := hhas
  rw [hgone] at hthere
  cases hthere

end Reconciliation
