import Reconciliation.Proofs.Names
import Reconciliation.Proofs.Possession

/-! Fragments, deployments, clients and secrets are found by the name of a record. Whether it
succeeds or fails, a reconcile leaves alone whatever bears another name than that of its own
record, and as different records have different names, whatever belongs to another record. -/
namespace Reconciliation

open World (outcome)

namespace Director

variable {n : String} {d d' : Director}

theorem sameUnder_established {o : RemoteObject} (hn : o.handle.name? ≠ some n)
    (h : d.established o = .ok d') : d.SameUnder n d' := by
  obtain ⟨d₁, ha, rfl⟩ := established_ok h
  have hs := sameUnder_arrived? hn ha
  exact ⟨hs.config, hs.deployment⟩

theorem sameUnder_removed {o : Option RemoteHandle} (hn : ∀ h, o = some h → h.name? ≠ some n)
    (h : d.removed o = .ok d') : d.SameUnder n d' := by
  cases o with
  | none =>
    cases h
    exact ⟨rfl, rfl⟩
  | some o =>
    obtain rfl := removed_ok h
    have hs := sameUnder_without (d := d) (hn o rfl)
    exact ⟨hs.config, hs.deployment⟩

end Director

/-- The object of a record bears the name of the record, if any. -/
theorem Artifact.name?_handle? {a : ArtifactKind} {r : Record a.kind} {h : RemoteHandle}
    (hh : handle? a r = some h) {n : String} (hn : n ≠ r.internalName) : h.name? ≠ some n := by
  cases a with
  | az | network | vmExtension | compilation | deployment =>
    cases hh
    exact fun he => hn (Option.some.inj he).symm
  | baseImage | release =>
    obtain ⟨spec, -, rfl⟩ := Option.map_eq_some_iff.1 hh
    exact nofun

/-- What stands under one name outside of the record store, secrets in any namespace. -/
structure Named where
  fragment : Option CloudConfig
  deployment : Option Manifest
  client : Option IdentityClient
  secret : (ns : String) → Option String

namespace World

variable {n id : String} {w : World Store Secrets}

def named (n : String) (w : World Store Secrets) : Named where
  fragment := w.director.configs.get? n
  deployment := w.director.deployments.get? n
  client := w.identity.clients.get? n
  secret ns := w.secrets.get? ⟨ns, n⟩

theorem named_withDirector {d : Director} (h : w.director.SameUnder n d) :
    (w.withDirector d).named n = w.named n := by
  simp only [named, withDirector, h.config, h.deployment]

theorem named_supplied {ns : String} {x : Except SecretError String} {s : Secrets × Entropy}
    (hn : n ≠ id) (h : SecretStore.getOrGenerate ⟨ns, id⟩ (w.secrets, w.entropy) = (x, s)) :
    (w.supplied s).named n = w.named n := by
  have hs : ∀ ns', s.1.get? ⟨ns', n⟩ = w.secrets.get? ⟨ns', n⟩ := fun ns' =>
    SecretStore.get?_getOrGenerate_of_ne h fun he => hn (congrArg SecretName.name he)
  simp only [named, supplied, hs]

theorem named_registered {secret : String} {i : Identity} (hn : n ≠ id)
    (h : w.identity.registered id secret = .ok i) : (w.withIdentity i).named n = w.named n := by
  obtain rfl := Identity.registered_ok h
  have hc : (w.identity.withTeamClient id secret).unlogged.clients.get? n =
      w.identity.clients.get? n := Identity.get?_withTeamClient_of_ne hn secret
  simp only [named, withIdentity, hc]

theorem named_dismissed {i : Identity} (hn : n ≠ id) (h : w.identity.dismissed id = .ok i) :
    (w.withIdentity i).named n = w.named n := by
  obtain rfl := Identity.dismissed_ok h
  have hc : (w.identity.clients.erase id).get? n = w.identity.clients.get? n := by
    rw [Table.get?_erase, if_neg hn]
  simp only [named, withIdentity, Identity.unlogged, hc]

theorem named_erased (ns : String) (hn : n ≠ id) :
    ({ w with secrets := w.secrets.erase ⟨ns, id⟩ } : World Store Secrets).named n = w.named n := by
  have hs : ∀ ns', (w.secrets.erase ⟨ns, id⟩).get? ⟨ns', n⟩ = w.secrets.get? ⟨ns', n⟩ := by
    intro ns'
    rw [Table.get?_erase, if_neg fun he => hn (congrArg SecretName.name he)]
  simp only [named, hs]

end World

namespace Reconcile

variable {w u : World Store Secrets} {sys n : String} {x : Except ReconcileError Unit}

theorem establishArtifact_named {a : ArtifactKind} {r : Record a.kind} (hr : w.records.Holds r)
    (hn : n ≠ r.internalName) (h : outcome (establishArtifact sys a r) w = (x, u)) :
    u.named n = w.named n := by
  cases artifactEstablished hr h with
  | refused => rfl
  | stopped hask => rfl
  | done hask ho hd =>
    have hname : n ≠ (r.readied sys).internalName := by
      rwa [Record.internalName_eq (r.key_readied sys)]
    have hh := Artifact.name?_handle? (Artifact.object_ok (d := w.director) ho).1 hname
    exact World.named_withDirector (Director.sameUnder_established hh hd)

theorem removeArtifact_named {a : ArtifactKind} {r : Record a.kind} (hr : w.records.Holds r)
    (hn : n ≠ r.internalName) (h : outcome (removeArtifact sys a r) w = (x, u)) :
    u.named n = w.named n := by
  cases artifactRemoved hr h with
  | unchanged => rfl
  | done hf hd =>
    exact World.named_withDirector
      (Director.sameUnder_removed (fun _ hh => Artifact.name?_handle? hh hn) hd)

theorem establishTeam_named {r : Record .team} (hr : w.records.Holds r)
    (hn : n ≠ r.internalName) (h : outcome (establishTeam sys r) w = (x, u)) :
    u.named n = w.named n := by
  have hname : n ≠ (r.readied sys).internalName := by
    rwa [Record.internalName_eq (r.key_readied sys)]
  cases teamEstablished hr h with
  | refused => rfl
  | stopped hask hs => exact World.named_supplied hname hs
  | @done secret s i hask hs hi =>
    have hclient := World.named_registered (w := w.supplied s) hname hi
    exact hclient.trans (World.named_supplied hname hs)

theorem removeTeam_named {r : Record .team} (hr : w.records.Holds r) (hn : n ≠ r.internalName)
    (h : outcome (removeTeam sys r) w = (x, u)) : u.named n = w.named n := by
  cases teamRemoved hr h with
  | unchanged => rfl
  | @done i hf hi =>
    have hsecret := World.named_erased (w := w.withIdentity i) r.secretNamespace hn
    exact hsecret.trans (World.named_dismissed hn hi)

/-- Reconciling a Director touches records alone. -/
theorem director_named {r : Record .director} (hr : w.records.Holds r) :
    (director r w).2.named n = w.named n := by
  rw [director]
  split
  · rw [removeDirector_eq hr]
    split
    · split <;> rfl
    · rfl
  · rw [establishDirector_eq hr]
    rfl

end Reconcile

variable {w : World Store Secrets}

/-- Whatever its outcome, a reconcile leaves alone what bears another name. -/
theorem reconcile_named (hw : w.records.WellFormed) (sys : String) {key : Key} {n : String}
    (hn : n ≠ key.internalName) : (reconcile sys key w).2.named n = w.named n := by
  suffices h : (reconcile sys key w).2.unlogged.named n = w.named n from h
  cases hg : w.records.get? key with
  | none =>
    rw [reconcile_of_none hg]
    rfl
  | some q =>
    obtain ⟨k, r⟩ := q
    obtain rfl : r.key = key := hw.key_eq hg
    by_cases hm : Reconcile.Misplaced sys r
    · rw [reconcile_of_misplaced hg hm]
      rfl
    · induction k, r using Reconcile.kindCases with
      | director r =>
        rw [reconcile_of_director hg hm]
        exact Reconcile.director_named hg
      | team r =>
        rw [reconcile_of_team hg, Reconcile.team]
        split
        · exact Reconcile.removeTeam_named hg hn rfl
        · exact Reconcile.establishTeam_named hg hn rfl
      | role r =>
        rw [reconcile_of_role hg]
        rfl
      | artifact a r =>
        have hname : n ≠ r.consumed.internalName := by
          rwa [Record.internalName_eq r.key_consumed]
        have hr := World.holds_keep w r.consumed
        rw [reconcile_of_artifact hw hg hm, Reconcile.artifact]
        split
        · exact Reconcile.removeArtifact_named (w := w.keep r.consumed) hr hname rfl
        · exact Reconcile.establishArtifact_named (w := w.keep r.consumed) hr hname rfl

namespace Store

variable {s : Store}

/-- All records are in namespaces that are DNS labels. -/
def Labelled (s : Store) : Prop := ∀ key, s.Stored key → isDnsLabel key.ns = true

theorem labelled_empty : Labelled ∅ := by
  intro key h
  cases h

theorem Labelled.create (hs : s.Labelled) {r : AnyRecord} (hr : isDnsLabel r.key.ns = true) :
    (Store.create r s).2.Labelled := by
  intro key h
  obtain ⟨q, hq⟩ := Option.isSome_iff_exists.1 h
  rcases get?_of_create hq with hq | ⟨-, rfl, -⟩
  · exact hs _ (by rw [Stored, hq]; rfl)
  · exact hr

end Store

/-- A name is taken apart again at its first two points, so that keys in namespaces that are DNS
labels have different names; and a reconcile leaves alone whatever fragment, deployment, client and
secrets stand under the name of another such key. -/
theorem reconcile_confined :
    (∀ (k : Kind) (ns name : String), isDnsLabel ns = true →
      Text.splitAtPoints (k.internalName ns name) = some (k.token, ns, name)) ∧
    (∀ key key' : Key, isDnsLabel key.ns = true → isDnsLabel key'.ns = true → key ≠ key' →
      key.internalName ≠ key'.internalName) ∧
    ∀ w : World Store Secrets, w.records.WellFormed → w.records.Labelled →
      ∀ (sys : String) (key key' : Key), isDnsLabel key'.ns = true → key ≠ key' →
        (reconcile sys key w).2.named key'.internalName = w.named key'.internalName := by
  have hnames : ∀ key key' : Key, isDnsLabel key.ns = true → isDnsLabel key'.ns = true →
      key ≠ key' → key.internalName ≠ key'.internalName :=
    fun _ _ h h' hne he => hne (Key.internalName_injective h h' he)
  refine ⟨fun k ns name h => k.splitAtPoints_internalName h name, hnames, ?_⟩
  intro w hw hl sys key key' h' hne
  by_cases hs : w.records.Stored key
  · exact reconcile_named hw sys (hnames key key' (hl key hs) h' hne).symm
  · have hnone : w.records.get? key = none := by simpa [Store.Stored] using hs
    rw [reconcile_of_none hnone]

theorem Small.labelled_world : Small.world.records.Labelled :=
  ((Store.labelled_empty.create (r := director) (by decide)).create (r := team)
    (by decide)).create (r := az) (by decide)

theorem reconcile_confined_small :
    Text.splitAtPoints "az.team-a.z" = some ("az", "team-a", "z") ∧
      Small.az.key.internalName ≠ Small.team.key.internalName ∧
      (reconcile "sys" Small.az.key Small.world).2.named "team.team-a.t" =
        Small.world.named "team.team-a.t" := by
  have hlabel : isDnsLabel "team-a" = true := by decide
  have hne : Small.az.key ≠ Small.team.key := by decide
  obtain ⟨hsplit, hnames, hconfined⟩ := reconcile_confined
  exact ⟨hsplit .az "team-a" "z" hlabel, hnames _ _ hlabel hlabel hne,
    hconfined Small.world Small.wellFormed_world Small.labelled_world "sys" _ _ hlabel hne⟩

end Reconciliation
