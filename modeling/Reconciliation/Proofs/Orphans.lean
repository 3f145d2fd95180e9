import Reconciliation.Proofs.Possession
import Reconciliation.Proofs.Run

/-! Whatever is on the remote services belongs to a stored record that holds its finalizer, so that
the record cannot go away before the object is gone. Every reconcile keeps it so, whether it
succeeds or fails, and owners can do nothing against it as long as they leave the finalizers alone.
-/
namespace Reconciliation

namespace Director

variable {d d' : Director} {x : RemoteHandle}

theorem has_of_established {o : RemoteObject} (hy : d.Yields o) (h : d.established o = .ok d')
    (hx : d'.Has x) : x = o.handle ∨ d.Has x := by
  obtain ⟨d₁, ha, rfl⟩ := established_ok h
  exact has_arrived? hy ha ((has_calls _ _).1 hx)

theorem sources_of_established {o : RemoteObject} (h : d.established o = .ok d') :
    d'.releaseSources = d.releaseSources ∧ d'.stemcellSources = d.stemcellSources := by
  obtain ⟨d₁, ha, rfl⟩ := established_ok h
  obtain ⟨hr, hs, -⟩ := sources_arrived? ha
  exact ⟨hr, hs⟩

theorem has_unlogged : d.unlogged.Has x ↔ d.Has x := has_calls _ _

/-- A removal takes away the object with the handle, and no other. -/
theorem has_removed_iff {o : Option RemoteHandle} (h : d.removed o = .ok d') :
    d'.Has x ↔ o ≠ some x ∧ d.Has x := by
  cases o with
  | none =>
    cases h
    simp [has_unlogged]
  | some o =>
    obtain rfl := removed_ok h
    rw [has_unlogged, has_without_iff]
    simp [eq_comm]

theorem sources_of_removed {o : Option RemoteHandle} (h : d.removed o = .ok d') :
    d'.releaseSources = d.releaseSources ∧ d'.stemcellSources = d.stemcellSources := by
  cases o with
  | none =>
    cases h
    exact ⟨rfl, rfl⟩
  | some o =>
    obtain rfl := removed_ok h
    exact sources_without o

end Director

variable {sys : String} {w u : World Store Secrets} {key : Key} {p : Possession}

theorem World.has_unlogged : w.unlogged.Has p ↔ w.Has p := by
  cases p with
  | object h => exact Director.has_calls _ _
  | client id => exact Iff.rfl

/-- All stored records are sound, and whatever is on a remote service is owned. -/
structure World.Accounted (w : World Store Secrets) : Prop where
  wellFormed : w.records.WellFormed
  sound : w.records.Sound w.director
  owned : ∀ p, w.Has p → w.records.Owns p

namespace Effect

theorem sound (hw : w.Accounted) (h : Effect w key u) : u.records.Sound u.director := by
  have hs := hw.sound
  cases h with
  | unchanged => exact hs.of_sources rfl rfl
  | advanced s hr hq => exact (hs.keep ((hs _ _ _ hr).advances hq)).of_sources rfl rfl
  | established hr hq hf hp ho hd =>
    obtain ⟨hrel, hstem⟩ := Director.sources_of_established hd
    exact (hs.keep ((hs _ _ _ hr).advances hq)).of_sources hrel hstem
  | removed hr hq hf hd =>
    obtain ⟨hrel, hstem⟩ := Director.sources_of_removed hd
    exact (hs.accept ((hs _ _ _ hr).advances hq).released).of_sources hrel hstem
  | registered hr hq hf hi => exact (hs.keep ((hs _ _ _ hr).advances hq)).of_sources rfl rfl
  | dismissed hr hf hi => exact (hs.accept (hs _ _ _ hr).released).of_sources rfl rfl
  | @adopted r hr =>
    have hg : r.guarded.Sound w.director :=
      (hs _ _ _ hr).advances (Record.advances_guarded fun hk => by cases hk)
    have ht : r.ownTeam.Sound w.director := Record.sound_of_initial rfl rfl trivial
    exact ((hs.keep hg).create (r := r.ownTeam) ht).of_sources rfl rfl
  | disowned hr => exact (hs.delete hw.wellFormed _ _).of_sources rfl rfl
  | abandoned hr =>
    exact ((hs.delete hw.wellFormed _ _).accept (hs _ _ _ hr).released).of_sources rfl rfl

/-- A record that advances keeps what it owns. -/
theorem owns_keep (hw : w.Accounted) {k : Kind} {r q : Record k} (hr : w.records.Holds r)
    (hq : r.Advances q) (hp : w.Has p) : (w.records.keep q).Owns p :=
  (hw.owned p hp).keep hr hq.key fun hf =>
    ⟨hq.finalizer hf, (hw.sound _ _ _ hr).possession?_eq hf hq⟩

/-- A record that lets go loses at most what it stands for. -/
theorem owns_accept_released (hw : w.Accounted) {k : Kind} {r q : Record k}
    (hr : w.records.Holds r) (hq : r.Advances q) (hp : w.Has p) (hne : q.possession? ≠ some p) :
    (w.records.accept q.released).Owns p := by
  rcases (hw.owned p hp).accept_or (q := q.released) hr hq.key with h | ⟨hf, hpos⟩
  · exact h
  · rw [← (hw.sound _ _ _ hr).possession?_eq hf hq] at hpos
    exact absurd hpos hne

theorem owns_established {a : ArtifactKind} {r q q' : Record a.kind} {t : Store} {o : RemoteObject}
    {d : Director} (hw : w.Accounted) (hr : w.records.Holds r) (hq : r.Advances q)
    (hf : q.hasFinalizer = true) (ha : q'.Alike q) (ho : (Artifact.object a q' t).1 = .ok o)
    (hd : w.director.established o = .ok d) (hp : (w.withDirector d).Has p) :
    (w.records.keep q).Owns p := by
  cases p with
  | client id =>
    have hold : w.Has (.client id) := hp
    exact owns_keep hw hr hq hold
  | object x =>
    have hsound := (hw.sound _ _ _ hr).advances hq
    obtain ⟨hhandle, hyields⟩ := Artifact.object_ok (d := w.director) ho
    have hy : w.director.Yields o := hyields fun spec hspec =>
      hsound.frozenFits (ha.frozen?.trans hspec)
    rcases Director.has_of_established hy hd hp with rfl | hx
    · refine ⟨q.key, a.kind, q, w.records.holds_keep q, hf, ?_⟩
      rw [Record.possession?_artifact, Artifact.handle?_eq ha.interchangeable, hhandle]
      rfl
    · have hold : w.Has (.object x) := hx
      exact owns_keep hw hr hq hold

theorem owns_removed {a : ArtifactKind} {r q : Record a.kind} {d : Director} (hw : w.Accounted)
    (hr : w.records.Holds r) (hq : r.Advances q)
    (hd : w.director.removed (Artifact.handle? a q) = .ok d) (hp : (w.withDirector d).Has p) :
    (w.records.accept q.released).Owns p := by
  have hpos := Record.possession?_artifact a q
  cases p with
  | client id =>
    have hold : w.Has (.client id) := hp
    refine owns_accept_released hw hr hq hold ?_
    rw [hpos]
    cases Artifact.handle? a q <;> simp
  | object x =>
    obtain ⟨hne, hx⟩ := (Director.has_removed_iff hd).1 hp
    have hold : w.Has (.object x) := hx
    refine owns_accept_released hw hr hq hold ?_
    rw [hpos]
    intro h
    obtain ⟨y, hy, hyx⟩ := Option.map_eq_some_iff.1 h
    cases hyx
    exact hne hy

theorem owns_registered {r q : Record .team} {secret : String} {i : Identity} (hw : w.Accounted)
    (hr : w.records.Holds r) (hq : r.Advances q) (hf : q.hasFinalizer = true)
    (hi : w.identity.registered q.internalName secret = .ok i) (hp : (w.withIdentity i).Has p) :
    (w.records.keep q).Owns p := by
  cases p with
  | object x =>
    have hold : w.Has (.object x) := hp
    exact owns_keep hw hr hq hold
  | client id =>
    obtain rfl := Identity.registered_ok hi
    have hid : (w.identity.withTeamClient q.internalName secret).clients.contains id = true := hp
    rw [Identity.contains_withTeamClient, Bool.or_eq_true] at hid
    rcases hid with hid | hid
    · obtain rfl := of_decide_eq_true hid
      exact ⟨q.key, .team, q, w.records.holds_keep q, hf, rfl⟩
    · have hold : w.Has (.client id) := hid
      exact owns_keep hw hr hq hold

theorem owns_dismissed {r : Record .team} {i : Identity} (hw : w.Accounted)
    (hr : w.records.Holds r) (hi : w.identity.dismissed r.internalName = .ok i)
    (hp : (w.withIdentity i).Has p) : (w.records.accept r.released).Owns p := by
  have hrefl := Record.Advances.refl r
  cases p with
  | object x =>
    have hold : w.Has (.object x) := hp
    exact owns_accept_released hw hr hrefl hold (by simp [Record.possession?])
  | client id =>
    obtain rfl := Identity.dismissed_ok hi
    have hid : (w.identity.clients.erase r.internalName).contains id = true := hp
    rw [Table.contains_erase, Bool.and_eq_true] at hid
    have hold : w.Has (.client id) := hid.2
    refine owns_accept_released hw hr hrefl hold ?_
    intro h
    cases h
    simp at hid

theorem owned (hw : w.Accounted) (h : Effect w key u) (hp : u.Has p) : u.records.Owns p := by
  cases h with
  | unchanged => exact hw.owned p (World.has_unlogged.1 hp)
  | advanced s hr hq => exact owns_keep hw hr hq (World.has_unlogged.1 hp)
  | established hr hq hf ha ho hd =>
    have h := owns_established hw hr hq hf ha ho hd (World.has_unlogged.1 hp)
    exact h
  | removed hr hq hf hd =>
    have h := owns_removed hw hr hq hd (World.has_unlogged.1 hp)
    exact h
  | registered hr hq hf hi =>
    have h := owns_registered hw hr hq hf hi (World.has_unlogged.1 hp)
    exact h
  | dismissed hr hf hi =>
    have h := owns_dismissed hw hr hi (World.has_unlogged.1 hp)
    exact h
  | @adopted r hr =>
    have hold : w.Has p := World.has_unlogged.1 hp
    have hg := Record.advances_guarded (r := r) fun hk => by cases hk
    exact (owns_keep hw hr hg hold).create _
  | disowned hr =>
    have hold : w.Has p := World.has_unlogged.1 hp
    exact (hw.owned p hold).delete hw.wellFormed _ _
  | @abandoned r hr =>
    have hold : w.Has p := World.has_unlogged.1 hp
    have hteam := (hw.owned p hold).delete hw.wellFormed w.now r.ownTeam.key
    rcases hteam.accept_or (q := r.released) (Reconcile.holds_withoutTeam hr) rfl with h | ⟨-, hpos⟩
    · exact h
    · cases hpos

end Effect

theorem accounted_of_unlogged (hw : w.unlogged.Accounted) : w.Accounted where
  wellFormed := hw.wellFormed
  sound := hw.sound.of_sources rfl rfl
  owned p hp := hw.owned p (World.has_unlogged.2 hp)

theorem reconcile_accounted (hw : w.Accounted) (sys : String) (key : Key) :
    (reconcile sys key w).2.Accounted := by
  have h := reconcile_effect hw.wellFormed sys key
  have hu : (reconcile sys key w).2.unlogged.Accounted :=
    { wellFormed := h.wellFormed hw.wellFormed
      sound := h.sound hw
      owned := fun _ hp => h.owned hw hp }
  exact accounted_of_unlogged hu

/-- What owners may do: they create records that were never reconciled, they leave the finalizer of
the kind alone, and the addresses in what they write yield what is named with them. -/
def Move.Allowed (w : World Store Secrets) : Move → Prop
  | .create r => r.record.status = Status.initial r.kind ∧ r.hasFinalizer = false ∧
      r.record.spec.Fits w.director
  | .update r => (∀ q, w.records.get? r.key = some q → r.hasFinalizer = q.hasFinalizer) ∧
      r.record.spec.Fits w.director
  | .delete _ | .reconcile _ | .directorFails _ | .identityFails _ | .clock _ => True

theorem act_accounted (sys : String) {m : Move} (hw : w.Accounted) (hm : m.Allowed w) :
    (m.act sys w).Accounted := by
  have hwf := act_wellFormed sys m hw.wellFormed
  cases m with
  | create r =>
    obtain ⟨hstatus, hf, hfits⟩ := hm
    have hr := Record.sound_of_initial hstatus hf hfits
    exact ⟨hwf, hw.sound.create hr, fun p hp => (hw.owned p hp).create r⟩
  | update r =>
    obtain ⟨hf, hfits⟩ := hm
    exact ⟨hwf, hw.sound.update hw.wellFormed hf hfits, fun p hp =>
      (hw.owned p hp).update hw.wellFormed hf⟩
  | delete key =>
    exact ⟨hwf, hw.sound.delete hw.wellFormed _ _, fun p hp =>
      (hw.owned p hp).delete hw.wellFormed _ _⟩
  | reconcile key => exact reconcile_accounted hw sys key
  | directorFails failure =>
    refine ⟨hwf, hw.sound.of_sources rfl rfl, fun p hp => hw.owned p ?_⟩
    cases p with
    | object x => cases x <;> exact hp
    | client id => exact hp
  | identityFails failure =>
    refine ⟨hwf, hw.sound, fun p hp => hw.owned p ?_⟩
    cases p <;> exact hp
  | clock now =>
    refine ⟨hwf, hw.sound, fun p hp => hw.owned p ?_⟩
    cases p <;> exact hp

/-- Nothing is stored and nothing is on the remote services. -/
structure World.Blank (w : World Store Secrets) : Prop where
  records : w.records.records = ∅
  releases : w.director.releases = ∅
  stemcells : w.director.stemcells = ∅
  configs : w.director.configs = ∅
  deployments : w.director.deployments = ∅
  clients : w.identity.clients = ∅

def Event.Allowed (w : World Store Secrets) : Event → Prop
  | move m => m.Allowed w
  | sweep => True

/-- The worlds that a run can reach from a blank one. -/
inductive Reachable (sys : String) : World Store Secrets → Prop
  | blank {w : World Store Secrets} (hw : w.Blank) : Reachable sys w
  | event {w : World Store Secrets} (hw : Reachable sys w) (e : Event) (he : e.Allowed w) :
    Reachable sys (e.act sys w)

theorem accounted_of_blank (hw : w.Blank) : w.Accounted := by
  have hget : ∀ key, w.records.get? key = none := by
    intro key
    rw [Store.get?, hw.records, Table.get?_empty]
  refine ⟨⟨?_, ?_⟩, ?_, ?_⟩
  · intro key r hr
    rw [hget] at hr
    cases hr
  · intro key r hr
    rw [hget] at hr
    cases hr
  · intro key k r hr
    rw [hget] at hr
    cases hr
  · intro p hp
    have hempty : w.Has p ↔ False := by
      cases p with
      | object x =>
        cases x <;> simp [World.Has, Director.Has, hw.configs, hw.releases, hw.stemcells,
          hw.deployments, Table.contains]
      | client id => simp [World.Has, hw.clients, Table.contains]
    exact (hempty.1 hp).elim

theorem event_accounted (sys : String) {e : Event} (hw : w.Accounted) (he : e.Allowed w) :
    (e.act sys w).Accounted := by
  cases e with
  | move m => exact act_accounted sys hw he
  | sweep =>
    have hsweep : (sweep sys w).2.Accounted := by
      rw [sweep_eq]
      refine after_invariant (fun m hm v hv => ?_) hw
      obtain ⟨key, -, rfl⟩ := List.mem_map.1 hm
      exact reconcile_accounted hv sys key
    exact hsweep

theorem Reachable.accounted (h : Reachable sys w) : w.Accounted := by
  induction h with
  | blank hw => exact accounted_of_blank hw
  | event hw e he ih => exact event_accounted sys ih he

/-- In every reachable world, each object and each client belongs to a stored record of its kind
that holds its finalizer and has its name, or has it frozen; and a record that freezes its spec
holds its finalizer only with a frozen spec. -/
theorem no_orphans (h : Reachable sys w) :
    (∀ name, w.director.configs.contains name = true →
      ∃ (k : Kind) (r : Record k), k ∈ [Kind.az, .network, .vmExtension, .compilation] ∧
        w.records.Holds r ∧ r.hasFinalizer = true ∧ r.internalName = name) ∧
    (∀ name, w.director.deployments.contains name = true →
      ∃ r : Record .deployment,
        w.records.Holds r ∧ r.hasFinalizer = true ∧ r.internalName = name) ∧
    (∀ id, w.identity.clients.contains id = true →
      ∃ r : Record .team, w.records.Holds r ∧ r.hasFinalizer = true ∧ r.internalName = id) ∧
    (∀ ref, w.director.releases.contains ref = true →
      ∃ (r : Record .release) (spec : ReleaseSpec), w.records.Holds r ∧ r.hasFinalizer = true ∧
        r.frozen? = some spec ∧ ref = ⟨spec.releaseName, spec.version⟩) ∧
    (∀ ref, w.director.stemcells.contains ref = true →
      ∃ (r : Record .baseImage) (spec : BaseImageSpec), w.records.Holds r ∧
        r.hasFinalizer = true ∧ r.frozen? = some spec ∧ ref = ⟨spec.imageName, spec.version⟩) ∧
    (∀ (key : Key) (k : Kind) (r : Record k), w.records.get? key = some ⟨k, r⟩ →
      k.freezes = true → r.hasFinalizer = true → r.frozen?.isSome = true) := by
  have hw := h.accounted
  refine ⟨fun name hn => ?_, fun name hn => ?_, fun id hid => ?_, fun ref href => ?_,
    fun ref href => ?_, fun key k r hr => (hw.sound key k r hr).frozen⟩
  · exact (hw.owned (.object (.fragment name)) hn).fragment hw.wellFormed
  · exact (hw.owned (.object (.deployment name)) hn).deployment hw.wellFormed
  · exact (hw.owned (.client id) hid).client hw.wellFormed
  · exact (hw.owned (.object (.release ref)) href).release hw.wellFormed
  · exact (hw.owned (.object (.stemcell ref)) href).stemcell hw.wellFormed

namespace Small

def blank : World Store Secrets where
  records := ∅
  secrets := (∅ : Secrets).insert ⟨"sys", "s"⟩ "x"
  entropy := [List.replicate 20 0]
  now := ⟨0, 0⟩

/-- The world after the Director, its team and the AZ were created and the last two reconciled. -/
def built : World Store Secrets :=
  run "sys" [.move (.create director), .move (.create newTeam), .move (.create az),
    .move (.reconcile newTeam.key), .move (.reconcile az.key)] blank

theorem reachable_built : Reachable "sys" built := by
  have h0 : Reachable "sys" blank := .blank ⟨rfl, rfl, rfl, rfl, rfl, rfl⟩
  have h1 := h0.event (.move (.create director)) ⟨rfl, rfl, trivial⟩
  have h2 := h1.event (.move (.create newTeam)) ⟨rfl, rfl, trivial⟩
  have h3 := h2.event (.move (.create az)) ⟨rfl, rfl, trivial⟩
  have h4 := h3.event (.move (.reconcile newTeam.key)) trivial
  exact h4.event (.move (.reconcile az.key)) trivial

end Small

theorem no_orphans_small : ∃ (k : Kind) (r : Record k),
    k ∈ [Kind.az, .network, .vmExtension, .compilation] ∧ Small.built.records.Holds r ∧
      r.hasFinalizer = true ∧ r.internalName = "az.team-a.z" := by
  have hconfig : Small.built.director.configs.contains "az.team-a.z" = true := by rfl
  exact (no_orphans Small.reachable_built).1 "az.team-a.z" hconfig

end Reconciliation
