import Reconciliation.Proofs.Resumption

/-! Whether it succeeds or fails, a reconcile does one of a few things to the world: it advances
its record, and with that brings a remote object or a client into place or leaves the remote
services alone; it takes one away and lets go of the record; or, for a Director, it creates or
deletes the Director's own team. -/
namespace Reconciliation

open World (outcome)

namespace Record

variable {k : Kind}

/-- What reconciling a record may make of it while it keeps it. What is frozen stays frozen, and a
finalizer that is new guards a frozen spec. -/
structure Advances (r r' : Record k) : Prop where
  key : r'.key = r.key
  deleted : r'.beingDeleted = r.beingDeleted
  spec : k.freezes = true → r'.spec = r.spec
  frozen : r'.frozen? = r.frozen? ∨ r.frozen? = none ∧ r'.frozen? = some r.spec
  secret : Status.secretNamespace k r.status ≠ "" →
    Status.secretNamespace k r'.status = Status.secretNamespace k r.status
  held : r.metadata.finalizers ≠ [] → r'.metadata.finalizers ≠ []
  finalizer : r.hasFinalizer = true → r'.hasFinalizer = true
  guards : k.freezes = true → r'.hasFinalizer = true →
    r.hasFinalizer = true ∨ r'.frozen?.isSome = true

variable {r r' r'' : Record k}

theorem Advances.refl (r : Record k) : r.Advances r where
  key := rfl
  deleted := rfl
  spec _ := rfl
  frozen := .inl rfl
  secret _ := rfl
  held h := h
  finalizer h := h
  guards _ h := .inl h

/-- A frozen spec stays what it is. -/
theorem Advances.frozen?_eq (h : r.Advances r') {spec : Spec k} (hs : r.frozen? = some spec) :
    r'.frozen? = some spec := by
  rcases h.frozen with hf | ⟨hn, -⟩
  · rw [hf, hs]
  · rw [hn] at hs
    cases hs

theorem Advances.trans (h : r.Advances r') (h' : r'.Advances r'') : r.Advances r'' where
  key := h'.key.trans h.key
  deleted := h'.deleted.trans h.deleted
  spec hk := (h'.spec hk).trans (h.spec hk)
  frozen := by
    rcases h'.frozen with hf' | ⟨hn', hf'⟩
    · rw [hf']
      exact h.frozen
    · rcases h.frozen with hf | ⟨hn, hf⟩
      · refine .inr ⟨hf ▸ hn', ?_⟩
        rw [hf', h.spec (Status.freezes_of_frozen? hf')]
      · rw [hf] at hn'
        cases hn'
  secret hn := by
    have hx := h.secret hn
    rw [h'.secret (by rwa [hx]), hx]
  held hn := h'.held (h.held hn)
  finalizer hf := h'.finalizer (h.finalizer hf)
  guards hk hf := by
    rcases h'.guards hk hf with hf' | hf'
    · rcases h.guards hk hf' with hx | hx
      · exact .inl hx
      · obtain ⟨spec, hspec⟩ := Option.isSome_iff_exists.1 hx
        exact .inr (by rw [h'.frozen?_eq hspec]; rfl)
    · exact .inr hf'

theorem advances_frozenBy (sys : String) (r : Record k) : r.Advances (r.frozenBy sys) where
  key := key_frozenBy sys r
  deleted := beingDeleted_frozenBy sys r
  spec _ := spec_frozenBy sys r
  frozen := by
    cases hk : k.freezes with
    | false =>
      left
      rw [frozen?, frozen?, Status.frozen?_of_not_freezes hk, Status.frozen?_of_not_freezes hk]
    | true =>
      unfold frozenBy
      split
      · have hf : (r.prepared sys).bumped.frozen? = some (r.frozen?.getD r.spec) :=
          Status.frozen?_prepared hk sys r.spec r.status
        rw [hf]
        cases hr : r.frozen? with
        | none => exact .inr ⟨rfl, rfl⟩
        | some spec => exact .inl rfl
      · exact .inl rfl
  secret hn := by
    unfold frozenBy
    split
    · exact Status.secretNamespace_prepared hn
    · rfl
  held hn := by
    unfold frozenBy
    split <;> exact hn
  finalizer h := by rwa [hasFinalizer_frozenBy]
  guards _ h := .inl (by rwa [hasFinalizer_frozenBy] at h)

/-- A finalizer is attached to what is frozen. -/
theorem advances_guarded (h : k.freezes = true → r.frozen?.isSome = true) :
    r.Advances r.guarded where
  key := key_guarded r
  deleted := beingDeleted_guarded r
  spec _ := spec_guarded r
  frozen := .inl (by rw [frozen?, status_guarded, frozen?])
  secret _ := by rw [status_guarded]
  held _ := finalizers_ne_nil (hasFinalizer_guarded r)
  finalizer _ := hasFinalizer_guarded r
  guards hk _ := .inr (by rw [frozen?, status_guarded]; exact h hk)

theorem isSome_frozen?_frozenBy (hk : k.freezes = true) (sys : String) (r : Record k) :
    (r.frozenBy sys).frozen?.isSome = true :=
  Status.isSome_frozen? hk (needsPreparing_frozenBy sys r)

/-- What was frozen before stays so, and else the spec is frozen. -/
theorem frozen?_frozenBy (hk : k.freezes = true) (sys : String) (r : Record k) :
    (r.frozenBy sys).frozen? = some (r.frozen?.getD r.spec) := by
  obtain ⟨spec, hspec⟩ := Option.isSome_iff_exists.1 (isSome_frozen?_frozenBy hk sys r)
  have hfrozen := frozen?_getD_frozenBy sys r
  rw [hspec, Option.getD_some] at hfrozen
  rw [hspec, hfrozen]

theorem frozen?_readied_of_freezes (hk : k.freezes = true) (sys : String) (r : Record k) :
    (r.readied sys).frozen? = some (r.frozen?.getD r.spec) := by
  rw [frozen?_readied, frozen?_frozenBy hk]

theorem advances_readied (sys : String) (r : Record k) : r.Advances (r.readied sys) :=
  (advances_frozenBy sys r).trans (advances_guarded fun hk => isSome_frozen?_frozenBy hk sys r)

theorem advances_settled (r : Record k) : r.Advances r.settled where
  key := key_settled r
  deleted := beingDeleted_settled r
  spec _ := spec_settled r
  frozen := .inl r.alike_settled.frozen?
  secret _ := by
    unfold settled
    split
    · rfl
    · exact Status.secretNamespace_published r.status
  held hn := by
    unfold settled
    split <;> exact hn
  finalizer h := by rwa [hasFinalizer_settled]
  guards _ h := .inl (by rwa [hasFinalizer_settled] at h)

theorem advances_consumed (r : Record k) : r.Advances r.consumed where
  key := key_consumed r
  deleted := beingDeleted_consumed r
  spec hk := by
    cases k with
    | deployment => cases hk
    | _ => rfl
  frozen := .inl (by rw [frozen?, status_consumed, frozen?])
  secret _ := by rw [status_consumed]
  held hn := by rwa [finalizers_consumed]
  finalizer h := by rwa [hasFinalizer_consumed]
  guards _ h := .inl (by rwa [hasFinalizer_consumed] at h)

end Record

/-- What one reconcile of a key makes of the world, the logs left out. -/
inductive Effect (w : World Store Secrets) : Key → World Store Secrets → Prop
  | unchanged (key : Key) : Effect w key w.unlogged
  | advanced {k : Kind} {r q : Record k} (s : Secrets × Entropy) (hr : w.records.Holds r)
      (hq : r.Advances q) : Effect w r.key ((w.supplied s).keep q).unlogged
  | established {a : ArtifactKind} {r p q : Record a.kind} {t : Store} {o : RemoteObject}
      {d : Director} (hr : w.records.Holds r) (hq : r.Advances q) (hf : q.hasFinalizer = true)
      (hp : p.Alike q) (ho : (Artifact.object a p t).1 = .ok o)
      (hd : w.director.established o = .ok d) :
      Effect w r.key ((w.withDirector d).keep q).unlogged
  | removed {a : ArtifactKind} {r q : Record a.kind} {d : Director} (hr : w.records.Holds r)
      (hq : r.Advances q) (hf : q.hasFinalizer = true)
      (hd : w.director.removed (Artifact.handle? a q) = .ok d) :
      Effect w r.key ((w.withDirector d).accept q.released).unlogged
  | registered {r q : Record .team} {s : Secrets × Entropy} {secret : String} {i : Identity}
      (hr : w.records.Holds r) (hq : r.Advances q) (hf : q.hasFinalizer = true)
      (hi : w.identity.registered q.internalName secret = .ok i) :
      Effect w r.key (((w.supplied s).withIdentity i).keep q).unlogged
  | dismissed {r : Record .team} {s : Secrets} {i : Identity} (hr : w.records.Holds r)
      (hf : r.hasFinalizer = true) (hi : w.identity.dismissed r.internalName = .ok i) :
      Effect w r.key ({ w.withIdentity i with secrets := s }.accept r.released).unlogged
  | adopted {r : Record .director} (hr : w.records.Holds r) : Effect w r.key { w with
      records := (Store.create r.ownTeam (w.records.keep r.guarded)).2 }.unlogged
  | disowned {r : Record .director} (hr : w.records.Holds r) :
      Effect w r.key (Reconcile.withoutTeam r w).unlogged
  | abandoned {r : Record .director} (hr : w.records.Holds r) :
      Effect w r.key ((Reconcile.withoutTeam r w).accept r.released).unlogged

variable {w u : World Store Secrets} {sys : String} {x : Except ReconcileError Unit}

namespace Reconcile

theorem effect_of_advanced {k : Kind} {r q : Record k} (hr : w.records.Holds r)
    (hq : r.Advances q) : Effect w r.key (w.keep q).unlogged :=
  .advanced (w.secrets, w.entropy) hr hq

theorem establishArtifact_effect {a : ArtifactKind} {r q : Record a.kind}
    (hr : w.records.Holds r) (hq : r.Advances q)
    (h : outcome (establishArtifact sys a q) (w.keep q) = (x, u)) : Effect w r.key u := by
  have hready := hq.trans (q.advances_readied sys)
  cases artifactEstablished (World.holds_keep w q) h with
  | refused => exact effect_of_advanced hr hq
  | stopped hask =>
    rw [World.keep_keep w (q.key_readied sys)]
    exact effect_of_advanced hr hready
  | @done o d hask ho hd =>
    have hkey : (q.readied sys).settled.key = q.key := by simp
    have hkeep : ((w.keep q).withDirector d).keep (q.readied sys).settled =
        (w.withDirector d).keep (q.readied sys).settled := World.keep_keep (w.withDirector d) hkey
    have hf : (q.readied sys).settled.hasFinalizer = true := by
      rw [Record.hasFinalizer_settled, Record.hasFinalizer_readied]
    rw [hkeep]
    exact .established hr (hready.trans (Record.advances_settled _)) hf (Record.alike_settled _) ho
      hd

theorem removeArtifact_effect {a : ArtifactKind} {r q : Record a.kind}
    (hr : w.records.Holds r) (hq : r.Advances q)
    (h : outcome (removeArtifact sys a q) (w.keep q) = (x, u)) : Effect w r.key u := by
  cases artifactRemoved (World.holds_keep w q) h with
  | unchanged => exact effect_of_advanced hr hq
  | @done d hf hd =>
    have haccept : ((w.keep q).withDirector d).accept q.released =
        (w.withDirector d).accept q.released := by
      simp only [World.accept, World.keep, World.withDirector,
        Store.accept_keep w.records q.key_released]
    rw [haccept]
    exact .removed hr hq hf hd

theorem establishTeam_effect {r : Record .team} (hr : w.records.Holds r)
    (h : outcome (establishTeam sys r) w = (x, u)) : Effect w r.key u := by
  cases teamEstablished hr h with
  | refused => exact effect_of_advanced hr (r.advances_frozenBy sys)
  | @stopped e y s hask hs => exact .advanced s hr (r.advances_readied sys)
  | done hask hs hi =>
    have hname := Record.internalName_eq (r.readied sys).key_settled
    have hf : (r.readied sys).settled.hasFinalizer = true := by
      rw [Record.hasFinalizer_settled, Record.hasFinalizer_readied]
    exact .registered hr ((r.advances_readied sys).trans (Record.advances_settled _)) hf
      (by rwa [hname])

theorem removeTeam_effect {r : Record .team} (hr : w.records.Holds r)
    (h : outcome (removeTeam sys r) w = (x, u)) : Effect w r.key u := by
  cases teamRemoved hr h with
  | unchanged => exact .unchanged _
  | done hf hi => exact .dismissed hr hf hi

theorem director_effect {r : Record .director} (hr : w.records.Holds r)
    (h : outcome (director r) w = (x, u)) : Effect w r.key u := by
  rw [director] at h
  split at h
  · rw [outcome, removeDirector_eq hr] at h
    split at h
    · split at h
      · cases h
        exact .disowned hr
      · cases h
        exact .abandoned hr
    · cases h
      exact .unchanged _
  · rw [World.outcome_of_eq (establishDirector_eq hr)] at h
    cases h
    exact .adopted hr

end Reconcile

open Reconcile (Misplaced)

theorem artifact_effect {a : ArtifactKind} {r : Record a.kind} (hw : w.records.WellFormed)
    (hr : w.records.Holds r) (hm : ¬Misplaced sys r) :
    Effect w r.key (reconcile sys r.key w).2.unlogged := by
  rw [reconcile_of_artifact hw hr hm, Reconcile.artifact]
  split
  · exact Reconcile.removeArtifact_effect hr r.advances_consumed rfl
  · exact Reconcile.establishArtifact_effect hr r.advances_consumed rfl

/-- Whatever its outcome, a reconcile has one of these effects. -/
theorem reconcile_effect (hw : w.records.WellFormed) (sys : String) (key : Key) :
    Effect w key (reconcile sys key w).2.unlogged := by
  cases hg : w.records.get? key with
  | none =>
    rw [reconcile_of_none hg]
    exact .unchanged key
  | some q =>
    obtain ⟨k, r⟩ := q
    obtain rfl : r.key = key := hw.key_eq hg
    by_cases hm : Misplaced sys r
    · rw [reconcile_of_misplaced hg hm]
      exact .unchanged _
    · induction k, r using Reconcile.kindCases with
      | director r =>
        rw [reconcile_of_director hg hm]
        exact Reconcile.director_effect hg rfl
      | team r =>
        rw [reconcile_of_team hg, Reconcile.team]
        split
        · exact Reconcile.removeTeam_effect hg rfl
        · exact Reconcile.establishTeam_effect hg rfl
      | role r =>
        rw [reconcile_of_role hg]
        exact .unchanged _
      | artifact a r => exact artifact_effect hw hg hm

namespace Effect

variable {key : Key}

theorem wellFormed (hw : w.records.WellFormed) (h : Effect w key u) : u.records.WellFormed := by
  cases h with
  | unchanged => exact hw
  | advanced s hr hq =>
    refine hw.keep fun hd => hq.held (hw.marked hr ?_)
    rw [hq.deleted] at hd
    exact hd
  | established hr hq hf hp ho hd => exact hw.keep fun _ => Record.finalizers_ne_nil hf
  | removed hr hq hf hd => exact hw.accept _
  | registered hr hq hf hi => exact hw.keep fun _ => Record.finalizers_ne_nil hf
  | dismissed hr hf hi => exact hw.accept _
  | adopted hr =>
    exact (hw.keep fun _ => Record.finalizers_ne_nil (Record.hasFinalizer_guarded _)).create _
  | disowned hr => exact hw.delete _ _
  | abandoned hr => exact (hw.delete _ _).accept _

/-- A record of any kind but a Director is the only one that its reconcile writes. -/
theorem get?_of_ne {key' : Key} (h : Effect w key u) (hkind : key.kind ≠ .director)
    (hne : key' ≠ key) :
    u.records.get? key' = w.records.get? key' := by
  have hkeep : ∀ {k : Kind} {r q : Record k}, key' ≠ r.key → r.Advances q →
      (w.records.keep q).get? key' = w.records.get? key' := by
    intro k r q hne hq
    rw [Store.get?_keep, if_neg (hq.key.symm ▸ hne)]
  cases h with
  | unchanged => rfl
  | advanced s hr hq => exact hkeep hne hq
  | established hr hq => exact hkeep hne hq
  | @removed a r q d hr hq =>
    exact Store.get?_accept_of_ne w.records (by rwa [Record.key_released, hq.key])
  | registered hr hq => exact hkeep hne hq
  | @dismissed r s i hr =>
    exact Store.get?_accept_of_ne w.records (by rwa [Record.key_released])
  | adopted => exact absurd rfl hkind
  | disowned => exact absurd rfl hkind
  | abandoned => exact absurd rfl hkind

end Effect

theorem reconcile_wellFormed (hw : w.records.WellFormed) (sys : String) (key : Key) :
    (reconcile sys key w).2.records.WellFormed := by
  have h := (reconcile_effect hw sys key).wellFormed hw
  exact h

end Reconciliation
