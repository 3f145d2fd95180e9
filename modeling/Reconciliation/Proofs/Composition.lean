import Reconciliation.Artifact
import Reconciliation.Proofs.Credentials

namespace Reconciliation

namespace Record

variable {k : Kind}

/-- Equal in all that a remote object may depend on. -/
structure Alike (r r' : Record k) : Prop where
  key : r'.key = r.key
  spec : r'.spec = r.spec
  frozen? : r'.frozen? = r.frozen?

theorem alike_settled (r : Record k) : r.Alike r.settled := by
  refine ⟨key_settled r, spec_settled r, ?_⟩
  unfold settled
  split
  · rfl
  · exact Status.frozen?_published r.status

/-- Interchangeable for everyone who composes objects of records: where a kind freezes its spec,
only the frozen one is looked at. -/
structure Interchangeable (r r' : Record k) : Prop where
  key : r'.key = r.key
  frozen? : r'.frozen? = r.frozen?
  spec : k.freezes = false → r'.spec = r.spec

theorem Interchangeable.refl (r : Record k) : r.Interchangeable r := ⟨rfl, rfl, fun _ => rfl⟩

variable {r r' : Record k}

theorem Alike.interchangeable (h : r.Alike r') : r.Interchangeable r' :=
  ⟨h.key, h.frozen?, fun _ => h.spec⟩

theorem Interchangeable.ns (h : r.Interchangeable r') : r'.metadata.ns = r.metadata.ns :=
  congrArg Key.ns h.key

theorem Interchangeable.internalName (h : r.Interchangeable r') :
    r'.internalName = r.internalName :=
  internalName_eq h.key

theorem Interchangeable.frozenOf (h : r.Interchangeable r') :
    Credentials.frozenOf r' = Credentials.frozenOf r := by
  simp only [Credentials.frozenOf, h.frozen?, h.key]

end Record

namespace Store

/-- Of stores that are related, every lookup gives interchangeable records or the same failure.
Teams are left out, since no object is composed of them. -/
def Exchanges (R : Store → Store → Prop) : Prop :=
  ∀ k, k ≠ .team → ∀ ns name, Step.Related R Record.Interchangeable
    (RecordStore.fetch k ns name : Step Store StoreError _) (RecordStore.fetch k ns name)

/-- The second store has `r'` in the place of `r`. -/
def Replaced {k : Kind} (r r' : Record k) (s t : Store) : Prop := s.Holds r ∧ t = s.keep r'

/-- What is under a key that both stores have in common is interchangeable with itself. -/
theorem fetch_agree {R : Store → Store → Prop} {s t : Store} {k : Kind} {ns name : String}
    (hR : R s t) (h : t.get? ⟨k, ns, name⟩ = s.get? ⟨k, ns, name⟩) :
    Step.Agree R Record.Interchangeable
      ((RecordStore.fetch k ns name : Step Store StoreError _) s)
      (RecordStore.fetch k ns name t) := by
  cases hq : s.get? ⟨k, ns, name⟩ with
  | none =>
    rw [RecordStore.fetch, Step.bind_error (get_of_none hq),
      Step.bind_error (get_of_none (h.trans hq))]
    exact ⟨rfl, hR⟩
  | some q =>
    rw [RecordStore.fetch, Step.bind_ok (get_of_some hq), Step.bind_ok (get_of_some (h.trans hq))]
    simp only [Step.ofExcept_apply]
    cases RecordStore.typed ⟨k, ns, name⟩ k q with
    | error e => exact ⟨rfl, hR⟩
    | ok q => exact ⟨.refl q, hR⟩

theorem exchanges_replaced {k : Kind} {r r' : Record k} (h : r.Alike r') :
    Exchanges (Replaced r r') := by
  rintro k' - ns name s _ ⟨hs, rfl⟩
  have hR : Replaced r r' s (s.keep r') := ⟨hs, rfl⟩
  let key : Key := ⟨k', ns, name⟩
  by_cases hk : key = r.key
  · obtain rfl : k' = k := congrArg Key.kind hk
    have hr : (RecordStore.get key : Step Store StoreError AnyRecord) s = (.ok ⟨k', r⟩, s) := by
      rw [hk]
      exact get_of_some hs
    have hr' : (RecordStore.get key : Step Store StoreError AnyRecord) (s.keep r') =
        (.ok ⟨k', r'⟩, s.keep r') := by
      rw [hk, ← h.key]
      exact get_of_some (holds_keep s r')
    rw [RecordStore.fetch, Step.bind_ok hr, Step.bind_ok hr']
    simp only [RecordStore.typed, AnyRecord.ofKind?_mk, Step.ofExcept_apply]
    exact ⟨h.interchangeable, hR⟩
  · exact fetch_agree hR (by rw [get?_keep, if_neg (by rwa [h.key])])

end Store

namespace Composition

theorem fetch_reads (k : Kind) (ns name : String) :
    Step.Reads (fetch k ns name : Step Store ResolutionError (Record k)) :=
  (RecordStore.fetch_reads k ns name).mapError

theorem internalNameOf_reads (k : Kind) (ns name : String) :
    Step.Reads (internalNameOf k ns name : Step Store ResolutionError String) :=
  (fetch_reads k ns name).bind fun _ => .pure _

theorem jobOf_reads (ns : String) (c : Container) :
    Step.Reads (jobOf ns c : Step Store ResolutionError (ReleaseRef × Job)) := by
  refine (fetch_reads _ _ _).bind fun role => (fetch_reads _ _ _).bind fun release => ?_
  refine (Step.Reads.ofExcept _).bind fun spec => Step.Reads.bind (.mapM (fun link => ?_) _)
    fun consumes => .pure _
  exact (internalNameOf_reads _ _ _).bind fun _ => .pure _

theorem stemcellOf_reads (ns baseImage : String) :
    Step.Reads (stemcellOf ns baseImage : Step Store ResolutionError StemcellRef) :=
  (fetch_reads _ _ _).bind fun _ => (Step.Reads.ofExcept _).bind fun _ => .pure _

theorem internalNamesOf_reads (k : Kind) (ns : String) (names : List String) :
    Step.Reads (internalNamesOf k ns names : Step Store ResolutionError (List String)) :=
  .mapM (internalNameOf_reads k ns) names

theorem manifest_reads (d : Record .deployment) :
    Step.Reads (manifest d : Step Store ResolutionError Manifest) :=
  (Step.Reads.mapM (jobOf_reads _) _).bind fun _ => (stemcellOf_reads _ _).bind fun _ =>
    (internalNamesOf_reads _ _ _).bind fun _ => (internalNamesOf_reads _ _ _).bind fun _ =>
      (internalNameOf_reads _ _ _).bind fun _ => (Step.Reads.ofExcept _).bind fun _ =>
        (Step.Reads.ofExcept _).bind fun _ => .pure _

/-- From stores that are related the same manifests are composed in this namespace: what the
content of records goes into is interchangeable, and all other records go by the same names. -/
structure Supplies (R : Store → Store → Prop) (ns : String) : Prop where
  content : ∀ {k}, k = .role ∨ k = .release ∨ k = .baseImage → ∀ name,
    Step.Related R Record.Interchangeable (fetch k ns name : Step Store ResolutionError _)
      (fetch k ns name)
  names : ∀ {k}, k ≠ .team → ∀ name,
    Step.Related R Eq (internalNameOf k ns name : Step Store ResolutionError _)
      (internalNameOf k ns name)

/-- Where lookups in the namespace give interchangeable records, the same manifests are composed. -/
theorem Supplies.of_fetch {R : Store → Store → Prop} {ns : String}
    (h : ∀ k, k ≠ .team → ∀ name, Step.Related R Record.Interchangeable
      (RecordStore.fetch k ns name : Step Store StoreError _) (RecordStore.fetch k ns name)) :
    Supplies R ns where
  content {k} hk name := by
    have hne : k ≠ .team := by
      rintro rfl
      simp at hk
    exact (h k hne name).mapError
  names {k} hk name := by
    refine (h k hk name).mapError.bind fun q q' hq => ?_
    exact .pure hq.internalName.symm

variable {R : Store → Store → Prop} {ns : String}

theorem internalNamesOf_related (hR : Supplies R ns) {k : Kind} (hk : k ≠ .team)
    (names : List String) :
    Step.Related R Eq (internalNamesOf k ns names : Step Store ResolutionError _)
      (internalNamesOf k ns names) :=
  .mapM (hR.names hk) names

theorem frozenRelease_eq {q q' : Record .release} (h : q.Interchangeable q') :
    frozenRelease q' = frozenRelease q := by
  have hf : (q'.status : FrozenStatus ReleaseSpec).frozen =
      (q.status : FrozenStatus ReleaseSpec).frozen := h.frozen?
  simp only [frozenRelease, hf, h.key]

theorem frozenBaseImage_eq {q q' : Record .baseImage} (h : q.Interchangeable q') :
    frozenBaseImage q' = frozenBaseImage q := by
  have hf : (q'.status : FrozenStatus BaseImageSpec).frozen =
      (q.status : FrozenStatus BaseImageSpec).frozen := h.frozen?
  simp only [frozenBaseImage, hf, h.key]

theorem jobOf_related (hR : Supplies R ns) (c : Container) :
    Step.Related R Eq (jobOf ns c : Step Store ResolutionError _) (jobOf ns c) := by
  refine (hR.content (.inl rfl) _).bind fun role role' hrole => ?_
  simp only [hrole.spec rfl]
  refine (hR.content (.inr (.inl rfl)) _).bind fun release release' hrelease => ?_
  rw [frozenRelease_eq hrelease]
  refine (Step.Related.ofExcept _).bind ?_
  rintro spec _ rfl
  refine Step.Related.bind (.mapM (fun link => ?_) _) ?_
  · refine (hR.names Kind.noConfusion _).bind ?_
    rintro name _ rfl
    exact .pure rfl
  · rintro consumes _ rfl
    exact .pure rfl

theorem stemcellOf_related (hR : Supplies R ns) (baseImage : String) :
    Step.Related R Eq (stemcellOf ns baseImage : Step Store ResolutionError _)
      (stemcellOf ns baseImage) := by
  refine (hR.content (.inr (.inr rfl)) _).bind fun image image' himage => ?_
  rw [frozenBaseImage_eq himage]
  refine (Step.Related.ofExcept _).bind ?_
  rintro spec _ rfl
  exact .pure rfl

theorem manifest_related {d d' : Record .deployment} (hR : Supplies R d.metadata.ns)
    (hd : d.Interchangeable d') :
    Step.Related R Eq (manifest d : Step Store ResolutionError _) (manifest d') := by
  have hf : footprintOf d' = footprintOf d := by simp only [footprintOf, hd.spec rfl, hd.key]
  have hu : updateOf d' = updateOf d := by simp only [updateOf, hd.spec rfl, hd.key]
  rw [manifest, manifest]
  simp only [hd.ns, hd.spec rfl, hd.internalName, hf, hu]
  refine Step.Related.bind (.mapM (jobOf_related hR) _) ?_
  rintro jobs _ rfl
  refine (stemcellOf_related hR _).bind ?_
  rintro stemcell _ rfl
  refine (internalNamesOf_related hR Kind.noConfusion _).bind ?_
  rintro azs _ rfl
  refine (internalNamesOf_related hR Kind.noConfusion _).bind ?_
  rintro extensions _ rfl
  refine (hR.names Kind.noConfusion _).bind ?_
  rintro network _ rfl
  refine (Step.Related.ofExcept _).bind ?_
  rintro footprint _ rfl
  refine (Step.Related.ofExcept _).bind ?_
  rintro update _ rfl
  exact .pure rfl

end Composition

namespace Artifact

theorem object_reads (a : ArtifactKind) (r : Record a.kind) :
    Step.Reads (object a r : Step Store ReconcileError RemoteObject) := by
  cases a with
  | az | vmExtension | compilation | baseImage | release =>
    exact (Step.Reads.ofExcept _).bind fun _ => .pure _
  | network =>
    refine Step.Reads.bind ?_ fun _ => .pure _
    refine (Step.Reads.ofExcept _).bind fun spec => Step.Reads.bind (.mapError ?_) fun _ => .pure _
    exact .mapM (fun s => (Composition.internalNamesOf_reads _ _ _).bind fun _ => .pure _) _
  | deployment => exact ((Composition.manifest_reads r).mapError).bind fun _ => .pure _

variable {R : Store → Store → Prop}

theorem networkFragment_related {r r' : Record .network}
    (hR : Composition.Supplies R r.metadata.ns) (hr : r.Interchangeable r') :
    Step.Related R Eq (networkFragment r : Step Store ReconcileError _) (networkFragment r') := by
  rw [networkFragment, networkFragment, hr.frozenOf, hr.internalName, hr.ns]
  refine (Step.Related.ofExcept _).bind ?_
  rintro spec _ rfl
  refine (Step.Related.mapError (.mapM (fun s => ?_) _)).bind (V := Eq) ?_
  · refine (Composition.internalNamesOf_related hR Kind.noConfusion _).bind ?_
    rintro names _ rfl
    exact .pure rfl
  · rintro subnets _ rfl
    exact .pure rfl

/-- Interchangeable records have the same object, if their namespace supplies the same. -/
theorem object_related_in (a : ArtifactKind) {r r' : Record a.kind}
    (hR : Composition.Supplies R r.metadata.ns) (h : r.Interchangeable r') :
    Step.Related R Eq (object a r : Step Store ReconcileError RemoteObject) (object a r') := by
  cases a with
  | az | vmExtension | compilation | baseImage | release =>
    simp only [object, azFragment, vmExtensionFragment, compilationFragment, h.frozenOf,
      h.internalName]
    refine (Step.Related.ofExcept _).bind ?_
    rintro spec _ rfl
    exact .pure rfl
  | network =>
    rw [object, object, h.internalName]
    refine (networkFragment_related hR h).bind ?_
    rintro config _ rfl
    exact .pure rfl
  | deployment =>
    rw [object, object, h.internalName]
    refine (Composition.manifest_related hR h).mapError.bind ?_
    rintro manifest _ rfl
    exact .pure rfl

theorem object_related (hR : Store.Exchanges R) (a : ArtifactKind) {r r' : Record a.kind}
    (h : r.Interchangeable r') :
    Step.Related R Eq (object a r : Step Store ReconcileError RemoteObject) (object a r') :=
  object_related_in a (.of_fetch fun k hk name => hR k hk _ name) h

theorem handle?_eq {a : ArtifactKind} {r r' : Record a.kind} (h : r.Interchangeable r') :
    handle? a r' = handle? a r := by
  have hn := h.internalName
  cases a with
  | az | network | vmExtension | compilation | deployment => simp only [handle?, hn]
  | baseImage | release => simp only [handle?, h.frozen?]

/-- The object of a record that was written is the one of the record before, if the two are
alike. -/
theorem object_of_replaced (a : ArtifactKind) {r r' : Record a.kind} (h : r.Alike r') {s t : Store}
    (hst : Store.Replaced r r' s t) : (object a r' t).1 = (object a r s).1 :=
  (object_related (Store.exchanges_replaced h) a h.interchangeable).fst hst

end Artifact

end Reconciliation
