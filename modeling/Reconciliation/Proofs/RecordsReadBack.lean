import Reconciliation.Proofs.ReadBack
import Reconciliation.Record

/-! A record that was read from JSON is written and read again without loss: what is left out is
what a missing member stands for, and what was read from an array or under an older name is written
as an object under the present one. A spec without free-form values is read back whatever it is. A
spec with such values is read back if it was itself read, as then no missing value is a null that
is there. Times are the exception: that an instant can be read from its own text is a condition on
the record. -/
namespace Reconciliation

variable (r : Rearrangement)

@[simp]
theorem DirectorSpec.decode_toJson (s : DirectorSpec) : decode (r.apply s.toJson) = .ok s :=
  Layout.decode_written (by unfold layout; infer_instance) (by simp) (by simp [layout])

@[simp]
theorem TeamSpec.decode_toJson (s : TeamSpec) : decode (r.apply s.toJson) = .ok s :=
  Layout.decode_written (by unfold layout; infer_instance) (by simp) (by simp [layout])

@[simp]
theorem BaseImageSpec.decode_toJson (s : BaseImageSpec) : decode (r.apply s.toJson) = .ok s :=
  Layout.decode_written (by unfold layout; infer_instance) (by simp) (by simp [layout])

@[simp]
theorem ReleaseSpec.decode_toJson (s : ReleaseSpec) : decode (r.apply s.toJson) = .ok s :=
  Layout.decode_written (by unfold layout; infer_instance) (by simp) (by simp [layout])

@[simp]
theorem RoleSource.decode_toJson (s : RoleSource) : decode (r.apply s.toJson) = .ok s :=
  Layout.decode_written (by unfold layout; infer_instance) (by simp) (by simp [layout])

@[simp]
theorem ExportedLink.decode_toJson (s : ExportedLink) : decode (r.apply s.toJson) = .ok s :=
  Layout.decode_written (by unfold layout; infer_instance) (by simp) (by simp [layout])

@[simp]
theorem ImportedLink.decode_toJson (s : ImportedLink) : decode (r.apply s.toJson) = .ok s :=
  Layout.decode_written (by unfold layout; infer_instance) (by simp) (by simp [layout])

@[simp]
theorem ContainerResources.decode_toJson (s : ContainerResources) :
    decode (r.apply s.toJson) = .ok s :=
  Layout.decode_written (by unfold layout; infer_instance) (by simp) (by simp [layout])

@[simp]
theorem Container.decode_toJson (s : Container) : decode (r.apply s.toJson) = .ok s :=
  Layout.decode_written (by unfold layout; infer_instance) (by simp) (by simp [layout])

@[simp]
theorem UpdateStrategy.decode_toJson (s : UpdateStrategy) : decode (r.apply s.toJson) = .ok s :=
  Layout.decode_written (by unfold layout; infer_instance) (by simp) (by simp [layout])

@[simp]
theorem DeploymentSpec.decode_toJson (s : DeploymentSpec) : decode (r.apply s.toJson) = .ok s :=
  Layout.decode_written (by unfold layout; infer_instance) (by simp) (by simp [layout])

theorem AzSpec.faithful : Faithful r decode toJson := by
  refine Layout.faithful (by unfold layout; infer_instance) fun find s hfind h => ?_
  simp only [layout, Layout.exists_map] at h
  obtain ⟨p, hp, rfl⟩ := h
  exact ⟨_, rfl, by simp, by simp [layout, CloudProperties.kept hfind hp]⟩

theorem VmExtensionSpec.faithful : Faithful r decode toJson := by
  refine Layout.faithful (by unfold layout; infer_instance) fun find s hfind h => ?_
  simp only [layout, Layout.exists_map] at h
  obtain ⟨p, hp, rfl⟩ := h
  exact ⟨_, rfl, by simp, by simp [layout, CloudProperties.kept hfind hp]⟩

theorem Subnet.faithful : Faithful r decode toJson := by
  refine Layout.faithful (by unfold layout; infer_instance) fun find s hfind h => ?_
  simp only [layout, Layout.exists_seq, Layout.exists_map] at h
  obtain ⟨_, -, _, -, _, -, _, -, _, -, _, -, p, hp, rfl⟩ := h
  exact ⟨_, rfl, by simp, by simp [layout, CloudProperties.kept hfind hp]⟩

theorem NetworkSpec.faithful : Faithful r decode toJson := by
  refine Layout.faithful (by unfold layout; infer_instance) fun find s hfind h => ?_
  simp only [layout, Layout.exists_seq, Layout.exists_map] at h
  obtain ⟨_, -, subnets, hsubnets, rfl⟩ := h
  have hkept := (Subnet.faithful r).list.optional hfind (Decoder.list_map (by simp)) hsubnets
  exact ⟨_, rfl, by simp, by simp [layout, hkept]⟩

theorem CompilationSpec.faithful : Faithful r decode toJson := by
  refine Layout.faithful (by unfold layout; infer_instance) fun find s hfind h => ?_
  simp only [layout, Layout.exists_seq, Layout.exists_map] at h
  obtain ⟨_, -, az, haz, _, -, _, -, _, -, vm, hvm, _, -, _, -, _, -, _, -, _, -, net, hnet, _, -,
    rfl⟩ := h
  exact ⟨_, rfl, by simp, by simp [layout, CloudProperties.kept hfind haz,
    CloudProperties.kept hfind hvm, CloudProperties.kept hfind hnet]⟩

theorem RoleSpec.faithful : Faithful r decode toJson := by
  refine Layout.faithful (by unfold layout; infer_instance) fun find s hfind h => ?_
  simp only [layout, Layout.exists_seq, Layout.exists_map] at h
  obtain ⟨_, -, properties, hproperties, rfl⟩ := h
  have hkept : r.apply properties = properties :=
    (Decoder.json_yields r).optional hfind r.apply_null hproperties
  exact ⟨_, rfl, by simp, by simp [layout, hkept]⟩

namespace FrozenStatus

variable {σ : Type} {spec : Decoder σ} {write : σ → Json} {r}

theorem faithful (hspec : Faithful r spec write) (hnull : ∀ s, write s ≠ .null) :
    Faithful r (decode spec) (toJson write) := by
  refine Layout.faithful (by unfold layout; infer_instance) fun find s hfind h => ?_
  simp only [layout, Layout.exists_seq, Layout.exists_map] at h
  obtain ⟨_, -, frozen, hfrozen, _, -, rfl⟩ := h
  have hkept := hspec.optionalNullable (fun _ s _ _ => hnull s) hfind hfrozen
  exact ⟨_, rfl, by simp, by simp [layout, hkept]⟩

theorem decode_initial (write : σ → Json) (r : Rearrangement) :
    decode spec (r.apply (toJson write {})) = .ok {} :=
  Layout.decode_written (by unfold layout; infer_instance) (by simp) (by simp [layout])

end FrozenStatus

@[simp]
theorem TeamSpec.toJson_ne_null (s : TeamSpec) : s.toJson ≠ .null := Json.noConfusion

@[simp]
theorem TeamStatus.decode_toJson (s : TeamStatus) : decode (r.apply s.toJson) = .ok s :=
  Layout.decode_written (by unfold layout; infer_instance) (by simp) (by simp [layout])

@[simp]
theorem DeploymentStatus.decode_toJson (s : DeploymentStatus) : decode (r.apply s.toJson) = .ok s :=
  Layout.decode_written (by unfold layout; infer_instance) (by simp) (by simp [layout])

@[simp]
theorem EmptyStatus.decode_toJson (s : EmptyStatus) : decode (r.apply s.toJson) = .ok s :=
  Layout.decode_written (by unfold layout; infer_instance) (by simp) (by simp [layout])

theorem Spec.faithful : ∀ k, Faithful r (decode k) (toJson k)
  | .director => .of_decode (DirectorSpec.decode_toJson r)
  | .team => .of_decode (TeamSpec.decode_toJson r)
  | .az => AzSpec.faithful r
  | .network => NetworkSpec.faithful r
  | .baseImage => .of_decode (BaseImageSpec.decode_toJson r)
  | .release => .of_decode (ReleaseSpec.decode_toJson r)
  | .role => RoleSpec.faithful r
  | .vmExtension => VmExtensionSpec.faithful r
  | .compilation => CompilationSpec.faithful r
  | .deployment => .of_decode (DeploymentSpec.decode_toJson r)

namespace Status

theorem faithful : ∀ k, Faithful r (decode k) (toJson k)
  | .director | .role => .of_decode (EmptyStatus.decode_toJson r)
  | .team => .of_decode (TeamStatus.decode_toJson r)
  | .az => FrozenStatus.faithful (Spec.faithful r .az) fun _ => Json.noConfusion
  | .network => FrozenStatus.faithful (Spec.faithful r .network) fun _ => Json.noConfusion
  | .baseImage => FrozenStatus.faithful (Spec.faithful r .baseImage) fun _ => Json.noConfusion
  | .release => FrozenStatus.faithful (Spec.faithful r .release) fun _ => Json.noConfusion
  | .vmExtension => FrozenStatus.faithful (Spec.faithful r .vmExtension) fun _ => Json.noConfusion
  | .compilation => FrozenStatus.faithful (Spec.faithful r .compilation) fun _ => Json.noConfusion
  | .deployment => .of_decode (DeploymentStatus.decode_toJson r)

/-- The status that a record without one gets may be written all the same. -/
theorem decode_initial : ∀ k, decode k (r.apply (toJson k (initial k))) = .ok (initial k)
  | .director | .role => EmptyStatus.decode_toJson r {}
  | .team => TeamStatus.decode_toJson r {}
  | .az | .network | .baseImage | .release | .vmExtension | .compilation =>
    FrozenStatus.decode_initial _ r
  | .deployment => DeploymentStatus.decode_toJson r {}

end Status

@[simp]
theorem Kind.decode_title (k : Kind) : decode (.str k.title) = .ok k := by
  cases k <;> rfl

/-- The instant is read back from its text. -/
def Instant.Legible (t : Instant) : Prop := read t.text = .ok t

namespace Metadata

@[simp]
theorem instant_text {t : Instant} (h : t.Legible) : instant (.str t.text) = .ok t := by
  rw [instant, h]

/-- A version that was read fits in 64 bits. -/
theorem version_lt : decode.Yields r (·.version < UInt64.size) := by
  refine Layout.yields fun find m hfind h => ?_
  simp only [layout, Layout.exists_seq, Layout.exists_map] at h
  obtain ⟨_, -, _, -, _, -, version, hversion, _, -, _, -, _, -, _, -, rfl⟩ := h
  exact (Decoder.natBelow_yields r _ _).optional hfind (Nat.two_pow_pos 64) hversion

theorem decode_toJson {m : Metadata} (hversion : m.version < UInt64.size)
    (hdeleted : ∀ t, m.deletedAt = some t → t.Legible) : decode (r.apply m.toJson) = .ok m := by
  refine Layout.decode_written (by unfold layout; infer_instance) (by simp) ?_
  have hv := Decoder.natBelow_nat "u64" hversion (Nat.le_refl _)
  have hd : Decoder.member (.ok none) (Decoder.nullable instant)
      (m.deletedAt.map fun t => .str t.text) = .ok m.deletedAt :=
    Decoder.member_map fun t ht => by simp [hdeleted t ht]
  simp [layout, hv, hd]

end Metadata

namespace Record

variable {k : Kind} {r}

theorem decode_toJson : (decode k).Yields r fun a =>
    (∀ t, a.metadata.deletedAt = some t → t.Legible) → decode k (r.apply a.toJson) = .ok a := by
  refine Layout.yields fun find a hfind h hdeleted => ?_
  simp only [layout, Layout.exists_seq, Layout.exists_map] at h
  obtain ⟨_, -, _, -, m, hm, s, hs, t, ht, rfl⟩ := h
  have hmetadata := Metadata.decode_toJson r ((Metadata.version_lt r).required hfind hm) hdeleted
  have hspec := (Spec.faithful r k).required hfind hs
  have hstatus := (Status.faithful r k).optional hfind (Status.decode_initial r k) ht
  exact Layout.decode_written (by unfold layout; infer_instance) (by simp)
    (by simp [layout, hmetadata, hspec, hstatus])

end Record

namespace AnyRecord

variable {v : Json} {a : AnyRecord} {r}

theorem decode_eq_ok_iff : decode v = .ok a ↔
    (∃ w, v.get? "kind" = some w ∧ Kind.decode w = .ok a.kind) ∧
      Record.decode a.kind v = .ok a.record := by
  unfold decode
  constructor
  · intro h
    split at h
    · cases h
    · next w hw =>
      obtain ⟨k, hk, h⟩ := Step.except_bind_eq_ok_iff.1 h
      obtain ⟨b, hb, h⟩ := Step.except_bind_eq_ok_iff.1 h
      cases h
      exact ⟨⟨w, hw, hk⟩, hb⟩
  · rintro ⟨⟨w, hw, hk⟩, hb⟩
    simp only [hw, hk, hb, Decoder.ok_bind]
    rfl

/-- A record is written with the kind of its variant. -/
theorem get?_kind (a : AnyRecord) (r : Rearrangement) :
    (r.apply a.toJson).get? "kind" = some (.str a.kind.title) := by
  rw [toJson, Record.toJson, r.apply_obj, Json.get?, r.get?_members (by simp)]
  simp [Entries.get?_cons]

theorem decode_toJson (hv : r.apply v = v) (h : decode v = .ok a)
    (hdeleted : ∀ t, a.metadata.deletedAt = some t → t.Legible) :
    decode (r.apply a.toJson) = .ok a := by
  have hrecord := (decode_eq_ok_iff.1 h).2
  exact decode_eq_ok_iff.2 ⟨⟨_, get?_kind a r, Kind.decode_title a.kind⟩,
    Record.decode_toJson v _ hv hrecord hdeleted⟩

end AnyRecord

/-- Whatever a record was read from, aliases, arrays for objects and missing members included, it
is written with its own kind and read back as it was. Both hold for the members in the order of
writing, and for the members in key order if the free-form values came so. -/
theorem AnyRecord.read_back {v : Json} {a : AnyRecord} (h : decode v = .ok a)
    (hdeleted : ∀ t, a.metadata.deletedAt = some t → t.Legible) :
    (∃ w, v.get? "kind" = some w ∧ Kind.decode w = .ok a.kind) ∧
      a.toJson.get? "kind" = some (.str a.kind.title) ∧ decode a.toJson = .ok a ∧
      (v.sorted = v → decode a.toJson.sorted = .ok a) ∧
      (decode a.toJson).map toJson = .ok a.toJson ∧
      (v.sorted = v → (decode a.toJson.sorted).map (·.toJson.sorted) = .ok a.toJson.sorted) := by
  have hwritten : decode a.toJson = .ok a := decode_toJson (r := .asWritten) rfl h hdeleted
  have hsorted : v.sorted = v → decode a.toJson.sorted = .ok a :=
    fun hv => decode_toJson (r := .inKeyOrder) hv h hdeleted
  refine ⟨(decode_eq_ok_iff.1 h).1, get?_kind a .asWritten, hwritten, hsorted, ?_, fun hv => ?_⟩
  · rw [hwritten, Decoder.ok_map]
  · rw [hsorted hv, Decoder.ok_map]

namespace Small

/-- With the older name of its kind, the spec as an array and a leap second in another zone. -/
def imageRead : Json :=
  .obj [("apiVersion", .str apiVersion), ("kind", .str "Stemcell"),
    ("metadata", .obj [("deletionTimestamp", .str "2017-01-01t00:59:60.250+01:00"),
      ("name", .str "jammy"), ("namespace", .str "ops")]),
    ("spec", .arr [.str "ubuntu", .str "1.2", .str "https://images.example", .str "da39a3ee"]),
    ("status", .obj [("available", .bool true), ("original_spec", .null)])]

def retiredImage : Record .baseImage where
  apiVersion := apiVersion
  metadata := { name := "jammy", ns := "ops", deletedAt := some ⟨1483228799, 1250000000⟩ }
  spec := (⟨"ubuntu", "1.2", "https://images.example", "da39a3ee"⟩ : BaseImageSpec)
  status := (⟨"", none, true⟩ : FrozenStatus BaseImageSpec)

theorem decode_imageRead : AnyRecord.decode imageRead = .ok retiredImage := by
  have hinstant : Instant.read "2017-01-01t00:59:60.250+01:00" =
      .ok ⟨1483228799, 1250000000⟩ := by decide +kernel
  have hmetadata : Metadata.decode (.obj [
      ("deletionTimestamp", .str "2017-01-01t00:59:60.250+01:00"),
      ("name", .str "jammy"), ("namespace", .str "ops")]) = .ok retiredImage.metadata := by
    have hproper : Metadata.layout.Proper := by unfold Metadata.layout; infer_instance
    refine Layout.ofObject_of_build (by simp) ?_
    simp only [Metadata.layout, Entries.get?_cons]
    simp [Metadata.instant, hinstant]
    rfl
  have hrecord : Record.decode .baseImage imageRead = .ok retiredImage := by
    have hproper : (Record.layout .baseImage).Proper := by unfold Record.layout; infer_instance
    refine Layout.ofObject_of_build (by simp) ?_
    simp [Record.layout, Entries.get?_cons, hmetadata]
    rfl
  exact AnyRecord.decode_eq_ok_iff.2 ⟨⟨.str "Stemcell", rfl, rfl⟩, hrecord⟩

theorem legible_retiredImage : ∀ t, retiredImage.metadata.deletedAt = some t → t.Legible := by
  rintro t ⟨⟩
  unfold Instant.Legible
  decide +kernel

end Small

/-- The older name of a kind gives way to the present one. -/
theorem AnyRecord.read_back_small :
    decode Small.imageRead = .ok Small.retiredImage ∧
      Small.imageRead.get? "kind" = some (.str "Stemcell") ∧
      Small.retiredImage.toJson.get? "kind" = some (.str "BaseImage") ∧
      decode Small.retiredImage.toJson = .ok Small.retiredImage ∧
      decode Small.retiredImage.toJson.sorted = .ok Small.retiredImage := by
  obtain ⟨-, hkind, hwritten, hsorted, -, -⟩ :=
    read_back Small.decode_imageRead Small.legible_retiredImage
  exact ⟨Small.decode_imageRead, rfl, hkind, hwritten, hsorted rfl⟩

end Reconciliation
