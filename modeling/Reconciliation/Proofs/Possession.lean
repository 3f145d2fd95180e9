import Reconciliation.Proofs.Effect

/-! A record that holds its finalizer answers for one object on the Director, or for one client of
the identity service. A record is sound if it holds the finalizer only with a frozen spec, and if
the addresses in its specs yield the artifacts that they name. Owners and reconciles keep records
sound, and no stored record that holds its finalizer loses it unnoticed. -/
namespace Reconciliation

/-- Something that one record stands for on a remote service. -/
inductive Possession where
  | object (h : RemoteHandle)
  | client (id : String)

/-- It is there. -/
def World.Has (w : World Store Secrets) : Possession → Prop
  | .object h => w.director.Has h
  | .client id => w.identity.clients.contains id = true

/-- The addresses in a spec yield the artifacts that the spec names, if they yield any. -/
def Spec.Fits (d : Director) : (k : Kind) → Spec k → Prop
  | .release, (spec : ReleaseSpec) =>
    ∀ got, d.releaseSources.get? spec.url = some got → got = ⟨spec.releaseName, spec.version⟩
  | .baseImage, (spec : BaseImageSpec) =>
    ∀ got, d.stemcellSources.get? spec.url = some got → got = ⟨spec.imageName, spec.version⟩
  | _, _ => True

namespace Spec

variable {k : Kind} {d d' : Director}

theorem fits_of_not_freezes (hk : k.freezes = false) (spec : Spec k) : spec.Fits d := by
  cases k with
  | director | role | deployment => trivial
  | team | az | network | baseImage | release | vmExtension | compilation => cases hk

theorem Fits.of_sources {spec : Spec k} (h : spec.Fits d)
    (hr : d'.releaseSources = d.releaseSources) (hs : d'.stemcellSources = d.stemcellSources) :
    spec.Fits d' := by
  cases k with
  | release =>
    intro got hg
    rw [hr] at hg
    exact h got hg
  | baseImage =>
    intro got hg
    rw [hs] at hg
    exact h got hg
  | _ => trivial

end Spec

namespace Record

variable {k : Kind}

/-- What the record stands for. -/
def possession? : {k : Kind} → Record k → Option Possession
  | .az, r => (Artifact.handle? .az r).map .object
  | .network, r => (Artifact.handle? .network r).map .object
  | .baseImage, r => (Artifact.handle? .baseImage r).map .object
  | .release, r => (Artifact.handle? .release r).map .object
  | .vmExtension, r => (Artifact.handle? .vmExtension r).map .object
  | .compilation, r => (Artifact.handle? .compilation r).map .object
  | .deployment, r => (Artifact.handle? .deployment r).map .object
  | .team, r => some (.client r.internalName)
  | .director, _ | .role, _ => none

theorem possession?_artifact (a : ArtifactKind) (r : Record a.kind) :
    r.possession? = (Artifact.handle? a r).map .object := by
  cases a <;> rfl

theorem possession?_release {r : Record .release} {p : Possession} (h : r.possession? = some p) :
    ∃ spec : ReleaseSpec, r.frozen? = some spec ∧
      p = .object (.release ⟨spec.releaseName, spec.version⟩) := by
  obtain ⟨handle, hh, rfl⟩ := Option.map_eq_some_iff.1 h
  obtain ⟨spec, hs, rfl⟩ := Option.map_eq_some_iff.1 hh
  exact ⟨spec, hs, rfl⟩

theorem possession?_baseImage {r : Record .baseImage} {p : Possession}
    (h : r.possession? = some p) : ∃ spec : BaseImageSpec, r.frozen? = some spec ∧
      p = .object (.stemcell ⟨spec.imageName, spec.version⟩) := by
  obtain ⟨handle, hh, rfl⟩ := Option.map_eq_some_iff.1 h
  obtain ⟨spec, hs, rfl⟩ := Option.map_eq_some_iff.1 hh
  exact ⟨spec, hs, rfl⟩

/-- The key and the frozen spec decide what a record stands for. -/
theorem possession?_congr {r r' : Record k} (hk : r'.key = r.key) (hf : r'.frozen? = r.frozen?) :
    r'.possession? = r.possession? := by
  have hn := internalName_eq hk
  cases k with
  | director | role => rfl
  | team => simp only [possession?, hn]
  | az | network | vmExtension | compilation | deployment =>
    simp only [possession?, Artifact.handle?, hn]
  | baseImage | release => simp only [possession?, Artifact.handle?, hf]

/-- The record holds its finalizer only with a frozen spec, and its specs fit. -/
structure Sound (d : Director) (r : Record k) : Prop where
  frozen : k.freezes = true → r.hasFinalizer = true → r.frozen?.isSome = true
  fits : r.spec.Fits d
  frozenFits : ∀ {spec}, r.frozen? = some spec → spec.Fits d

variable {d : Director} {r q : Record k}

theorem Sound.of_sources {d' : Director} (h : r.Sound d)
    (hr : d'.releaseSources = d.releaseSources) (hs : d'.stemcellSources = d.stemcellSources) :
    r.Sound d' where
  frozen := h.frozen
  fits := h.fits.of_sources hr hs
  frozenFits hf := (h.frozenFits hf).of_sources hr hs

theorem sound_of_initial (hs : r.status = Status.initial k) (hf : r.hasFinalizer = false)
    (hfits : r.spec.Fits d) : r.Sound d where
  frozen _ h := by
    rw [hf] at h
    cases h
  fits := hfits
  frozenFits h := by
    rw [frozen?, hs, Status.frozen?_initial] at h
    cases h

/-- Writing metadata and spec keeps a record sound unless it adds the finalizer. -/
theorem Sound.of_status (h : r.Sound d) (hs : q.status = r.status)
    (hf : q.hasFinalizer = true → r.hasFinalizer = true) (hfits : q.spec.Fits d) : q.Sound d where
  frozen hk hq := by
    rw [frozen?, hs]
    exact h.frozen hk (hf hq)
  fits := hfits
  frozenFits hq := by
    rw [frozen?, hs] at hq
    exact h.frozenFits hq

theorem Sound.markedAt (h : r.Sound d) (now : Instant) : (r.markedAt now).Sound d :=
  h.of_status rfl (fun hf => hf) h.fits

theorem Sound.released (h : r.Sound d) : r.released.Sound d := by
  refine h.of_status rfl (fun hf => ?_) h.fits
  rw [hasFinalizer_released] at hf
  cases hf

theorem Sound.advances (h : r.Sound d) (hq : r.Advances q) : q.Sound d where
  frozen hk hf := by
    rcases hq.guards hk hf with hf | hf
    · obtain ⟨spec, hs⟩ := Option.isSome_iff_exists.1 (h.frozen hk hf)
      rw [hq.frozen?_eq hs]
      rfl
    · exact hf
  fits := by
    cases hk : k.freezes with
    | false => exact Spec.fits_of_not_freezes hk _
    | true =>
      rw [hq.spec hk]
      exact h.fits
  frozenFits {spec} hs := by
    rcases hq.frozen with hf | ⟨-, hf⟩
    · exact h.frozenFits (hf ▸ hs)
    · rw [hf] at hs
      cases hs
      exact h.fits

/-- What a record holding its finalizer stands for stays the same. -/
theorem Sound.possession?_eq (h : r.Sound d) (hf : r.hasFinalizer = true) (hq : r.Advances q) :
    q.possession? = r.possession? := by
  refine possession?_congr hq.key ?_
  rcases hq.frozen with hx | ⟨hn, hx⟩
  · exact hx
  · have hk := Status.freezes_of_frozen? hx
    have hs := h.frozen hk hf
    rw [hn] at hs
    cases hs

end Record

namespace Artifact

variable {a : ArtifactKind} {r : Record a.kind} {s : Store} {o : RemoteObject} {d : Director}

/-- The object of a record has the handle of the record, and is what its address yields. -/
theorem object_ok (h : (object a r s).1 = .ok o) :
    handle? a r = some o.handle ∧
      ((∀ spec, r.frozen? = some spec → spec.Fits d) → d.Yields o) := by
  rcases hx : object a r s with ⟨x, t⟩
  rw [hx] at h
  obtain rfl : x = .ok o := h
  cases a with
  | az | network | vmExtension | compilation | deployment =>
    rw [object] at hx
    obtain ⟨c, u, -, ho⟩ := Step.ok_of_bind hx
    cases ho
    exact ⟨rfl, fun _ => trivial⟩
  | baseImage | release =>
    rw [object] at hx
    obtain ⟨spec, u, hspec, ho⟩ := Step.ok_of_bind hx
    cases ho
    have hf : r.frozen? = some spec := Credentials.frozenOf_eq_ok_iff.1 (congrArg Prod.fst hspec)
    exact ⟨by simp only [handle?, hf]; rfl, fun hfits => hfits spec hf⟩

end Artifact

namespace Store

variable {k : Kind} {s : Store} {d : Director}

/-- All stored records are sound. -/
def Sound (d : Director) (s : Store) : Prop :=
  ∀ (key : Key) (k : Kind) (r : Record k), s.get? key = some ⟨k, r⟩ → r.Sound d

/-- A stored record holds its finalizer and stands for this. -/
def Owns (s : Store) (p : Possession) : Prop :=
  ∃ (key : Key) (k : Kind) (r : Record k),
    s.get? key = some ⟨k, r⟩ ∧ r.hasFinalizer = true ∧ r.possession? = some p

namespace Sound

theorem of_sources {d' : Director} (h : s.Sound d) (hr : d'.releaseSources = d.releaseSources)
    (hs : d'.stemcellSources = d.stemcellSources) : s.Sound d' :=
  fun key k r hget => (h key k r hget).of_sources hr hs

theorem keep (h : s.Sound d) {q : Record k} (hq : q.Sound d) : (s.keep q).Sound d := by
  intro key k' r hr
  rw [get?_keep] at hr
  split at hr
  · cases hr
    exact hq
  · exact h key k' r hr

theorem accept (h : s.Sound d) {q : Record k} (hq : q.Sound d) : (s.accept q).Sound d := by
  unfold Store.accept
  split
  · intro key k' r hr
    rw [get?_without] at hr
    split at hr
    · cases hr
    · exact h key k' r hr
  · exact h.keep hq

theorem create (h : s.Sound d) {r : AnyRecord} (hr : r.record.Sound d) :
    (Store.create r s).2.Sound d := by
  intro key k' q hq
  rcases get?_of_create hq with hq | ⟨-, -, hissue⟩
  · exact h key k' q hq
  · obtain ⟨k, r⟩ := r
    cases hissue
    exact hr.of_status rfl (fun hf => hf) hr.fits

theorem delete (hs : s.WellFormed) (h : s.Sound d) (now : Instant) (key : Key) :
    (Store.delete now key s).2.Sound d := by
  rcases delete_eq hs now key with hd | ⟨k, r, hr, hd⟩
  · rwa [hd]
  · rw [hd]
    exact h.accept ((h r.key k r hr).markedAt now)

/-- An update that leaves the finalizer of the kind as it is. -/
theorem update (hs : s.WellFormed) (h : s.Sound d) {r : AnyRecord}
    (hf : ∀ q, s.get? r.key = some q → r.hasFinalizer = q.hasFinalizer)
    (hfits : r.record.spec.Fits d) : (Store.update r s).2.Sound d := by
  rcases update_eq hs r with hu | ⟨k, p, incoming, hp, rfl, hk, hu⟩
  · rwa [hu]
  · rw [hu]
    have hsame : incoming.hasFinalizer = p.hasFinalizer :=
      hf ⟨k, p⟩ ((congrArg s.get? hk).trans hp)
    have hsound := h p.key k p hp
    exact h.accept (hsound.of_status rfl (fun hx => hsame ▸ hx) hfits)

end Sound

namespace Owns

variable {p : Possession} {r q : Record k}

theorem keep (h : s.Owns p) (hr : s.Holds r) (hk : q.key = r.key)
    (hf : r.hasFinalizer = true → q.hasFinalizer = true ∧ q.possession? = r.possession?) :
    (s.keep q).Owns p := by
  obtain ⟨key, k', o, ho, hof, hop⟩ := h
  by_cases hkey : key = r.key
  · subst hkey
    rw [hr] at ho
    cases ho
    obtain ⟨hqf, hqp⟩ := hf hof
    exact ⟨q.key, k, q, holds_keep s q, hqf, hqp.trans hop⟩
  · refine ⟨key, k', o, ?_, hof, hop⟩
    rw [get?_keep, hk, if_neg hkey]
    exact ho

/-- A write that the record survives with its finalizer. -/
theorem accept (h : s.Owns p) (hr : s.Holds r) (hk : q.key = r.key)
    (hf : r.hasFinalizer = true → q.hasFinalizer = true ∧ q.possession? = r.possession?) :
    (s.accept q).Owns p := by
  by_cases hrf : r.hasFinalizer = true
  · have hq : s.accept q = s.keep q :=
      accept_eq_keep s fun _ => Record.finalizers_ne_nil (hf hrf).1
    rw [hq]
    exact h.keep hr hk hf
  · obtain ⟨key, k', o, ho, hof, hop⟩ := h
    refine ⟨key, k', o, ?_, hof, hop⟩
    have hkey : key ≠ q.key := by
      rintro rfl
      rw [hk, hr] at ho
      cases ho
      exact hrf hof
    rw [get?_accept_of_ne s hkey, ho]

/-- Any write loses at most what its own record stood for. -/
theorem accept_or (h : s.Owns p) (hr : s.Holds r) (hk : q.key = r.key) :
    (s.accept q).Owns p ∨ r.hasFinalizer = true ∧ r.possession? = some p := by
  obtain ⟨key, k', o, ho, hof, hop⟩ := h
  by_cases hkey : key = q.key
  · rw [hkey, hk, hr] at ho
    cases ho
    exact .inr ⟨hof, hop⟩
  · refine .inl ⟨key, k', o, ?_, hof, hop⟩
    rw [get?_accept_of_ne s hkey, ho]

theorem create (h : s.Owns p) (r : AnyRecord) : (Store.create r s).2.Owns p := by
  obtain ⟨key, k', o, ho, hof, hop⟩ := h
  exact ⟨key, k', o, get?_create_of_some ho r, hof, hop⟩

theorem delete (hs : s.WellFormed) (h : s.Owns p) (now : Instant) (key : Key) :
    (Store.delete now key s).2.Owns p := by
  rcases delete_eq hs now key with hd | ⟨k, r, hr, hd⟩
  · rwa [hd]
  · rw [hd]
    exact h.accept hr rfl fun hf => ⟨hf, Record.possession?_congr rfl rfl⟩

theorem update (hs : s.WellFormed) (h : s.Owns p) {r : AnyRecord}
    (hf : ∀ q, s.get? r.key = some q → r.hasFinalizer = q.hasFinalizer) :
    (Store.update r s).2.Owns p := by
  rcases update_eq hs r with hu | ⟨k, q, incoming, hq, rfl, hk, hu⟩
  · rwa [hu]
  · rw [hu]
    have hsame : incoming.hasFinalizer = q.hasFinalizer :=
      hf ⟨k, q⟩ ((congrArg s.get? hk).trans hq)
    exact h.accept hq hk fun hx => ⟨hsame.trans hx, Record.possession?_congr hk rfl⟩

theorem fragment (hs : s.WellFormed) {name : String} (h : s.Owns (.object (.fragment name))) :
    ∃ (k : Kind) (r : Record k), k ∈ [Kind.az, .network, .vmExtension, .compilation] ∧
      s.Holds r ∧ r.hasFinalizer = true ∧ r.internalName = name := by
  obtain ⟨key, k, r, hr, hf, hp⟩ := h
  have hr := hs.holds hr
  cases k with
  | az | network | vmExtension | compilation =>
    cases hp
    exact ⟨_, r, by decide, hr, hf, rfl⟩
  | director | role | team | deployment => cases hp
  | baseImage =>
    obtain ⟨spec, -, hx⟩ := Record.possession?_baseImage hp
    cases hx
  | release =>
    obtain ⟨spec, -, hx⟩ := Record.possession?_release hp
    cases hx

theorem deployment (hs : s.WellFormed) {name : String}
    (h : s.Owns (.object (.deployment name))) :
    ∃ r : Record .deployment, s.Holds r ∧ r.hasFinalizer = true ∧ r.internalName = name := by
  obtain ⟨key, k, r, hr, hf, hp⟩ := h
  have hr := hs.holds hr
  cases k with
  | deployment =>
    cases hp
    exact ⟨r, hr, hf, rfl⟩
  | director | role | team | az | network | vmExtension | compilation => cases hp
  | baseImage =>
    obtain ⟨spec, -, hx⟩ := Record.possession?_baseImage hp
    cases hx
  | release =>
    obtain ⟨spec, -, hx⟩ := Record.possession?_release hp
    cases hx

theorem client (hs : s.WellFormed) {id : String} (h : s.Owns (.client id)) :
    ∃ r : Record .team, s.Holds r ∧ r.hasFinalizer = true ∧ r.internalName = id := by
  obtain ⟨key, k, r, hr, hf, hp⟩ := h
  have hr := hs.holds hr
  cases k with
  | team =>
    cases hp
    exact ⟨r, hr, hf, rfl⟩
  | director | role | az | network | vmExtension | compilation | deployment => cases hp
  | baseImage =>
    obtain ⟨spec, -, hx⟩ := Record.possession?_baseImage hp
    cases hx
  | release =>
    obtain ⟨spec, -, hx⟩ := Record.possession?_release hp
    cases hx

theorem release (hs : s.WellFormed) {ref : ReleaseRef} (h : s.Owns (.object (.release ref))) :
    ∃ (r : Record .release) (spec : ReleaseSpec), s.Holds r ∧ r.hasFinalizer = true ∧
      r.frozen? = some spec ∧ ref = ⟨spec.releaseName, spec.version⟩ := by
  obtain ⟨key, k, r, hr, hf, hp⟩ := h
  have hr := hs.holds hr
  cases k with
  | release =>
    obtain ⟨spec, hspec, hx⟩ := Record.possession?_release hp
    cases hx
    exact ⟨r, spec, hr, hf, hspec, rfl⟩
  | baseImage =>
    obtain ⟨spec, -, hx⟩ := Record.possession?_baseImage hp
    cases hx
  | director | role | team | az | network | vmExtension | compilation | deployment => cases hp

theorem stemcell (hs : s.WellFormed) {ref : ReleaseRef} (h : s.Owns (.object (.stemcell ref))) :
    ∃ (r : Record .baseImage) (spec : BaseImageSpec), s.Holds r ∧ r.hasFinalizer = true ∧
      r.frozen? = some spec ∧ ref = ⟨spec.imageName, spec.version⟩ := by
  obtain ⟨key, k, r, hr, hf, hp⟩ := h
  have hr := hs.holds hr
  cases k with
  | baseImage =>
    obtain ⟨spec, hspec, hx⟩ := Record.possession?_baseImage hp
    cases hx
    exact ⟨r, spec, hr, hf, hspec, rfl⟩
  | release =>
    obtain ⟨spec, -, hx⟩ := Record.possession?_release hp
    cases hx
  | director | role | team | az | network | vmExtension | compilation | deployment => cases hp

end Owns

end Store

end Reconciliation
