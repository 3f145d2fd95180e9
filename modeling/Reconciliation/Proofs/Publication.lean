import Reconciliation.Proofs.Establishment
import Reconciliation.Proofs.Manifest

namespace Reconciliation

namespace Director

variable {d d' : Director}

/-- The object is there, and as it is to be. -/
def Bears (d : Director) : RemoteObject → Prop
  | .fragment name config => d.configs.get? name = some config
  | .release ref _ _ => d.releases.contains ref = true
  | .stemcell ref _ _ => d.stemcells.contains ref = true
  | .deployment name manifest => d.deployments.get? name = some manifest

/-- An object that was to be brought into place is there, unless its address yields another one. -/
theorem bears_of_ensure {o : RemoteObject} (h : ensure o d = (.ok (), d')) (hy : d'.Yields o) :
    d'.Bears o := by
  obtain ⟨-, d₁, calls, ha, rfl⟩ := ensure_ok h
  cases o with
  | fragment name config | deployment name manifest =>
    cases ha
    simp [Bears]
  | release ref url sha1 | stemcell ref url sha1 =>
    simp only [arrived?] at ha
    split at ha
    · next hc =>
      cases ha
      exact hc
    · obtain ⟨got, hg, rfl⟩ := Option.map_eq_some_iff.1 ha
      obtain rfl : got = ref := hy got hg
      simp [Bears]

end Director

theorem Reconcile.Brought.bears {τ : Type} {a : ArtifactKind} {r : Record a.kind} {s : Store}
    {v : World Store τ} (h : Brought a r s v) : ∃ o, (Artifact.object a r s).1 = .ok o ∧
      (v.director.Yields o → v.director.Bears o) := by
  obtain ⟨u, rfl, h⟩ := h
  obtain ⟨o, _, hobject, h⟩ := Step.ok_of_bind h
  obtain ⟨s, ho, rfl⟩ := World.ok_of_onRecords hobject
  obtain ⟨d, hd, rfl⟩ := Step.ok_of_onPart h
  exact ⟨o, congrArg Prod.fst ho, Director.bears_of_ensure hd⟩

/-- What the record stands for is in place: its client, or its object as the frozen spec has it. A
network names its zones as they are named on the Director, and a deployment has the manifest that
the stored records give it. Releases and base images are there unless their addresses yield
something else. -/
def Record.InPlace {τ : Type} (u : World Store τ) : {k : Kind} → Record k → Prop
  | .team, r => u.identity.clients.contains r.internalName = true
  | .az, r => ∃ spec : AzSpec, r.frozen? = some spec ∧
    u.director.configs.get? r.internalName = some (spec.fragment r.internalName)
  | .network, r => ∃ spec : NetworkSpec, r.frozen? = some spec ∧
    u.director.configs.get? r.internalName = some (spec.fragment r.internalName
      (spec.subnets.map fun s => s.entry (s.azs.map (Kind.az.internalName r.metadata.ns))))
  | .vmExtension, r => ∃ spec : VmExtensionSpec, r.frozen? = some spec ∧
    u.director.configs.get? r.internalName = some (spec.fragment r.internalName)
  | .compilation, r => ∃ spec : CompilationSpec, r.frozen? = some spec ∧
    u.director.configs.get? r.internalName = some (spec.fragment r.internalName)
  | .baseImage, r => ∃ spec : BaseImageSpec, r.frozen? = some spec ∧
    (Spec.Fits u.director .baseImage spec →
      u.director.stemcells.contains ⟨spec.imageName, spec.version⟩ = true)
  | .release, r => ∃ spec : ReleaseSpec, r.frozen? = some spec ∧
    (Spec.Fits u.director .release spec →
      u.director.releases.contains ⟨spec.releaseName, spec.version⟩ = true)
  | .deployment, r => ∃ m : Manifest, (Composition.manifest r u.records).1 = .ok m ∧
    u.director.deployments.get? r.internalName = some m
  | .director, _ | .role, _ => True

namespace Artifact

variable {s t : Store}

theorem eq_map_of_forall₂ {α β : Type} {f : α → β} {l : List α} {bs : List β}
    (h : List.Forall₂ (fun a b => b = f a) l bs) : bs = l.map f := by
  have hmap : List.Forall₂ (· = ·) bs (l.map f) := List.forall₂_map_right_iff.2 h.flip
  rwa [List.forall₂_eq_eq_eq] at hmap

theorem subnetEntry_eq_ok_iff {ns : String} {subnet : Subnet} {entry : SubnetEntry} :
    subnetEntry ns subnet s = (.ok entry, t) ↔
      (∃ azs, List.Forall₂ (s.Names .az ns) subnet.azs azs ∧ entry = subnet.entry azs) ∧ t = s := by
  simp only [subnetEntry, Step.bind_eq_ok_iff, Step.pure_eq_ok_iff,
    Composition.internalNamesOf_eq_ok_iff]
  constructor
  · rintro ⟨azs, _, ⟨hazs, rfl⟩, rfl, rfl⟩
    exact ⟨⟨azs, hazs, rfl⟩, rfl⟩
  · rintro ⟨⟨azs, hazs, rfl⟩, rfl⟩
    exact ⟨azs, _, ⟨hazs, rfl⟩, rfl, rfl⟩

/-- In a well-formed store, the fragment of a network has the zones under their remote names. -/
theorem networkFragment_ok {r : Record .network} {config : CloudConfig} (hs : s.WellFormed)
    (h : networkFragment r s = (.ok config, t)) : ∃ spec : NetworkSpec, r.frozen? = some spec ∧
      config = spec.fragment r.internalName
        (spec.subnets.map fun s => s.entry (s.azs.map (Kind.az.internalName r.metadata.ns))) := by
  have hsubnets : ∀ {l : List Subnet} {entries : List SubnetEntry} {t : Store},
      l.mapM (subnetEntry r.metadata.ns) s = (.ok entries, t) ↔ List.Forall₂ (fun subnet entry =>
        ∃ azs, List.Forall₂ (s.Names .az r.metadata.ns) subnet.azs azs ∧
          entry = subnet.entry azs) l entries ∧ t = s :=
    Step.mapM_eq_ok_iff subnetEntry_eq_ok_iff
  obtain ⟨spec, _, hfrozen, hrest⟩ := Step.ok_of_bind h
  obtain ⟨hspec, rfl⟩ := Step.ofExcept_eq_ok_iff.1 hfrozen
  obtain ⟨entries, _, hmapped, hreturn⟩ := Step.ok_of_bind hrest
  have hentries := Step.mapError_eq_ok_iff.1 hmapped
  cases hreturn
  refine ⟨spec, Credentials.frozenOf_eq_ok_iff.1 hspec, ?_⟩
  rw [eq_map_of_forall₂ ((hsubnets.1 hentries).1.imp fun subnet entry he => ?_)]
  obtain ⟨azs, hazs, rfl⟩ := he
  rw [eq_map_of_forall₂ (hazs.imp fun _ _ hn => (hs.names_iff.1 hn).2)]

end Artifact

namespace Record

variable {τ : Type} {u : World Store τ}

/-- An object made of the record and the stored records, once it is there, is the one in place. -/
theorem inPlace_of_object {a : ArtifactKind} {r : Record a.kind} {o : RemoteObject}
    (hu : u.records.WellFormed) (ho : (Artifact.object a r u.records).1 = .ok o)
    (hb : u.director.Yields o → u.director.Bears o) : r.InPlace u := by
  rcases hx : Artifact.object a r u.records with ⟨x, t⟩
  rw [hx] at ho
  obtain rfl : x = .ok o := ho
  cases a with
  | az | vmExtension | compilation =>
    obtain ⟨config, _, hconfig, hreturn⟩ := Step.ok_of_bind hx
    cases hreturn
    obtain ⟨spec, hspec, hreturn⟩ :=
      Step.except_bind_eq_ok_iff.1 (Step.ofExcept_eq_ok_iff.1 hconfig).1
    cases hreturn
    exact ⟨spec, Credentials.frozenOf_eq_ok_iff.1 hspec, hb trivial⟩
  | network =>
    obtain ⟨config, _, hconfig, hreturn⟩ := Step.ok_of_bind hx
    cases hreturn
    obtain ⟨spec, hspec, rfl⟩ := Artifact.networkFragment_ok hu hconfig
    exact ⟨spec, hspec, hb trivial⟩
  | baseImage | release =>
    obtain ⟨spec, _, hspec, hreturn⟩ := Step.ok_of_bind hx
    cases hreturn
    exact ⟨spec, Credentials.frozenOf_eq_ok_iff.1 (Step.ofExcept_eq_ok_iff.1 hspec).1, hb⟩
  | deployment =>
    obtain ⟨m, _, hm, hreturn⟩ := Step.ok_of_bind hx
    cases hreturn
    exact ⟨m, congrArg Prod.fst (Step.mapError_eq_ok_iff.1 hm), hb trivial⟩

end Record

namespace Record

variable {τ : Type} {k : Kind}

/-- What a reconcile of a live record may end in: its failure leaves the record as available as it
was, and its success publishes a record that is in place. -/
inductive Publishes (r : Record k) : Except ReconcileError Unit × World Store τ → Prop
  | failed {e : ReconcileError} {q : Record k} {u : World Store τ}
      (hq : u.records.get? r.key = some ⟨k, q⟩) (ha : q.available = r.available) :
      Publishes r (.error e, u)
  | done {q : Record k} {u : World Store τ} (hq : u.records.get? r.key = some ⟨k, q⟩)
      (hf : q.hasFinalizer = true) (ha : q.available = true)
      (hs : k.freezes = true → q.frozen? = some (r.frozen?.getD r.spec)) (hp : q.InPlace u) :
      Publishes r (.ok (), u)

end Record

namespace Reconcile

variable {τ : Type} {w : World Store τ} {sys : String} {k : Kind} {r q : Record k}

theorem Underway.key (h : Underway sys r q) : q.key = r.key := by
  cases h with
  | untouched => rfl
  | frozen => exact r.key_frozenBy sys
  | ready => exact r.key_readied sys

theorem Underway.available (h : Underway sys r q) : q.available = r.available := by
  cases h with
  | untouched => rfl
  | frozen => exact r.available_frozenBy sys
  | ready => exact r.available_readied sys

/-- Establishing a record, after its force flag was consumed, publishes it. -/
theorem Established.publishes {Done : World Store τ → Prop}
    {y : Except ReconcileError Unit × World Store τ} (h : Established sys r.consumed w Done y)
    (hp : ∀ v, v.records = w.records.keep (r.consumed.readied sys) → Done v →
      (r.consumed.readied sys).settled.InPlace (v.keep (r.consumed.readied sys).settled)) :
    r.Publishes y := by
  cases h with
  | @failed e q v hq hv =>
    have hkey : q.key = r.key := hq.key.trans r.key_consumed
    refine .failed (q := q) ?_ ?_
    · rw [hv, ← hkey]
      exact Store.holds_keep _ q
    · rw [hq.available, Record.available, Record.status_consumed]
      rfl
  | @done v hv hd =>
    have hkey : (r.consumed.readied sys).settled.key = r.key := by simp
    refine .done (q := (r.consumed.readied sys).settled) ?_ ?_ (Record.available_settled _) ?_
      (hp v hv hd)
    · rw [← hkey]
      exact World.holds_keep v _
    · rw [Record.hasFinalizer_settled, Record.hasFinalizer_readied]
    · intro hk
      have hne : k ≠ .deployment := by
        rintro rfl
        cases hk
      rw [Record.consumed_of_ne hne, (r.readied sys).alike_settled.frozen?,
        Record.frozen?_readied_of_freezes hk]

/-- An object that was built from the ready record is the one for the published record. -/
theorem Brought.inPlace {a : ArtifactKind} {r : Record a.kind} {v : World Store τ}
    (hw : w.records.WellFormed) (hl : r.beingDeleted = false)
    (hv : v.records = w.records.keep (r.readied sys))
    (h : Brought a (r.readied sys) (w.records.keep (r.readied sys)) v) :
    (r.readied sys).settled.InPlace (v.keep (r.readied sys).settled) := by
  obtain ⟨o, ho, hb⟩ := h.bears
  have hl' : (r.readied sys).beingDeleted = false := by rw [Record.beingDeleted_readied, hl]
  have hv' : v.records.WellFormed := hv ▸ wellFormed_keep_live hw hl'
  have hu : (v.keep (r.readied sys).settled).records.WellFormed :=
    wellFormed_keep_live hv' (by rw [Record.beingDeleted_settled, hl'])
  have hreplaced : Store.Replaced (r.readied sys) (r.readied sys).settled
      (w.records.keep (r.readied sys)) (v.keep (r.readied sys).settled).records :=
    ⟨Store.holds_keep _ _, by rw [World.records_keep, hv]⟩
  refine Record.inPlace_of_object hu (o := o) ?_ hb
  rw [Artifact.object_of_replaced a (r.readied sys).alike_settled hreplaced, ho]

end Reconcile

variable {τ : Type} [SecretStore τ] {w : World Store τ} {k : Kind} {r : Record k}

theorem reconcile_publishes (sys : String) (hw : w.records.WellFormed) (hr : w.records.Holds r)
    (hl : r.beingDeleted = false) (hk : k ≠ .director) (hk' : k ≠ .role) :
    r.Publishes (reconcile sys r.key w) := by
  by_cases hm : Reconcile.Misplaced sys r
  · rw [reconcile_of_misplaced hr hm]
    exact .failed hr rfl
  · induction k, r using Reconcile.kindCases with
    | director r => exact absurd rfl hk
    | role r => exact absurd rfl hk'
    | team r =>
      rw [reconcile_of_team hr, Reconcile.team, hl]
      refine (Reconcile.establishTeam_established sys hr).publishes (r := r) fun v _ hd => ?_
      have hname := Record.internalName_eq ((r.readied sys).key_settled.trans (r.key_readied sys))
      rwa [Reconcile.Registered, ← hname] at hd
    | artifact a r =>
      have hlive : r.consumed.beingDeleted = false := by rw [Record.beingDeleted_consumed, hl]
      rw [reconcile_of_live_artifact hw hr hm hl]
      exact (Reconcile.establishArtifact_established sys (World.holds_keep w _)).publishes
        fun v hv hd => hd.inPlace (Reconcile.wellFormed_keep_live hw hlive) hlive hv

/-- A live record is published only when its object is in place. A reconcile that fails leaves it as
available as it was. After one that succeeds, the stored record has its finalizer, is available and
has its spec frozen, unless it is a deployment, and what it stands for is in place. -/
theorem published_when_in_place (sys : String) (hw : w.records.WellFormed) {key : Key}
    (hr : w.records.get? key = some ⟨k, r⟩) (hl : r.beingDeleted = false) (hk : k ≠ .director)
    (hk' : k ≠ .role) :
    (∀ e u, reconcile sys key w = (.error e, u) → ∃ q : Record k,
      u.records.get? key = some ⟨k, q⟩ ∧ q.available = r.available) ∧
    ∀ u, reconcile sys key w = (.ok (), u) → ∃ q : Record k,
      u.records.get? key = some ⟨k, q⟩ ∧ q.hasFinalizer = true ∧ q.available = true ∧
        (k ≠ .deployment → q.frozen? = some (r.frozen?.getD r.spec)) ∧ q.InPlace u := by
  obtain rfl : r.key = key := hw.key_eq hr
  have h := reconcile_publishes sys hw hr hl hk hk'
  constructor
  · intro e u hx
    rw [hx] at h
    cases h with
    | @failed _ q _ hq ha => exact ⟨q, hq, ha⟩
  · intro u hx
    rw [hx] at h
    cases h with
    | @done q _ hq hf ha hs hp =>
      refine ⟨q, hq, hf, ha, fun hne => hs ?_, hp⟩
      cases k with
      | director => exact absurd rfl hk
      | role => exact absurd rfl hk'
      | deployment => exact absurd rfl hne
      | _ => rfl

/-- The AZ is published, and its fragment is on the Director. -/
theorem published_when_in_place_small :
    ∃ u, reconcile "sys" Small.az.key Small.world = (.ok (), u) ∧ ∃ q : Record .az,
      u.records.get? Small.az.key = some ⟨.az, q⟩ ∧ q.available = true ∧
        u.director.configs.get? "az.team-a.z" = some { azs := [⟨"az.team-a.z", none⟩] } := by
  obtain ⟨u, hu⟩ : ∃ u, reconcile "sys" Small.az.key Small.world = (.ok (), u) := ⟨_, rfl⟩
  obtain ⟨r, hr, hl, hf⟩ : ∃ r : Record .az, Small.world.records.get? Small.az.key =
      some ⟨.az, r⟩ ∧ r.beingDeleted = false ∧ r.frozen?.getD r.spec = ({} : AzSpec) :=
    ⟨_, rfl, rfl, rfl⟩
  obtain ⟨q, hq, -, ha, hfrozen, spec, hspec, hconfig⟩ :=
    (published_when_in_place "sys" Small.wellFormed_world hr hl Kind.noConfusion
      Kind.noConfusion).2 u hu
  rw [hfrozen Kind.noConfusion, hf] at hspec
  cases hspec
  have hwf := reconcile_wellFormed Small.wellFormed_world "sys" Small.az.key
  rw [hu] at hwf
  rw [Record.internalName_eq (hwf.key_eq hq : q.key = Small.az.key)] at hconfig
  exact ⟨u, hu, q, hq, ha, hconfig⟩

end Reconciliation
