import Reconciliation.Proofs.Outcome
import Reconciliation.Proofs.Payload

/-! A manifest is described by what the store has under the names that a deployment gives.
Composing one succeeds exactly if there is a manifest of this description, and there is one exactly
if nothing that the deployment needs is missing or not ready and no sum exceeds 64 bits. -/
namespace Reconciliation

theorem Step.mapM_eq_ok_iff {σ ε α β : Type} {s t : σ} {f : α → Step σ ε β} {P : α → β → Prop}
    (hf : ∀ {a b t}, f a s = (.ok b, t) ↔ P a b ∧ t = s) {l : List α} {bs : List β} :
    l.mapM f s = (.ok bs, t) ↔ List.Forall₂ P l bs ∧ t = s := by
  induction l generalizing bs t with
  | nil => rw [List.mapM_nil, pure_eq_ok_iff, List.forall₂_nil_left_iff]
  | cons a l ih =>
    simp only [List.mapM_cons, bind_eq_ok_iff, pure_eq_ok_iff, hf]
    constructor
    · rintro ⟨b, _, ⟨hb, rfl⟩, bs, _, hbs, rfl, rfl⟩
      obtain ⟨hrest, rfl⟩ := ih.1 hbs
      exact ⟨.cons hb hrest, rfl⟩
    · rintro ⟨h, rfl⟩
      cases h with
      | cons hb hbs => exact ⟨_, _, ⟨hb, rfl⟩, _, _, ih.2 ⟨hbs, rfl⟩, rfl, rfl⟩

namespace Store

variable {s : Store} {ns name : String} {k : Kind}

/-- The record that the name leads to is called so on the remote systems. -/
def Names (s : Store) (k : Kind) (ns name remote : String) : Prop :=
  ∃ r : Record k, s.Finds ns name r ∧ r.internalName = remote

/-- The record that the name leads to has frozen the spec. -/
def Froze (s : Store) {k : Kind} (ns name : String) (spec : Spec k) : Prop :=
  ∃ r : Record k, s.Finds ns name r ∧ r.frozen? = some spec

theorem Names.unique {remote remote' : String} (h : s.Names k ns name remote)
    (h' : s.Names k ns name remote') : remote = remote' := by
  obtain ⟨r, hr, rfl⟩ := h
  obtain ⟨r', hr', rfl⟩ := h'
  rw [hr.unique hr']

theorem Froze.unique {spec spec' : Spec k} (h : s.Froze ns name spec)
    (h' : s.Froze ns name spec') : spec = spec' := by
  obtain ⟨r, hr, hspec⟩ := h
  obtain ⟨r', hr', hspec'⟩ := h'
  rw [hr.unique hr', hspec'] at hspec
  exact (Option.some.inj hspec).symm

/-- In a well-formed store the name on the remote systems is made of kind, namespace and name. -/
theorem WellFormed.names_iff (hs : s.WellFormed) {remote : String} : s.Names k ns name remote ↔
    s.Stored ⟨k, ns, name⟩ ∧ remote = k.internalName ns name := by
  have hname : ∀ {r : Record k}, s.Finds ns name r → r.internalName = k.internalName ns name := by
    intro r hr
    have hkey : r.key = ⟨k, ns, name⟩ := hs.key_eq hr
    rw [Record.internalName, hkey]
    rfl
  rw [← hs.exists_finds_iff]
  constructor
  · intro h
    obtain ⟨r, hr, rfl⟩ := h
    exact ⟨⟨r, hr⟩, hname hr⟩
  · intro h
    obtain ⟨⟨r, hr⟩, rfl⟩ := h
    exact ⟨r, hr, hname hr⟩

end Store

namespace Composition

variable {s t : Store} {ns name : String} {k : Kind}

theorem fetch_eq_ok_iff {r : Record k} :
    fetch k ns name s = (.ok r, t) ↔ s.Finds ns name r ∧ t = s := by
  rw [fetch, Step.mapError_eq_ok_iff, RecordStore.fetch_eq_ok_iff]

theorem internalNameOf_eq_ok_iff {remote : String} :
    internalNameOf k ns name s = (.ok remote, t) ↔ s.Names k ns name remote ∧ t = s := by
  simp only [internalNameOf, Step.bind_eq_ok_iff, Step.pure_eq_ok_iff, fetch_eq_ok_iff, Store.Names]
  constructor
  · rintro ⟨r, _, ⟨hr, rfl⟩, rfl, rfl⟩
    exact ⟨⟨r, hr, rfl⟩, rfl⟩
  · rintro ⟨⟨r, hr, rfl⟩, rfl⟩
    exact ⟨r, _, ⟨hr, rfl⟩, rfl, rfl⟩

theorem internalNamesOf_eq_ok_iff {names remotes : List String} :
    internalNamesOf k ns names s = (.ok remotes, t) ↔
      List.Forall₂ (s.Names k ns) names remotes ∧ t = s :=
  Step.mapM_eq_ok_iff internalNameOf_eq_ok_iff

theorem frozenRelease_eq_ok_iff {r : Record .release} {spec : ReleaseSpec} :
    frozenRelease r = .ok spec ↔ r.frozen? = some spec := by
  have hf : r.frozen? = (r.status : FrozenStatus ReleaseSpec).frozen := rfl
  rw [hf, frozenRelease]
  cases (r.status : FrozenStatus ReleaseSpec).frozen with
  | none => simp
  | some frozen =>
    rw [Except.ok.injEq]
    exact Option.some_inj.symm

theorem frozenBaseImage_eq_ok_iff {r : Record .baseImage} {spec : BaseImageSpec} :
    frozenBaseImage r = .ok spec ↔ r.frozen? = some spec := by
  have hf : r.frozen? = (r.status : FrozenStatus BaseImageSpec).frozen := rfl
  rw [hf, frozenBaseImage]
  cases (r.status : FrozenStatus BaseImageSpec).frozen with
  | none => simp
  | some frozen =>
    rw [Except.ok.injEq]
    exact Option.some_inj.symm

end Composition

/-- The role of a container, and the frozen spec of the release that the role takes its job from. -/
structure Container.Runs (c : Container) (s : Store) (ns : String) (role : RoleSpec)
    (release : ReleaseSpec) : Prop where
  named : ∃ r : Record .role, s.Finds ns c.role r ∧ r.spec = role
  frozen : s.Froze (k := .release) ns role.source.release release

/-- The release that a container's job is in. -/
def Container.InRelease (c : Container) (s : Store) (ns : String) (ref : ReleaseRef) : Prop :=
  ∃ role release, c.Runs s ns role release ∧ ref = ⟨release.releaseName, release.version⟩

/-- What an import becomes that others know as `source`. -/
def ImportedLink.Becomes (link : ImportedLink) (s : Store) (ns source : String)
    (out : ConsumedLink) : Prop :=
  out.source = source ∧ s.Names .deployment ns link.importedFrom out.deployment

/-- The job of a container: what the role says, the release under its frozen name, and the links
under their internal names. -/
structure Job.IsFor (job : Job) (s : Store) (ns : String) (c : Container) : Prop where
  runs : ∃ role release, c.Runs s ns role release ∧ job.name = role.source.job ∧
    job.properties = role.properties ∧ job.release = release.releaseName
  consumes : c.imports.Relinked ImportedLink.internalLink
    (fun source link out => link.Becomes s ns source out) job.consumes
  provides : c.exports.Relinked ExportedLink.internalLink
    (fun linkName link out => out = ⟨linkName, link.exported⟩) job.provides

theorem ImportedLink.Becomes.unique {link : ImportedLink} {s : Store} {ns source : String}
    {out out' : ConsumedLink} (h : link.Becomes s ns source out)
    (h' : link.Becomes s ns source out') : out = out' := by
  obtain ⟨_, deployment⟩ := out
  obtain ⟨_, deployment'⟩ := out'
  obtain ⟨rfl, hname⟩ := h
  obtain ⟨rfl, hname'⟩ := h'
  rw [show deployment = deployment' from hname.unique hname']

theorem Container.Runs.unique {c : Container} {s : Store} {ns : String} {role role' : RoleSpec}
    {release release' : ReleaseSpec} (h : c.Runs s ns role release)
    (h' : c.Runs s ns role' release') : role = role' ∧ release = release' := by
  obtain ⟨r, hr, hspec⟩ := h.named
  obtain ⟨r', hr', hspec'⟩ := h'.named
  have hrole : role = role' := by rw [← hspec, ← hspec', hr.unique hr']
  subst hrole
  exact ⟨rfl, h.frozen.unique h'.frozen⟩

theorem Container.InRelease.unique {c : Container} {s : Store} {ns : String} {ref ref' : ReleaseRef}
    (h : c.InRelease s ns ref) (h' : c.InRelease s ns ref') : ref = ref' := by
  obtain ⟨role, release, hruns, rfl⟩ := h
  obtain ⟨role', release', hruns', rfl⟩ := h'
  rw [(hruns.unique hruns').2]

namespace Composition

variable {s t : Store} {ns : String}

theorem consumedLink_eq_ok_iff {e : String × ImportedLink} {out : String × ConsumedLink} :
    consumedLink ns e s = (.ok out, t) ↔
      (out.1 = e.2.internalLink ∧ e.2.Becomes s ns e.1 out.2) ∧ t = s := by
  simp only [consumedLink, Step.bind_eq_ok_iff, Step.pure_eq_ok_iff, internalNameOf_eq_ok_iff]
  constructor
  · rintro ⟨remote, _, ⟨hremote, rfl⟩, rfl, rfl⟩
    exact ⟨⟨rfl, rfl, hremote⟩, rfl⟩
  · obtain ⟨i, source, deployment⟩ := out
    rintro ⟨⟨rfl, rfl, hremote⟩, rfl⟩
    exact ⟨deployment, _, ⟨hremote, rfl⟩, rfl, rfl⟩

theorem exists_consumedLinks_iff {c : Container} {out : Table String ConsumedLink} :
    (∃ l, c.imports.toList.mapM (consumedLink ns) s = (.ok l, t) ∧ out = .ofList l) ↔
      c.imports.Relinked ImportedLink.internalLink
        (fun source link out => link.Becomes s ns source out) out ∧ t = s := by
  have hlinks : ∀ {l : List (String × ConsumedLink)},
      c.imports.toList.mapM (consumedLink ns) s = (.ok l, t) ↔ List.Forall₂ (fun e out =>
        out.1 = e.2.internalLink ∧ e.2.Becomes s ns e.1 out.2) c.imports.toList l ∧ t = s :=
    Step.mapM_eq_ok_iff consumedLink_eq_ok_iff
  rw [Table.relinked_iff fun _ _ _ _ h h' => h.unique h']
  simp only [hlinks]
  constructor
  · intro h
    obtain ⟨l, ⟨hl, ht⟩, hout⟩ := h
    exact ⟨⟨l, hl, hout⟩, ht⟩
  · intro h
    obtain ⟨⟨l, hl, hout⟩, ht⟩ := h
    exact ⟨l, ⟨hl, ht⟩, hout⟩

theorem eq_ofList_providedLinks_iff {c : Container} {out : Table String ProvidedLink} :
    out = .ofList (c.exports.toList.map providedLink) ↔
      c.exports.Relinked ExportedLink.internalLink
        (fun linkName link out => out = ⟨linkName, link.exported⟩) out := by
  have hmap : c.exports.Relinked ExportedLink.internalLink
      (fun linkName link out => out = ⟨linkName, link.exported⟩)
      (.ofList (c.exports.toList.map providedLink)) := by
    refine Table.relinked_ofList (fun _ _ _ _ h h' => h.trans h'.symm) ?_
    exact List.forall₂_map_right_iff.2 (List.forall₂_same.2 fun _ _ => ⟨rfl, rfl⟩)
  constructor
  · rintro rfl
    exact hmap
  · intro h
    exact h.unique hmap

theorem jobOf_eq_ok_iff {c : Container} {out : ReleaseRef × Job} : jobOf ns c s = (.ok out, t) ↔
    (c.InRelease s ns out.1 ∧ out.2.IsFor s ns c) ∧ t = s := by
  simp only [jobOf, Step.bind_eq_ok_iff, Step.pure_eq_ok_iff, Step.ofExcept_eq_ok_iff,
    fetch_eq_ok_iff, frozenRelease_eq_ok_iff]
  constructor
  · rintro ⟨role, _, ⟨hrole, rfl⟩, release, _, ⟨hrelease, rfl⟩, spec, _, ⟨hspec, rfl⟩, l, _, hl,
      rfl, rfl⟩
    have hruns : c.Runs _ ns role.spec spec := ⟨⟨role, hrole, rfl⟩, release, hrelease, hspec⟩
    obtain ⟨hconsumes, rfl⟩ := exists_consumedLinks_iff.1 ⟨l, hl, rfl⟩
    exact ⟨⟨⟨_, _, hruns, rfl⟩, ⟨_, _, hruns, rfl, rfl, rfl⟩, hconsumes,
      eq_ofList_providedLinks_iff.1 rfl⟩, rfl⟩
  · obtain ⟨ref, name, releaseName, consumes, provides, properties⟩ := out
    rintro ⟨⟨⟨role, release, hruns, rfl⟩, hjob⟩, rfl⟩
    obtain ⟨role', release', hruns', rfl, rfl, rfl⟩ := hjob.runs
    obtain ⟨rfl, rfl⟩ := hruns.unique hruns'
    obtain ⟨r, hr, rfl⟩ := hruns.named
    obtain ⟨q, hq, hfrozen⟩ := hruns.frozen
    obtain ⟨l, hl, hconsumes⟩ := exists_consumedLinks_iff.2 ⟨hjob.consumes, rfl⟩
    have hprovides := eq_ofList_providedLinks_iff.2 hjob.provides
    simp only at hconsumes hprovides
    subst hconsumes hprovides
    exact ⟨r, _, ⟨hr, rfl⟩, q, _, ⟨hq, rfl⟩, release, _, ⟨hfrozen, rfl⟩, l, _, hl, rfl, rfl⟩

theorem stemcellOf_eq_ok_iff {baseImage : String} {out : StemcellRef} :
    stemcellOf ns baseImage s = (.ok out, t) ↔
      (∃ image : BaseImageSpec, s.Froze (k := .baseImage) ns baseImage image ∧
        out = ⟨stemcellAlias, image.imageName, image.version⟩) ∧ t = s := by
  simp only [stemcellOf, Step.bind_eq_ok_iff, Step.pure_eq_ok_iff, Step.ofExcept_eq_ok_iff,
    fetch_eq_ok_iff, frozenBaseImage_eq_ok_iff]
  constructor
  · rintro ⟨r, _, ⟨hr, rfl⟩, image, _, ⟨himage, rfl⟩, rfl, rfl⟩
    exact ⟨⟨image, ⟨r, hr, himage⟩, rfl⟩, rfl⟩
  · rintro ⟨⟨image, ⟨r, hr, himage⟩, rfl⟩, rfl⟩
    exact ⟨r, _, ⟨hr, rfl⟩, image, _, ⟨himage, rfl⟩, rfl, rfl⟩

theorem footprintOf_eq_ok_iff {d : Record .deployment} {f : Footprint} :
    footprintOf d = .ok f ↔ f.Covers (d.spec : DeploymentSpec).containers := by
  rw [← Footprint.ofContainers?_eq_some_iff, footprintOf]
  cases Footprint.ofContainers? (d.spec : DeploymentSpec).containers <;> simp

theorem updateOf_eq_ok_iff {d : Record .deployment} {p : UpdatePolicy} :
    updateOf d = .ok p ↔ p.Implements (d.spec : DeploymentSpec).updateStrategy := by
  rw [← UpdatePolicy.ofStrategy?_eq_some_iff, updateOf]
  cases UpdatePolicy.ofStrategy? (d.spec : DeploymentSpec).updateStrategy <;> simp

/-- The releases are in order, by name and then by version. -/
def ReleasesAscend (releases : List ReleaseRef) : Prop :=
  releases.Pairwise fun a b => compare a.name b.name = .lt ∨
    a.name = b.name ∧ compare a.version b.version = .lt

theorem releasesOf_eq_iff {refs out : List ReleaseRef} : out = releasesOf refs ↔
    ReleasesAscend out ∧ ∀ ref, ref ∈ out ↔ ref ∈ refs := by
  rw [eq_comm, releasesOf, Table.keys_ofList_eq_iff]
  simp only [ReleaseRef.compare_eq_lt, ReleasesAscend, List.map_map, Function.comp_def,
    List.map_id']

end Composition

/-- Nothing that the deployment needs in its namespace is missing or not ready, and no sum is too
large. -/
structure DeploymentSpec.Complete (d : DeploymentSpec) (s : Store) (ns : String) : Prop where
  jobs : ∀ c ∈ d.containers, ∃ role release, c.Runs s ns role release
  imports : ∀ c ∈ d.containers, ∀ ⦃source link⦄, c.imports.get? source = some link →
    ∃ r : Record .deployment, s.Finds ns link.importedFrom r
  baseImage : ∃ image, s.Froze (k := .baseImage) ns d.baseImage image
  azs : ∀ az ∈ d.azs, ∃ r : Record .az, s.Finds ns az r
  extensions : ∀ e ∈ d.extensions, ∃ r : Record .vmExtension, s.Finds ns e r
  network : ∃ r : Record .network, s.Finds ns d.network r
  resources : Footprint.Fits d.containers
  readySeconds : d.updateStrategy.Fits

/-- The instance group of a deployment with this remote name. -/
structure InstanceGroup.IsFor (g : InstanceGroup) (s : Store) (ns remote : String)
    (d : DeploymentSpec) : Prop where
  name : g.name = remote
  azs : List.Forall₂ (s.Names .az ns) d.azs g.azs
  instances : g.instances = d.replicas
  jobs : List.Forall₂ (fun c (job : Job) => job.IsFor s ns c) d.containers g.jobs
  vmExtensions : List.Forall₂ (s.Names .vmExtension ns) d.extensions g.vmExtensions
  resources : Footprint.Covers d.containers ⟨g.vmResources, g.persistentDiskSize⟩
  stemcell : g.stemcell = stemcellAlias
  networks : ∃ network, s.Names .network ns d.network network ∧ g.networks = [⟨network⟩]

/-- The manifest of a deployment with this remote name. -/
structure Manifest.IsFor (m : Manifest) (s : Store) (ns remote : String) (d : DeploymentSpec) :
    Prop where
  name : m.name = remote
  ascending : Composition.ReleasesAscend m.releases
  releases : ∀ ref, ref ∈ m.releases ↔ ∃ c ∈ d.containers, c.InRelease s ns ref
  stemcells : ∃ image : BaseImageSpec, s.Froze (k := .baseImage) ns d.baseImage image ∧
    m.stemcells = [⟨stemcellAlias, image.imageName, image.version⟩]
  update : m.update.Implements d.updateStrategy
  group : ∃ g : InstanceGroup, m.instanceGroups = [g] ∧ g.IsFor s ns remote d

namespace Composition

variable {s t : Store}

theorem exists_jobs_iff {ns : String} {cs : List Container} {releases : List ReleaseRef}
    {jobs : List Job} : (∃ outs, cs.mapM (jobOf ns) s = (.ok outs, t) ∧
        releases = releasesOf (outs.map (·.1)) ∧ jobs = outs.map (·.2)) ↔
      (ReleasesAscend releases ∧ (∀ ref, ref ∈ releases ↔ ∃ c ∈ cs, c.InRelease s ns ref) ∧
        List.Forall₂ (fun c (job : Job) => job.IsFor s ns c) cs jobs) ∧ t = s := by
  have houts : ∀ {outs : List (ReleaseRef × Job)} {t : Store},
      cs.mapM (jobOf ns) s = (.ok outs, t) ↔ List.Forall₂ (fun c out =>
        c.InRelease s ns out.1 ∧ out.2.IsFor s ns c) cs outs ∧ t = s :=
    Step.mapM_eq_ok_iff jobOf_eq_ok_iff
  have hrefs : ∀ {outs : List (ReleaseRef × Job)}, List.Forall₂ (fun c out =>
      c.InRelease s ns out.1 ∧ out.2.IsFor s ns c) cs outs →
      ∀ ref, ref ∈ outs.map (·.1) ↔ ∃ c ∈ cs, c.InRelease s ns ref := by
    intro outs h ref
    have hleft := h.imp fun _ _ hc => hc.1
    exact Forall₂.mem_right_iff (List.forall₂_map_right_iff.2 hleft) Container.InRelease.unique
  constructor
  · rintro ⟨outs, h, hreleases, rfl⟩
    obtain ⟨h, rfl⟩ := houts.1 h
    obtain ⟨hascending, hmem⟩ := releasesOf_eq_iff.1 hreleases
    refine ⟨⟨hascending, fun ref => (hmem ref).trans (hrefs h ref), ?_⟩, rfl⟩
    exact List.forall₂_map_right_iff.2 (h.imp fun _ _ hc => hc.2)
  · rintro ⟨⟨hascending, hmem, hjobs⟩, rfl⟩
    obtain ⟨outs, h, hsnd⟩ := Forall₂.exists_pairs (R := fun c ref => c.InRelease t ns ref) hjobs
      fun hjob => by
        obtain ⟨role, release, hruns, -⟩ := hjob.runs
        exact ⟨_, role, release, hruns, rfl⟩
    refine ⟨outs, houts.2 ⟨h, rfl⟩, releasesOf_eq_iff.2 ⟨hascending, fun ref => ?_⟩, hsnd.symm⟩
    exact (hmem ref).trans (hrefs h ref).symm

theorem manifest_eq_ok_iff {d : Record .deployment} {m : Manifest} :
    manifest d s = (.ok m, t) ↔ m.IsFor s d.metadata.ns d.internalName d.spec ∧ t = s := by
  simp only [manifest, Step.bind_eq_ok_iff, Step.pure_eq_ok_iff, Step.ofExcept_eq_ok_iff,
    stemcellOf_eq_ok_iff, internalNamesOf_eq_ok_iff, internalNameOf_eq_ok_iff,
    footprintOf_eq_ok_iff, updateOf_eq_ok_iff]
  constructor
  · rintro ⟨outs, _, houts, stemcell, _, ⟨hstemcell, rfl⟩, azs, _, ⟨hazs, rfl⟩, extensions, _,
      ⟨hextensions, rfl⟩, network, _, ⟨hnetwork, rfl⟩, footprint, _, ⟨hfootprint, rfl⟩, update, _,
      ⟨hupdate, rfl⟩, rfl, rfl⟩
    obtain ⟨⟨hascending, hreleases, hjobs⟩, rfl⟩ := exists_jobs_iff.1 ⟨outs, houts, rfl, rfl⟩
    obtain ⟨image, himage, rfl⟩ := hstemcell
    exact ⟨⟨rfl, hascending, hreleases, ⟨image, himage, rfl⟩, hupdate, _, rfl,
      rfl, hazs, rfl, hjobs, hextensions, hfootprint, rfl, network, hnetwork, rfl⟩, rfl⟩
  · obtain ⟨name, releases, stemcells, update, groups⟩ := m
    intro hm
    obtain ⟨h, ht⟩ := hm
    obtain ⟨image, himage, hstemcells⟩ := h.stemcells
    obtain ⟨⟨_, azs, _, jobs, extensions, vm, _, disk, _⟩, hgroup, hg⟩ := h.group
    obtain ⟨network, hnetwork, hnetworks⟩ := hg.networks
    obtain ⟨outs, houts, hreleases, hjobs⟩ :=
      exists_jobs_iff.2 ⟨⟨h.ascending, h.releases, hg.jobs⟩, rfl⟩
    refine ⟨outs, _, houts, _, _, ⟨⟨image, himage, rfl⟩, rfl⟩, azs, _, ⟨hg.azs, rfl⟩, extensions, _,
      ⟨hg.vmExtensions, rfl⟩, network, _, ⟨hnetwork, rfl⟩, ⟨vm, disk⟩, _, ⟨hg.resources, rfl⟩,
      update, _, ⟨h.update, rfl⟩, ?_, ht⟩
    cases h.name
    cases hstemcells
    cases hgroup
    cases hg.name
    cases hg.instances
    cases hg.stemcell
    cases hnetworks
    cases hreleases
    cases hjobs
    rfl

end Composition

theorem Job.exists_isFor_iff {s : Store} {ns : String} {c : Container} :
    (∃ job : Job, job.IsFor s ns c) ↔ (∃ role release, c.Runs s ns role release) ∧
      ∀ ⦃source link⦄, c.imports.get? source = some link →
        ∃ r : Record .deployment, s.Finds ns link.importedFrom r := by
  have himports : (∃ out, c.imports.Relinked ImportedLink.internalLink
      (fun source link out => link.Becomes s ns source out) out) ↔ ∀ ⦃source link⦄,
        c.imports.get? source = some link →
          ∃ r : Record .deployment, s.Finds ns link.importedFrom r := by
    rw [Table.exists_relinked_iff fun _ _ _ _ h h' => h.unique h']
    constructor
    · intro h source link hlink
      obtain ⟨out, -, r, hr, -⟩ := h hlink
      exact ⟨r, hr⟩
    · intro h source link hlink
      obtain ⟨r, hr⟩ := h hlink
      exact ⟨⟨source, r.internalName⟩, rfl, r, hr, rfl⟩
  constructor
  · intro ⟨job, h⟩
    obtain ⟨role, release, hruns, -⟩ := h.runs
    exact ⟨⟨role, release, hruns⟩, himports.1 ⟨_, h.consumes⟩⟩
  · intro ⟨⟨role, release, hruns⟩, h⟩
    obtain ⟨consumes, hconsumes⟩ := himports.2 h
    exact ⟨⟨role.source.job, release.releaseName, consumes, _, role.properties⟩,
      ⟨role, release, hruns, rfl, rfl, rfl⟩, hconsumes,
      Composition.eq_ofList_providedLinks_iff.1 rfl⟩

theorem Store.exists_names_iff {s : Store} {k : Kind} {ns name : String} :
    (∃ remote, s.Names k ns name remote) ↔ ∃ r : Record k, s.Finds ns name r := by
  constructor
  · intro ⟨_, r, hr, _⟩
    exact ⟨r, hr⟩
  · intro ⟨r, hr⟩
    exact ⟨_, r, hr, rfl⟩

theorem Store.exists_allNames_iff {s : Store} {k : Kind} {ns : String} {names : List String} :
    (∃ remotes, List.Forall₂ (s.Names k ns) names remotes) ↔
      ∀ name ∈ names, ∃ r : Record k, s.Finds ns name r := by
  simp only [Forall₂.exists_iff, exists_names_iff]

theorem Job.exists_allFor_iff {s : Store} {ns : String} {cs : List Container} :
    (∃ jobs : List Job, List.Forall₂ (fun c job => job.IsFor s ns c) cs jobs) ↔
      (∀ c ∈ cs, ∃ role release, c.Runs s ns role release) ∧
        ∀ c ∈ cs, ∀ ⦃source link⦄, c.imports.get? source = some link →
          ∃ r : Record .deployment, s.Finds ns link.importedFrom r := by
  simp only [Forall₂.exists_iff, exists_isFor_iff, forall_and]

/-- A container whose role and release are found is in one release. -/
theorem Container.exists_inRelease {c : Container} {s : Store} {ns : String}
    (h : ∃ role release, c.Runs s ns role release) : ∃ ref, c.InRelease s ns ref := by
  obtain ⟨role, release, hruns⟩ := h
  exact ⟨_, role, release, hruns, rfl⟩

theorem Manifest.exists_isFor_iff {s : Store} {ns remote : String} {d : DeploymentSpec} :
    (∃ m : Manifest, m.IsFor s ns remote d) ↔ d.Complete s ns := by
  constructor
  · intro ⟨m, h⟩
    obtain ⟨g, -, hg⟩ := h.group
    obtain ⟨hruns, himports⟩ := Job.exists_allFor_iff.1 ⟨_, hg.jobs⟩
    obtain ⟨image, himage, -⟩ := h.stemcells
    obtain ⟨network, hnetwork, -⟩ := hg.networks
    exact {
      jobs := hruns
      imports := himports
      baseImage := ⟨image, himage⟩
      azs := Store.exists_allNames_iff.1 ⟨_, hg.azs⟩
      extensions := Store.exists_allNames_iff.1 ⟨_, hg.vmExtensions⟩
      network := Store.exists_names_iff.1 ⟨network, hnetwork⟩
      resources := Footprint.exists_covers_iff.1 ⟨_, hg.resources⟩
      readySeconds := UpdatePolicy.exists_implements_iff.1 ⟨_, h.update⟩ }
  · intro h
    obtain ⟨jobs, hjobs⟩ := Job.exists_allFor_iff.2 ⟨h.jobs, h.imports⟩
    obtain ⟨refs, hrefs⟩ := Forall₂.exists_iff.2 fun c hc =>
      Container.exists_inRelease (h.jobs c hc)
    obtain ⟨hascending, hreleases⟩ := Composition.releasesOf_eq_iff.1
      (rfl : Composition.releasesOf refs = _)
    obtain ⟨image, himage⟩ := h.baseImage
    obtain ⟨azs, hazs⟩ := Store.exists_allNames_iff.2 h.azs
    obtain ⟨extensions, hextensions⟩ := Store.exists_allNames_iff.2 h.extensions
    obtain ⟨network, hnetwork⟩ := Store.exists_names_iff.2 h.network
    obtain ⟨footprint, hfootprint⟩ := Footprint.exists_covers_iff.2 h.resources
    obtain ⟨update, hupdate⟩ := UpdatePolicy.exists_implements_iff.2 h.readySeconds
    let group : InstanceGroup :=
      { name := remote
        azs
        instances := d.replicas
        jobs
        vmExtensions := extensions
        vmResources := footprint.vm
        stemcell := stemcellAlias
        persistentDiskSize := footprint.persistentDiskSize
        networks := [⟨network⟩] }
    have hgroup : group.IsFor s ns remote d :=
      ⟨rfl, hazs, rfl, hjobs, hextensions, hfootprint, rfl, network, hnetwork, rfl⟩
    refine ⟨⟨remote, Composition.releasesOf refs, [⟨stemcellAlias, image.imageName, image.version⟩],
      update, [group]⟩, rfl, hascending, fun ref => ?_, ⟨image, himage, rfl⟩, hupdate, group, rfl,
      hgroup⟩
    rw [hreleases]
    exact Forall₂.mem_right_iff hrefs Container.InRelease.unique

/-- The release of a job occurs among the releases of the manifest. -/
theorem Manifest.IsFor.release_mem {m : Manifest} {s : Store} {ns remote : String}
    {d : DeploymentSpec} (h : m.IsFor s ns remote d) {g : InstanceGroup}
    (hg : g ∈ m.instanceGroups) {job : Job} (hjob : job ∈ g.jobs) :
    job.release ∈ m.releases.map (·.name) := by
  obtain ⟨g', hgroups, hg'⟩ := h.group
  rw [hgroups, List.mem_singleton] at hg
  subst hg
  obtain ⟨c, hc, hfor⟩ := Forall₂.exists_left hg'.jobs hjob
  obtain ⟨role, release, hruns, -, -, hrelease⟩ := hfor.runs
  rw [hrelease]
  exact List.mem_map.2 ⟨_, (h.releases _).2 ⟨c, hc, role, release, hruns, rfl⟩, rfl⟩

/-- A deployment has a manifest exactly if it is complete, and the manifest is exactly the one that
the store describes. Each of its jobs is of one of its releases. -/
theorem Composition.manifest_exact (s : Store) (d : Record .deployment) :
    ((∃ m, manifest d s = (.ok m, s)) ↔ DeploymentSpec.Complete d.spec s d.metadata.ns) ∧
      (∀ m, manifest d s = (.ok m, s) ↔ m.IsFor s d.metadata.ns d.internalName d.spec) ∧
      ∀ m, manifest d s = (.ok m, s) →
        ∀ g ∈ m.instanceGroups, ∀ job ∈ g.jobs, job.release ∈ m.releases.map (·.name) := by
  have hexact : ∀ m, manifest d s = (.ok m, s) ↔
      m.IsFor s d.metadata.ns d.internalName d.spec := by
    intro m
    rw [manifest_eq_ok_iff, and_iff_left rfl]
  refine ⟨?_, hexact, ?_⟩
  · simp only [hexact]
    exact Manifest.exists_isFor_iff
  · intro m hm g hg job hjob
    exact ((hexact m).1 hm).release_mem hg hjob

namespace Small

def release : Record .release :=
  let spec : ReleaseSpec := ⟨"web", "2", "r", ""⟩
  { Record.new (k := .release) "team-a" "r" spec with
    status := (⟨"", some spec, true⟩ : FrozenStatus ReleaseSpec) }

def image : Record .baseImage :=
  let spec : BaseImageSpec := ⟨"jammy", "1", "i", ""⟩
  { Record.new (k := .baseImage) "team-a" "i" spec with
    status := (⟨"", some spec, true⟩ : FrozenStatus BaseImageSpec) }

def role : Record .role := Record.new "team-a" "server" (⟨⟨"r", "nginx"⟩, .null⟩ : RoleSpec)

def network : Record .network := Record.new "team-a" "n" ({} : NetworkSpec)

/-- Two containers of one role in two places of one zone. -/
def deployment : Record .deployment :=
  let container : Container := { role := "server", resources := { ram := 512 } }
  let spec : DeploymentSpec :=
    { azs := ["z", "z"], replicas := 2, containers := [container, container], baseImage := "i",
      network := "n" }
  Record.new "team-a" "x" spec

/-- The software is frozen; the zone and the network were never reconciled. -/
def unzoned : Store := (((((∅ : Store).keep release).keep image).keep role).keep network).keep az

theorem wellFormed_unzoned : unzoned.WellFormed := by
  have hsoftware := (Store.wellFormed_empty.keep (r := release) nofun).keep (r := image) nofun
  exact ((hsoftware.keep (r := role) nofun).keep (r := network) nofun).keep nofun

def manifest : Manifest :=
  let job : Job := { name := "nginx", release := "web" }
  { name := "deployment.team-a.x"
    releases := [⟨"web", "2"⟩]
    stemcells := [⟨"stemcell", "jammy", "1"⟩]
    update := ⟨0, .instances 1, .fixed 0, .fixed 0, false, "delete-create"⟩
    instanceGroups := [{
      name := "deployment.team-a.x"
      azs := ["az.team-a.z", "az.team-a.z"]
      instances := 2
      jobs := [job, job]
      vmResources := { ram := 1024 }
      stemcell := "stemcell"
      networks := [⟨"network.team-a.n"⟩] }] }

set_option maxRecDepth 4000 in
theorem manifest_deployment :
    Composition.manifest deployment unzoned = (.ok manifest, unzoned) := by
  rfl

end Small

theorem Composition.manifest_exact_small :
    DeploymentSpec.Complete Small.deployment.spec Small.unzoned "team-a" ∧
      Small.manifest.IsFor Small.unzoned "team-a" "deployment.team-a.x" Small.deployment.spec := by
  obtain ⟨hcomplete, hexact, -⟩ := manifest_exact Small.unzoned Small.deployment
  exact ⟨hcomplete.1 ⟨_, Small.manifest_deployment⟩, (hexact _).1 Small.manifest_deployment⟩

/-- A manifest takes no more than their names from records of these kinds. -/
def Kind.infrastructure : List Kind := [.az, .vmExtension, .network]

/-- The stores differ at most in what is in records of which a manifest takes the names alone. -/
structure Store.SameButInfrastructure (s t : Store) : Prop where
  others : ∀ {key : Key}, key.kind ∉ Kind.infrastructure → t.get? key = s.get? key
  stored : ∀ key, t.Stored key ↔ s.Stored key

namespace Composition

variable {s t : Store}

/-- The remote name of a record is known as soon as the record is stored. -/
theorem internalNameOf_of_stored (hs : s.WellFormed) {k : Kind} {ns name : String}
    (h : s.Stored ⟨k, ns, name⟩) : internalNameOf k ns name s = (.ok (k.internalName ns name), s) :=
  internalNameOf_eq_ok_iff.2 ⟨hs.names_iff.2 ⟨h, rfl⟩, rfl⟩

theorem internalNameOf_of_not_stored {k : Kind} {ns name : String}
    (h : ¬s.Stored ⟨k, ns, name⟩) :
    internalNameOf k ns name s = (.error (.missing ⟨k, ns, name⟩), s) := by
  have hnone : s.get? ⟨k, ns, name⟩ = none := by simpa [Store.Stored] using h
  have hfetch : RecordStore.fetch k ns name s = (.error (.notFound ⟨k, ns, name⟩), s) :=
    Step.bind_error (Store.get_of_none hnone) _
  exact Step.bind_error (Step.mapError_error hfetch) _

theorem supplies_sameButInfrastructure (ns : String) :
    Supplies (fun s t => s.WellFormed ∧ t.WellFormed ∧ s.SameButInfrastructure t) ns where
  content {k} hk name := by
    have hne : k ∉ Kind.infrastructure := by
      rcases hk with rfl | rfl | rfl <;> decide
    refine Step.Related.mapError fun s t h => ?_
    exact Store.fetch_agree h (h.2.2.others hne)
  names {k} hk name s t h := by
    obtain ⟨hs, ht, hsame⟩ := h
    by_cases hstored : s.Stored ⟨k, ns, name⟩
    · rw [internalNameOf_of_stored hs hstored,
        internalNameOf_of_stored ht ((hsame.stored _).2 hstored)]
      exact ⟨rfl, hs, ht, hsame⟩
    · rw [internalNameOf_of_not_stored hstored,
        internalNameOf_of_not_stored (mt (hsame.stored _).1 hstored)]
      exact ⟨rfl, hs, ht, hsame⟩

/-- A manifest is composed of frozen releases and a frozen base image. Of AZs, VM extensions and
networks it is only asked whether they are stored: whatever else is in them, and so whether they are
frozen, changes neither a manifest nor a failure. -/
theorem manifest_needs_frozen_software (hs : s.WellFormed) (ht : t.WellFormed)
    (hsame : s.SameButInfrastructure t) (d : Record .deployment) :
    (∀ m, manifest d s = (.ok m, s) →
      (∀ c ∈ (d.spec : DeploymentSpec).containers,
        ∀ (role : Record .role) (release : Record .release),
        s.Finds d.metadata.ns c.role role →
        s.Finds d.metadata.ns (role.spec : RoleSpec).source.release release →
          release.frozen?.isSome = true) ∧
      ∀ image : Record .baseImage,
        s.Finds d.metadata.ns (d.spec : DeploymentSpec).baseImage image →
          image.frozen?.isSome = true) ∧
      (manifest d t).1 = (manifest d s).1 := by
  refine ⟨fun m hm => ?_, ?_⟩
  · have hcomplete := Manifest.exists_isFor_iff.1 ⟨m, (manifest_eq_ok_iff.1 hm).1⟩
    constructor
    · intro c hc role release hrole hrelease
      obtain ⟨role', spec, hruns⟩ := hcomplete.jobs c hc
      obtain ⟨r, hr, rfl⟩ := hruns.named
      obtain ⟨q, hq, hfrozen⟩ := hruns.frozen
      rw [hrole.unique hr] at hrelease
      rw [hrelease.unique hq, hfrozen]
      rfl
    · intro image himage
      obtain ⟨spec, r, hr, hfrozen⟩ := hcomplete.baseImage
      rw [himage.unique hr, hfrozen]
      rfl
  · exact (manifest_related (supplies_sameButInfrastructure _) (.refl d)).fst ⟨hs, ht, hsame⟩

end Composition

namespace Small

/-- The zone after its reconcile. -/
def zoned : Store :=
  let spec : AzSpec := {}
  unzoned.keep { az with status := (⟨"", some spec, true⟩ : FrozenStatus AzSpec) }

theorem wellFormed_zoned : zoned.WellFormed := wellFormed_unzoned.keep nofun

theorem sameButInfrastructure_zoned : unzoned.SameButInfrastructure zoned where
  others {key} hk := by
    have hne : key ≠ az.key := by
      rintro rfl
      exact hk (by decide)
    exact (Store.get?_keep _ _ _).trans (if_neg hne)
  stored key := by
    rw [Store.Stored, Store.Stored, zoned, Store.get?_keep]
    split
    · next h =>
      subst h
      exact ⟨fun _ => rfl, fun _ => rfl⟩
    · exact Iff.rfl

end Small

namespace Composition

theorem manifest_needs_frozen_software_small :
    (∃ image : Record .baseImage, Small.unzoned.Finds "team-a" "i" image ∧
      image.frozen?.isSome = true) ∧
      (manifest Small.deployment Small.zoned).1 = .ok Small.manifest := by
  obtain ⟨hfrozen, hsame⟩ := manifest_needs_frozen_software Small.wellFormed_unzoned
    Small.wellFormed_zoned Small.sameButInfrastructure_zoned Small.deployment
  rw [Small.manifest_deployment] at hsame
  exact ⟨⟨_, rfl, (hfrozen _ Small.manifest_deployment).2 _ rfl⟩, hsame⟩

/-- A manifest may name a zone and a network that were never reconciled. -/
theorem manifest_names_unfrozen :
    manifest Small.deployment Small.unzoned = (.ok Small.manifest, Small.unzoned) ∧
      (∃ zone : Record .az, Small.unzoned.Finds "team-a" "z" zone ∧ zone.frozen? = none) ∧
      ∃ network : Record .network, Small.unzoned.Finds "team-a" "n" network ∧
        network.frozen? = none :=
  ⟨Small.manifest_deployment, ⟨_, rfl, rfl⟩, ⟨_, rfl, rfl⟩⟩

end Composition

end Reconciliation
