import Mathlib.Data.List.Nodup
import Reconciliation.Proofs.Manifest

namespace Reconciliation

namespace Manifest

/-- The releases of a manifest that a job may mean. -/
def releasesNamed (m : Manifest) (name : String) : List ReleaseRef :=
  m.releases.filter fun ref => ref.name = name

theorem mem_releasesNamed {m : Manifest} {name : String} {ref : ReleaseRef} :
    ref ∈ m.releasesNamed name ↔ ref ∈ m.releases ∧ ref.name = name := by
  simp [releasesNamed]

namespace IsFor

variable {m : Manifest} {s : Store} {ns remote : String} {d : DeploymentSpec}
  (h : m.IsFor s ns remote d)

include h

/-- No release is listed twice. -/
theorem nodup_releases : m.releases.Nodup := by
  refine h.ascending.imp fun {a b} hab heq => ?_
  subst heq
  rcases hab with hlt | ⟨-, hlt⟩ <;> simp [Std.ReflCmp.compare_self] at hlt

theorem mem_releasesNamed_iff {ref : ReleaseRef} {name : String} :
    ref ∈ m.releasesNamed name ↔ ∃ c ∈ d.containers, ∃ role release,
      c.Runs s ns role release ∧ release.releaseName = name ∧ ref = ⟨name, release.version⟩ := by
  rw [mem_releasesNamed, h.releases]
  constructor
  · rintro ⟨⟨c, hc, role, release, hruns, rfl⟩, rfl⟩
    exact ⟨c, hc, role, release, hruns, rfl, rfl⟩
  · rintro ⟨c, hc, role, release, hruns, rfl, rfl⟩
    exact ⟨⟨c, hc, role, release, hruns, rfl⟩, rfl⟩

/-- The name of a release leads to this release alone, exactly if no other version of it is used. -/
theorem releasesNamed_eq_singleton_iff {c : Container} {role : RoleSpec} {release : ReleaseSpec}
    (hc : c ∈ d.containers) (hruns : c.Runs s ns role release) :
    m.releasesNamed release.releaseName = [⟨release.releaseName, release.version⟩] ↔
      ∀ c' ∈ d.containers, ∀ role' release', c'.Runs s ns role' release' →
        release'.releaseName = release.releaseName → release'.version = release.version := by
  constructor
  · intro hsingle c' hc' role' release' hruns' hname
    have hmem : ⟨release.releaseName, release'.version⟩ ∈ m.releasesNamed release.releaseName :=
      h.mem_releasesNamed_iff.2 ⟨c', hc', role', release', hruns', hname, rfl⟩
    rw [hsingle, List.mem_singleton] at hmem
    exact congrArg ReleaseRef.version hmem
  · intro hversion
    have hnodup : (m.releasesNamed release.releaseName).Nodup := h.nodup_releases.filter _
    refine List.perm_singleton.1
      ((List.perm_ext_iff_of_nodup hnodup (List.nodup_singleton _)).2 fun ref => ?_)
    rw [h.mem_releasesNamed_iff, List.mem_singleton]
    constructor
    · rintro ⟨c', hc', role', release', hruns', hname, rfl⟩
      rw [hversion c' hc' role' release' hruns' hname]
    · rintro rfl
      exact ⟨c, hc, role, release, hruns, rfl, rfl⟩

end IsFor

end Manifest

/-- The release name of each job leads to the version frozen for the release of its role. It leads
to nothing else exactly if the containers use no other version of a release of this name. -/
theorem Composition.release_names_unambiguous_iff {s t : Store} {d : Record .deployment}
    {m : Manifest} (h : manifest d s = (.ok m, t)) : ∃ g : InstanceGroup, m.instanceGroups = [g] ∧
      List.Forall₂ (fun (c : Container) (job : Job) => ∃ role release,
        c.Runs s d.metadata.ns role release ∧ job.release = release.releaseName ∧
        ⟨job.release, release.version⟩ ∈ m.releasesNamed job.release ∧
        (m.releasesNamed job.release = [⟨job.release, release.version⟩] ↔
          ∀ c' ∈ (d.spec : DeploymentSpec).containers, ∀ role' release',
            c'.Runs s d.metadata.ns role' release' →
            release'.releaseName = job.release → release'.version = release.version))
        (d.spec : DeploymentSpec).containers g.jobs := by
  have hm := (manifest_eq_ok_iff.1 h).1
  obtain ⟨g, hgroups, hg⟩ := hm.group
  have hjobs := (List.forall₂_and_left (d.spec : DeploymentSpec).containers g.jobs).2
    ⟨fun c hc => hc, hg.jobs⟩
  refine ⟨g, hgroups, hjobs.imp fun c job ⟨hc, hjob⟩ => ?_⟩
  obtain ⟨role, release, hruns, -, -, hrelease⟩ := hjob.runs
  rw [hrelease]
  exact ⟨role, release, hruns, rfl,
    hm.mem_releasesNamed_iff.2 ⟨c, hc, role, release, hruns, rfl, rfl⟩,
    hm.releasesNamed_eq_singleton_iff hc hruns⟩

namespace Small

def otherRelease : Record .release :=
  let spec : ReleaseSpec := ⟨"web", "1", "q", ""⟩
  { Record.new (k := .release) "team-a" "q" spec with
    status := (⟨"", some spec, true⟩ : FrozenStatus ReleaseSpec) }

def otherRole : Record .role := Record.new "team-a" "proxy" (⟨⟨"q", "nginx"⟩, .null⟩ : RoleSpec)

/-- Two versions of one release are frozen. -/
def versions : Store := (unzoned.keep otherRelease).keep otherRole

/-- Two containers whose roles are of two versions of one release. -/
def mixed : Record .deployment :=
  let spec : DeploymentSpec :=
    { azs := ["z"], replicas := 1, containers := [{ role := "server" }, { role := "proxy" }],
      baseImage := "i", network := "n" }
  Record.new "team-a" "x" spec

set_option maxRecDepth 4000 in
theorem manifest_mixed : ∃ m g, Composition.manifest mixed versions = (.ok m, versions) ∧
    m.instanceGroups = [g] ∧ g.jobs.map (·.release) = ["web", "web"] ∧
    m.releases = [⟨"web", "1"⟩, ⟨"web", "2"⟩] :=
  ⟨_, _, rfl, rfl, rfl, rfl⟩

end Small

namespace Composition

/-- The two containers are of one release, so its name leads to one version. -/
theorem release_names_unambiguous_iff_small : ∃ g, Small.manifest.instanceGroups = [g] ∧
    ∀ job ∈ g.jobs, ∃ version,
      Small.manifest.releasesNamed job.release = [⟨job.release, version⟩] := by
  obtain ⟨g, hgroups, hjobs⟩ := release_names_unambiguous_iff Small.manifest_deployment
  refine ⟨g, hgroups, fun job hjob => ?_⟩
  obtain ⟨c, hc, role, release, hruns, -, -, hsingle⟩ := Forall₂.exists_left hjobs hjob
  have hall : ∀ {c}, c ∈ (Small.deployment.spec : DeploymentSpec).containers →
      c = { role := "server", resources := { ram := 512 } } :=
    List.eq_of_mem_replicate (n := 2)
  refine ⟨release.version, hsingle.2 fun c' hc' role' release' hruns' _ => ?_⟩
  rw [hall hc', ← hall hc] at hruns'
  rw [(hruns'.unique hruns).2]

/-- Both jobs name the release alike, and the manifest lists two versions of it. -/
theorem release_name_ambiguous : ∃ m g,
    manifest Small.mixed Small.versions = (.ok m, Small.versions) ∧ m.instanceGroups = [g] ∧
      g.jobs.map (·.release) = ["web", "web"] ∧
      m.releasesNamed "web" = [⟨"web", "1"⟩, ⟨"web", "2"⟩] := by
  obtain ⟨m, g, hm, hgroups, hjobs, hreleases⟩ := Small.manifest_mixed
  refine ⟨m, g, hm, hgroups, hjobs, ?_⟩
  rw [Manifest.releasesNamed, hreleases]
  decide

end Composition

end Reconciliation
