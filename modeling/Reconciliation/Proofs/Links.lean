import Mathlib.Data.List.Nodup
import Mathlib.Data.List.Perm.Subperm
import Reconciliation.Proofs.Manifest
import Reconciliation.Validation

namespace Reconciliation

namespace Table

variable {κ ι β γ : Type} [Ord κ] [Std.TransOrd κ] [Std.LawfulEqOrd κ]

omit [Std.LawfulEqOrd κ] in
theorem nodup_entries (t : Table κ β) : t.entries.Nodup := by
  refine t.ascending.imp fun {a b} hab heq => ?_
  rw [heq] at hab
  simp [Std.ReflCmp.compare_self] at hab

omit [Std.LawfulEqOrd κ] in
theorem nodup_keys (t : Table κ β) : t.keys.Nodup := by
  refine t.ascending_keys.imp fun {a b} hab heq => ?_
  rw [heq] at hab
  simp [Std.ReflCmp.compare_self] at hab

/-- No two values have one link. -/
theorem nodup_links_iff {t : Table κ β} {link : β → ι} : (t.values.map link).Nodup ↔
    ∀ {k k' v v'}, t.get? k = some v → t.get? k' = some v' → link v = link v' → k = k' := by
  rw [values, List.map_map, List.nodup_map_iff_inj_on t.nodup_entries]
  constructor
  · intro h k k' v v' hv hv' hlink
    have heq := h (k, v) (get?_eq_some_iff.1 hv) (k', v') (get?_eq_some_iff.1 hv') hlink
    exact congrArg Prod.fst heq
  · rintro h ⟨k, v⟩ hv ⟨k', v'⟩ hv' hlink
    have hget := get?_eq_some_iff.2 hv
    have hget' := get?_eq_some_iff.2 hv'
    obtain rfl := h hget hget' hlink
    rw [hget] at hget'
    rw [Option.some.inj hget']

theorem exists_last {t : Table κ β} {p : β → Prop} [DecidablePred p] {k : κ} {v : β}
    (hv : t.get? k = some v) (hp : p v) : ∃ k' v', t.Last p k' v' := by
  have hfound : (t.toList.reverse.find? (fun e => p e.2)).isSome = true :=
    List.find?_isSome.2 ⟨(k, v), by simpa using get?_eq_some_iff.1 hv, by simpa using hp⟩
  obtain ⟨e, he⟩ := Option.isSome_iff_exists.1 hfound
  exact ⟨e.1, e.2, find?_reverse_eq_some_iff.1 he⟩

namespace Relinked

variable [Ord ι] {link : β → ι} {V : κ → β → γ → Prop} {t : Table κ β} {out : Table ι γ}
  (h : t.Relinked link V out)

include h

section

variable [Std.TransOrd ι] [Std.LawfulEqOrd ι] [DecidableEq ι]

/-- The new keys are the links of the values. -/
theorem mem_keys_iff {i : ι} : i ∈ out.keys ↔ i ∈ t.values.map link := by
  have hvalues : ∀ {v}, v ∈ t.values ↔ ∃ k, t.get? k = some v := by
    intro v
    simp [values, get?_eq_some_iff, toList]
  simp only [mem_keys, h.get?_iff, List.mem_map, hvalues]
  constructor
  · rintro ⟨c, k, v, hlast, -⟩
    exact ⟨v, ⟨k, hlast.get?⟩, hlast.holds⟩
  · rintro ⟨v, ⟨k, hv⟩, hlink⟩
    obtain ⟨k', v', hlast⟩ := exists_last (p := fun v => link v = i) hv hlink
    obtain ⟨c, hc⟩ := h.total hlast.get?
    exact ⟨c, k', v', hlast, hc⟩

theorem size_le : out.size ≤ t.size := by
  have hsub := out.nodup_keys.subperm fun i hi => h.mem_keys_iff.1 hi
  simpa [keys, values, size] using hsub.length_le

/-- The table keeps its size exactly if no two values have one link. -/
theorem size_eq_iff : out.size = t.size ↔ (t.values.map link).Nodup := by
  have hkeys : out.keys.length = out.size := List.length_map _
  have hvalues : (t.values.map link).length = t.size := by simp [values, size]
  rw [← hkeys, ← hvalues]
  constructor
  · -- no new key is missing among as many links, so no link stands there twice
    intro hlength
    have hsub := out.nodup_keys.subperm fun i hi => h.mem_keys_iff.1 hi
    exact (hsub.perm_of_length_le (Nat.le_of_eq hlength.symm)).nodup_iff.1 out.nodup_keys
  · intro hnodup
    exact ((List.perm_ext_iff_of_nodup out.nodup_keys hnodup).2 fun i => h.mem_keys_iff).length_eq

end

variable (hV : ∀ {k k' v v' c}, V k v c → V k' v' c → k = k')

include hV

omit [Std.TransOrd κ] [Std.LawfulEqOrd κ] in
/-- A value is found under its link exactly if no later key has a value with that link. -/
theorem kept_iff {k : κ} {v : β} (hv : t.get? k = some v) :
    (∃ c, V k v c ∧ out.get? (link v) = some c) ↔ t.Last (fun v' => link v' = link v) k v := by
  constructor
  · rintro ⟨c, hc, hget⟩
    obtain ⟨k', v', hlast, hc'⟩ := h.get?_iff.1 hget
    obtain rfl := hV hc hc'
    rw [Option.some.inj (hv.symm.trans hlast.get?)] at hlast ⊢
    exact hlast
  · intro hlast
    obtain ⟨c, hc⟩ := h.total hv
    exact ⟨c, hc, h.get?_iff.2 ⟨k, v, hlast, hc⟩⟩

theorem all_kept_iff :
    (∀ ⦃k v⦄, t.get? k = some v → ∃ c, V k v c ∧ out.get? (link v) = some c) ↔
      (t.values.map link).Nodup := by
  rw [nodup_links_iff]
  constructor
  · intro hall k k' v v' hv hv' hlink
    have hlast := (h.kept_iff hV hv).1 (hall hv)
    have hlast' := (h.kept_iff hV hv').1 (hall hv')
    rw [hlink] at hlast
    exact (hlast.unique hlast').1
  · intro hinj k v hv
    exact (h.kept_iff hV hv).2 ⟨hv, rfl, fun hv' hlink => .inl (hinj hv' hv hlink)⟩

end Relinked

/-- The table has the values of `t` under their links, and no others. Of several with one link it
has the last, so that all are there exactly if no two have one link. -/
structure KeepsUnshared [Ord ι] (link : β → ι) (V : κ → β → γ → Prop) (t : Table κ β)
    (out : Table ι γ) : Prop where
  kept_iff : ∀ {k v}, t.get? k = some v →
    ((∃ c, V k v c ∧ out.get? (link v) = some c) ↔ ∀ {k' v'}, t.get? k' = some v' →
      link v' = link v → k' = k ∨ compare k' k = .lt)
  kept_only : ∀ {i c}, out.get? i = some c → ∃ k v, t.get? k = some v ∧ link v = i ∧ V k v c
  all_kept_iff : (∀ {k v}, t.get? k = some v → ∃ c, V k v c ∧ out.get? (link v) = some c) ↔
    (t.values.map link).Nodup
  size_le : out.size ≤ t.size
  size_eq_iff : out.size = t.size ↔ (t.values.map link).Nodup

theorem Relinked.keepsUnshared [Ord ι] [Std.TransOrd ι] [Std.LawfulEqOrd ι] [DecidableEq ι]
    {link : β → ι} {V : κ → β → γ → Prop} {t : Table κ β} {out : Table ι γ}
    (h : t.Relinked link V out) (hV : ∀ {k k' v v' c}, V k v c → V k' v' c → k = k') :
    t.KeepsUnshared link V out where
  kept_iff hv := (h.kept_iff hV hv).trans
    ⟨fun hlast => hlast.last, fun hlast => ⟨hv, rfl, hlast⟩⟩
  kept_only hc := by
    obtain ⟨k, v, hlast, hV'⟩ := h.get?_iff.1 hc
    exact ⟨k, v, hlast.get?, hlast.holds, hV'⟩
  all_kept_iff := h.all_kept_iff hV
  size_le := h.size_le
  size_eq_iff := h.size_eq_iff

end Table

/-- The job of a container provides its exports and consumes its imports, except for those that
share their internal link with a later one. -/
structure Job.Links (job : Job) (s : Store) (ns : String) (c : Container) : Prop where
  provides : c.exports.KeepsUnshared ExportedLink.internalLink
    (fun name link out => out = ⟨name, link.exported⟩) job.provides
  consumes : c.imports.KeepsUnshared ImportedLink.internalLink
    (fun source link out => link.Becomes s ns source out) job.consumes

theorem Job.IsFor.links {job : Job} {s : Store} {ns : String} {c : Container}
    (h : job.IsFor s ns c) : job.Links s ns c where
  provides := h.provides.keepsUnshared fun h h' => congrArg ProvidedLink.linkName (h.symm.trans h')
  consumes := h.consumes.keepsUnshared fun h h' => h.1.symm.trans h'.1

/-- The jobs of a manifest have the links of the containers, under the internal names, with the
names that others know them by and the remote names of the deployments that provide them. An export
is lost exactly if a later one of its container has the same internal link, and likewise for
imports. -/
theorem Composition.links_kept_unless_shared {s t : Store} {d : Record .deployment} {m : Manifest}
    (h : manifest d s = (.ok m, t)) : ∃ g : InstanceGroup, m.instanceGroups = [g] ∧
      List.Forall₂ (fun (c : Container) (job : Job) => job.Links s d.metadata.ns c)
        (d.spec : DeploymentSpec).containers g.jobs := by
  obtain ⟨g, hgroups, hg⟩ := (manifest_eq_ok_iff.1 h).1.group
  exact ⟨g, hgroups, hg.jobs.imp fun c job hjob => hjob.links⟩

namespace Small

/-- Two exports of one internal link. -/
def exporter : Container :=
  { role := "server"
    exports := .ofList [("admin", ⟨"http", false⟩), ("web", ⟨"http", true⟩)] }

def twoExports : Record .deployment :=
  let spec : DeploymentSpec :=
    { azs := ["z"], replicas := 1, containers := [exporter], baseImage := "i", network := "n" }
  Record.new "team-a" "x" spec

theorem last_web {name : String} {link : ExportedLink}
    (h : exporter.exports.get? name = some link) :
    name = "web" ∨ compare name "web" = .lt := by
  have hmem : (name, link) ∈
      [("admin", (⟨"http", false⟩ : ExportedLink)), ("web", ⟨"http", true⟩)] :=
    Table.get?_eq_some_iff.1 h
  rcases List.mem_cons.1 hmem with heq | hmem
  · cases heq
    exact .inr (by decide)
  · cases List.mem_singleton.1 hmem
    exact .inl rfl

set_option maxRecDepth 4000 in
theorem manifest_twoExports : ∃ m g job,
    Composition.manifest twoExports unzoned = (.ok m, unzoned) ∧ m.instanceGroups = [g] ∧
      g.jobs = [job] ∧ job.provides.toList = [("http", ⟨"web", true⟩)] :=
  ⟨_, _, _, rfl, rfl, rfl, rfl⟩

end Small

namespace Composition

/-- The second export is the last of its internal link, so it is there. -/
theorem links_kept_unless_shared_small : ∃ m g,
    manifest Small.twoExports Small.unzoned = (.ok m, Small.unzoned) ∧ m.instanceGroups = [g] ∧
      ∀ job ∈ g.jobs, job.provides.get? "http" = some ⟨"web", true⟩ ∧ job.provides.size ≠ 2 := by
  obtain ⟨m, -, -, hm, -⟩ := Small.manifest_twoExports
  obtain ⟨g, hgroups, hjobs⟩ := links_kept_unless_shared hm
  refine ⟨m, g, hm, hgroups, fun job hjob => ?_⟩
  obtain ⟨c, hc, hlinks⟩ := Forall₂.exists_left hjobs hjob
  obtain rfl : c = Small.exporter := List.mem_singleton.1 hc
  have hweb : Small.exporter.exports.get? "web" = some ⟨"http", true⟩ := rfl
  obtain ⟨out, rfl, hkept⟩ := (hlinks.provides.kept_iff hweb).2 fun h _ => Small.last_web h
  refine ⟨hkept, fun hsize => ?_⟩
  have hshared : ¬(Small.exporter.exports.values.map ExportedLink.internalLink).Nodup := by
    decide
  exact hshared (hlinks.provides.size_eq_iff.1 hsize)

/-- The record is valid, and yet its manifest has one link for two exports: `admin` is lost. -/
theorem shared_export_lost : Validation.complaint? [⟨.deployment, Small.twoExports⟩] = none ∧
    ∃ m g job, manifest Small.twoExports Small.unzoned = (.ok m, Small.unzoned) ∧
      m.instanceGroups = [g] ∧ g.jobs = [job] ∧
      job.provides.toList = [("http", ⟨"web", true⟩)] := by
  refine ⟨?_, Small.manifest_twoExports⟩
  decide

end Composition

end Reconciliation
