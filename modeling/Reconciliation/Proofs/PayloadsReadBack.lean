import Reconciliation.Proofs.Digits
import Reconciliation.Proofs.Manifest
import Reconciliation.Proofs.Names
import Reconciliation.Proofs.ReadBack

/-! What the Director is given can be read again without loss. A watch time is a number or a text,
and so is the limit of an update, but no two of them are written alike: the digits of a number hold
no hyphen, and a percentage stays a text even if it looks like a number. Only the free-form
properties of jobs can come in another order than the one in which they are read, so that a
manifest is read back in key order as long as they are so. -/
namespace Reconciliation

namespace Text

variable {n : Nat} {c : Char} {cs : List Char}

theorem isBlank_of_isDigit (h : Json.isDigit c = true) : isBlank c = false := by
  have hc := Json.isDigit_iff.1 h
  simp only [isBlank, Bool.or_eq_false_iff, Bool.and_eq_false_iff, decide_eq_false_iff_not,
    beq_eq_false_iff_ne]
  omega

theorem trim_of_forall (h : ∀ c ∈ cs, isBlank c = false) : trimEnd (trimStart cs) = cs := by
  have hkept : ∀ {ds : List Char}, (∀ c ∈ ds, isBlank c = false) → ds.dropWhile isBlank = ds := by
    intro ds hds
    cases ds with
    | nil => rfl
    | cons d ds => exact List.dropWhile_cons_of_neg (by simp [hds d List.mem_cons_self])
  rw [trimStart, hkept h, trimEnd, hkept fun c hc => h c (List.mem_reverse.1 hc),
    List.reverse_reverse]

theorem naturalBelow?_toString {bound : Nat} (h : n < bound) :
    naturalBelow? bound (toString n).toList = some n :=
  naturalBelow?_eq_some_iff.2 ⟨⟨_, .inl rfl, toString_ne_nil n,
    fun _ => isDigit_of_mem_toString, decimalValue_toString n⟩, h⟩

end Text

namespace WatchTime

theorem bound?_toString (n : UInt64) : bound? (toString n.toNat).toList = some n := by
  have hblank : ∀ c ∈ (toString n.toNat).toList, Text.isBlank c = false :=
    fun _ hc => Text.isBlank_of_isDigit (Text.isDigit_of_mem_toString hc)
  rw [bound?, Text.trim_of_forall hblank, Text.naturalBelow?_toString n.toNat_lt]
  exact congrArg some UInt64.ofNat_toNat

/-- The hyphen of a range stands after the lower bound, and nothing else holds one. -/
theorem ofText?_range (low high : UInt64) :
    ofText? (toString low.toNat ++ "-" ++ toString high.toNat) = some (range low high) := by
  have hlow : '-' ∉ (toString low.toNat).toList := by
    intro h
    cases Text.isDigit_of_mem_toString h
  have htext : (toString low.toNat ++ "-" ++ toString high.toNat).toList =
      (toString low.toNat).toList ++ '-' :: (toString high.toNat).toList := by
    simp
  simp only [ofText?, htext, Text.splitOnce_append hlow, bound?_toString]
  rfl

@[simp]
theorem decode_toJson (w : WatchTime) : decode w.toJson = .ok w := by
  cases w with
  | fixed ms => simp [decode, toJson]
  | range low high =>
    have hnumber : Decoder.u64 (range low high).toJson =
        .error (.invalidType (range low high).toJson "u64") := rfl
    simp only [decode, hnumber]
    simp only [toJson, ofText?_range]

end WatchTime

namespace MaxInFlight

@[simp]
theorem decode_toJson (m : MaxInFlight) : decode m.toJson = .ok m := by
  cases m with
  | instances n => simp [decode, toJson]
  | percent s => rfl

end MaxInFlight

variable (r : Rearrangement)

@[simp]
theorem WatchTime.apply_toJson (w : WatchTime) : r.apply w.toJson = w.toJson := by
  cases w <;> simp [toJson]

@[simp]
theorem MaxInFlight.apply_toJson (m : MaxInFlight) : r.apply m.toJson = m.toJson := by
  cases m <;> simp [toJson]

@[simp]
theorem UpdatePolicy.decode_toJson (p : UpdatePolicy) : decode (r.apply p.toJson) = .ok p :=
  Layout.decode_written (by unfold layout; infer_instance) (by simp) (by simp [layout])

@[simp]
theorem VmResources.decode_toJson (v : VmResources) : decode (r.apply v.toJson) = .ok v :=
  Layout.decode_written (by unfold layout; infer_instance) (by simp) (by simp [layout])

variable {r}

theorem PlainEntry.faithful (type : String) : Faithful r (layout.decode type) toJson := by
  refine Layout.faithful (by unfold layout; infer_instance) fun find e hfind h => ?_
  simp only [layout, Layout.exists_seq, Layout.exists_map] at h
  obtain ⟨_, -, p, hp, rfl⟩ := h
  exact ⟨_, rfl, by simp, by simp [layout, CloudProperties.kept hfind hp]⟩

theorem SubnetEntry.faithful : Faithful r decode toJson := by
  refine Layout.faithful (by unfold layout; infer_instance) fun find e hfind h => ?_
  simp only [layout, Layout.exists_seq, Layout.exists_map] at h
  obtain ⟨_, -, _, -, _, -, _, -, _, -, _, -, p, hp, rfl⟩ := h
  exact ⟨_, rfl, by simp [addresses], by simp [layout, addresses, CloudProperties.kept hfind hp]⟩

theorem NetworkEntry.faithful : Faithful r decode toJson := by
  refine Layout.faithful (by unfold layout; infer_instance) fun find e hfind h => ?_
  simp only [layout, Layout.exists_seq, Layout.exists_map] at h
  obtain ⟨_, -, _, -, subnets, hsubnets, rfl⟩ := h
  have hkept := SubnetEntry.faithful.list.required hfind hsubnets
  exact ⟨_, rfl, by simp, by simp [layout, hkept]⟩

theorem CompilationEntry.faithful : Faithful r decode toJson := by
  refine Layout.faithful (by unfold layout; infer_instance) fun find e hfind h => ?_
  simp only [layout, Layout.exists_seq, Layout.exists_map] at h
  obtain ⟨_, -, _, -, _, -, _, -, p, hp, _, -, _, -, rfl⟩ := h
  exact ⟨_, rfl, by simp, by simp [layout, CloudProperties.kept hfind hp]⟩

theorem CloudConfig.faithful : Faithful r decode toJson := by
  refine Layout.faithful (by unfold layout; infer_instance) fun find c hfind h => ?_
  simp only [layout, Layout.exists_seq, Layout.exists_map] at h
  obtain ⟨azs, hazs, extensions, hextensions, networks, hnetworks, compilation, hcompilation,
    rfl⟩ := h
  have hazs := (PlainEntry.faithful "AzEntry").list.optional hfind (Decoder.list_map (by simp)) hazs
  have hextensions := (PlainEntry.faithful "VmExtensionEntry").list.optional hfind
    (Decoder.list_map (by simp)) hextensions
  have hnetworks := NetworkEntry.faithful.list.optional hfind (Decoder.list_map (by simp)) hnetworks
  have hcompilation := CompilationEntry.faithful.optionalNullable
    (fun _ _ _ _ => Json.noConfusion) hfind hcompilation
  refine ⟨_, rfl, by simp [entries], ?_⟩
  simp [layout, entries, hazs, hextensions, hnetworks, hcompilation]

variable (r)

@[simp]
theorem ReleaseRef.decode_toJson (a : ReleaseRef) : decode (r.apply a.toJson) = .ok a :=
  Layout.decode_written (by unfold layout; infer_instance) (by simp) (by simp [layout])

@[simp]
theorem StemcellRef.decode_toJson (a : StemcellRef) : decode (r.apply a.toJson) = .ok a :=
  Layout.decode_written (by unfold layout; infer_instance) (by simp) (by simp [layout])

@[simp]
theorem ConsumedLink.decode_toJson (a : ConsumedLink) : decode (r.apply a.toJson) = .ok a :=
  Layout.decode_written (by unfold layout; infer_instance) (by simp) (by simp [layout])

@[simp]
theorem ProvidedLink.decode_toJson (a : ProvidedLink) : decode (r.apply a.toJson) = .ok a :=
  Layout.decode_written (by unfold layout; infer_instance) (by simp) (by simp [layout])

@[simp]
theorem NetworkRef.decode_toJson (a : NetworkRef) : decode (r.apply a.toJson) = .ok a :=
  Layout.decode_written (by unfold layout; infer_instance) (by simp) (by simp [layout])

variable {r}

theorem Job.decode_toJson {j : Job} (h : r.apply j.properties = j.properties) :
    decode (r.apply j.toJson) = .ok j :=
  Layout.decode_written (by unfold layout; infer_instance) (by simp) (by simp [layout, h])

theorem InstanceGroup.decode_toJson {g : InstanceGroup}
    (h : ∀ j ∈ g.jobs, r.apply j.properties = j.properties) :
    decode (r.apply g.toJson) = .ok g := by
  have hjobs : Decoder.list Job.decode (r.apply (.arr (g.jobs.map Job.toJson))) = .ok g.jobs :=
    Decoder.list_map fun j hj => Job.decode_toJson (h j hj)
  exact Layout.decode_written (by unfold layout; infer_instance) (by simp) (by simp [layout, hjobs])

/-- The properties of all jobs are in order. -/
def Manifest.Arranged (r : Rearrangement) (m : Manifest) : Prop :=
  ∀ g ∈ m.instanceGroups, ∀ j ∈ g.jobs, r.apply j.properties = j.properties

theorem Manifest.decode_toJson {m : Manifest} (h : m.Arranged r) :
    decode (r.apply m.toJson) = .ok m := by
  have hgroups : Decoder.list InstanceGroup.decode
      (r.apply (.arr (m.instanceGroups.map InstanceGroup.toJson))) = .ok m.instanceGroups :=
    Decoder.list_map fun g hg => InstanceGroup.decode_toJson (h g hg)
  exact Layout.decode_written (by unfold layout; infer_instance) (by simp)
    (by simp [layout, hgroups])

theorem Job.yields : decode.Yields r fun j => r.apply j.properties = j.properties := by
  refine Layout.yields fun find j hfind h => ?_
  simp only [layout, Layout.exists_seq, Layout.exists_map] at h
  obtain ⟨_, -, _, -, _, -, _, -, properties, hproperties, rfl⟩ := h
  exact (Decoder.json_yields r).optional hfind r.apply_null hproperties

theorem InstanceGroup.yields :
    decode.Yields r fun g => ∀ j ∈ g.jobs, r.apply j.properties = j.properties := by
  refine Layout.yields fun find g hfind h => ?_
  simp only [layout, Layout.exists_seq, Layout.exists_map] at h
  obtain ⟨_, -, _, -, _, -, jobs, hjobs, _, -, _, -, _, -, _, -, _, -, rfl⟩ := h
  exact Job.yields.list.required hfind hjobs

theorem Manifest.yields : decode.Yields r (Arranged r) := by
  refine Layout.yields fun find m hfind h => ?_
  simp only [layout, Layout.exists_seq, Layout.exists_map] at h
  obtain ⟨_, -, _, -, _, -, _, -, groups, hgroups, rfl⟩ := h
  exact InstanceGroup.yields.list.required hfind hgroups

/-- All that the roles of a namespace leave to the Director is in order. -/
def Store.Arranges (s : Store) (r : Rearrangement) (ns : String) : Prop :=
  ∀ name (a : Record .role) (role : RoleSpec), s.Finds ns name a → a.spec = role →
    r.apply role.properties = role.properties

namespace Store

variable {s : Store} {ns : String}

theorem arranges_empty (r : Rearrangement) (ns : String) : (∅ : Store).Arranges r ns := nofun

theorem Arranges.keep (hs : s.Arranges r ns) {k : Kind} (a : Record k) (hk : k ≠ .role) :
    (s.keep a).Arranges r ns := by
  intro name b role hb hrole
  rw [Finds, get?_keep] at hb
  split at hb
  · cases hb
    exact absurd rfl hk
  · exact hs name b role hb hrole

theorem Arranges.keep_role (hs : s.Arranges r ns) {a : Record .role} {role : RoleSpec}
    (hspec : a.spec = role) (hrole : r.apply role.properties = role.properties) :
    (s.keep a).Arranges r ns := by
  intro name b role' hb hrole'
  rw [Finds, get?_keep] at hb
  split at hb
  · cases hb
    rw [← hrole', hspec]
    exact hrole
  · exact hs name b role' hb hrole'

end Store

/-- The properties of a job are those of its role. -/
theorem Manifest.IsFor.arranged {m : Manifest} {s : Store} {ns remote : String}
    {d : DeploymentSpec} (h : m.IsFor s ns remote d) (hs : s.Arranges r ns) : m.Arranged r := by
  intro g hg j hj
  obtain ⟨g', hgroups, hfor⟩ := h.group
  rw [hgroups, List.mem_singleton] at hg
  subst hg
  obtain ⟨c, -, hjob⟩ := Forall₂.exists_left hfor.jobs hj
  obtain ⟨role, release, ⟨⟨a, ha, hrole⟩, -⟩, -, hproperties, -⟩ := hjob.runs
  rw [hproperties]
  exact hs c.role a role ha hrole

/-- Watch times and limits are read back whatever they are, and so is every manifest. What was read
as a fragment or as a manifest is read back also with its members in key order, if it came so; a
composed manifest, if the properties of the roles are so. -/
theorem payloads_read_back :
    (∀ w : WatchTime, WatchTime.decode w.toJson = .ok w) ∧
      (∀ m : MaxInFlight, MaxInFlight.decode m.toJson = .ok m) ∧
      (∀ (v : Json) (c : CloudConfig), CloudConfig.decode v = .ok c →
        CloudConfig.decode c.toJson = .ok c ∧
          (v.sorted = v → CloudConfig.decode c.toJson.sorted = .ok c)) ∧
      (∀ m : Manifest, Manifest.decode m.toJson = .ok m) ∧
      (∀ (v : Json) (m : Manifest), Manifest.decode v = .ok m → v.sorted = v →
        Manifest.decode m.toJson.sorted = .ok m) ∧
      ∀ (s t : Store) (d : Record .deployment) (m : Manifest),
        Composition.manifest d s = (.ok m, t) → s.Arranges .inKeyOrder d.metadata.ns →
          Manifest.decode m.toJson.sorted = .ok m := by
  refine ⟨WatchTime.decode_toJson, MaxInFlight.decode_toJson, fun v c h => ⟨?_, fun hv => ?_⟩,
    fun m => ?_, fun v m h hv => ?_, fun s t d m h hs => ?_⟩
  · exact CloudConfig.faithful (r := .asWritten) v c rfl h
  · exact CloudConfig.faithful (r := .inKeyOrder) v c hv h
  · exact Manifest.decode_toJson (r := .asWritten) fun _ _ _ _ => rfl
  · exact Manifest.decode_toJson (r := .inKeyOrder) (Manifest.yields v m hv h)
  · obtain ⟨hfor, -⟩ := Composition.manifest_eq_ok_iff.1 h
    exact Manifest.decode_toJson (r := .inKeyOrder) (hfor.arranged hs)

namespace Small

/-- A zone as an array, empty addresses and a null within properties. -/
def configRead : Json :=
  .obj [("azs", .arr [.arr [.str "z", .null]]),
    ("networks", .arr [.obj [("name", .str "n"),
      ("subnets", .arr [.obj [("cloud_properties", .obj [("pool", .nat 1), ("vlan", .null)]),
        ("gateway", .str "10.0.0.1"), ("range", .str "10.0.0.0/24"), ("static", .arr [])]]),
      ("type", .str "manual")]])]

def config : CloudConfig where
  azs := [⟨"z", none⟩]
  networks := [⟨"n", "manual", [{
    range := "10.0.0.0/24"
    gateway := "10.0.0.1"
    cloudProperties := some (.obj [("pool", .nat 1), ("vlan", .null)]) }]⟩]

/-- A limit and a watch time that look like numbers, a range with blanks and a sign, null
properties and no persistent disk. -/
def manifestRead : Json :=
  .obj [("instance_groups", .arr [.obj [("azs", .arr []), ("instances", .nat 0),
      ("jobs", .arr [.arr [.str "nginx", .str "web", .obj [], .obj [], .null]]),
      ("name", .str "g"), ("networks", .arr []), ("persistent_disk_size", .nat 0),
      ("stemcell", .str "s"), ("vm_resources", .arr [.nat 1, .nat 2, .nat 3])]]),
    ("name", .str "d"), ("releases", .arr []), ("stemcells", .arr []),
    ("update", .obj [("canaries", .nat 1), ("canary_watch_time", .str "3000"),
      ("max_in_flight", .str "25"), ("serial", .bool true),
      ("update_watch_time", .str " 1000 - +30000"), ("vm_strategy", .str "")])]

def manifestOfRead : Manifest where
  name := "d"
  releases := []
  stemcells := []
  update := ⟨1, .percent "25", .fixed 3000, .range 1000 30000, true, ""⟩
  instanceGroups := [{
    name := "g"
    azs := []
    instances := 0
    jobs := [{ name := "nginx", release := "web" }]
    vmResources := ⟨1, 2, 3⟩
    stemcell := "s"
    networks := [] }]

theorem arranges_unzoned : unzoned.Arranges .inKeyOrder "team-a" := by
  have hempty := Store.arranges_empty .inKeyOrder "team-a"
  have hsoftware := ((hempty.keep release nofun).keep image nofun).keep_role (a := role) rfl rfl
  exact (hsoftware.keep network nofun).keep az nofun

end Small

theorem payloads_read_back_small :
    CloudConfig.decode Small.config.toJson.sorted = .ok Small.config ∧
      Manifest.decode Small.manifestOfRead.toJson.sorted = .ok Small.manifestOfRead ∧
      Manifest.decode Small.manifest.toJson.sorted = .ok Small.manifest := by
  obtain ⟨-, -, hconfig, -, hread, hcomposed⟩ := payloads_read_back
  exact ⟨(hconfig Small.configRead _ rfl).2 rfl, hread Small.manifestRead _ rfl rfl,
    hcomposed _ _ _ _ Small.manifest_deployment Small.arranges_unzoned⟩

end Reconciliation
