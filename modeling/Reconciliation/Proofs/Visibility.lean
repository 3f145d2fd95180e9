import Reconciliation.Proofs.CanonicalText
import Reconciliation.Proofs.Names
import Reconciliation.Proofs.Publication

/-! Whether a spec differs from the frozen one is decided without building fragments, and yet by
what fragments say: two specs match exactly if their fragments are the same in normal form, with
lists of addresses and zones sorted and without repetition, and with blobs in key order, a missing
one being null. The Director of compilation workers is the one field that is compared and not in a
fragment. -/
namespace Reconciliation

/-- The members of a list in order and without repetition. -/
def distinct (l : List String) : List String := (Table.ofList (l.map fun x => (x, ()))).keys

theorem distinct_eq_iff {l l' : List String} : distinct l = distinct l' ↔ ∀ x, x ∈ l ↔ x ∈ l' := by
  have hmem : ∀ (l : List String) (x : String), x ∈ distinct l ↔ x ∈ l := by
    intro l x
    rw [distinct, Table.mem_keys_ofList, List.map_map]
    simp
  refine ⟨fun h x => by rw [← hmem l, h, hmem l'], fun h => ?_⟩
  refine Table.keys_ofList_eq_iff.2 ⟨Table.ascending_keys _, fun x => ?_⟩
  rw [List.map_map]
  simpa using (hmem l' x).trans (h x).symm

theorem sameMembers_eq_true_iff {l l' : List String} :
    sameMembers l l' = true ↔ distinct l = distinct l' :=
  sameMembers_iff.trans distinct_eq_iff.symm

/-- A blob with its members in key order, null if there is none. -/
def CloudProperties.normal (p : Option CloudProperties) : Json := (p.getD .null).sorted

theorem CloudProperties.matching_iff {p q : Option CloudProperties} :
    matching p q = true ↔ normal p = normal q := by
  have hcanonical : ∀ p, canonicalOf p = (p.getD .null).canonical := by
    intro p
    cases p <;> rfl
  rw [matching, beq_iff_eq, hcanonical, hcanonical, Json.canonical_eq_iff]
  rfl

def PlainEntry.normal (e : PlainEntry) : PlainEntry :=
  { e with cloudProperties := some (CloudProperties.normal e.cloudProperties) }

def SubnetEntry.normal (e : SubnetEntry) : SubnetEntry where
  range := e.range
  gateway := e.gateway
  dns := distinct e.dns
  reserved := distinct e.reserved
  staticIps := distinct e.staticIps
  azs := distinct e.azs
  cloudProperties := some (CloudProperties.normal e.cloudProperties)

def NetworkEntry.normal (e : NetworkEntry) : NetworkEntry :=
  { e with subnets := e.subnets.map SubnetEntry.normal }

def CompilationEntry.normal (e : CompilationEntry) : CompilationEntry :=
  { e with cloudProperties := some (CloudProperties.normal e.cloudProperties) }

def CloudConfig.normal (c : CloudConfig) : CloudConfig where
  azs := c.azs.map PlainEntry.normal
  vmExtensions := c.vmExtensions.map PlainEntry.normal
  networks := c.networks.map NetworkEntry.normal
  compilation := c.compilation.map CompilationEntry.normal

theorem AzSpec.matching_iff {a b : AzSpec} (name : String) :
    a.matching b = true ↔ (a.fragment name).normal = (b.fragment name).normal := by
  rw [matching, CloudProperties.matching_iff]
  simp [fragment, CloudConfig.normal, PlainEntry.normal]

theorem VmExtensionSpec.matching_iff {a b : VmExtensionSpec} (name : String) :
    a.matching b = true ↔ (a.fragment name).normal = (b.fragment name).normal := by
  rw [matching, CloudProperties.matching_iff]
  simp [fragment, CloudConfig.normal, PlainEntry.normal]

theorem CompilationSpec.matching_iff {a b : CompilationSpec} (name : String) :
    a.matching b = true ↔
      (a.fragment name).normal = (b.fragment name).normal ∧ a.director = b.director := by
  simp only [matching, Bool.and_eq_true, beq_iff_eq, sameMembers_eq_true_iff,
    CloudProperties.matching_iff]
  simp [fragment, CloudConfig.normal, PlainEntry.normal, NetworkEntry.normal, SubnetEntry.normal,
    CompilationEntry.normal]
  tauto

theorem distinct_map_eq_iff {f : String → String} (hf : Function.Injective f)
    {l l' : List String} : distinct (l.map f) = distinct (l'.map f) ↔ distinct l = distinct l' := by
  rw [distinct_eq_iff, distinct_eq_iff]
  constructor
  · intro h x
    simpa [List.mem_map, hf.eq_iff] using h (f x)
  · intro h x
    simp only [List.mem_map, h]

theorem Kind.internalName_injective (k : Kind) (ns : String) :
    Function.Injective (k.internalName ns) := by
  intro name name' h
  have hsplit := k.splitOnce_internalName ns name
  rw [h, splitOnce_internalName] at hsplit
  simpa [String.toList_inj] using hsplit.symm

/-- The entry of a subnet in a namespace, with the zones under their remote names. -/
def Subnet.entryIn (ns : String) (x : Subnet) : SubnetEntry :=
  x.entry (x.azs.map (Kind.az.internalName ns))

theorem Subnet.matching_iff {x y : Subnet} (ns : String) :
    x.matching y = true ↔ (x.entryIn ns).normal = (y.entryIn ns).normal := by
  simp only [matching, Bool.and_eq_true, beq_iff_eq, sameMembers_eq_true_iff,
    CloudProperties.matching_iff, entryIn, entry, SubnetEntry.normal, SubnetEntry.mk.injEq,
    distinct_map_eq_iff (Kind.az.internalName_injective ns), Option.some.injEq, and_assoc]

theorem NetworkSpec.matchingSubnets_iff {l l' : List Subnet} :
    matchingSubnets l l' = true ↔ List.Forall₂ (fun x y => x.matching y = true) l l' := by
  induction l generalizing l' with
  | nil => cases l' <;> simp [matchingSubnets]
  | cons x l ih => cases l' <;> simp [matchingSubnets, ih]

theorem NetworkSpec.matching_iff {a b : NetworkSpec} (name ns : String) :
    a.matching b = true ↔ (a.fragment name (a.subnets.map (Subnet.entryIn ns))).normal =
      (b.fragment name (b.subnets.map (Subnet.entryIn ns))).normal := by
  have hsubnets : matchingSubnets a.subnets b.subnets = true ↔
      (a.subnets.map (Subnet.entryIn ns)).map SubnetEntry.normal =
        (b.subnets.map (Subnet.entryIn ns)).map SubnetEntry.normal := by
    rw [matchingSubnets_iff, List.map_map, List.map_map, ← List.forall₂_eq_eq_eq,
      List.forall₂_map_left_iff, List.forall₂_map_right_iff]
    simp only [Subnet.matching_iff ns, Function.comp_apply]
  simp only [matching, Bool.and_eq_true, beq_iff_eq, hsubnets]
  simp [fragment, CloudConfig.normal, NetworkEntry.normal]

/-- Blobs are alike if they are the same, a missing one being null. -/
def CloudProperties.Alike (p q : Option CloudProperties) : Prop :=
  (p.getD .null).Same (q.getD .null)

theorem CloudProperties.matching_iff_alike {p q : Option CloudProperties} :
    matching p q = true ↔ Alike p q :=
  matching_iff.trans Json.sorted_eq_iff

/-- Subnets with the same fields, where lists count by their members. -/
structure Subnet.Alike (x y : Subnet) : Prop where
  range : x.range = y.range
  gateway : x.gateway = y.gateway
  dns : ∀ i, i ∈ x.dns ↔ i ∈ y.dns
  reserved : ∀ i, i ∈ x.reserved ↔ i ∈ y.reserved
  staticIps : ∀ i, i ∈ x.staticIps ↔ i ∈ y.staticIps
  azs : ∀ i, i ∈ x.azs ↔ i ∈ y.azs
  cloudProperties : CloudProperties.Alike x.cloudProperties y.cloudProperties

theorem Subnet.matching_iff_alike {x y : Subnet} : x.matching y = true ↔ x.Alike y := by
  simp only [matching, Bool.and_eq_true, beq_iff_eq, sameMembers_iff,
    CloudProperties.matching_iff_alike, and_assoc]
  constructor
  · rintro ⟨hrange, hgateway, hdns, hreserved, hstatic, hazs, hproperties⟩
    exact ⟨hrange, hgateway, hdns, hreserved, hstatic, hazs, hproperties⟩
  · rintro ⟨hrange, hgateway, hdns, hreserved, hstatic, hazs, hproperties⟩
    exact ⟨hrange, hgateway, hdns, hreserved, hstatic, hazs, hproperties⟩

/-- Networks with the same subnets in the same order. -/
structure NetworkSpec.Alike (a b : NetworkSpec) : Prop where
  networkType : a.networkType = b.networkType
  subnets : List.Forall₂ Subnet.Alike a.subnets b.subnets

theorem NetworkSpec.matching_iff_alike {a b : NetworkSpec} : a.matching b = true ↔ a.Alike b := by
  simp only [matching, Bool.and_eq_true, beq_iff_eq, matchingSubnets_iff,
    Subnet.matching_iff_alike]
  exact ⟨fun h => ⟨h.1, h.2⟩, fun h => ⟨h.networkType, h.subnets⟩⟩

/-- Compilation workers with the same fields, where lists count by their members. -/
structure CompilationSpec.Alike (a b : CompilationSpec) : Prop where
  replicas : a.replicas = b.replicas
  cpu : a.cpu = b.cpu
  ram : a.ram = b.ram
  ephemeralDiskSize : a.ephemeralDiskSize = b.ephemeralDiskSize
  networkType : a.networkType = b.networkType
  subnetRange : a.subnetRange = b.subnetRange
  subnetGateway : a.subnetGateway = b.subnetGateway
  director : a.director = b.director
  subnetDns : ∀ i, i ∈ a.subnetDns ↔ i ∈ b.subnetDns
  subnetReserved : ∀ i, i ∈ a.subnetReserved ↔ i ∈ b.subnetReserved
  azCloudProperties : CloudProperties.Alike a.azCloudProperties b.azCloudProperties
  cloudProperties : CloudProperties.Alike a.cloudProperties b.cloudProperties
  subnetCloudProperties : CloudProperties.Alike a.subnetCloudProperties b.subnetCloudProperties

theorem CompilationSpec.matching_iff_alike {a b : CompilationSpec} :
    a.matching b = true ↔ a.Alike b := by
  simp only [matching, Bool.and_eq_true, beq_iff_eq, sameMembers_iff,
    CloudProperties.matching_iff_alike, and_assoc]
  constructor
  · rintro ⟨hreplicas, hcpu, hram, hdisk, htype, hrange, hgateway, hdirector, hdns, hreserved,
      haz, hproperties, hsubnet⟩
    exact ⟨hreplicas, hcpu, hram, hdisk, htype, hrange, hgateway, hdirector, hdns, hreserved,
      haz, hproperties, hsubnet⟩
  · rintro ⟨hreplicas, hcpu, hram, hdisk, htype, hrange, hgateway, hdirector, hdns, hreserved,
      haz, hproperties, hsubnet⟩
    exact ⟨hreplicas, hcpu, hram, hdisk, htype, hrange, hgateway, hdirector, hdns, hreserved,
      haz, hproperties, hsubnet⟩

theorem equivalence_of_iff {σ β : Type} {matching : σ → σ → Bool} (f : σ → β)
    (h : ∀ a b, matching a b = true ↔ f a = f b) : Equivalence fun a b => matching a b = true where
  refl a := (h a a).2 rfl
  symm {a b} hab := (h b a).2 ((h a b).1 hab).symm
  trans {a b c} hab hbc := (h a c).2 (((h a b).1 hab).trans ((h b c).1 hbc))

/-- Specs that match are matched by the same specs. -/
theorem matching_congr {σ : Type} {matching : σ → σ → Bool}
    (h : Equivalence fun a b => matching a b = true) {a a' : σ} (ha : matching a a' = true)
    (b : σ) : matching a b = matching a' b := by
  rw [Bool.eq_iff_iff]
  exact ⟨h.trans (h.symm ha), h.trans ha⟩

theorem AzSpec.matching_equivalence : Equivalence fun a b : AzSpec => a.matching b = true :=
  equivalence_of_iff (fun a => (a.fragment "").normal) fun _ _ => matching_iff ""

theorem VmExtensionSpec.matching_equivalence :
    Equivalence fun a b : VmExtensionSpec => a.matching b = true :=
  equivalence_of_iff (fun a => (a.fragment "").normal) fun _ _ => matching_iff ""

theorem CompilationSpec.matching_equivalence :
    Equivalence fun a b : CompilationSpec => a.matching b = true :=
  equivalence_of_iff (fun a => ((a.fragment "").normal, a.director)) fun _ _ =>
    (matching_iff "").trans Prod.mk_inj.symm

theorem Subnet.matching_equivalence : Equivalence fun x y : Subnet => x.matching y = true :=
  equivalence_of_iff (fun x => (x.entryIn "").normal) fun _ _ => matching_iff ""

theorem NetworkSpec.matching_equivalence :
    Equivalence fun a b : NetworkSpec => a.matching b = true :=
  equivalence_of_iff (fun a => (a.fragment "" (a.subnets.map (Subnet.entryIn ""))).normal)
    fun _ _ => matching_iff "" ""

theorem NetworkSpec.matchingSubnets_append (pre l l' : List Subnet) :
    matchingSubnets (pre ++ l) (pre ++ l') = matchingSubnets l l' := by
  induction pre with
  | nil => rfl
  | cons x pre ih => simp [matchingSubnets, Subnet.matching_refl, ih]

/-- Two neighbouring subnets can change places unnoticed only if they match. -/
theorem NetworkSpec.matching_swap (t : String) (pre post : List Subnet) (x y : Subnet) :
    matching ⟨t, pre ++ x :: y :: post⟩ ⟨t, pre ++ y :: x :: post⟩ = x.matching y := by
  have hback : (y.matching x = true) ↔ x.matching y = true :=
    ⟨Subnet.matching_equivalence.symm, Subnet.matching_equivalence.symm⟩
  rw [matching, matchingSubnets_append, Bool.eq_iff_iff]
  simp [matchingSubnets, matchingSubnets_refl, hback]

namespace Artifact

variable {s : Store}

/-- A network whose zones are stored has a fragment. -/
theorem networkFragment_eq {r : Record .network} {a : NetworkSpec} (hs : s.WellFormed)
    (ha : r.frozen? = some a)
    (hazs : ∀ x ∈ a.subnets, ∀ z ∈ x.azs, s.Stored ⟨.az, r.metadata.ns, z⟩) :
    networkFragment r s = (.ok (a.fragment r.internalName
      (a.subnets.map (Subnet.entryIn r.metadata.ns))), s) := by
  have hzones : ∀ {names : List String}, (∀ z ∈ names, s.Stored ⟨.az, r.metadata.ns, z⟩) →
      List.Forall₂ (s.Names .az r.metadata.ns) names
        (names.map (Kind.az.internalName r.metadata.ns)) := by
    intro names h
    rw [List.forall₂_map_right_iff, List.forall₂_same]
    exact fun z hz => hs.names_iff.2 ⟨h z hz, rfl⟩
  have hmapped : a.subnets.mapM (subnetEntry r.metadata.ns) s =
      (.ok (a.subnets.map (Subnet.entryIn r.metadata.ns)), s) := by
    refine (Step.mapM_eq_ok_iff subnetEntry_eq_ok_iff).2 ⟨?_, rfl⟩
    rw [List.forall₂_map_right_iff, List.forall₂_same]
    exact fun x hx => ⟨_, hzones (hazs x hx), rfl⟩
  have hfrozen : Credentials.frozenOf r = .ok a := Credentials.frozenOf_eq_ok_iff.2 ha
  exact (Step.bind_ok (Step.ofExcept_eq_ok_iff.2 ⟨hfrozen, rfl⟩) _).trans
    (Step.bind_ok (Step.mapError_eq_ok_iff.2 hmapped) _)

theorem azFragment_eq {r : Record .az} {a : AzSpec} (ha : r.frozen? = some a) :
    azFragment r = .ok (a.fragment r.internalName) := by
  rw [azFragment, Credentials.frozenOf_eq_ok_iff.2 ha]
  rfl

theorem vmExtensionFragment_eq {r : Record .vmExtension} {a : VmExtensionSpec}
    (ha : r.frozen? = some a) : vmExtensionFragment r = .ok (a.fragment r.internalName) := by
  rw [vmExtensionFragment, Credentials.frozenOf_eq_ok_iff.2 ha]
  rfl

theorem compilationFragment_eq {r : Record .compilation} {a : CompilationSpec}
    (ha : r.frozen? = some a) : compilationFragment r = .ok (a.fragment r.internalName) := by
  rw [compilationFragment, Credentials.frozenOf_eq_ok_iff.2 ha]
  rfl

end Artifact

/-- Two specs match exactly if the fragments that one record has with them are the same in normal
form, for compilation workers together with their Directors. So matching is an equivalence. It
depends on the members of lists of addresses and zones alone, and on the order of subnets and all
other fields. -/
theorem drift_is_visible :
    (∀ (s : Store) (r r' : Record .network) (a b : NetworkSpec), s.WellFormed → r.key = r'.key →
      r.frozen? = some a → r'.frozen? = some b →
      (∀ x ∈ a.subnets ++ b.subnets, ∀ z ∈ x.azs, s.Stored ⟨.az, r.metadata.ns, z⟩) →
      ∃ c d, Artifact.networkFragment r s = (.ok c, s) ∧
        Artifact.networkFragment r' s = (.ok d, s) ∧ (a.matching b = true ↔ c.normal = d.normal)) ∧
    (∀ (r r' : Record .compilation) (a b : CompilationSpec), r.key = r'.key →
      r.frozen? = some a → r'.frozen? = some b →
      ∃ c d, Artifact.compilationFragment r = .ok c ∧ Artifact.compilationFragment r' = .ok d ∧
        (a.matching b = true ↔ c.normal = d.normal ∧ a.director = b.director)) ∧
    (∀ (r r' : Record .az) (a b : AzSpec), r.key = r'.key →
      r.frozen? = some a → r'.frozen? = some b →
      ∃ c d, Artifact.azFragment r = .ok c ∧ Artifact.azFragment r' = .ok d ∧
        (a.matching b = true ↔ c.normal = d.normal)) ∧
    (∀ (r r' : Record .vmExtension) (a b : VmExtensionSpec), r.key = r'.key →
      r.frozen? = some a → r'.frozen? = some b →
      ∃ c d, Artifact.vmExtensionFragment r = .ok c ∧ Artifact.vmExtensionFragment r' = .ok d ∧
        (a.matching b = true ↔ c.normal = d.normal)) ∧
    (Equivalence (fun a b : NetworkSpec => a.matching b = true) ∧
      Equivalence (fun a b : CompilationSpec => a.matching b = true) ∧
      Equivalence (fun a b : AzSpec => a.matching b = true) ∧
      Equivalence fun a b : VmExtensionSpec => a.matching b = true) ∧
    (∀ a b : NetworkSpec, a.matching b = true ↔ a.Alike b) ∧
    (∀ a b : CompilationSpec, a.matching b = true ↔ a.Alike b) ∧
    (∀ a a' b : NetworkSpec, a.Alike a' → a.matching b = a'.matching b) ∧
    (∀ a a' b : CompilationSpec, a.Alike a' → a.matching b = a'.matching b) ∧
    ∀ (t : String) (pre post : List Subnet) (x y : Subnet),
      NetworkSpec.matching ⟨t, pre ++ x :: y :: post⟩ ⟨t, pre ++ y :: x :: post⟩ =
        x.matching y := by
  refine ⟨fun s r r' a b hs hkey ha hb hazs => ?_, fun r r' a b hkey ha hb => ?_,
    fun r r' a b hkey ha hb => ?_, fun r r' a b hkey ha hb => ?_,
    ⟨NetworkSpec.matching_equivalence, CompilationSpec.matching_equivalence,
      AzSpec.matching_equivalence, VmExtensionSpec.matching_equivalence⟩,
    fun a b => NetworkSpec.matching_iff_alike, fun a b => CompilationSpec.matching_iff_alike,
    fun a a' b h => matching_congr NetworkSpec.matching_equivalence
      (NetworkSpec.matching_iff_alike.2 h) b,
    fun a a' b h => matching_congr CompilationSpec.matching_equivalence
      (CompilationSpec.matching_iff_alike.2 h) b,
    NetworkSpec.matching_swap⟩
  · have hns : r.metadata.ns = r'.metadata.ns := congrArg Key.ns hkey
    refine ⟨_, _, Artifact.networkFragment_eq hs ha fun x hx => hazs x (List.mem_append_left _ hx),
      Artifact.networkFragment_eq hs hb fun x hx => ?_, ?_⟩
    · rw [← hns]
      exact hazs x (List.mem_append_right _ hx)
    · rw [Record.internalName_eq hkey, ← hns]
      exact NetworkSpec.matching_iff _ _
  · refine ⟨_, _, Artifact.compilationFragment_eq ha, Artifact.compilationFragment_eq hb, ?_⟩
    rw [Record.internalName_eq hkey]
    exact CompilationSpec.matching_iff _
  · refine ⟨_, _, Artifact.azFragment_eq ha, Artifact.azFragment_eq hb, ?_⟩
    rw [Record.internalName_eq hkey]
    exact AzSpec.matching_iff _
  · refine ⟨_, _, Artifact.vmExtensionFragment_eq ha, Artifact.vmExtensionFragment_eq hb, ?_⟩
    rw [Record.internalName_eq hkey]
    exact VmExtensionSpec.matching_iff _

namespace Small

def subnet : Subnet :=
  { range := "10.0.0.0/24", gateway := "10.0.0.1", dns := ["8.8.8.8", "1.1.1.1"], azs := ["z"] }

/-- The subnet with its lists in another order, with repetitions and with null properties. -/
def relistedSubnet : Subnet :=
  { subnet with
    dns := ["1.1.1.1", "8.8.8.8", "1.1.1.1"], azs := ["z", "z"], cloudProperties := some .null }

def frozenNetwork (subnets : List Subnet) : Record .network :=
  let spec : NetworkSpec := { subnets }
  { network with status := (⟨"", some spec, true⟩ : FrozenStatus NetworkSpec) }

def frozenWorkers (replicas : UInt32) : Record .compilation :=
  let spec : CompilationSpec :=
    { replicas, cpu := 1, ram := 512, ephemeralDiskSize := 1024, networkType := "manual",
      subnetRange := "10.0.0.0/24", subnetGateway := "10.0.0.1", director := "d" }
  { Record.new (k := .compilation) "sys" "c" spec with
    status := (⟨"", some spec, true⟩ : FrozenStatus CompilationSpec) }

end Small

/-- The fragments of the two networks are the same in normal form; those of two and of three
workers are not. -/
theorem drift_is_visible_small :
    (∃ c d, Artifact.networkFragment (Small.frozenNetwork [Small.subnet]) Small.unzoned =
        (.ok c, Small.unzoned) ∧
      Artifact.networkFragment (Small.frozenNetwork [Small.relistedSubnet]) Small.unzoned =
        (.ok d, Small.unzoned) ∧ c.normal = d.normal) ∧
    ∃ c d, Artifact.compilationFragment (Small.frozenWorkers 2) = .ok c ∧
      Artifact.compilationFragment (Small.frozenWorkers 3) = .ok d ∧ c.normal ≠ d.normal := by
  obtain ⟨hnetwork, hworkers, -⟩ := drift_is_visible
  constructor
  · have hzones : ∀ x ∈ [Small.subnet, Small.relistedSubnet], ∀ z ∈ x.azs, z = "z" := by decide
    have hstored : ∀ x ∈ [Small.subnet, Small.relistedSubnet], ∀ z ∈ x.azs,
        Small.unzoned.Stored ⟨.az, "team-a", z⟩ := by
      intro x hx z hz
      rw [hzones x hx z hz]
      rfl
    obtain ⟨c, d, hc, hd, hiff⟩ := hnetwork Small.unzoned (Small.frozenNetwork [Small.subnet])
      (Small.frozenNetwork [Small.relistedSubnet]) _ _ Small.wellFormed_unzoned rfl rfl rfl hstored
    exact ⟨c, d, hc, hd, hiff.1 (by decide)⟩
  · obtain ⟨c, d, hc, hd, hiff⟩ := hworkers (Small.frozenWorkers 2) (Small.frozenWorkers 3) _ _ rfl
      rfl rfl
    exact ⟨c, d, hc, hd, fun h => absurd (hiff.2 ⟨h, rfl⟩) (by decide)⟩

end Reconciliation
