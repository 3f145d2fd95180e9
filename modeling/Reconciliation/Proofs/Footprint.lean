import Reconciliation.Proofs.Payload

namespace Reconciliation

/-- What a container asks for an amount of. -/
inductive Resource where
  | cpu
  | ram
  | ephemeralDisk
  | persistentDisk
deriving DecidableEq, Repr

namespace Resource

def request : Resource → ContainerResources → UInt64
  | cpu => (·.cpu)
  | ram => (·.ram)
  | ephemeralDisk => (·.ephemeralDiskSize)
  | persistentDisk => (·.persistentDiskSize)

def amount : Resource → Footprint → UInt64
  | cpu => (·.vm.cpu)
  | ram => (·.vm.ram)
  | ephemeralDisk => (·.vm.ephemeralDiskSize)
  | persistentDisk => (·.persistentDiskSize)

end Resource

namespace Footprint

variable {cs ds : List Container} {f : Footprint}

theorem covers_iff :
    Covers cs f ↔ ∀ x : Resource, (x.amount f).toNat = total cs x.request := by
  constructor
  · intro hf x
    cases x with
    | cpu => exact hf.cpu
    | ram => exact hf.ram
    | ephemeralDisk => exact hf.ephemeralDiskSize
    | persistentDisk => exact hf.persistentDiskSize
  · intro hf
    exact ⟨hf .cpu, hf .ram, hf .ephemeralDisk, hf .persistentDisk⟩

theorem fits_iff : Fits cs ↔ ∀ x : Resource, total cs x.request < UInt64.size := by
  constructor
  · intro hcs x
    cases x with
    | cpu => exact hcs.cpu
    | ram => exact hcs.ram
    | ephemeralDisk => exact hcs.ephemeralDiskSize
    | persistentDisk => exact hcs.persistentDiskSize
  · intro hcs
    exact ⟨hcs .cpu, hcs .ram, hcs .ephemeralDisk, hcs .persistentDisk⟩

theorem ofContainers?_eq_some_iff_amounts : ofContainers? cs = some f ↔
    ∀ x : Resource, (x.amount f).toNat = total cs x.request := by
  rw [ofContainers?_eq_some_iff, covers_iff]

theorem exists_ofContainers?_iff : (∃ f, ofContainers? cs = some f) ↔
    ∀ x : Resource, total cs x.request < UInt64.size := by
  simp only [ofContainers?_eq_some_iff, exists_covers_iff, fits_iff]

theorem total_perm (hp : cs.Perm ds) (amount : ContainerResources → UInt64) :
    total ds amount = total cs amount :=
  (hp.map fun c : Container => (amount c.resources).toNat).sum_nat.symm

theorem total_append (cs ds : List Container) (amount : ContainerResources → UInt64) :
    total (cs ++ ds) amount = total cs amount + total ds amount := by
  simp [total]

/-- The footprint depends on the totals alone, so that containers with the same totals have the
same footprint or none. -/
theorem ofContainers?_congr (ht : ∀ amount, total ds amount = total cs amount) :
    ofContainers? ds = ofContainers? cs := by
  refine Option.ext fun f => ?_
  rw [ofContainers?_eq_some_iff_amounts, ofContainers?_eq_some_iff_amounts]
  exact forall_congr' fun x => by rw [ht]

/-- There is a footprint exactly if the total of every resource fits 64 bits, and its amounts are
then these totals. So all orders of the containers have one footprint, or none of them has any, and
the footprints of two lists of containers add up to that of both together, if their sums fit. -/
theorem footprint_exact (cs : List Container) :
    ((∃ f, ofContainers? cs = some f) ↔ ∀ x : Resource, total cs x.request < UInt64.size) ∧
    (∀ f, ofContainers? cs = some f ↔
      ∀ x : Resource, (x.amount f).toNat = total cs x.request) ∧
    (∀ ds, cs.Perm ds → ofContainers? ds = ofContainers? cs) ∧
    ∀ ds f g, ofContainers? cs = some f → ofContainers? ds = some g →
      ((∃ h, ofContainers? (cs ++ ds) = some h) ↔
        ∀ x : Resource, (x.amount f).toNat + (x.amount g).toNat < UInt64.size) ∧
      ∀ h, ofContainers? (cs ++ ds) = some h ↔
        ∀ x : Resource, (x.amount h).toNat = (x.amount f).toNat + (x.amount g).toNat := by
  refine ⟨exists_ofContainers?_iff, fun f => ofContainers?_eq_some_iff_amounts, ?_, ?_⟩
  · intro ds hp
    exact ofContainers?_congr (total_perm hp)
  · intro ds f g hf hg
    have htotal : ∀ x : Resource,
        total (cs ++ ds) x.request = (x.amount f).toNat + (x.amount g).toNat := by
      intro x
      rw [total_append, ofContainers?_eq_some_iff_amounts.1 hf x,
        ofContainers?_eq_some_iff_amounts.1 hg x]
    constructor
    · rw [exists_ofContainers?_iff]
      exact forall_congr' fun x => by rw [htotal]
    · intro h
      rw [ofContainers?_eq_some_iff_amounts]
      exact forall_congr' fun x => by rw [htotal]

end Footprint

namespace Small

/-- A container that asks for all the memory that can be asked for. -/
def greedy : Container := { role := "server", resources := { ram := 18446744073709551615, cpu := 2 } }

def modest : Container := { role := "proxy", resources := { ram := 1, cpu := 1 } }

end Small

/-- Each container has a footprint, but their memory does not add up, in either order. -/
theorem Footprint.footprint_exact_small : ∃ f g,
    ofContainers? [Small.greedy] = some f ∧ ofContainers? [Small.modest] = some g ∧
      ofContainers? [Small.greedy, Small.modest] = none ∧
      ofContainers? [Small.modest, Small.greedy] = none := by
  obtain ⟨f, hf⟩ : ∃ f, ofContainers? [Small.greedy] = some f := ⟨_, rfl⟩
  obtain ⟨g, hg⟩ : ∃ g, ofContainers? [Small.modest] = some g := ⟨_, rfl⟩
  obtain ⟨-, hamounts, -, hadd⟩ := footprint_exact [Small.greedy]
  obtain ⟨-, hamounts', -, -⟩ := footprint_exact [Small.modest]
  have hram : (Resource.ram.amount f).toNat = 18446744073709551615 := (hamounts f).1 hf .ram
  have hram' : (Resource.ram.amount g).toNat = 1 := (hamounts' g).1 hg .ram
  have hnone : ofContainers? [Small.greedy, Small.modest] = none := by
    refine Option.eq_none_iff_forall_not_mem.2 fun h hh => ?_
    have hfits := ((hadd [Small.modest] f g hf hg).1.1 ⟨h, hh⟩) .ram
    rw [hram, hram'] at hfits
    exact absurd hfits (by decide)
  have hswap : ofContainers? [Small.modest, Small.greedy] =
      ofContainers? [Small.greedy, Small.modest] :=
    (footprint_exact _).2.2.1 _ (.swap Small.modest Small.greedy [])
  exact ⟨f, g, hf, hg, hnone, hswap.trans hnone⟩

end Reconciliation
