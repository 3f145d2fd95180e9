import Reconciliation.Proofs.Drift
import Reconciliation.Proofs.JsonReadBack
import Reconciliation.Proofs.ReadBack

/-! Two blobs are the same when they differ in the order of members at most: arrays item by item,
objects key by key, numbers by their kind and their bits. Sorting the members leaves exactly this
sameness as equality, and no two sorted values have one text. So two canonical texts are equal
exactly for blobs that are the same, and reading one back gives such a blob again. -/
namespace Reconciliation

/-- The bit pattern: the position of the magnitude below the sign bit. -/
def Double.bits (x : Double) : Nat := (if x.negative then Nat.pow 2 63 else 0) + x.rank

theorem Double.bits_injective : Function.Injective Double.bits := by
  have hlt : magnitudes < Nat.pow 2 63 := by decide
  rintro ⟨negative, rank⟩ ⟨negative', rank'⟩ h
  have hrank := rank.isLt
  have hrank' := rank'.isLt
  have hsame : negative = negative' ∧ rank.val = rank'.val := by
    simp only [bits] at h
    generalize Nat.pow 2 63 = sign at *
    cases negative <;> cases negative' <;> simp at h ⊢ <;> omega
  rw [hsame.1, Fin.ext hsame.2]

namespace Json

/-- What an object holds under a key: of several members the last. -/
def last? (k : String) (ms : List (String × Json)) : Option Json :=
  (ms.reverse.find? (·.1 = k)).map (·.2)

/-- Two values are the same up to the order of members. Integers and doubles are kept apart, and
doubles are compared by their bits. -/
inductive Same : Json → Json → Prop
  | null : Same null null
  | bool (b : Bool) : Same (bool b) (bool b)
  | natural (n : UInt64) : Same (num (.natural n)) (num (.natural n))
  | negative (m : Fin (Nat.pow 2 63)) : Same (num (.negative m)) (num (.negative m))
  | double {x y : Double} (h : x.bits = y.bits) : Same (num (.double x)) (num (.double y))
  | str (s : String) : Same (str s) (str s)
  | arr {items items' : List Json} (h : List.Forall₂ Same items items') :
      Same (arr items) (arr items')
  | obj {ms ms' : List (String × Json)} (h : ∀ k, Option.Rel Same (last? k ms) (last? k ms')) :
      Same (obj ms) (obj ms')

theorem get?_sorted (k : String) (ms : List (String × Json)) :
    Entries.get? k (Entries.ofList (sortedMembers ms)) = (last? k ms).map sorted := by
  rw [Entries.get?_ofList, Rearrangement.sortedMembers_eq, ← List.map_reverse, List.find?_map,
    last?, Option.map_map, Option.map_map]
  rfl

theorem sorted_arr (items : List Json) : (arr items).sorted = arr (items.map sorted) := by
  rw [sorted, Rearrangement.sortedItems_eq]

theorem mem_of_last? {k : String} {ms : List (String × Json)} {v : Json}
    (h : last? k ms = some v) : (k, v) ∈ ms := by
  obtain ⟨⟨k', v'⟩, hfind, rfl⟩ := Option.map_eq_some_iff.1 h
  obtain rfl : k' = k := by simpa using List.find?_some hfind
  exact List.mem_reverse.1 (List.mem_of_find?_eq_some hfind)

theorem sorted_arr_eq_iff {items items' : List Json}
    (h : ∀ v ∈ items, ∀ {w : Json}, v.sorted = w.sorted ↔ Same v w) :
    (arr items).sorted = (arr items').sorted ↔ List.Forall₂ Same items items' := by
  rw [sorted_arr, sorted_arr, arr.injEq, ← List.forall₂_eq_eq_eq, List.forall₂_map_left_iff,
    List.forall₂_map_right_iff]
  constructor
  · intro hsorted
    exact ((List.forall₂_and_left items items').2 ⟨h, hsorted⟩).imp fun _ _ hv => hv.1.1 hv.2
  · intro hsame
    exact ((List.forall₂_and_left items items').2 ⟨h, hsame⟩).imp fun _ _ hv => hv.1.2 hv.2

theorem sorted_obj_eq_iff {ms ms' : List (String × Json)}
    (h : ∀ e ∈ ms, ∀ {w : Json}, e.2.sorted = w.sorted ↔ Same e.2 w) :
    (obj ms).sorted = (obj ms').sorted ↔ ∀ k, Option.Rel Same (last? k ms) (last? k ms') := by
  have hmembers : (obj ms).sorted = (obj ms').sorted ↔
      ∀ k, (last? k ms).map sorted = (last? k ms').map sorted := by
    simp only [← get?_sorted]
    refine ⟨fun h k => by rw [obj.inj h], fun h => congrArg obj ?_⟩
    exact Entries.eq_of_get?_eq (Entries.ascending_ofList _) (Entries.ascending_ofList _) h
  rw [hmembers]
  refine forall_congr' fun k => ?_
  cases hk : last? k ms with
  | none => cases last? k ms' <;> simp
  | some v =>
    cases last? k ms' with
    | none => simp
    | some w => simpa using h _ (mem_of_last? hk)

/-- Values are the same when they are equal once their members are in key order. -/
theorem sorted_eq_iff {v w : Json} : v.sorted = w.sorted ↔ Same v w := by
  induction v using Json.induction generalizing w with
  | null =>
    refine ⟨fun h => ?_, fun h => by cases h; rfl⟩
    cases w <;> first | exact .null | cases h
  | bool b =>
    refine ⟨fun h => ?_, fun h => by cases h; rfl⟩
    cases w <;> first | cases h
    exact .bool b
  | str s =>
    refine ⟨fun h => ?_, fun h => by cases h; rfl⟩
    cases w <;> first | cases h
    exact .str s
  | num n =>
    constructor
    · intro h
      cases w <;> first | cases h
      cases n with
      | natural n => exact .natural n
      | negative m => exact .negative m
      | double x => exact .double rfl
    · intro h
      cases h with
      | double h => rw [Double.bits_injective h]
      | _ => rfl
  | arr items ih =>
    constructor
    · intro h
      cases w <;> try cases h
      exact .arr ((sorted_arr_eq_iff ih).1 h)
    · intro h
      cases h with
      | arr h => exact (sorted_arr_eq_iff ih).2 h
  | obj ms ih =>
    constructor
    · intro h
      cases w <;> try cases h
      exact .obj ((sorted_obj_eq_iff ih).1 h)
    · intro h
      cases h with
      | obj h => exact (sorted_obj_eq_iff ih).2 h

theorem Same.refl (v : Json) : Same v v := sorted_eq_iff.1 rfl

/-- The order of members with different keys does not matter. -/
theorem Same.of_perm {ms ms' : List (String × Json)} (h : ms.Perm ms')
    (hms : Entries.Distinct ms) : Same (.obj ms) (.obj ms') := by
  have hms' : Entries.Distinct ms' := (h.map _).nodup_iff.1 hms
  have hlast : ∀ {l : List (String × Json)} {k : String}, Entries.Distinct l →
      last? k l = Entries.get? k l := by
    intro l k hl
    rw [last?, ← Entries.get?_ofList, hl.get?_ofList]
  refine .obj fun k => ?_
  have heq : last? k ms = last? k ms' := by
    rw [hlast hms, hlast hms']
    exact Option.ext fun v => by
      rw [hms.get?_eq_some_iff, hms'.get?_eq_some_iff, h.mem_iff]
  rw [heq]
  cases last? k ms' with
  | none => exact .none
  | some v => exact .some (.refl v)

theorem exists_of_mem_sorted {ms : List (String × Json)} {e : String × Json}
    (h : e ∈ Entries.ofList (sortedMembers ms)) : ∃ v, (e.1, v) ∈ ms ∧ e.2 = v.sorted := by
  have hget := (Entries.get?_eq_some_iff (Entries.ascending_ofList _)).2 h
  rw [get?_sorted] at hget
  obtain ⟨v, hv, heq⟩ := Option.map_eq_some_iff.1 hget
  exact ⟨v, mem_of_last? hv, heq.symm⟩

theorem sorted_sorted (v : Json) : v.sorted.sorted = v.sorted := by
  induction v using Json.induction with
  | arr items ih =>
    rw [sorted_arr, sorted_arr, List.map_map]
    exact congrArg arr (List.map_congr_left ih)
  | obj ms ih =>
    have hmembers := Rearrangement.inKeyOrder.members_of_ascending
      (Entries.ascending_ofList (sortedMembers ms))
    have hkept : ∀ e ∈ Entries.ofList (sortedMembers ms), (e.1, e.2.sorted) = e := by
      intro e he
      obtain ⟨v, hv, heq⟩ := exists_of_mem_sorted he
      rw [heq, ih _ hv, ← heq]
    exact congrArg obj (hmembers.trans ((List.map_congr_left hkept).trans (List.map_id' _)))
  | _ => rfl

theorem Readable.sorted {d : Nat} {v : Json} (h : Readable d v) : Readable d v.sorted := by
  induction v using Json.induction generalizing d with
  | arr items ih =>
    obtain ⟨d, rfl, hitems⟩ := readable_arr_iff.1 h
    rw [sorted_arr]
    refine readable_arr_iff.2 ⟨d, rfl, fun w hw => ?_⟩
    obtain ⟨v, hv, rfl⟩ := List.mem_map.1 hw
    exact ih v hv (hitems v hv)
  | obj ms ih =>
    obtain ⟨d, rfl, hmembers⟩ := readable_obj_iff.1 h
    refine readable_obj_iff.2 ⟨d, rfl, fun e he => ?_⟩
    obtain ⟨v, hv, heq⟩ := exists_of_mem_sorted he
    rw [heq]
    exact ih _ hv (hmembers _ hv)
  | _ => exact h

end Json

namespace CloudProperties

theorem matching_comm (p q : Option CloudProperties) : matching p q = matching q p :=
  Bool.beq_comm

theorem matching_some_iff {v w : CloudProperties} :
    matching (some v) (some w) = true ↔ Json.Same v w := by
  rw [matching, beq_iff_eq, canonicalOf, canonicalOf, Json.canonical_eq_iff, Json.sorted_eq_iff]

theorem matching_none (p : Option CloudProperties) :
    matching none p = matching (some .null) p := rfl

theorem matching_none_iff {p : Option CloudProperties} :
    matching none p = true ↔ p = none ∨ p = some .null := by
  cases p with
  | none => simp [matching]
  | some v =>
    rw [matching_none, matching_some_iff]
    constructor
    · intro h
      cases h
      exact .inr rfl
    · rintro (h | h)
      · cases h
      · cases h
        exact .null

end CloudProperties

/-- Canonical texts decide whether two blobs are the same, and cloud properties match as their
blobs are the same, a missing one being null. A canonical text within the reader's depth, with
doubles that are read back, is read as the same blob and is the canonical text of what is read. -/
theorem canonical_text_decides :
    (∀ a b : Json, a.canonical = b.canonical ↔ a.Same b) ∧
      (∀ a b : Json, CloudProperties.matching (some a) (some b) = true ↔ a.Same b) ∧
      (∀ p : Option CloudProperties,
        (CloudProperties.matching none p = true ↔ p = none ∨ p = some .null) ∧
          (CloudProperties.matching p none = true ↔ p = none ∨ p = some .null)) ∧
      ∀ a : Json, a.depth ≤ Json.maxDepth → (∀ x ∈ a.doubles, Json.ReadsBack x) →
        ∃ b, Json.parse? a.canonical = some b ∧ a.Same b ∧ b.canonical = a.canonical := by
  refine ⟨fun a b => Json.canonical_eq_iff.trans Json.sorted_eq_iff,
    fun a b => CloudProperties.matching_some_iff, fun p => ⟨CloudProperties.matching_none_iff, ?_⟩,
    fun a hdepth hdoubles => ⟨a.sorted, ?_, ?_, ?_⟩⟩
  · rw [CloudProperties.matching_comm]
    exact CloudProperties.matching_none_iff
  · have hread := Json.parse?_text (Json.Readable.sorted ⟨hdepth, hdoubles⟩)
    rwa [Json.sorted_sorted] at hread
  · exact Json.sorted_eq_iff.1 a.sorted_sorted.symm
  · rw [Json.canonical_eq_iff, Json.sorted_sorted]

namespace Small

/-- One and a half. -/
def oneAndHalf : Double := ⟨false, ⟨4609434218613702656, by decide⟩⟩

theorem readsBack_oneAndHalf : Json.ReadsBack oneAndHalf := by
  have htext : (Json.Number.double oneAndHalf).text.toList = ['1', '.', '5'] := by decide +kernel
  have hnumber : Json.NumberText.toNumber? ⟨false, ['1'], some ['5'], none⟩ =
      some (.double oneAndHalf) := by decide +kernel
  have hparts : Json.numberText ['1', '.', '5'] = some (⟨false, ['1'], some ['5'], none⟩, []) := rfl
  have hscalar : Json.scalar ['1', '.', '5'] = some (.num (.double oneAndHalf), []) := by
    rw [Json.scalar_numeric rfl, hparts]
    simp [hnumber]
  rw [Json.ReadsBack, Json.parse?_canonical_num, htext, hscalar]
  rfl

/-- A blob with an escaped quote, a negative number, a double and an empty object. -/
def blob : Json :=
  .obj [("zones", .arr [.str "a\"b\n", .num (.negative 2), .num (.double oneAndHalf), .obj []]),
    ("count", .nat 3)]

def rearrangedBlob : Json :=
  .obj [("count", .nat 3),
    ("zones", .arr [.str "a\"b\n", .num (.negative 2), .num (.double oneAndHalf), .obj []])]

end Small

theorem canonical_text_decides_small :
    Small.blob.canonical = Small.rearrangedBlob.canonical ∧
      ∃ b, Json.parse? Small.blob.canonical = some b ∧ Small.blob.Same b ∧
        b.canonical = Small.blob.canonical := by
  obtain ⟨hsame, -, -, hread⟩ := canonical_text_decides
  refine ⟨(hsame _ _).2 (.of_perm (List.Perm.swap ..) (by simp)), hread Small.blob (by decide) ?_⟩
  intro x hx
  obtain rfl : x = Small.oneAndHalf := List.mem_singleton.1 hx
  exact Small.readsBack_oneAndHalf

end Reconciliation
