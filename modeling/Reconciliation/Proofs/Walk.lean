import Mathlib.Data.Finset.Card
import Mathlib.Tactic.Linarith
import Reconciliation.FileTree

namespace Reconciliation.FileTree

/-- What is found below a directory, the first of those on the way to it. -/
inductive Finds (t : FileTree) : (above : List Place) → (way : List String) → Found → Prop where
  | file {here : Place} {above : List Place} {way : List String} {name : String}
      {content : List UInt8} (hname : name ∈ t.entries here)
      (hnode : t.node? (here ++ [name]) = some (.file content)) :
      Finds t (here :: above) way (.file (way ++ [name]))
  | down {here : Place} {above : List Place} {way : List String} {name : String} {found : Found}
      (hname : name ∈ t.entries here) (hnode : t.node? (here ++ [name]) = some .directory)
      (hbelow : Finds t ((here ++ [name]) :: here :: above) (way ++ [name]) found) :
      Finds t (here :: above) way found
  | dangling {here : Place} {above : List Place} {way : List String} {name target : String}
      {e : FileError} (hname : name ∈ t.entries here)
      (hnode : t.node? (here ++ [name]) = some (.link target))
      (hgo : go t mostLinks here [name] = .error e) : Finds t (here :: above) way .stray
  | back {here place : Place} {above : List Place} {way : List String} {name target : String}
      (hname : name ∈ t.entries here) (hnode : t.node? (here ++ [name]) = some (.link target))
      (hgo : go t mostLinks here [name] = .ok place) (hplace : t.node? place = some .directory)
      (hback : place ∈ here :: above) : Finds t (here :: above) way .stray
  | linkedFile {here place : Place} {above : List Place} {way : List String}
      {name target : String} (hname : name ∈ t.entries here)
      (hnode : t.node? (here ++ [name]) = some (.link target))
      (hgo : go t mostLinks here [name] = .ok place) (hplace : t.node? place ≠ some .directory) :
      Finds t (here :: above) way (.file (way ++ [name]))
  | through {here place : Place} {above : List Place} {way : List String} {name target : String}
      {found : Found} (hname : name ∈ t.entries here)
      (hnode : t.node? (here ++ [name]) = some (.link target))
      (hgo : go t mostLinks here [name] = .ok place) (hplace : t.node? place = some .directory)
      (hnew : place ∉ here :: above)
      (hbelow : Finds t (place :: here :: above) (way ++ [name]) found) :
      Finds t (here :: above) way found

variable {t : FileTree} {here place : Place} {above : List Place} {way : List String}
  {name : String} {found : Found}

theorem finds_of_mem_below {fuel : Nat} (h : found ∈ t.below fuel above way) :
    t.Finds above way found := by
  induction fuel generalizing above way with
  | zero => simp [below] at h
  | succ fuel ih =>
    cases above with
    | nil => simp [below] at h
    | cons here above =>
      rw [below, List.mem_flatMap] at h
      obtain ⟨name, hname, h⟩ := h
      dsimp only at h
      split at h
      · next hnode => exact .down hname hnode (ih h)
      · next hnode =>
        obtain rfl := List.mem_singleton.1 h
        exact .file hname hnode
      · next target hnode =>
        split at h
        · next hgo =>
          obtain rfl := List.mem_singleton.1 h
          exact .dangling hname hnode hgo
        · next place hgo =>
          split at h
          · next hplace =>
            split at h
            · next hback =>
              obtain rfl := List.mem_singleton.1 h
              exact .back hname hnode hgo hplace (List.contains_iff_mem.1 hback)
            · next hnew =>
              exact .through hname hnode hgo hplace (List.contains_iff_mem.not.1 hnew) (ih h)
          · next hplace =>
            obtain rfl := List.mem_singleton.1 h
            exact .linkedFile hname hnode hgo hplace
      · cases h

/-- The root and the places where something was put. -/
def places (t : FileTree) : Finset Place := insert [] (t.nodes.map (·.1)).toFinset

theorem mem_places {n : FileNode} (h : t.node? place = some n) : place ∈ t.places := by
  unfold node? at h
  split at h
  · next hroot =>
    rw [List.isEmpty_iff.1 hroot]
    exact Finset.mem_insert_self _ _
  · obtain ⟨before, after, hnodes, -⟩ := List.lookup_eq_some_iff.1 h
    refine Finset.mem_insert_of_mem (List.mem_toFinset.2 ?_)
    simp [hnodes]

theorem card_places_le (t : FileTree) : t.places.card ≤ t.nodes.length + 1 := by
  refine (Finset.card_insert_le _ _).trans (Nat.succ_le_succ ?_)
  exact (List.toFinset_card_le _).trans_eq (List.length_map _)

/-- The places that are not on the way. -/
def ahead (t : FileTree) (above : List Place) : Finset Place := t.places.filter (· ∉ above)

/-- The places farther from the root. -/
def deeper (t : FileTree) (here : Place) : Finset Place :=
  t.places.filter fun place => here.length < place.length

/-- How many more directories there can be on a way. -/
def room (t : FileTree) : List Place → Nat
  | [] => 0
  | here :: above => (t.ahead (here :: above)).card * t.places.card + (t.deeper here).card

theorem card_ahead_cons_le (t : FileTree) (place : Place) (above : List Place) :
    (t.ahead (place :: above)).card ≤ (t.ahead above).card := by
  refine Finset.card_le_card (Finset.monotone_filter_right _ fun p _ hp => ?_)
  exact fun hmem => hp (List.mem_cons_of_mem _ hmem)

theorem card_deeper_lt (t : FileTree) (here : Place) : (t.deeper here).card < t.places.card := by
  refine Finset.card_lt_card (Finset.filter_ssubset.2 ⟨[], Finset.mem_insert_self _ _, ?_⟩)
  exact Nat.not_lt_zero _

theorem room_down {n : FileNode} (h : t.node? (here ++ [name]) = some n) :
    t.room ((here ++ [name]) :: here :: above) < t.room (here :: above) := by
  have hdeeper : (t.deeper (here ++ [name])).card < (t.deeper here).card := by
    refine Finset.card_lt_card ((Finset.ssubset_iff_of_subset fun p hp => ?_).2
      ⟨here ++ [name], ?_, ?_⟩)
    · obtain ⟨hmem, hlength⟩ := Finset.mem_filter.1 hp
      exact Finset.mem_filter.2 ⟨hmem, by simp at hlength; omega⟩
    · exact Finset.mem_filter.2 ⟨mem_places h, by simp⟩
    · exact fun hmem => lt_irrefl _ (Finset.mem_filter.1 hmem).2
  exact Nat.add_lt_add_of_le_of_lt
    (Nat.mul_le_mul_right _ (t.card_ahead_cons_le (here ++ [name]) (here :: above))) hdeeper

theorem room_through {n : FileNode} (h : t.node? place = some n) (hnew : place ∉ here :: above) :
    t.room (place :: here :: above) < t.room (here :: above) := by
  have hahead : (t.ahead (place :: here :: above)).card < (t.ahead (here :: above)).card := by
    refine Finset.card_lt_card ((Finset.ssubset_iff_of_subset fun p hp => ?_).2 ⟨place, ?_, ?_⟩)
    · obtain ⟨hmem, hoff⟩ := Finset.mem_filter.1 hp
      exact Finset.mem_filter.2 ⟨hmem, fun hon => hoff (List.mem_cons_of_mem _ hon)⟩
    · exact Finset.mem_filter.2 ⟨mem_places h, hnew⟩
    · exact fun hmem => (Finset.mem_filter.1 hmem).2 List.mem_cons_self
  calc t.room (place :: here :: above)
      < (t.ahead (place :: here :: above)).card * t.places.card + t.places.card :=
        Nat.add_lt_add_left (t.card_deeper_lt place) _
    _ = ((t.ahead (place :: here :: above)).card + 1) * t.places.card := (Nat.succ_mul _ _).symm
    _ ≤ (t.ahead (here :: above)).card * t.places.card := Nat.mul_le_mul_right _ hahead
    _ ≤ t.room (here :: above) := Nat.le_add_right _ _

theorem room_lt_deepest (t : FileTree) (root : Place) : t.room [root] < t.deepest := by
  have hplaces := t.card_places_le
  have hahead : (t.ahead [root]).card ≤ t.places.card := Finset.card_filter_le _ _
  calc t.room [root]
      < (t.ahead [root]).card * t.places.card + t.places.card :=
        Nat.add_lt_add_left (t.card_deeper_lt root) _
    _ = ((t.ahead [root]).card + 1) * t.places.card := (Nat.succ_mul _ _).symm
    _ ≤ t.deepest := Nat.mul_le_mul (by omega) (by omega)

theorem mem_below_of_finds (h : t.Finds above way found) {fuel : Nat}
    (hroom : t.room above < fuel + 1) : found ∈ t.below (fuel + 1) above way := by
  -- On the way itself: what is found in a directory needs no room, and every other step uses some.
  induction h generalizing fuel with
  | file hname hnode =>
    refine List.mem_flatMap.2 ⟨_, hname, ?_⟩
    simp only [hnode, List.mem_singleton]
  | @down here above way name found hname hnode _ ih =>
    have hless : t.room ((here ++ [name]) :: here :: above) < t.room (here :: above) :=
      room_down hnode
    obtain ⟨rest, rfl⟩ := Nat.exists_eq_add_one_of_ne_zero (show fuel ≠ 0 by omega)
    refine List.mem_flatMap.2 ⟨_, hname, ?_⟩
    simp only [hnode]
    exact ih (by omega)
  | dangling hname hnode hgo =>
    refine List.mem_flatMap.2 ⟨_, hname, ?_⟩
    simp only [hnode, hgo, List.mem_singleton]
  | back hname hnode hgo hplace hback =>
    refine List.mem_flatMap.2 ⟨_, hname, ?_⟩
    simp only [hnode, hgo, hplace, List.contains_iff_mem.2 hback, if_true, List.mem_singleton]
  | linkedFile hname hnode hgo hplace =>
    refine List.mem_flatMap.2 ⟨_, hname, ?_⟩
    simp only [hnode, hgo, List.mem_singleton]
  | through hname hnode hgo hplace hnew _ ih =>
    have hless := room_through hplace hnew
    obtain ⟨rest, rfl⟩ := Nat.exists_eq_add_one_of_ne_zero (show fuel ≠ 0 by omega)
    refine List.mem_flatMap.2 ⟨_, hname, ?_⟩
    simp only [hnode, hgo, hplace, List.contains_iff_mem.not.2 hnew]
    exact ih (by omega)

/-- A walk finds everything that there is, and nothing else. -/
theorem mem_walk_iff {root : Place} : found ∈ t.walk root ↔ t.Finds [root] [] found := by
  refine ⟨finds_of_mem_below, fun h => ?_⟩
  have hdeepest : t.deepest = t.deepest - 1 + 1 := by
    have := t.room_lt_deepest root
    omega
  rw [walk, hdeepest]
  exact mem_below_of_finds h (hdeepest ▸ t.room_lt_deepest root)

end Reconciliation.FileTree
