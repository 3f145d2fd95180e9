namespace Reconciliation

namespace Entries

variable {κ β : Type} [Ord κ]

def Ascending (l : List (κ × β)) : Prop :=
  l.Pairwise fun a b => compare a.1 b.1 = .lt

def get? (k : κ) : List (κ × β) → Option β
  | [] => none
  | (k', v) :: rest => if compare k k' = .eq then some v else get? k rest

/-- Puts a value at its place in the key order, over an earlier value of the same key. -/
def insert (k : κ) (v : β) : List (κ × β) → List (κ × β)
  | [] => [(k, v)]
  | (k', v') :: rest =>
    match compare k k' with
    | .lt => (k, v) :: (k', v') :: rest
    | .eq => (k, v) :: rest
    | .gt => (k', v') :: insert k v rest

def erase (k : κ) (l : List (κ × β)) : List (κ × β) :=
  l.filter fun e => compare k e.1 ≠ .eq

/-- The entries in key order; of several with one key the last wins. -/
def ofList (l : List (κ × β)) : List (κ × β) :=
  l.foldl (fun acc e => insert e.1 e.2 acc) []

theorem mem_insert {k : κ} {v : β} {e : κ × β} {l : List (κ × β)} (h : e ∈ insert k v l) :
    e = (k, v) ∨ e ∈ l := by
  induction l with
  | nil => simpa [insert] using h
  | cons a rest ih =>
    simp only [insert] at h
    split at h <;> simp_all only [List.mem_cons]
    · grind
    · grind

theorem ascending_insert [Std.TransOrd κ] (k : κ) (v : β) {l : List (κ × β)} (h : Ascending l) :
    Ascending (insert k v l) := by
  induction l with
  | nil => simp [insert, Ascending]
  | cons a rest ih =>
    have hr := (List.pairwise_cons.1 h).1
    simp only [insert]
    split
    · next hlt =>
      refine List.pairwise_cons.2 ⟨?_, h⟩
      intro b hb
      rcases List.mem_cons.1 hb with rfl | hb
      · exact hlt
      · exact Std.TransCmp.lt_trans hlt (hr b hb)
    · next heq =>
      refine List.pairwise_cons.2 ⟨?_, h.of_cons⟩
      intro b hb
      exact Std.TransCmp.lt_of_eq_of_lt heq (hr b hb)
    · next hgt =>
      refine List.pairwise_cons.2 ⟨?_, ih h.of_cons⟩
      intro b hb
      rcases mem_insert hb with rfl | hb
      · exact Std.OrientedCmp.lt_of_gt hgt
      · exact hr b hb

theorem ascending_erase (k : κ) {l : List (κ × β)} (h : Ascending l) : Ascending (erase k l) :=
  List.Pairwise.sublist List.filter_sublist h

theorem ascending_ofList [Std.TransOrd κ] (l : List (κ × β)) : Ascending (ofList l) := by
  have key : ∀ (l acc : List (κ × β)), Ascending acc →
      Ascending (l.foldl (fun acc e => insert e.1 e.2 acc) acc) := by
    intro l
    induction l with
    | nil => exact fun _ h => h
    | cons e rest ih => exact fun acc h => ih _ (ascending_insert _ _ h)
  exact key l [] List.Pairwise.nil

theorem get?_insert [Std.TransOrd κ] [Std.LawfulEqOrd κ] [DecidableEq κ] (k k' : κ) (v : β)
    (l : List (κ × β)) : get? k' (insert k v l) = if k' = k then some v else get? k' l := by
  induction l with
  | nil => simp [insert, get?]
  | cons a rest ih =>
    simp only [insert]
    split
    · simp [get?]
    · next heq => simp_all [get?]
    · next hgt =>
      have hne : k ≠ a.1 := by
        rintro rfl
        simp [Std.ReflCmp.compare_self] at hgt
      by_cases h : k' = a.1
      · subst h
        simp [get?, hne.symm]
      · simp [get?, h, ih]

theorem length_insert {k : κ} {l : List (κ × β)} (h : get? k l = none) (v : β) :
    (insert k v l).length = l.length + 1 := by
  induction l with
  | nil => rfl
  | cons a rest ih =>
    simp only [get?] at h
    simp only [insert]
    split
    · rfl
    · next heq => simp [heq] at h
    · next hgt =>
      simp only [hgt, reduceCtorEq, if_false] at h
      simp [ih h]

theorem get?_erase [Std.TransOrd κ] [Std.LawfulEqOrd κ] [DecidableEq κ] (k k' : κ)
    (l : List (κ × β)) : get? k' (erase k l) = if k' = k then none else get? k' l := by
  simp only [erase, ne_eq, Std.LawfulEqCmp.compare_eq_iff_eq, decide_not]
  induction l with
  | nil => simp [get?]
  | cons a rest ih =>
    rw [List.filter_cons]
    by_cases hk : k = a.1
    · subst hk
      by_cases h : k' = a.1 <;> simp_all [get?]
    · by_cases h : k' = a.1
      · subst h
        simp [get?, hk, Ne.symm hk]
      · simp [get?, hk, h, ih]

/-- Entries chosen by their keys are untouched by a key that is not chosen. -/
theorem filter_insert [Std.LawfulEqOrd κ] {p : κ → Bool} {k : κ} (hp : p k = false) (v : β)
    (l : List (κ × β)) : (insert k v l).filter (p ·.1) = l.filter (p ·.1) := by
  induction l with
  | nil => simp [insert, hp]
  | cons a rest ih =>
    simp only [insert]
    split
    · simp [hp]
    · next heq =>
      obtain rfl := Std.LawfulEqCmp.eq_of_compare heq
      simp [hp]
    · simp [List.filter_cons, ih]

theorem get?_eq_some_iff [Std.TransOrd κ] [Std.LawfulEqOrd κ] {k : κ} {v : β} {l : List (κ × β)}
    (h : Ascending l) : get? k l = some v ↔ (k, v) ∈ l := by
  induction l with
  | nil => simp [get?]
  | cons a rest ih =>
    have hr := (List.pairwise_cons.1 h).1
    by_cases hk : k = a.1
    · subst hk
      have : ∀ w, (a.1, w) ∉ rest := fun w hw => by
        have := hr _ hw
        simp [Std.ReflCmp.compare_self] at this
      obtain ⟨a1, a2⟩ := a
      simp_all [get?, eq_comm]
    · obtain ⟨a1, a2⟩ := a
      simp_all [get?, ih h.of_cons]

theorem eq_of_mem_iff [Std.TransOrd κ] {l m : List (κ × β)} (hl : Ascending l)
    (hm : Ascending m) (mem : ∀ e, e ∈ l ↔ e ∈ m) : l = m := by
  induction l generalizing m with
  | nil =>
    cases m with
    | nil => rfl
    | cons b m => simpa using mem b
  | cons a l ih =>
    cases m with
    | nil => simpa using mem a
    | cons b m =>
      obtain ⟨hla, hl'⟩ := List.pairwise_cons.1 hl
      obtain ⟨hmb, hm'⟩ := List.pairwise_cons.1 hm
      have hab : a = b := by
        rcases List.mem_cons.1 ((mem a).1 List.mem_cons_self) with rfl | ha
        · rfl
        · rcases List.mem_cons.1 ((mem b).2 List.mem_cons_self) with rfl | hb
          · rfl
          · have := Std.TransCmp.lt_trans (hla b hb) (hmb a ha)
            simp [Std.ReflCmp.compare_self] at this
      subst hab
      have nl : a ∉ l := fun ha => by simpa [Std.ReflCmp.compare_self] using hla a ha
      have nm : a ∉ m := fun ha => by simpa [Std.ReflCmp.compare_self] using hmb a ha
      refine congrArg _ (ih hl' hm' fun e => ⟨?_, ?_⟩)
      · intro he
        exact (List.mem_cons.1 ((mem e).1 (List.mem_cons_of_mem _ he))).resolve_left
          fun h => nl (h ▸ he)
      · intro he
        exact (List.mem_cons.1 ((mem e).2 (List.mem_cons_of_mem _ he))).resolve_left
          fun h => nm (h ▸ he)

theorem eq_of_get?_eq [Std.TransOrd κ] [Std.LawfulEqOrd κ] {l m : List (κ × β)}
    (hl : Ascending l) (hm : Ascending m) (h : ∀ k, get? k l = get? k m) : l = m :=
  eq_of_mem_iff hl hm fun e => by
    rw [← get?_eq_some_iff hl, ← get?_eq_some_iff hm, h]

end Entries

/-- Entries with strictly ascending keys, so that the values under the keys determine the table. -/
structure Table (κ β : Type) [Ord κ] where
  entries : List (κ × β)
  ascending : Entries.Ascending entries

namespace Table

variable {κ β : Type} [Ord κ]

def empty : Table κ β := ⟨[], List.Pairwise.nil⟩

instance : EmptyCollection (Table κ β) := ⟨empty⟩

instance : Inhabited (Table κ β) := ⟨empty⟩

def get? (t : Table κ β) (k : κ) : Option β := Entries.get? k t.entries

def contains (t : Table κ β) (k : κ) : Bool := (t.get? k).isSome

def erase (t : Table κ β) (k : κ) : Table κ β := ⟨_, Entries.ascending_erase k t.ascending⟩

def insert [Std.TransOrd κ] (t : Table κ β) (k : κ) (v : β) : Table κ β :=
  ⟨_, Entries.ascending_insert k v t.ascending⟩

/-- Of several entries with one key the last wins. -/
def ofList [Std.TransOrd κ] (l : List (κ × β)) : Table κ β := ⟨_, Entries.ascending_ofList l⟩

def toList (t : Table κ β) : List (κ × β) := t.entries

def keys (t : Table κ β) : List κ := t.entries.map (·.1)

def values (t : Table κ β) : List β := t.entries.map (·.2)

def size (t : Table κ β) : Nat := t.entries.length

def isEmpty (t : Table κ β) : Bool := t.entries.isEmpty

@[simp]
theorem get?_empty (k : κ) : (∅ : Table κ β).get? k = none := rfl

@[simp]
theorem get?_insert [Std.TransOrd κ] [Std.LawfulEqOrd κ] [DecidableEq κ] (t : Table κ β) (k k' : κ)
    (v : β) : (t.insert k v).get? k' = if k' = k then some v else t.get? k' :=
  Entries.get?_insert k k' v t.entries

theorem size_insert [Std.TransOrd κ] {t : Table κ β} {k : κ} (h : t.get? k = none) (v : β) :
    (t.insert k v).size = t.size + 1 :=
  Entries.length_insert h v

@[simp]
theorem get?_erase [Std.TransOrd κ] [Std.LawfulEqOrd κ] [DecidableEq κ] (t : Table κ β) (k k' : κ) :
    (t.erase k).get? k' = if k' = k then none else t.get? k' :=
  Entries.get?_erase k k' t.entries

theorem get?_eq_some_iff [Std.TransOrd κ] [Std.LawfulEqOrd κ] {t : Table κ β} {k : κ} {v : β} :
    t.get? k = some v ↔ (k, v) ∈ t.toList :=
  Entries.get?_eq_some_iff t.ascending

theorem ext_get? [Std.TransOrd κ] [Std.LawfulEqOrd κ] {s t : Table κ β}
    (h : ∀ k, s.get? k = t.get? k) : s = t := by
  obtain ⟨l, hl⟩ := s
  obtain ⟨m, hm⟩ := t
  cases Entries.eq_of_get?_eq hl hm h
  rfl

section

variable [Std.TransOrd κ] [Std.LawfulEqOrd κ] [DecidableEq κ]

@[simp]
theorem contains_insert (t : Table κ β) (k k' : κ) (v : β) :
    (t.insert k v).contains k' = (decide (k' = k) || t.contains k') := by
  by_cases h : k' = k <;> simp [contains, h]

@[simp]
theorem contains_erase (t : Table κ β) (k k' : κ) :
    (t.erase k).contains k' = (!decide (k' = k) && t.contains k') := by
  by_cases h : k' = k <;> simp [contains, h]

/-- Writing what is there changes nothing. -/
theorem insert_eq_self {t : Table κ β} {k : κ} {v : β} (h : t.get? k = some v) :
    t.insert k v = t := by
  refine ext_get? fun k' => ?_
  rw [get?_insert]
  split
  · next hk => rw [hk, h]
  · rfl

theorem insert_insert (t : Table κ β) (k : κ) (v v' : β) :
    (t.insert k v).insert k v' = t.insert k v' := by
  refine ext_get? fun k' => ?_
  simp only [get?_insert]
  split <;> rfl

theorem insert_comm (t : Table κ β) {k k' : κ} (h : k ≠ k') (v v' : β) :
    (t.insert k v).insert k' v' = (t.insert k' v').insert k v := by
  refine ext_get? fun k'' => ?_
  simp only [get?_insert]
  grind

theorem erase_eq_self {t : Table κ β} {k : κ} (h : t.contains k = false) : t.erase k = t := by
  refine ext_get? fun k' => ?_
  rw [get?_erase]
  split
  · next hk =>
    have hn : t.get? k = none := by simpa [contains] using h
    rw [hk, hn]
  · rfl

theorem erase_insert (t : Table κ β) (k : κ) (v : β) : (t.insert k v).erase k = t.erase k := by
  refine ext_get? fun k' => ?_
  simp only [get?_erase, get?_insert]
  split <;> rfl

end

end Table

end Reconciliation
