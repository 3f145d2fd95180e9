import Reconciliation.Proofs.Payload
import Reconciliation.Proofs.Step

/-! When a typed value is written as JSON and read again, it should come back as it was, whether
the members of the objects stay in the order they were written in or are put into key order, as a
store or a parser does. Both are a `Rearrangement`. What a layout makes of an object depends on the
values that it finds under the names of its fields, so that for each type it is enough to compare
how a field is written with how it is found. -/
namespace Reconciliation

namespace Entries

/-- No key stands twice. -/
def Distinct {κ β : Type} (l : List (κ × β)) : Prop := (l.map (·.1)).Nodup

section

variable {κ β γ : Type} [Ord κ] [Std.LawfulEqOrd κ] {k : κ} {v : β} {l : List (κ × β)}

theorem Distinct.of_ascending (h : Ascending l) : Distinct l := by
  refine List.pairwise_map.2 (h.imp fun hlt heq => ?_)
  simp [heq] at hlt

variable [DecidableEq κ]

theorem get?_cons (k k' : κ) (v : β) (l : List (κ × β)) :
    get? k ((k', v) :: l) = if k = k' then some v else get? k l := by
  simp [get?]

theorem get?_append (k : κ) (l m : List (κ × β)) :
    get? k (l ++ m) = (get? k l).or (get? k m) := by
  induction l with
  | nil => rfl
  | cons e l ih =>
    rw [List.cons_append, get?_cons, get?_cons]
    split
    · rfl
    · exact ih

theorem get?_map (f : β → γ) (k : κ) (l : List (κ × β)) :
    get? k (l.map fun e => (e.1, f e.2)) = (get? k l).map f := by
  induction l with
  | nil => rfl
  | cons e l ih =>
    rw [List.map_cons, get?_cons, get?_cons]
    split
    · rfl
    · exact ih

theorem mem_of_get? (h : get? k l = some v) : (k, v) ∈ l := by
  induction l with
  | nil => cases h
  | cons e l ih =>
    rw [get?_cons] at h
    split at h
    · next hk =>
      cases h
      rw [hk]
      exact List.mem_cons_self
    · exact List.mem_cons_of_mem _ (ih h)

theorem Distinct.get?_eq_some_iff (h : Distinct l) : get? k l = some v ↔ (k, v) ∈ l := by
  refine ⟨mem_of_get?, fun hmem => ?_⟩
  induction l with
  | nil => cases hmem
  | cons e l ih =>
    obtain ⟨hk, hl⟩ := List.nodup_cons.1 h
    rw [get?_cons]
    rcases List.mem_cons.1 hmem with rfl | hmem
    · exact if_pos rfl
    · rw [if_neg, ih hl hmem]
      rintro rfl
      exact hk (List.mem_map.2 ⟨_, hmem, rfl⟩)

variable [Std.TransOrd κ]

theorem Distinct.get?_ofList (h : Distinct l) (k : κ) : get? k (ofList l) = get? k l := by
  refine Option.ext fun v => ?_
  rw [h.get?_eq_some_iff, Entries.get?_ofList, Option.map_eq_some_iff]
  constructor
  · rintro ⟨⟨k', v'⟩, hfind, rfl⟩
    obtain rfl : k' = k := by simpa using List.find?_some hfind
    exact List.mem_reverse.1 (List.mem_of_find?_eq_some hfind)
  · intro hmem
    cases hfind : l.reverse.find? (·.1 = k) with
    | none => simpa using List.find?_eq_none.1 hfind (k, v) (List.mem_reverse.2 hmem)
    | some e =>
      have hkey : e.1 = k := by simpa using List.find?_some hfind
      have hmem' : (k, e.2) ∈ l := hkey ▸ List.mem_reverse.1 (List.mem_of_find?_eq_some hfind)
      rw [← h.get?_eq_some_iff] at hmem hmem'
      rw [hmem] at hmem'
      exact ⟨e, rfl, (Option.some.inj hmem').symm⟩

theorem ofList_of_ascending (h : Ascending l) : ofList l = l :=
  eq_of_get?_eq (ascending_ofList l) h (Distinct.of_ascending h).get?_ofList

end

end Entries

namespace Table

variable {κ β : Type} [Ord κ]

theorem ofList_toList [Std.TransOrd κ] [Std.LawfulEqOrd κ] [DecidableEq κ] (t : Table κ β) :
    ofList t.toList = t := by
  obtain ⟨l, hl⟩ := t
  simp only [ofList, toList, Entries.ofList_of_ascending hl]

theorem isEmpty_iff {t : Table κ β} : t.isEmpty = true ↔ t = ∅ := by
  obtain ⟨l, hl⟩ := t
  rw [isEmpty, List.isEmpty_iff]
  constructor
  · rintro rfl
    rfl
  · exact congrArg entries

end Table

namespace Json

/-- The names of the members. -/
def names (ms : List (String × Json)) : List String := ms.map (·.1)

section

variable {k n : String} {v : Json} {ms ms' : List (String × Json)}

@[simp]
theorem not_mem_names_nil : n ∉ names [] := List.not_mem_nil

@[simp]
theorem mem_names_cons : n ∈ names ((k, v) :: ms) ↔ n = k ∨ n ∈ names ms := List.mem_cons

@[simp]
theorem mem_names_append : n ∈ names (ms ++ ms') ↔ n ∈ names ms ∨ n ∈ names ms' := by
  simp [names]

@[simp]
theorem mem_names_memberUnless {c : Bool} : n ∈ names (memberUnless c k v) ↔ c = false ∧ n = k := by
  cases c <;> simp [names, memberUnless]

@[simp]
theorem mem_names_memberIfSome {α : Type} {value : α → Json} {x : Option α} :
    n ∈ names (memberIfSome k value x) ↔ x.isSome = true ∧ n = k := by
  cases x <;> simp [names, memberIfSome]

open Entries (Distinct)

@[simp]
theorem distinct_nil : Distinct (β := Json) (κ := String) [] := List.nodup_nil

@[simp]
theorem distinct_cons : Distinct ((k, v) :: ms) ↔ k ∉ names ms ∧ Distinct ms := List.nodup_cons

@[simp]
theorem distinct_append : Distinct (ms ++ ms') ↔
    Distinct ms ∧ Distinct ms' ∧ ∀ n ∈ names ms, n ∉ names ms' := by
  simp only [Distinct, names, List.map_append, List.nodup_append]
  grind

@[simp]
theorem distinct_memberUnless (c : Bool) (k : String) (v : Json) :
    Distinct (memberUnless c k v) := by
  cases c <;> simp [memberUnless]

@[simp]
theorem distinct_memberIfSome {α : Type} (k : String) (value : α → Json) (x : Option α) :
    Distinct (memberIfSome k value x) := by
  cases x <;> simp [memberIfSome]

end

theorem isNull_iff {v : Json} : v.isNull = true ↔ v = .null := by
  cases v <;> simp [isNull]

@[simp]
theorem nat_ne_null (n : UInt64) : nat n ≠ .null := Json.noConfusion

@[simp]
theorem u32_ne_null (n : UInt32) : u32 n ≠ .null := Json.noConfusion

end Json

/-- A way to order the members of objects at every depth. -/
structure Rearrangement where
  apply : Json → Json
  members : List (String × Json) → List (String × Json)
  apply_null : apply .null = .null
  apply_bool : ∀ b, apply (.bool b) = .bool b
  apply_num : ∀ n, apply (.num n) = .num n
  apply_str : ∀ s, apply (.str s) = .str s
  apply_arr : ∀ items, apply (.arr items) = .arr (items.map apply)
  apply_obj : ∀ ms, apply (.obj ms) = .obj (members ms)
  get?_members : ∀ {ms}, Entries.Distinct ms → ∀ k,
    Entries.get? k (members ms) = (Entries.get? k ms).map apply
  distinct_members : ∀ {ms}, Entries.Distinct ms → Entries.Distinct (members ms)
  members_of_ascending : ∀ {ms}, Entries.Ascending ms →
    members ms = ms.map fun e => (e.1, apply e.2)
  /-- What is in order as a whole is in order in its parts. -/
  apply_of_members : ∀ {ms}, members ms = ms → ∀ e ∈ ms, apply e.2 = e.2

namespace Rearrangement

attribute [simp] apply_null apply_bool apply_str

theorem apply_of_mem (r : Rearrangement) {items : List Json} (h : items.map r.apply = items)
    {v : Json} (hv : v ∈ items) : r.apply v = v := by
  obtain ⟨i, hi⟩ := List.mem_iff_getElem?.1 hv
  have hmap := congrArg (·[i]?) h
  simpa [hi] using hmap

/-- The members stay in the order in which they were written. -/
def asWritten : Rearrangement where
  apply := id
  members := id
  apply_null := rfl
  apply_bool _ := rfl
  apply_num _ := rfl
  apply_str _ := rfl
  apply_arr items := by simp
  apply_obj _ := rfl
  get?_members _ _ := by simp
  distinct_members h := h
  members_of_ascending _ := by simp
  apply_of_members _ _ _ := rfl

theorem sortedItems_eq (items : List Json) : Json.sortedItems items = items.map Json.sorted := by
  induction items with
  | nil => rfl
  | cons v items ih => rw [Json.sortedItems, ih, List.map_cons]

theorem sortedMembers_eq (ms : List (String × Json)) :
    Json.sortedMembers ms = ms.map fun e => (e.1, e.2.sorted) := by
  induction ms with
  | nil => rfl
  | cons e ms ih => rw [Json.sortedMembers, ih, List.map_cons]

theorem distinct_sortedMembers {ms : List (String × Json)} (h : Entries.Distinct ms) :
    Entries.Distinct (Json.sortedMembers ms) := by
  rw [sortedMembers_eq, Entries.Distinct, List.map_map]
  exact h

theorem get?_sortedMembers {ms : List (String × Json)} (h : Entries.Distinct ms) (k : String) :
    Entries.get? k (Entries.ofList (Json.sortedMembers ms)) =
      (Entries.get? k ms).map Json.sorted := by
  rw [(distinct_sortedMembers h).get?_ofList, sortedMembers_eq, Entries.get?_map]

/-- The members are put into key order. -/
def inKeyOrder : Rearrangement where
  apply := Json.sorted
  members ms := Entries.ofList (Json.sortedMembers ms)
  apply_null := rfl
  apply_bool _ := rfl
  apply_num _ := rfl
  apply_str _ := rfl
  apply_arr items := by rw [Json.sorted, sortedItems_eq]
  apply_obj _ := rfl
  get?_members h k := get?_sortedMembers h k
  distinct_members _ := .of_ascending (Entries.ascending_ofList _)
  members_of_ascending {ms} h := by
    have hsorted : Entries.Ascending (Json.sortedMembers ms) := by
      rw [sortedMembers_eq]
      exact List.pairwise_map.2 h
    rw [Entries.ofList_of_ascending hsorted, sortedMembers_eq]
  apply_of_members {ms} h e he := by
    have hdistinct : Entries.Distinct ms := h ▸ .of_ascending (Entries.ascending_ofList _)
    have hget : Entries.get? e.1 ms = some e.2 := hdistinct.get?_eq_some_iff.2 he
    have hsorted := get?_sortedMembers hdistinct e.1
    rw [h, hget] at hsorted
    exact (Option.some.inj hsorted).symm

end Rearrangement

variable {α β : Type}

/-- All that is found is in order. -/
def Rearrangement.Arranges (r : Rearrangement) (find : String → Option Json) : Prop :=
  ∀ n v, find n = some v → r.apply v = v

/-- What a decoder gives for a value in order has the property. -/
def Decoder.Yields (r : Rearrangement) (d : Decoder α) (P : α → Prop) : Prop :=
  ∀ v a, r.apply v = v → d v = .ok a → P a

/-- What a decoder gave is given again for what is written for it. -/
def Faithful (r : Rearrangement) (d : Decoder α) (write : α → Json) : Prop :=
  d.Yields r fun a => d (r.apply (write a)) = .ok a

namespace Decoder

/-- What a field gives: the value of its member, or else what it is without one. -/
def member (absent : Except DecodeError α) (d : Decoder α) : Option Json → Except DecodeError α
  | some v => d v
  | none => absent

end Decoder

namespace Rearrangement

/-- What is found under a name once the members are rearranged. -/
def look (r : Rearrangement) (ms : List (String × Json)) (n : String) : Option Json :=
  (Entries.get? n ms).map r.apply

variable (r : Rearrangement) (k n : String) (v : Json) (ms ms' : List (String × Json))

@[simp]
theorem look_nil : r.look [] n = none := rfl

@[simp]
theorem look_cons : r.look ((k, v) :: ms) n = if n = k then some (r.apply v) else r.look ms n := by
  rw [look, Entries.get?_cons, apply_ite (Option.map r.apply)]
  rfl

@[simp]
theorem look_append : r.look (ms ++ ms') n = (r.look ms n).or (r.look ms' n) := by
  rw [look, Entries.get?_append, Option.map_or]
  rfl

@[simp]
theorem look_memberUnless (c : Bool) : r.look (Json.memberUnless c k v) n =
    if n = k then (if c = true then none else some (r.apply v)) else none := by
  cases c <;> simp [Json.memberUnless]

@[simp]
theorem look_memberIfSome (value : α → Json) (x : Option α) :
    r.look (Json.memberIfSome k value x) n =
      if n = k then x.map fun a => r.apply (value a) else none := by
  cases x <;> simp [Json.memberIfSome]

end Rearrangement

namespace Decoder

variable (r : Rearrangement) {a : α} {absent : Except DecodeError α} {d : Decoder α}

@[simp]
theorem member_some (v : Json) : member absent d (some v) = d v := rfl

@[simp]
theorem member_none : member absent d none = absent := rfl

@[simp]
theorem member_ite (c : Prop) [Decidable c] (v : Json) :
    member absent d (if c then none else some v) = if c then absent else d v := by
  split <;> rfl

/-- Nothing is written for a missing value, and nothing is read without a member. -/
@[simp]
theorem member_map {d : Decoder (Option α)} {write : α → Json} {x : Option α}
    (h : ∀ a, x = some a → d (write a) = .ok (some a)) :
    member (.ok none) d (x.map write) = .ok x := by
  cases x with
  | none => rfl
  | some a => exact h a rfl

/-- A value that is left out is the one that is read for it. -/
theorem ite_ok {c : Prop} [Decidable c] {x a : α} (h : c → x = a) :
    (if c then .ok a else .ok x : Except DecodeError α) = .ok x := by
  split
  · next hc => rw [h hc]
  · rfl

@[simp]
theorem ite_eq_ok (x a : α) [Decidable (x = a)] :
    (if x = a then .ok a else .ok x : Except DecodeError α) = .ok x :=
  ite_ok id

@[simp]
theorem ite_isEmpty_ok {κ : Type} [Ord κ] (t : Table κ α) :
    (if t.isEmpty = true then .ok ∅ else .ok t : Except DecodeError (Table κ α)) = .ok t :=
  ite_ok Table.isEmpty_iff.1

@[simp]
theorem ite_isNull_ok (v : Json) :
    (if v.isNull = true then .ok .null else .ok v : Except DecodeError Json) = .ok v :=
  ite_ok Json.isNull_iff.1

@[simp]
theorem ok_map (a : α) (f : α → β) : (Except.ok a : Except DecodeError α).map f = .ok (f a) := rfl

@[simp]
theorem ok_bind (a : α) (f : α → Except DecodeError β) : (Except.ok a >>= f) = f a := rfl

@[simp]
theorem pure_eq (a : α) : (pure a : Except DecodeError α) = .ok a := rfl

end Decoder

namespace Layout

variable {L : Layout α} {g : Layout (α → β)} {find : String → Option Json} {a : α}

@[simp]
theorem build_pure (a : α) (find : String → Option Json) :
    (pure a : Layout α).build find = .ok a := rfl

@[simp]
theorem build_seq (g : Layout (α → β)) (x : Layout α) (find : String → Option Json) :
    (g <*> x).build find = (do
      let h ← g.build find
      let a ← x.build find
      return h a) := rfl

@[simp]
theorem build_map (f : α → β) (x : Layout α) (find : String → Option Json) :
    (f <$> x).build find = (do
      let a ← x.build find
      return f a) := rfl

@[simp]
theorem build_required (n : String) (d : Decoder α) (find : String → Option Json) :
    (required n d).build find = Decoder.member (.error (.missingField n)) d (find n) := by
  simp only [required]
  cases find n <;> rfl

@[simp]
theorem build_optional (n : String) (a : α) (d : Decoder α) (find : String → Option Json) :
    (optional n a d).build find = Decoder.member (.ok a) d (find n) := by
  simp only [optional]
  cases find n <;> rfl

@[simp]
theorem build_optionalNullable (n : String) (d : Decoder α) (find : String → Option Json) :
    (optionalNullable n d).build find = Decoder.member (.ok none) (Decoder.nullable d) (find n) :=
  build_optional n none _ find

theorem required_eq_ok {n : String} {d : Decoder α} (h : (required n d).build find = .ok a) :
    ∃ v, find n = some v ∧ d v = .ok a := by
  rw [build_required] at h
  cases hn : find n with
  | none =>
    rw [hn] at h
    cases h
  | some v =>
    rw [hn] at h
    exact ⟨v, rfl, h⟩

theorem optional_eq_ok {n : String} {a₀ : α} {d : Decoder α}
    (h : (optional n a₀ d).build find = .ok a) :
    (find n = none ∧ a = a₀) ∨ ∃ v, find n = some v ∧ d v = .ok a := by
  rw [build_optional] at h
  cases hn : find n with
  | none =>
    rw [hn] at h
    cases h
    exact .inl ⟨rfl, rfl⟩
  | some v =>
    rw [hn] at h
    exact .inr ⟨v, rfl, h⟩

/-- The fields one by one, and what is put together from them. -/
theorem exists_seq {x : Layout α} {p : β → Prop} :
    (∃ b, (g <*> x).build find = .ok b ∧ p b) ↔
      ∃ f, g.build find = .ok f ∧ ∃ a, x.build find = .ok a ∧ p (f a) := by
  simp [Step.except_bind_eq_ok_iff]

theorem exists_map {x : Layout α} {f : α → β} {p : β → Prop} :
    (∃ b, (f <$> x).build find = .ok b ∧ p b) ↔ ∃ a, x.build find = .ok a ∧ p (f a) := by
  simp [Step.except_bind_eq_ok_iff]

/-- What can be built fits all the fields. -/
class Proper (L : Layout α) : Prop where
  fits : ∀ find a, L.build find = .ok a → ∀ rule ∈ L.rules,
    (∀ v, find rule.name = some v → rule.check v = .ok ()) ∧
      (find rule.name = none → rule.required = false)

instance (a : α) : (pure a : Layout α).Proper := ⟨fun _ _ _ _ h => (List.not_mem_nil h).elim⟩

instance (g : Layout (α → β)) (x : Layout α) [hg : g.Proper] [hx : x.Proper] :
    (g <*> x).Proper := by
  refine ⟨fun find b h rule hrule => ?_⟩
  obtain ⟨f, hf, h⟩ := Step.except_bind_eq_ok_iff.1 h
  obtain ⟨a, ha, -⟩ := Step.except_bind_eq_ok_iff.1 h
  rcases List.mem_append.1 hrule with hrule | hrule
  · exact hg.fits find f hf rule hrule
  · exact hx.fits find a ha rule hrule

instance (f : α → β) (x : Layout α) [x.Proper] : (f <$> x).Proper :=
  inferInstanceAs (pure f <*> x).Proper

instance (n : String) (d : Decoder α) : (required n d).Proper := by
  refine ⟨fun find a h rule hrule => ?_⟩
  obtain rfl := List.mem_singleton.1 hrule
  rw [build_required] at h
  constructor
  · intro v hv
    rw [hv, Decoder.member_some] at h
    simp only [h, Except.map]
  · intro hnone
    rw [hnone] at h
    cases h

instance (n : String) (a : α) (d : Decoder α) : (optional n a d).Proper := by
  refine ⟨fun find b h rule hrule => ?_⟩
  obtain rfl := List.mem_singleton.1 hrule
  rw [build_optional] at h
  refine ⟨fun v hv => ?_, fun _ => rfl⟩
  rw [hv, Decoder.member_some] at h
  simp only [h, Except.map]

instance (n : String) (d : Decoder α) : (optionalNullable n d).Proper :=
  inferInstanceAs (optional n none _).Proper

instance (n : String) : (CloudProperties.layout n).Proper :=
  inferInstanceAs (optionalNullable n .json).Proper

theorem checkMembers_eq_ok {rules : List FieldRule} {ms : List (String × Json)}
    (h : ∀ k v, (k, v) ∈ ms → ∀ rule ∈ rules, rule.name = k → rule.check v = .ok ()) :
    checkMembers rules ms = .ok () := by
  induction ms with
  | nil => rfl
  | cons e ms ih =>
    have hms := ih fun k v hmem => h k v (List.mem_cons_of_mem _ hmem)
    rw [checkMembers]
    split
    · exact hms
    · next rule hrule =>
      have hname : rule.name = e.1 := by simpa using List.find?_some hrule
      rw [h e.1 e.2 List.mem_cons_self rule (List.mem_of_find?_eq_some hrule) hname]
      exact hms

/-- Of an object only what is found under the names of the fields counts. -/
theorem ofObject_of_build [hL : L.Proper] {ms : List (String × Json)} (hms : Entries.Distinct ms)
    (h : L.build (fun n => Entries.get? n ms) = .ok a) : L.ofObject ms = .ok a := by
  have hrules := hL.fits _ _ h
  have hcheck : checkMembers L.rules ms = .ok () := by
    refine checkMembers_eq_ok ?_
    rintro k v hmem rule hrule rfl
    exact (hrules rule hrule).1 v (hms.get?_eq_some_iff.2 hmem)
  have hmissing : firstMissing (fun n => Entries.get? n ms) L.rules = none := by
    refine List.find?_eq_none.2 fun rule hrule hreq => ?_
    obtain ⟨hreq, hnone⟩ := Bool.and_eq_true_iff.1 hreq
    rw [(hrules rule hrule).2 (Option.isNone_iff_eq_none.1 hnone)] at hreq
    cases hreq
  rw [ofObject, hcheck, Decoder.ok_bind]
  simp only [hmissing, h]

theorem decode_written {r : Rearrangement} {type : String} (hL : L.Proper)
    {ms : List (String × Json)} (hms : Entries.Distinct ms) (h : L.build (r.look ms) = .ok a) :
    L.decode type (r.apply (.obj ms)) = .ok a := by
  have hlook : (fun n => Entries.get? n (r.members ms)) = r.look ms :=
    funext fun n => r.get?_members hms n
  rw [r.apply_obj]
  exact ofObject_of_build (r.distinct_members hms) (hlook ▸ h)

/-- What was read from an object or an array was built from values in it. -/
theorem exists_find {r : Rearrangement} {type : String} {v : Json} (hv : r.apply v = v)
    (h : L.decode type v = .ok a) :
    ∃ find, L.build find = .ok a ∧ r.Arranges find := by
  cases v with
  | obj ms =>
    obtain ⟨-, -, h⟩ := Step.except_bind_eq_ok_iff.1 (show L.ofObject ms = .ok a from h)
    rw [r.apply_obj, Json.obj.injEq] at hv
    refine ⟨fun n => Entries.get? n ms, ?_, fun n w hw => ?_⟩
    · dsimp only at h
      split at h
      · cases h
      · exact h
    · exact r.apply_of_members hv _ (Entries.mem_of_get? hw)
  | arr items =>
    obtain ⟨-, -, h⟩ := Step.except_bind_eq_ok_iff.1 (show L.ofArray type items = .ok a from h)
    rw [r.apply_arr, Json.arr.injEq] at hv
    refine ⟨fun n => Entries.get? n ((L.rules.map (·.name)).zip items), ?_, fun n w hw => ?_⟩
    · split at h
      · cases h
      · split at h
        · cases h
        · exact h
    · have hmem : w ∈ items := (List.of_mem_zip (Entries.mem_of_get? hw)).2
      exact r.apply_of_mem hv hmem
  | _ => cases h

/-- It is enough to look at the fields, and what they were read from may be taken to be in order. -/
theorem yields {r : Rearrangement} {type : String} {P : α → Prop}
    (h : ∀ find a, r.Arranges find → (∃ b, L.build find = .ok b ∧ b = a) → P a) :
    (L.decode type).Yields r P := by
  intro v a hv hd
  obtain ⟨find, hbuild, hfind⟩ := exists_find hv hd
  exact h find a hfind ⟨a, hbuild, rfl⟩

theorem faithful {r : Rearrangement} {type : String} {write : α → Json} (hL : L.Proper)
    (h : ∀ find a, r.Arranges find → (∃ b, L.build find = .ok b ∧ b = a) →
      ∃ ms, write a = .obj ms ∧ Entries.Distinct ms ∧ L.build (r.look ms) = .ok a) :
    Faithful r (L.decode type) write := by
  refine yields fun find a hfind hbuild => ?_
  obtain ⟨ms, hwrite, hms, hlook⟩ := h find a hfind hbuild
  rw [hwrite]
  exact decode_written hL hms hlook

end Layout

namespace Rearrangement

variable (r : Rearrangement)

@[simp]
theorem apply_nat (n : UInt64) : r.apply (.nat n) = .nat n := r.apply_num _

@[simp]
theorem apply_u32 (n : UInt32) : r.apply (Json.u32 n) = Json.u32 n := r.apply_num _

@[simp]
theorem apply_strings (xs : List String) : r.apply (Json.strings xs) = Json.strings xs := by
  rw [Json.strings, r.apply_arr, List.map_map]
  simp

@[simp]
theorem apply_eq_null_iff {v : Json} : r.apply v = .null ↔ v = .null := by
  cases v with
  | null | bool | str => simp
  | num n => rw [r.apply_num]
  | arr items => simp [r.apply_arr]
  | obj ms => simp [r.apply_obj]

end Rearrangement

namespace Decoder

@[simp]
theorem string_str (s : String) : string (.str s) = .ok s := rfl

@[simp]
theorem bool_bool (b : Bool) : bool (.bool b) = .ok b := rfl

@[simp]
theorem json_eq (v : Json) : json v = .ok v := rfl

theorem natBelow_nat {n bound : Nat} (type : String) (h : n < bound) (hb : bound ≤ UInt64.size) :
    natBelow bound type (.nat n.toUInt64) = .ok n := by
  have hn : n.toUInt64.toNat = n := UInt64.toNat_ofNat_of_lt' (Nat.lt_of_lt_of_le h hb)
  rw [Json.nat, natBelow, hn, if_pos h]

@[simp]
theorem u64_nat (n : UInt64) : u64 (.nat n) = .ok n := by
  have hn : natBelow UInt64.size "u64" (.nat n) = .ok n.toNat := if_pos n.toNat_lt
  rw [u64, hn]
  exact congrArg Except.ok UInt64.ofNat_toNat

@[simp]
theorem u32_u32 (n : UInt32) : u32 (Json.u32 n) = .ok n := by
  have hn : natBelow UInt32.size "u32" (Json.u32 n) = .ok n.toNat := if_pos n.toNat_lt
  rw [u32, hn]
  exact congrArg Except.ok UInt32.ofNat_toNat

/-- Null alone is read as a missing value. -/
@[simp]
theorem nullable_of_ne_null {d : Decoder α} {v : Json} (h : v ≠ .null) :
    nullable d v = (d v).map some := by
  cases v with
  | null => exact absurd rfl h
  | _ => rfl

theorem each_map {d : Decoder α} {write : α → Json} {xs : List α}
    (h : ∀ x ∈ xs, d (write x) = .ok x) : each d (xs.map write) = .ok xs := by
  induction xs with
  | nil => rfl
  | cons x xs ih =>
    have hxs := ih fun y hy => h y (List.mem_cons_of_mem _ hy)
    rw [List.map_cons, each, h x List.mem_cons_self, ok_bind, hxs]
    rfl

@[simp]
theorem list_strings (xs : List String) : list string (Json.strings xs) = .ok xs :=
  each_map fun _ _ => rfl

variable {r : Rearrangement} {d : Decoder α} {write : α → Json}

@[simp]
theorem list_map {xs : List α} (h : ∀ x ∈ xs, d (r.apply (write x)) = .ok x) :
    list d (r.apply (.arr (xs.map write))) = .ok xs := by
  rw [r.apply_arr, List.map_map]
  exact each_map h

theorem eachMember_map {l : List (String × α)} (h : ∀ x, d (write x) = .ok x) :
    eachMember d (l.map fun e => (e.1, write e.2)) = .ok l := by
  induction l with
  | nil => rfl
  | cons e l ih =>
    rw [List.map_cons, eachMember, h, ok_bind, ih]
    rfl

@[simp]
theorem table_ofTable {t : Table String α} (h : ∀ x, d (r.apply (write x)) = .ok x) :
    table d (r.apply (Json.ofTable write t)) = .ok t := by
  have hascending : Entries.Ascending (t.toList.map fun e => (e.1, write e.2)) :=
    List.pairwise_map.2 t.ascending
  have hmembers : r.apply (Json.ofTable write t) =
      .obj (t.toList.map fun e => (e.1, r.apply (write e.2))) := by
    rw [Json.ofTable, r.apply_obj, r.members_of_ascending hascending, List.map_map]
    rfl
  rw [hmembers, table, eachMember_map h]
  exact congrArg Except.ok t.ofList_toList

end Decoder

variable {r : Rearrangement} {d : Decoder α} {write : α → Json} {find : String → Option Json}
  {n : String}

namespace Decoder.Yields

variable {P : α → Prop}

theorem each (hd : d.Yields r P) {items : List Json} (hitems : ∀ v ∈ items, r.apply v = v)
    {xs : List α} (h : Decoder.each d items = .ok xs) : ∀ x ∈ xs, P x := by
  induction items generalizing xs with
  | nil =>
    cases h
    simp
  | cons v items ih =>
    obtain ⟨x, hx, h⟩ := Step.except_bind_eq_ok_iff.1 h
    obtain ⟨ys, hys, h⟩ := Step.except_bind_eq_ok_iff.1 h
    cases h
    refine List.forall_mem_cons.2 ⟨hd v x (hitems v List.mem_cons_self) hx, ?_⟩
    exact ih (fun w hw => hitems w (List.mem_cons_of_mem _ hw)) hys

theorem list (hd : d.Yields r P) : (Decoder.list d).Yields r fun xs => ∀ x ∈ xs, P x := by
  intro v xs hv h
  cases v with
  | arr items =>
    rw [r.apply_arr, Json.arr.injEq] at hv
    exact hd.each (fun _ => r.apply_of_mem hv) h
  | _ => cases h

theorem required (hd : d.Yields r P) (hfind : r.Arranges find) {a : α}
    (h : (Layout.required n d).build find = .ok a) : P a := by
  obtain ⟨v, hn, hread⟩ := Layout.required_eq_ok h
  exact hd v a (hfind n v hn) hread

theorem optional (hd : d.Yields r P) (hfind : r.Arranges find) {a₀ a : α} (h₀ : P a₀)
    (h : (Layout.optional n a₀ d).build find = .ok a) : P a := by
  rcases Layout.optional_eq_ok h with ⟨-, rfl⟩ | ⟨v, hn, hread⟩
  · exact h₀
  · exact hd v a (hfind n v hn) hread

end Decoder.Yields

namespace Decoder

theorem natBelow_yields (r : Rearrangement) (bound : Nat) (type : String) :
    (natBelow bound type).Yields r (· < bound) := by
  intro v n _ h
  unfold natBelow at h
  split at h
  · split at h
    · next hlt =>
      cases h
      exact hlt
    · cases h
  all_goals cases h

/-- A free-form value is kept, and so is the order in it. -/
theorem json_yields (r : Rearrangement) : json.Yields r fun v => r.apply v = v := by
  rintro v _ hv ⟨⟩
  exact hv

end Decoder

namespace Faithful

theorem of_decode (h : ∀ a, d (r.apply (write a)) = .ok a) : Faithful r d write :=
  fun _ a _ _ => h a

theorem list (hd : Faithful r d write) :
    Faithful r (Decoder.list d) fun xs => .arr (xs.map write) :=
  fun v xs hv h => Decoder.list_map (Decoder.Yields.list hd v xs hv h)

theorem required (hd : Faithful r d write) (hfind : r.Arranges find) {a : α}
    (h : (Layout.required n d).build find = .ok a) : d (r.apply (write a)) = .ok a :=
  Decoder.Yields.required hd hfind h

/-- The value that is taken without a member may be written all the same. -/
theorem optional (hd : Faithful r d write) (hfind : r.Arranges find) {a₀ a : α}
    (h₀ : d (r.apply (write a₀)) = .ok a₀) (h : (Layout.optional n a₀ d).build find = .ok a) :
    d (r.apply (write a)) = .ok a :=
  Decoder.Yields.optional hd hfind h₀ h

theorem nullable {v : Json} {a : α} (h : Decoder.nullable d v = .ok (some a)) :
    v ≠ .null ∧ d v = .ok a := by
  by_cases hv : v = .null
  · subst hv
    cases h
  · rw [Decoder.nullable_of_ne_null hv] at h
    cases hd : d v with
    | error e =>
      rw [hd] at h
      cases h
    | ok b =>
      rw [hd] at h
      cases h
      exact ⟨hv, rfl⟩

/-- A missing value is not written, and what is written for any other is not null. -/
theorem optionalNullable (hd : Faithful r d write)
    (hnull : ∀ v a, d v = .ok a → v ≠ .null → write a ≠ .null) (hfind : r.Arranges find)
    {x : Option α} (h : (Layout.optionalNullable n d).build find = .ok x) :
    Decoder.member (.ok none) (Decoder.nullable d) (x.map fun a => r.apply (write a)) = .ok x := by
  refine Decoder.member_map fun a ha => ?_
  subst ha
  rcases Layout.optional_eq_ok h with ⟨-, hnone⟩ | ⟨v, hn, hread⟩
  · cases hnone
  · obtain ⟨hv, hread⟩ := nullable hread
    have hwritten : r.apply (write a) ≠ .null := by simpa using hnull v a hread hv
    rw [Decoder.nullable_of_ne_null hwritten, hd v a (hfind n v hn) hread]
    rfl

end Faithful

namespace CloudProperties

attribute [simp] member

@[simp]
theorem build_layout (n : String) (find : String → Option Json) : (layout n).build find =
    Decoder.member (.ok none) (Decoder.nullable .json) (find n) :=
  Layout.build_optionalNullable n _ find

theorem kept (hfind : r.Arranges find) {p : Option CloudProperties}
    (h : (layout n).build find = .ok p) :
    Decoder.member (.ok none) (Decoder.nullable .json) (p.map r.apply) = .ok p := by
  have hjson : Faithful r .json id := fun v a hv hread =>
    congrArg Except.ok (Decoder.json_yields r v a hv hread)
  refine hjson.optionalNullable ?_ hfind h
  rintro v _ ⟨⟩ hv
  exact hv

end CloudProperties

end Reconciliation
