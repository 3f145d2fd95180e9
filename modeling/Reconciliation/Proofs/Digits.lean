import Mathlib.Data.List.Basic
import Mathlib.Data.List.Induction
import Mathlib.Tactic.Ring
import Reconciliation.Json.Reader

namespace Reconciliation

namespace Json

variable {cs ds rest : List Char} {c : Char}

theorem isDigit_eq (c : Char) : isDigit c = c.isDigit := by
  simp only [isDigit, Char.isDigit, Char.le_def]

theorem isDigit_iff : isDigit c = true ↔ 48 ≤ c.toNat ∧ c.toNat ≤ 57 := by
  simp only [isDigit, Bool.and_eq_true, decide_eq_true_eq, Char.le_def, UInt32.le_iff_toNat_le]
  exact Iff.rfl

theorem decimalValue_eq (ds : List Char) : decimalValue ds = Nat.ofDigitChars 10 ds 0 := by
  simp only [decimalValue, Nat.ofDigitChars, digitValue, Nat.mul_comm]
  rfl

theorem decimalValue_append_singleton (cs : List Char) (c : Char) :
    decimalValue (cs ++ [c]) = decimalValue cs * 10 + digitValue c := by
  rw [decimalValue, List.foldl_append]
  rfl

theorem decimalValue_append (cs ds : List Char) :
    decimalValue (cs ++ ds) = decimalValue cs * 10 ^ ds.length + decimalValue ds := by
  induction ds using List.reverseRecOn with
  | nil => simp [decimalValue]
  | append_singleton ds c ih =>
    rw [← List.append_assoc, decimalValue_append_singleton, decimalValue_append_singleton, ih,
      List.length_append, List.length_singleton, pow_succ]
    ring

@[simp]
theorem decimalValue_replicate (n : Nat) : decimalValue (List.replicate n '0') = 0 := by
  induction n with
  | zero => rfl
  | succ n ih =>
    rw [List.replicate_succ', decimalValue_append_singleton, ih]
    rfl

/-- A text whose first character, if it has one, is no digit. -/
def EndsDigits (rest : List Char) : Prop := ∀ c, rest.head? = some c → isDigit c = false

theorem digits_append (hds : ∀ c ∈ ds, isDigit c = true) (hrest : EndsDigits rest) :
    digits (ds ++ rest) = (ds, rest) := by
  rw [digits, List.takeWhile_append_of_pos hds, List.dropWhile_append_of_pos hds]
  cases rest with
  | nil => simp
  | cons c rest =>
    have hc : ¬isDigit c = true := by simp [hrest c rfl]
    rw [List.takeWhile_cons_of_neg hc, List.dropWhile_cons_of_neg hc, List.append_nil]

end Json

namespace Text

variable {n : Nat} {c : Char} {cs : List Char}

theorem toList_toString (n : Nat) : (toString n).toList = Nat.toDigits 10 n := by
  rw [Nat.toString_eq_repr, Nat.toList_repr]

theorem isDigit_of_mem_toString (h : c ∈ (toString n).toList) : Json.isDigit c = true := by
  rw [toList_toString] at h
  rw [Json.isDigit_eq]
  exact Nat.isDigit_of_mem_toDigits (by decide) (by decide) h

theorem decimalValue_toString (n : Nat) : Json.decimalValue (toString n).toList = n := by
  rw [toList_toString, Json.decimalValue_eq]
  exact Nat.ofDigitChars_toDigits (by decide) (by decide)

theorem toString_ne_nil (n : Nat) : (toString n).toList ≠ [] := by
  rw [toList_toString]
  exact Nat.toDigits_ne_nil

theorem exists_cons_toString (n : Nat) :
    ∃ c cs, (toString n).toList = c :: cs ∧ Json.isDigit c = true := by
  obtain ⟨c, cs, h⟩ := List.exists_cons_of_ne_nil (toString_ne_nil n)
  exact ⟨c, cs, h, isDigit_of_mem_toString (h ▸ List.mem_cons_self)⟩

/-- Only the number zero is written with a leading zero. -/
theorem head?_toString_ne_zero (h : n ≠ 0) : (toString n).toList.head? ≠ some '0' := by
  rw [toList_toString]
  induction n using Nat.strongRecOn with
  | _ n ih =>
    rw [Nat.toDigits_eq_if (by decide)]
    split
    · next hlt =>
      simp only [List.head?_cons, ne_eq, Option.some.injEq]
      intro hzero
      have := congrArg Char.toNat hzero
      rw [Nat.toNat_digitChar_of_lt_ten hlt] at this
      have h48 : '0'.toNat = 48 := rfl
      omega
    · next hge =>
      rw [List.head?_append_of_ne_nil _ Nat.toDigits_ne_nil]
      exact ih (n / 10) (by omega) (by omega)

/-- A decimal numeral of the number, perhaps after a plus sign. -/
def IsNumeral (cs : List Char) (n : Nat) : Prop :=
  ∃ ds, (cs = ds ∨ cs = '+' :: ds) ∧ ds ≠ [] ∧ (∀ d ∈ ds, Json.isDigit d = true) ∧
    Json.decimalValue ds = n

theorem IsNumeral.ne_nil (h : IsNumeral cs n) : cs ≠ [] := by
  obtain ⟨ds, rfl | rfl, hne, -⟩ := h
  · exact hne
  · exact List.cons_ne_nil _ _

theorem naturalBelow?_eq_some_iff {bound : Nat} :
    naturalBelow? bound cs = some n ↔ IsNumeral cs n ∧ n < bound := by
  have hdigits (ds : List Char) : (if ds.isEmpty || !ds.all Json.isDigit then none
      else some (Json.decimalValue ds) |>.filter (· < bound)) = some n ↔
        (ds ≠ [] ∧ (∀ d ∈ ds, Json.isDigit d = true) ∧ Json.decimalValue ds = n) ∧ n < bound := by
    have hcondition : (ds.isEmpty || !ds.all Json.isDigit) = true ↔
        ¬(ds ≠ [] ∧ ∀ d ∈ ds, Json.isDigit d = true) := by
      rw [Bool.or_eq_true, List.isEmpty_iff, Bool.not_eq_true', ← Bool.not_eq_true,
        List.all_eq_true, not_and_or, not_ne_iff]
    by_cases h : ds ≠ [] ∧ ∀ d ∈ ds, Json.isDigit d = true
    · rw [if_neg (hcondition.not_left.2 h), Option.filter_eq_some_iff, Option.some.injEq]
      grind
    · rw [if_pos (hcondition.2 h)]
      grind
  unfold naturalBelow?
  dsimp only
  split
  · next rest =>
    rw [hdigits]
    refine and_congr_left fun _ => ⟨fun h => ⟨rest, .inr rfl, h⟩, ?_⟩
    rintro ⟨ds, rfl | hds, h⟩
    · cases h.2.1 '+' List.mem_cons_self
    · cases hds
      exact h
  · next hplus =>
    rw [hdigits]
    refine and_congr_left fun _ => ⟨fun h => ⟨cs, .inl rfl, h⟩, ?_⟩
    rintro ⟨ds, rfl | rfl, h⟩
    · exact h
    · exact (hplus ds rfl).elim

end Text

end Reconciliation
