import Reconciliation.Double.Extended
import Reconciliation.Proofs.Digits
import Reconciliation.Proofs.Shortest

namespace Reconciliation

namespace Json

/-- The characters that a number may be written with. -/
def isNumeric (c : Char) : Bool :=
  isDigit c || c = '.' || c = 'e' || c = 'E' || c = '+' || c = '-'

theorem isNumeric_of_isDigit {c : Char} (h : isDigit c = true) : isNumeric c = true := by
  simp [isNumeric, h]

end Json

namespace Double

open Json (digits decimalValue isDigit EndsDigits)

/-- The unsigned spelling stands for the number. -/
def Spells (cs : List Char) (x : ℚ) : Prop :=
  ∃ n e, Extended.decimal? cs = some (n, e) ∧ Decimal.value ⟨n, e⟩ = x

theorem Spells.unique {cs : List Char} {x y : ℚ} (hx : Spells cs x) (hy : Spells cs y) : x = y := by
  obtain ⟨n, e, h, rfl⟩ := hx
  obtain ⟨n', e', h', rfl⟩ := hy
  rw [h] at h'
  cases h'
  rfl

/-- A fraction after its point, if there is one. -/
def pointed (f : List Char) : List Char := if f = [] then [] else '.' :: f

/-- The sign and the digits of an exponent. -/
def exponentText (plusSign : Bool) (e : ℤ) : List Char :=
  (if e < 0 then ['-'] else if plusSign then ['+'] else []) ++ (toString e.natAbs).toList

theorem endsDigits_cons {c : Char} (h : isDigit c = false) (rest : List Char) :
    EndsDigits (c :: rest) := by
  intro d hd
  cases hd
  exact h

theorem endsDigits_nil : EndsDigits [] := nofun

theorem digits_of_forall {ds : List Char} (h : ∀ c ∈ ds, isDigit c = true) :
    digits ds = (ds, []) := by
  have happend := Json.digits_append h endsDigits_nil
  rwa [List.append_nil] at happend

theorem dropSign_of_digits {ds : List Char} (h : ∀ c ∈ ds, isDigit c = true) :
    Extended.dropSign ds = ds := by
  unfold Extended.dropSign
  split
  · cases h '-' List.mem_cons_self
  · cases h '+' List.mem_cons_self
  · rfl

theorem dropSign_exponentText (plusSign : Bool) (e : ℤ) :
    Extended.dropSign (exponentText plusSign e) = (toString e.natAbs).toList := by
  unfold exponentText
  split
  · rfl
  · split
    · rfl
    · exact dropSign_of_digits fun _ => Text.isDigit_of_mem_toString

theorem head?_exponentText (plusSign : Bool) (e : ℤ) :
    (exponentText plusSign e).head? = some '-' ↔ e < 0 := by
  unfold exponentText
  split
  · next h => simp [h]
  · next h =>
    split
    · simp [h]
    · simp only [List.nil_append, h, iff_false]
      intro hhead
      cases Text.isDigit_of_mem_toString (List.mem_of_mem_head? hhead)

/-- The unsigned form of a number: digits with a point, or with an exponent. -/
inductive Form (x : ℚ) : List Char → Prop
  | point {w f : List Char} (hw : ∀ c ∈ w, isDigit c = true) (hne : w ≠ [])
      (hf : ∀ c ∈ f, isDigit c = true)
      (hx : Decimal.value ⟨decimalValue (w ++ f), -(f.length : ℤ)⟩ = x) : Form x (w ++ '.' :: f)
  | exponent {w f : List Char} (hw : ∀ c ∈ w, isDigit c = true) (hne : w ≠ [])
      (hf : ∀ c ∈ f, isDigit c = true) (plusSign : Bool) (e : ℤ)
      (hx : Decimal.value ⟨decimalValue (w ++ f), e - f.length⟩ = x) :
      Form x (w ++ (pointed f ++ 'e' :: exponentText plusSign e))

namespace Form

variable {x : ℚ} {cs : List Char}

theorem spells (h : Form x cs) : Spells cs x := by
  cases h with
  | @point w f hw hne hf hx =>
    have hwhole := Json.digits_append hw (endsDigits_cons rfl f : EndsDigits ('.' :: f))
    refine ⟨_, _, ?_, hx⟩
    simp [Extended.decimal?, hwhole, digits_of_forall hf, hne]
  | @exponent w f hw hne hf plusSign e hx =>
    obtain ⟨ds, hds, hempty, hvalue⟩ : ∃ ds, digits (Extended.dropSign (exponentText plusSign e)) =
        (ds, []) ∧ ds ≠ [] ∧ decimalValue ds = e.natAbs := by
      refine ⟨_, ?_, Text.toString_ne_nil e.natAbs, Text.decimalValue_toString _⟩
      rw [dropSign_exponentText]
      exact digits_of_forall fun _ => Text.isDigit_of_mem_toString
    have hsigned : (if e < 0 then -|e| else |e|) = e := by
      split
      · next h => rw [abs_of_neg h, neg_neg]
      · next h => exact abs_of_nonneg (not_lt.1 h)
    refine ⟨_, _, ?_, hx⟩
    have hmark := endsDigits_cons (c := 'e') rfl (exponentText plusSign e)
    unfold pointed
    split
    · next hnil =>
      have hwhole := Json.digits_append hw hmark
      simp [Extended.decimal?, hwhole, hds, hempty, hvalue, hne, hnil, head?_exponentText, hsigned]
    · have hwhole := Json.digits_append hw
        (endsDigits_cons (c := '.') rfl (f ++ 'e' :: exponentText plusSign e))
      have hfraction := Json.digits_append hf hmark
      simp [Extended.decimal?, hwhole, hds, hempty, hvalue, hne, hfraction, head?_exponentText,
        hsigned]

theorem head_isDigit (h : Form x cs) : ∃ c rest, cs = c :: rest ∧ isDigit c = true := by
  have hhead : ∀ {w r : List Char}, (∀ c ∈ w, isDigit c = true) → w ≠ [] →
      ∃ c rest, w ++ r = c :: rest ∧ isDigit c = true := by
    intro w r hw hne
    obtain ⟨c, w, rfl⟩ := List.exists_cons_of_ne_nil hne
    exact ⟨c, w ++ r, rfl, hw c List.mem_cons_self⟩
  cases h with
  | point hw hne => exact hhead hw hne
  | exponent hw hne => exact hhead hw hne

/-- A point or an exponent tells the form from an integer. -/
theorem marked (h : Form x cs) : '.' ∈ cs ∨ 'e' ∈ cs := by
  cases h with
  | point => exact .inl (by simp)
  | exponent => exact .inr (by simp)

theorem isNumeric (h : Form x cs) {c : Char} (hc : c ∈ cs) : Json.isNumeric c = true := by
  have hdigit : ∀ {l : List Char}, (∀ c ∈ l, isDigit c = true) → c ∈ l →
      Json.isNumeric c = true := fun hl hc => Json.isNumeric_of_isDigit (hl c hc)
  cases h with
  | point hw hne hf =>
    rcases List.mem_append.1 hc with hc | hc
    · exact hdigit hw hc
    · rcases List.mem_cons.1 hc with rfl | hc
      · rfl
      · exact hdigit hf hc
  | @exponent w f hw hne hf plusSign e =>
    rw [pointed, exponentText] at hc
    simp only [List.mem_append, List.mem_cons] at hc
    rcases hc with hc | hc | rfl | hc | hc
    · exact hdigit hw hc
    · split at hc
      · cases hc
      · rcases List.mem_cons.1 hc with rfl | hc
        · rfl
        · exact hdigit hf hc
    · rfl
    · split at hc
      · rw [List.mem_singleton.1 hc]
        rfl
      · split at hc
        · rw [List.mem_singleton.1 hc]
          rfl
        · cases hc
    · exact Json.isNumeric_of_isDigit (Text.isDigit_of_mem_toString hc)

end Form

theorem isDigit_of_mem_zeros {k : Nat} {c : Char} (h : c ∈ List.replicate k '0') :
    isDigit c = true := by
  rw [List.eq_of_mem_replicate h]
  rfl

theorem form_positionalText (d : Decimal) : Form d.value (positionalText d).toList := by
  obtain ⟨n, e⟩ := d
  unfold positionalText
  split
  · next he =>
    obtain ⟨k, rfl⟩ := Int.eq_ofNat_of_zero_le he
    have htext : (toString n ++ String.ofList (List.replicate (k : ℤ).natAbs '0') ++ ".0").toList =
        ((toString n).toList ++ List.replicate k '0') ++ '.' :: ['0'] := by
      simp
    rw [htext]
    refine .point ?_ (by simp) (fun _ => isDigit_of_mem_zeros (k := 1)) ?_
    · intro c hc
      exact (List.mem_append.1 hc).elim Text.isDigit_of_mem_toString isDigit_of_mem_zeros
    · rw [Json.decimalValue_append_singleton, Json.decimalValue_append,
        Json.decimalValue_replicate, Text.decimalValue_toString, List.length_replicate]
      simp [Decimal.value, Json.digitValue]
  · next he =>
    obtain ⟨k, rfl⟩ := Int.exists_eq_neg_ofNat (not_le.1 he).le
    -- enough zeros stand in front for one digit before the point
    simp only [Int.natAbs_neg, Int.natAbs_natCast]
    generalize hpadded : String.ofList (List.replicate (k + 1 - (toString n).length) '0') ++
      toString n = padded
    have hcs : padded.toList = List.replicate (k + 1 - (toString n).length) '0' ++
        (toString n).toList := by
      rw [← hpadded, String.toList_append, String.toList_ofList]
    have hlength : k < padded.toList.length := by
      rw [hcs, List.length_append, List.length_replicate, String.length_toList]
      omega
    have hdigits : ∀ c ∈ padded.toList, isDigit c = true := by
      intro c hc
      rw [hcs] at hc
      exact (List.mem_append.1 hc).elim isDigit_of_mem_zeros Text.isDigit_of_mem_toString
    have hvalue : decimalValue padded.toList = n := by
      rw [hcs, Json.decimalValue_append, Json.decimalValue_replicate, Text.decimalValue_toString,
        Nat.zero_mul, Nat.zero_add]
    rw [← String.length_toList]
    simp only [String.toList_append, String.toList_ofList, List.append_assoc]
    change Form _ (padded.toList.take _ ++ '.' :: padded.toList.drop _)
    refine .point (fun c hc => hdigits c (List.mem_of_mem_take hc)) ?_
      (fun c hc => hdigits c (List.mem_of_mem_drop hc)) ?_
    · refine List.ne_nil_of_length_pos ?_
      rw [List.length_take]
      omega
    · rw [List.take_append_drop, hvalue, List.length_drop, Nat.sub_sub_self hlength.le]

theorem toList_toString_int (plusSign : Bool) (e : ℤ) :
    (if plusSign && e ≥ 0 then "+" else "").toList ++ (toString e).toList =
      exponentText plusSign e := by
  have hnat (k : Nat) : toString (k : ℤ) = toString k := rfl
  have hneg (k : Nat) : toString (Int.negSucc k) = "-" ++ toString (k + 1) := rfl
  cases e with
  | ofNat k =>
    have hk : ¬(k : ℤ) < 0 := by omega
    cases plusSign <;> simp [exponentText, Int.ofNat_eq_natCast, hnat, hk]
  | negSucc k => simp [exponentText, hneg, Int.negSucc_lt_zero]

theorem form_scientificText (plusSign : Bool) (d : Decimal) :
    Form d.value (scientificText plusSign d).toList := by
  obtain ⟨c, f, hcf⟩ := List.exists_cons_of_ne_nil (Text.toString_ne_nil d.digits)
  have hdigits : ∀ c' ∈ c :: f, isDigit c' = true := by
    rw [← hcf]
    exact fun _ => Text.isDigit_of_mem_toString
  have hvalue : decimalValue ([c] ++ f) = d.digits := by
    rw [List.singleton_append, ← hcf, Text.decimalValue_toString]
  have htext : (scientificText plusSign d).toList =
      [c] ++ (pointed f ++ 'e' :: exponentText plusSign (d.exponent + f.length)) := by
    unfold scientificText pointed
    simp only [hcf, String.toList_append, List.length_cons, Nat.add_sub_cancel, List.append_assoc]
    rw [toList_toString_int]
    cases f <;> simp
  rw [htext]
  refine .exponent (fun c' hc' => hdigits c' ?_) (List.cons_ne_nil c [])
    (fun c' hc' => hdigits c' (List.mem_cons_of_mem c hc')) plusSign _ ?_
  · exact List.mem_singleton.1 hc' ▸ List.mem_cons_self
  · rw [hvalue, add_sub_cancel_right]

/-- A sign is written for negative numbers only. -/
def signText (negative : Bool) : List Char := if negative then ['-'] else []

theorem Style.exists_form (style : Style) (x : Double) :
    ∃ body, (style.text x).toList = signText x.negative ++ body ∧
      Form (shortest x.rank).value body := by
  have hsign (s : String) : ((if x.negative then "-" else "") ++ s).toList =
      signText x.negative ++ s.toList := by
    cases x.negative <;> simp [signText]
  unfold Style.text
  by_cases hzero : x.isZero = true
  · have hrank : (x.rank : Nat) = 0 := beq_iff_eq.1 hzero
    refine ⟨['0'] ++ '.' :: ['0'], ?_, ?_⟩
    · rw [if_pos hzero, hsign]
      rfl
    · rw [hrank]
      have hdigit : ∀ c ∈ ['0'], isDigit c = true := fun _ => isDigit_of_mem_zeros (k := 1)
      refine .point hdigit (List.cons_ne_nil _ _) hdigit ?_
      simp [Decimal.value, shortest, decimalValue, Json.digitValue]
  · rw [if_neg hzero]
    dsimp only
    rw [hsign]
    refine ⟨_, rfl, ?_⟩
    split
    · exact form_positionalText _
    · exact form_scientificText _ _

theorem signText_append_inj {b b' : Bool} {c c' : Char} {cs cs' : List Char}
    (hc : isDigit c = true) (hc' : isDigit c' = true)
    (h : signText b ++ c :: cs = signText b' ++ c' :: cs') : b = b' ∧ c :: cs = c' :: cs' := by
  cases b <;> cases b'
  case true.true => exact ⟨rfl, (List.cons_inj_right _).1 h⟩
  case false.false => exact ⟨rfl, h⟩
  case true.false =>
    cases h
    cases hc'
  case false.true =>
    cases h
    cases hc

/-- In one style, each number has a text of its own. -/
theorem Style.text_injective (style : Style) : Function.Injective style.text := by
  intro x y h
  obtain ⟨body, hx, hform⟩ := style.exists_form x
  obtain ⟨body', hy, hform'⟩ := style.exists_form y
  rw [h, hy] at hx
  obtain ⟨hsign, rfl⟩ : x.negative = y.negative ∧ body = body' := by
    obtain ⟨c, rest, rfl, hc⟩ := hform.head_isDigit
    obtain ⟨c', rest', rfl, hc'⟩ := hform'.head_isDigit
    exact signText_append_inj hc hc' hx.symm
  have hrank := eq_of_shortest_value_eq (hform.spells.unique hform'.spells)
  obtain ⟨negative, rank⟩ := x
  obtain ⟨negative', rank'⟩ := y
  obtain rfl : negative = negative' := hsign
  obtain rfl : rank = rank' := hrank
  rfl

end Double

end Reconciliation
