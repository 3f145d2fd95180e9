import Reconciliation.Json.Writer
import Reconciliation.Proofs.Notation

/-! Where a value ends can be told from its text alone: a string ends at the first quote that is
not escaped, a bracket closes what it opened, and a number ends at the first character that no
number is written with. So values one after another in a text are the only ones with that text, and
two values with one text are equal. -/
namespace Reconciliation.Json

/-- Induction over values, with all items of an array and all members of an object at hand. -/
@[elab_as_elim]
theorem induction {P : Json → Prop} (null : P .null) (bool : ∀ b, P (.bool b))
    (num : ∀ n, P (.num n)) (str : ∀ s, P (.str s))
    (arr : ∀ items, (∀ v ∈ items, P v) → P (.arr items))
    (obj : ∀ ms, (∀ e ∈ ms, P e.2) → P (.obj ms)) : ∀ v, P v
  | .null => null
  | .bool b => bool b
  | .num n => num n
  | .str s => str s
  | .arr items => arr items fun v _ => induction null bool num str arr obj v
  | .obj ms => obj ms fun e _ => induction null bool num str arr obj e.2
termination_by v => sizeOf v
decreasing_by
  · next hv =>
    have := List.sizeOf_lt_of_mem hv
    simp only [Json.arr.sizeOf_spec]
    omega
  · next he =>
    have := List.sizeOf_lt_of_mem he
    obtain ⟨k, v⟩ := e
    simp only [Json.obj.sizeOf_spec, Prod.mk.sizeOf_spec] at this ⊢
    omega

section

variable {c : Char} {rest : List Char}

theorem hexValue?_hexDigit {n : Nat} (h : n < 16) : hexValue? (hexDigit n) = some n := by
  revert n
  decide

theorem unicodeEscape_control (h : c.toNat < 0x20) (rest : List Char) :
    unicodeEscape ('0' :: '0' :: hexDigit (c.toNat / 16) :: hexDigit (c.toNat % 16) :: rest) =
      some (c, rest) := by
  have hzero : hexValue? '0' = some 0 := rfl
  have hvalue : (0 * 16 + 0) * 256 + c.toNat / 16 * 16 + c.toNat % 16 = c.toNat := by omega
  have hunit : hexUnit ('0' :: '0' :: hexDigit (c.toNat / 16) :: hexDigit (c.toNat % 16) :: rest) =
      some (c.toNat, rest) := by
    simp only [hexUnit, hzero, hexValue?_hexDigit (show c.toNat / 16 < 16 by omega),
      hexValue?_hexDigit (show c.toNat % 16 < 16 by omega), Option.bind_eq_bind, Option.bind_some,
      hvalue, Option.pure_def]
  have hlow : ¬0xDC00 ≤ c.toNat := by omega
  have hhigh : ¬0xD800 ≤ c.toNat := by omega
  simp [unicodeEscape, hunit, hlow, hhigh]

/-- An escaped character is read back as what it stands for. -/
theorem stringBody_escapedChar (fuel : Nat) (c : Char) (rest : List Char) :
    stringBody (fuel + 1) (escapedChar c ++ rest) =
      (stringBody fuel rest).map fun r => (c :: r.1, r.2) := by
  have hstep : ((stringBody fuel rest).bind fun r => some (c :: r.1, r.2)) =
      (stringBody fuel rest).map fun r => (c :: r.1, r.2) :=
    Option.map_eq_bind.symm
  unfold escapedChar
  split_ifs with hquote hslash hb hf hn hr ht hcontrol
  -- an escape of one letter
  any_goals
    subst c
    exact hstep
  · have hescape := unicodeEscape_control hcontrol rest
    simp only [List.cons_append, List.nil_append, stringBody, hescape]
    exact hstep
  · simp only [stringBody, List.cons_append, List.nil_append, hquote, hslash, hcontrol, if_false]
    exact hstep

theorem stringBody_quote (fuel : Nat) (rest : List Char) :
    stringBody (fuel + 1) ('"' :: rest) = some ([], rest) := rfl

theorem stringBody_escaped {fuel : Nat} {cs : List Char} (h : cs.length < fuel)
    (rest : List Char) :
    stringBody fuel (cs.flatMap escapedChar ++ '"' :: rest) = some (cs, rest) := by
  induction cs generalizing fuel with
  | nil =>
    obtain ⟨fuel, rfl⟩ := Nat.exists_eq_succ_of_ne_zero (Nat.ne_of_gt h)
    exact stringBody_quote fuel rest
  | cons c cs ih =>
    obtain ⟨fuel, rfl⟩ := Nat.exists_eq_succ_of_ne_zero (Nat.ne_of_gt (Nat.zero_lt_of_lt h))
    rw [List.flatMap_cons, List.append_assoc, stringBody_escapedChar,
      ih (Nat.lt_of_succ_lt_succ h)]
    rfl

theorem escapedChar_ne_nil (c : Char) : escapedChar c ≠ [] := by
  unfold escapedChar
  split_ifs <;> exact List.cons_ne_nil _ _

theorem length_le_escaped (cs : List Char) : cs.length ≤ (cs.flatMap escapedChar).length := by
  induction cs with
  | nil => exact Nat.le_refl 0
  | cons c cs ih =>
    have hpos := List.length_pos_iff.2 (escapedChar_ne_nil c)
    rw [List.flatMap_cons, List.length_append, List.length_cons]
    omega

/-- A string is read off the front of any text that it begins. -/
theorem string_quoted (s : String) (rest : List Char) :
    string (quoted s ++ rest) = some (s, rest) := by
  have hlength := length_le_escaped s.toList
  have hbody : stringBody (quoted s ++ rest).length (s.toList.flatMap escapedChar ++ '"' :: rest) =
      some (s.toList, rest) := by
    refine stringBody_escaped ?_ rest
    simp only [quoted, List.length_cons, List.length_append]
    omega
  have hopen : expect '"' (quoted s ++ rest) =
      some (s.toList.flatMap escapedChar ++ '"' :: rest) := by
    simp [quoted, expect]
  simp only [string, hopen, hbody, Option.bind_eq_bind, Option.bind_some, String.ofList_toList,
    Option.pure_def]

theorem quoted_append_inj {s s' : String} {r r' : List Char}
    (h : quoted s ++ r = quoted s' ++ r') : s = s' ∧ r = r' := by
  have hread := string_quoted s r
  rw [h, string_quoted] at hread
  cases hread
  exact ⟨rfl, rfl⟩

end

/-- A text that does not go on with a character that numbers are written with. -/
def Delimited (rest : List Char) : Prop := ∀ c, rest.head? = some c → isNumeric c = false

theorem delimited_nil : Delimited [] := nofun

theorem delimited_cons {c : Char} (h : isNumeric c = false) (rest : List Char) :
    Delimited (c :: rest) := by
  intro d hd
  cases hd
  exact h

/-- A number ends where the text is delimited. -/
theorem numeric_append_inj {cs cs' r r' : List Char} (hcs : ∀ c ∈ cs, isNumeric c = true)
    (hcs' : ∀ c ∈ cs', isNumeric c = true) (hr : Delimited r) (hr' : Delimited r')
    (h : cs ++ r = cs' ++ r') : cs = cs' ∧ r = r' := by
  have htake : ∀ {cs r : List Char}, (∀ c ∈ cs, isNumeric c = true) → Delimited r →
      (cs ++ r).takeWhile isNumeric = cs := by
    intro cs r hcs hr
    rw [List.takeWhile_append_of_pos hcs]
    cases r with
    | nil => simp
    | cons c r => rw [List.takeWhile_cons_of_neg (by simp [hr c rfl]), List.append_nil]
  have heq : cs = cs' := by rw [← htake hcs hr, h, htake hcs' hr']
  subst heq
  exact ⟨rfl, List.append_cancel_left h⟩

namespace Number

theorem toList_text_natural (n : UInt64) :
    (Number.natural n).text.toList = (toString n.toNat).toList := rfl

theorem toList_text_negative (m : Fin (Nat.pow 2 63)) :
    (Number.negative m).text.toList = '-' :: (toString (m.val + 1)).toList := by
  simp [text]

/-- The text of a double is a sign and a form, that of an integer a sign and digits. -/
theorem isNumeric_of_mem_text {n : Number} {c : Char} (h : c ∈ n.text.toList) :
    isNumeric c = true := by
  cases n with
  | natural n => exact isNumeric_of_isDigit (Text.isDigit_of_mem_toString h)
  | negative m =>
    rw [toList_text_negative] at h
    rcases List.mem_cons.1 h with rfl | h
    · rfl
    · exact isNumeric_of_isDigit (Text.isDigit_of_mem_toString h)
  | double x =>
    obtain ⟨body, htext, hform⟩ := doubleStyle.exists_form x
    rw [text, htext] at h
    rcases List.mem_append.1 h with h | h
    · rw [Double.signText] at h
      split at h
      · rw [List.mem_singleton.1 h]
        rfl
      · cases h
    · exact hform.isNumeric h

theorem not_marked_of_digits {cs : List Char} (h : ∀ c ∈ cs, isDigit c = true) :
    ¬('.' ∈ cs ∨ 'e' ∈ cs) := by
  rintro (hc | hc)
  · cases h '.' hc
  · cases h 'e' hc

theorem not_marked_natural (n : UInt64) :
    ¬('.' ∈ (natural n).text.toList ∨ 'e' ∈ (natural n).text.toList) :=
  not_marked_of_digits fun _ => Text.isDigit_of_mem_toString

theorem not_marked_negative (m : Fin (Nat.pow 2 63)) :
    ¬('.' ∈ (negative m).text.toList ∨ 'e' ∈ (negative m).text.toList) := by
  rw [toList_text_negative]
  have hdigits : ¬('.' ∈ (toString (m.val + 1)).toList ∨ 'e' ∈ (toString (m.val + 1)).toList) :=
    not_marked_of_digits fun _ => Text.isDigit_of_mem_toString
  simpa using hdigits

theorem marked_double (x : Double) :
    '.' ∈ (double x).text.toList ∨ 'e' ∈ (double x).text.toList := by
  obtain ⟨body, htext, hform⟩ := doubleStyle.exists_form x
  rw [text, htext]
  exact hform.marked.imp (List.mem_append_right _) (List.mem_append_right _)

theorem natural_text_ne_negative (n : UInt64) (m : Fin (Nat.pow 2 63)) :
    (natural n).text ≠ (negative m).text := by
  intro h
  have hsign : '-' ∈ (natural n).text.toList := by
    rw [h, toList_text_negative]
    exact List.mem_cons_self
  cases Text.isDigit_of_mem_toString hsign

/-- No two numbers have one text: a sign tells negative integers from the others, and a point or an
exponent tells doubles from integers. -/
theorem text_injective : Function.Injective text := by
  intro n n' h
  cases n with
  | natural n =>
    cases n' with
    | natural n' =>
      have hvalue := congrArg (fun s => decimalValue s.toList) h
      simp only [toList_text_natural, Text.decimalValue_toString] at hvalue
      rw [UInt64.toNat_inj.1 hvalue]
    | negative m => exact absurd h (natural_text_ne_negative n m)
    | double x => exact absurd (h ▸ marked_double x) (not_marked_natural n)
  | negative m =>
    cases n' with
    | natural n => exact absurd h.symm (natural_text_ne_negative n m)
    | negative m' =>
      have hvalue := congrArg (fun s => decimalValue s.toList.tail) h
      simp only [toList_text_negative, List.tail_cons, Text.decimalValue_toString,
        Nat.add_right_cancel_iff] at hvalue
      rw [Fin.ext hvalue]
    | double x => exact absurd (h ▸ marked_double x) (not_marked_negative m)
  | double x =>
    cases n' with
    | natural n => exact absurd (h ▸ marked_double x) (not_marked_natural n)
    | negative m => exact absurd (h ▸ marked_double x) (not_marked_negative m)
    | double y => rw [doubleStyle.text_injective h]

theorem text_append_inj {n n' : Number} {r r' : List Char} (hr : Delimited r) (hr' : Delimited r')
    (h : n.text.toList ++ r = n'.text.toList ++ r') : n = n' ∧ r = r' := by
  obtain ⟨htext, hrest⟩ := numeric_append_inj (fun _ => isNumeric_of_mem_text)
    (fun _ => isNumeric_of_mem_text) hr hr' h
  exact ⟨text_injective (String.toList_inj.1 htext), hrest⟩

theorem exists_cons_text (n : Number) :
    ∃ c rest, n.text.toList = c :: rest ∧ isNumeric c = true := by
  have hne : n.text.toList ≠ [] := by
    cases n with
    | natural n => exact Text.toString_ne_nil n.toNat
    | negative m =>
      rw [toList_text_negative]
      exact List.cons_ne_nil _ _
    | double x => exact (marked_double x).elim List.ne_nil_of_mem List.ne_nil_of_mem
  obtain ⟨c, rest, h⟩ := List.exists_cons_of_ne_nil hne
  exact ⟨c, rest, h, isNumeric_of_mem_text (h ▸ List.mem_cons_self)⟩

end Number

/-- Texts with a comma before each but the first. -/
def separated : List (List Char) → List Char
  | [] => []
  | t :: ts => t ++ ts.flatMap (',' :: ·)

theorem separated_cons_cons (t t' : List Char) (ts : List (List Char)) :
    separated (t :: t' :: ts) = t ++ ',' :: separated (t' :: ts) := by
  simp [separated]

theorem itemChars_eq (items : List Json) : itemChars items = separated (items.map chars) := by
  induction items with
  | nil => rfl
  | cons v items ih =>
    cases items with
    | nil => simp [itemChars, separated]
    | cons w items =>
      rw [List.map_cons, List.map_cons, separated_cons_cons, ← List.map_cons, ← ih, itemChars]
      exact List.cons_ne_nil w items

/-- The text of a member. -/
def memberText (e : String × Json) : List Char := quoted e.1 ++ ':' :: e.2.chars

theorem memberChars_eq (ms : List (String × Json)) :
    memberChars ms = separated (ms.map memberText) := by
  induction ms with
  | nil => rfl
  | cons e ms ih =>
    cases ms with
    | nil => simp [memberChars, separated, memberText]
    | cons e' ms =>
      rw [List.map_cons, List.map_cons, separated_cons_cons, ← List.map_cons, ← ih, memberChars]
      · simp [memberText]
      · exact List.cons_ne_nil e' ms

section

variable {α : Type} {text : α → List Char} {close : Char} {r r' : List Char}

/-- Two texts of this kind are told apart by what they are texts of, also when more follows. -/
def PrefixFree (text : α → List Char) (a : α) : Prop :=
  ∀ {a' r r'}, Delimited r → Delimited r' → text a ++ r = text a' ++ r' → a = a' ∧ r = r'

theorem delimited_followed (hclose : isNumeric close = false) (ts : List (List Char)) :
    Delimited (ts.flatMap (',' :: ·) ++ close :: r) := by
  cases ts with
  | nil => exact delimited_cons hclose r
  | cons t ts => exact delimited_cons rfl _

theorem followed_append_inj (hclose : isNumeric close = false) (hcomma : close ≠ ',')
    {xs xs' : List α} (hfree : ∀ x ∈ xs, PrefixFree text x)
    (h : (xs.map text).flatMap (',' :: ·) ++ close :: r =
      (xs'.map text).flatMap (',' :: ·) ++ close :: r') : xs = xs' ∧ r = r' := by
  induction xs generalizing xs' with
  | nil =>
    cases xs' with
    | nil => exact ⟨rfl, List.tail_eq_of_cons_eq h⟩
    | cons x' xs' => exact absurd (List.head_eq_of_cons_eq h) hcomma
  | cons x xs ih =>
    cases xs' with
    | nil => exact absurd (List.head_eq_of_cons_eq h).symm hcomma
    | cons x' xs' =>
      simp only [List.map_cons, List.flatMap_cons, List.cons_append, List.append_assoc,
        List.cons.injEq, true_and] at h
      obtain ⟨rfl, hrest⟩ := hfree x List.mem_cons_self (delimited_followed hclose _)
        (delimited_followed hclose _) h
      obtain ⟨rfl, rfl⟩ := ih (fun y hy => hfree y (List.mem_cons_of_mem x hy)) hrest
      exact ⟨rfl, rfl⟩

theorem separated_append_inj (hclose : isNumeric close = false) (hcomma : close ≠ ',')
    (hhead : ∀ x, ∃ c cs, text x = c :: cs ∧ c ≠ close) {xs xs' : List α}
    (hfree : ∀ x ∈ xs, PrefixFree text x)
    (h : separated (xs.map text) ++ close :: r = separated (xs'.map text) ++ close :: r') :
    xs = xs' ∧ r = r' := by
  have hempty : ∀ {x : α} {xs : List α} {r r' : List Char},
      close :: r ≠ separated ((x :: xs).map text) ++ close :: r' := by
    intro x xs r r' h
    obtain ⟨c, cs, htext, hc⟩ := hhead x
    rw [List.map_cons, separated, htext] at h
    exact hc (List.head_eq_of_cons_eq h).symm
  cases xs with
  | nil =>
    cases xs' with
    | nil => exact ⟨rfl, List.tail_eq_of_cons_eq h⟩
    | cons x' xs' => exact absurd h hempty
  | cons x xs =>
    cases xs' with
    | nil => exact absurd h.symm hempty
    | cons x' xs' =>
      simp only [List.map_cons, separated, List.append_assoc] at h
      obtain ⟨rfl, hrest⟩ := hfree x List.mem_cons_self (delimited_followed hclose _)
        (delimited_followed hclose _) h
      obtain ⟨rfl, rfl⟩ := followed_append_inj hclose hcomma
        (fun y hy => hfree y (List.mem_cons_of_mem x hy)) hrest
      exact ⟨rfl, rfl⟩

end

/-- What the first character of a value says about it: nothing but that it is a number, or else
this character alone. -/
def lead : Json → Option Char
  | null => some 'n'
  | bool true => some 't'
  | bool false => some 'f'
  | num _ => none
  | str _ => some '"'
  | arr _ => some '['
  | obj _ => some '\x7b'

theorem exists_cons_chars (v : Json) : ∃ c cs, v.chars = c :: cs ∧
    (if isNumeric c then none else some c) = v.lead := by
  cases v with
  | bool b => cases b <;> exact ⟨_, _, rfl, rfl⟩
  | num n =>
    obtain ⟨c, cs, htext, hc⟩ := n.exists_cons_text
    exact ⟨c, cs, htext, if_pos hc⟩
  | _ => exact ⟨_, _, rfl, rfl⟩

theorem exists_cons_chars_ne (v : Json) : ∃ c cs, v.chars = c :: cs ∧ c ≠ ']' := by
  obtain ⟨c, cs, hv, hc⟩ := v.exists_cons_chars
  refine ⟨c, cs, hv, ?_⟩
  rintro rfl
  cases v with
  | bool b => cases b <;> cases hc
  | _ => cases hc

theorem lead_eq {v w : Json} {r r' : List Char} (h : v.chars ++ r = w.chars ++ r') :
    v.lead = w.lead := by
  obtain ⟨c, cs, hv, hc⟩ := v.exists_cons_chars
  obtain ⟨c', cs', hw, hc'⟩ := w.exists_cons_chars
  rw [hv, hw] at h
  rw [← hc, ← hc', List.head_eq_of_cons_eq h]

theorem prefixFree_memberText {e : String × Json} (h : PrefixFree chars e.2) :
    PrefixFree memberText e := by
  intro e' r r' hr hr' heq
  simp only [memberText, List.append_assoc, List.cons_append] at heq
  obtain ⟨hkey, hrest⟩ := quoted_append_inj heq
  obtain ⟨hvalue, hrest⟩ := h hr hr' (List.tail_eq_of_cons_eq hrest)
  exact ⟨Prod.ext hkey hvalue, hrest⟩

theorem prefixFree_chars (v : Json) : PrefixFree chars v := by
  -- the first characters tell all kinds of values apart, so only equal kinds are left
  induction v using Json.induction with
  | null =>
    intro w r r' hr hr' h
    cases w with
    | null => exact ⟨rfl, List.append_cancel_left h⟩
    | bool b => cases b <;> cases lead_eq h
    | _ => cases lead_eq h
  | bool b =>
    intro w r r' hr hr' h
    cases w with
    | bool b' =>
      cases b <;> cases b'
      · exact ⟨rfl, List.append_cancel_left h⟩
      · cases lead_eq h
      · cases lead_eq h
      · exact ⟨rfl, List.append_cancel_left h⟩
    | _ => cases b <;> cases lead_eq h
  | num n =>
    intro w r r' hr hr' h
    cases w with
    | num n' =>
      obtain ⟨rfl, hrest⟩ := Number.text_append_inj hr hr' h
      exact ⟨rfl, hrest⟩
    | bool b => cases b <;> cases lead_eq h
    | _ => cases lead_eq h
  | str s =>
    intro w r r' hr hr' h
    cases w with
    | str s' =>
      obtain ⟨rfl, hrest⟩ := quoted_append_inj h
      exact ⟨rfl, hrest⟩
    | bool b => cases b <;> cases lead_eq h
    | _ => cases lead_eq h
  | arr items ih =>
    intro w r r' hr hr' h
    cases w with
    | arr items' =>
      simp only [chars, itemChars_eq, List.cons_append, List.append_assoc, List.nil_append] at h
      obtain ⟨rfl, hrest⟩ := separated_append_inj rfl (by decide) exists_cons_chars_ne ih
        (List.tail_eq_of_cons_eq h)
      exact ⟨rfl, hrest⟩
    | bool b => cases b <;> cases lead_eq h
    | _ => cases lead_eq h
  | obj ms ih =>
    intro w r r' hr hr' h
    cases w with
    | obj ms' =>
      simp only [chars, memberChars_eq, List.cons_append, List.append_assoc, List.nil_append] at h
      obtain ⟨rfl, hrest⟩ := separated_append_inj rfl (by decide)
        (fun e => ⟨_, _, rfl, by decide⟩) (fun e he => prefixFree_memberText (ih e he))
        (List.tail_eq_of_cons_eq h)
      exact ⟨rfl, hrest⟩
    | bool b => cases b <;> cases lead_eq h
    | _ => cases lead_eq h

/-- Two values with one text are equal. -/
theorem text_injective : Function.Injective text := by
  intro v w h
  have hchars : v.chars ++ [] = w.chars ++ [] := by rw [String.ofList_injective h]
  exact (prefixFree_chars v delimited_nil delimited_nil hchars).1

theorem canonical_eq_iff {v w : Json} : v.canonical = w.canonical ↔ v.sorted = w.sorted :=
  text_injective.eq_iff

end Reconciliation.Json
