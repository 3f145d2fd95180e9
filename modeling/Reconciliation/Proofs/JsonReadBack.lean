import Reconciliation.Json.Reader
import Reconciliation.Proofs.JsonText

/-! A value is read off the front of any text that it begins, as long as its brackets nest no
deeper than the reader goes and its doubles are read back on their own. Integers and strings always
are. -/
namespace Reconciliation.Json

theorem Delimited.endsDigits {rest : List Char} (h : Delimited rest) : EndsDigits rest := by
  intro c hc
  have hnumeric := h c hc
  by_contra hdigit
  rw [isNumeric_of_isDigit (by simpa using hdigit)] at hnumeric
  cases hnumeric

/-- The digits as a whole part, which does not begin with a needless zero. -/
def whole? : List Char → Option (List Char)
  | '0' :: _ :: _ => none
  | w => some w

theorem whole?_toString (n : Nat) : whole? (toString n).toList = some (toString n).toList := by
  unfold whole?
  split
  · next c cs hcs =>
    by_cases hn : n = 0
    · subst hn
      cases hcs
    · exact absurd (by rw [hcs]; rfl) (Text.head?_toString_ne_zero hn)
  · rfl

section

variable {w f rest : List Char} (hw : ∀ c ∈ w, isDigit c = true) (hne : w ≠ [])

include hw hne

theorem digits1_append (hrest : EndsDigits rest) : digits1 (w ++ rest) = some (w, rest) := by
  obtain ⟨c, w, rfl⟩ := List.exists_cons_of_ne_nil hne
  rw [digits1, digits_append hw hrest]

theorem wholeText_append (hrest : EndsDigits rest) :
    wholeText (w ++ rest) = (whole? w).map (·, rest) := by
  rw [wholeText, digits1_append hw hne hrest]
  unfold whole?
  split <;> simp_all

end

section

variable {rest : List Char} (h : Delimited rest)

include h

theorem fractionText_delimited : fractionText rest = some (none, rest) := by
  cases rest with
  | nil => rfl
  | cons c rest =>
    have hc : c ≠ '.' := by
      rintro rfl
      cases h '.' rfl
    simp [fractionText, hc]

theorem exponentText_delimited : exponentText rest = some (none, rest) := by
  cases rest with
  | nil => rfl
  | cons c rest =>
    have he : c ≠ 'e' := by
      rintro rfl
      cases h 'e' rfl
    have hE : c ≠ 'E' := by
      rintro rfl
      cases h 'E' rfl
    simp [exponentText, he, hE]

theorem digits1_delimited : digits1 rest = none := by
  have hdigits : digits rest = ([], rest) := digits_append (List.forall_mem_nil _) h.endsDigits
  rw [digits1, hdigits]

end

/-- What a number is read as after its sign. -/
def afterSign (negative : Bool) (text : List Char) : Option (NumberText × List Char) := do
  let (whole, text) ← wholeText text
  let (fraction, text) ← fractionText text
  let (exponent, text) ← exponentText text
  return (⟨negative, whole, fraction, exponent⟩, text)

theorem numberText_signed {c : Char} (hc : isDigit c = true) (negative : Bool) (cs : List Char) :
    numberText (Double.signText negative ++ c :: cs) = afterSign negative (c :: cs) := by
  cases negative with
  | true => rfl
  | false =>
    have hsign : c ≠ '-' := by
      rintro rfl
      cases hc
    simp [numberText, afterSign, Double.signText, hsign]

theorem numberText_integer (negative : Bool) (n : Nat) {rest : List Char} (h : Delimited rest) :
    numberText (Double.signText negative ++ ((toString n).toList ++ rest)) =
      some (⟨negative, (toString n).toList, none, none⟩, rest) := by
  have hwhole := wholeText_append (fun _ => Text.isDigit_of_mem_toString) (Text.toString_ne_nil n)
    h.endsDigits
  have hwhole? := whole?_toString n
  obtain ⟨c, cs, hcs, hc⟩ := Text.exists_cons_toString n
  rw [hcs, List.cons_append, numberText_signed hc, ← List.cons_append, ← hcs]
  generalize (toString n).toList = ds at hwhole hwhole? hcs ⊢
  simp only [afterSign, hwhole, hwhole?, Option.map_some, Option.bind_eq_bind, Option.bind_some,
    fractionText_delimited h, exponentText_delimited h, Option.pure_def]

theorem exponentText_written (plusSign : Bool) (e : ℤ) {rest : List Char} (h : Delimited rest) :
    exponentText ('e' :: (Double.exponentText plusSign e ++ rest)) =
      some (some (decide (e < 0), (toString e.natAbs).toList), rest) := by
  have hdigits := digits1_append (fun _ => Text.isDigit_of_mem_toString)
    (Text.toString_ne_nil e.natAbs) h.endsDigits
  obtain ⟨c, cs, hcs, hc⟩ := Text.exists_cons_toString e.natAbs
  unfold Double.exponentText
  generalize (toString e.natAbs).toList = ds at hdigits hcs ⊢
  split
  · next he => simp [exponentText, he, hdigits]
  · next he =>
    split
    · simp [exponentText, he, hdigits]
    · subst hcs
      have hsign : ∀ d, isDigit d = false → c ≠ d := fun d hd =>
        ne_of_apply_ne isDigit (by simp [hc, hd])
      rw [List.cons_append] at hdigits
      simp [exponentText, he, hdigits, hsign '-' rfl, hsign '+' rfl]

/-- What a written form is read as does not depend on what follows. -/
theorem afterSign_form {x : ℚ} {body : List Char} (h : Double.Form x body) (negative : Bool) :
    ∃ t : Option NumberText, ∀ {rest}, Delimited rest →
      afterSign negative (body ++ rest) = t.map (·, rest) := by
  cases h with
  | @point w f hw hne hf hx =>
    refine ⟨if f = [] then none else (whole? w).map (⟨negative, ·, some f, none⟩),
      fun {rest} hrest => ?_⟩
    have hwhole := wholeText_append hw hne (Double.endsDigits_cons (c := '.') rfl (f ++ rest))
    rw [List.append_assoc, List.cons_append, afterSign, hwhole]
    split
    · next hnil =>
      subst hnil
      cases whole? w <;> simp [fractionText, digits1_delimited hrest]
    · next hf' =>
      have hfraction := digits1_append hf hf' hrest.endsDigits
      cases whole? w <;> simp [fractionText, hfraction, exponentText_delimited hrest]
  | @exponent w f hw hne hf plusSign e hx =>
    refine ⟨(whole? w).map (⟨negative, ·, if f = [] then none else some f,
      some (decide (e < 0), (toString e.natAbs).toList)⟩), fun {rest} hrest => ?_⟩
    rw [List.append_assoc, List.append_assoc, afterSign]
    unfold Double.pointed
    split
    · next hnil =>
      have hwhole := wholeText_append hw hne
        (Double.endsDigits_cons (c := 'e') rfl (Double.exponentText plusSign e ++ rest))
      rw [List.nil_append, List.cons_append, hwhole]
      cases whole? w <;> simp [fractionText, exponentText_written plusSign e hrest]
    · next hf' =>
      have hwhole := wholeText_append hw hne (Double.endsDigits_cons (c := '.') rfl
        (f ++ 'e' :: (Double.exponentText plusSign e ++ rest)))
      have hfraction := digits1_append hf hf'
        (Double.endsDigits_cons (c := 'e') rfl (Double.exponentText plusSign e ++ rest))
      simp only [List.cons_append]
      rw [hwhole]
      cases whole? w <;> simp [fractionText, hfraction, exponentText_written plusSign e hrest]

theorem isBlank_of_isNumeric {c : Char} (h : isNumeric c = true) : isBlank c = false := by
  by_contra hblank
  simp only [isBlank, Bool.not_eq_false, Bool.or_eq_true, decide_eq_true_eq] at hblank
  rcases hblank with ((rfl | rfl) | rfl) | rfl <;> cases h

theorem skipBlanks_cons {c : Char} (h : isBlank c = false) (cs : List Char) :
    skipBlanks (c :: cs) = c :: cs :=
  List.dropWhile_cons_of_neg (by simp [h])

theorem value_scalar {c : Char} (harr : c ≠ '[') (hobj : c ≠ '\x7b') (depth : Nat)
    (cs : List Char) : value depth (c :: cs) = scalar (c :: cs) := by
  cases depth with
  | zero => rfl
  | succ depth => simp [value, harr, hobj]

theorem scalar_numeric {c : Char} (h : isNumeric c = true) (cs : List Char) :
    scalar (c :: cs) = (numberText (c :: cs)).bind fun r => r.1.toNumber?.map (num ·, r.2) := by
  have hne : ∀ d, isNumeric d = false → c ≠ d := fun d hd =>
    ne_of_apply_ne isNumeric (by simp [h, hd])
  simp only [scalar, hne 'n' rfl, hne 't' rfl, hne 'f' rfl, hne '"' rfl, if_false,
    Option.bind_eq_bind, Option.pure_def, Option.map_eq_bind, Function.comp_def]

theorem scalar_text (n : Number) (rest : List Char) : scalar (n.text.toList ++ rest) =
    (numberText (n.text.toList ++ rest)).bind fun r => r.1.toNumber?.map (num ·, r.2) := by
  obtain ⟨c, cs, hcs, hc⟩ := n.exists_cons_text
  rw [hcs, List.cons_append, scalar_numeric hc]

theorem value_text (n : Number) (depth : Nat) (rest : List Char) :
    value depth (n.text.toList ++ rest) = scalar (n.text.toList ++ rest) := by
  obtain ⟨c, cs, hcs, hc⟩ := n.exists_cons_text
  rw [hcs, List.cons_append]
  refine value_scalar ?_ ?_ depth _ <;> (rintro rfl; cases hc)

theorem scalar_text_eq_some {n : Number} {rest : List Char} {t : NumberText}
    (htext : numberText (n.text.toList ++ rest) = some (t, rest)) (hn : t.toNumber? = some n) :
    scalar (n.text.toList ++ rest) = some (num n, rest) := by
  rw [scalar_text, htext, Option.bind_some, hn, Option.map_some]

/-- The double, as it is written, is read as itself. -/
def ReadsBack (x : Double) : Prop := parse? (num (.double x)).canonical = some (num (.double x))

/-- What a double is read as does not depend on what follows. -/
theorem numberText_double (x : Double) : ∃ t : Option NumberText, ∀ {rest}, Delimited rest →
    numberText ((Number.double x).text.toList ++ rest) = t.map (·, rest) := by
  obtain ⟨body, htext, hform⟩ := doubleStyle.exists_form x
  obtain ⟨t, ht⟩ := afterSign_form hform x.negative
  refine ⟨t, fun {rest} hrest => ?_⟩
  obtain ⟨c, cs, rfl, hc⟩ := hform.head_isDigit
  rw [Number.text, htext, List.append_assoc, List.cons_append, numberText_signed hc,
    ← List.cons_append, ht hrest]

theorem parse?_canonical_num (n : Number) :
    parse? (num n).canonical = (scalar n.text.toList).bind fun r =>
      if (skipBlanks r.2).isEmpty then some r.1.sorted else none := by
  have hblank : skipBlanks n.text.toList = n.text.toList := by
    obtain ⟨c, cs, hcs, hc⟩ := n.exists_cons_text
    rw [hcs, skipBlanks_cons (isBlank_of_isNumeric hc)]
  have hvalue := value_text n maxDepth []
  rw [List.append_nil] at hvalue
  have htext : (num n).canonical.toList = n.text.toList := String.toList_ofList
  rw [parse?, readMembers?, htext, hblank, hvalue]
  cases scalar n.text.toList with
  | none => rfl
  | some r =>
    simp only [Option.bind_eq_bind, Option.bind_some]
    split <;> rfl

theorem scalar_double {x : Double} (hx : ReadsBack x) {rest : List Char} (h : Delimited rest) :
    scalar ((Number.double x).text.toList ++ rest) = some (num (.double x), rest) := by
  obtain ⟨t?, ht⟩ := numberText_double x
  -- the parts of the text are the same with anything after it, and alone they give the number
  have halone := scalar_text (.double x) []
  rw [ht delimited_nil, List.append_nil] at halone
  rw [ReadsBack, parse?_canonical_num, halone] at hx
  obtain ⟨r, hr, hsorted⟩ := Option.bind_eq_some_iff.1 hx
  obtain ⟨⟨t, after⟩, hmap, hnumber⟩ := Option.bind_eq_some_iff.1 hr
  obtain ⟨t, rfl, ⟨⟩⟩ := Option.map_eq_some_iff.1 hmap
  obtain ⟨n, hn, rfl⟩ := Option.map_eq_some_iff.1 hnumber
  have hnum : num n = num (.double x) := Option.some.inj hsorted
  exact scalar_text_eq_some (ht h) (hn.trans (congrArg some (num.inj hnum)))

theorem toNumber?_natural {ds : List Char} {n : UInt64} (h : decimalValue ds = n.toNat) :
    NumberText.toNumber? ⟨false, ds, none, none⟩ = some (.natural n) := by
  have hlt : n.toNat < UInt64.size := n.toNat_lt
  simp [NumberText.toNumber?, h, hlt]

theorem toNumber?_negative {ds : List Char} {m : Fin (Nat.pow 2 63)}
    (h : decimalValue ds = m.val + 1) :
    NumberText.toNumber? ⟨true, ds, none, none⟩ = some (.negative m) := by
  simp [NumberText.toNumber?, h, m.isLt]

theorem scalar_number {n : Number} (hn : ∀ x, n = .double x → ReadsBack x) {rest : List Char}
    (h : Delimited rest) : scalar (n.text.toList ++ rest) = some (num n, rest) := by
  cases n with
  | natural n =>
    exact scalar_text_eq_some (numberText_integer false n.toNat h)
      (toNumber?_natural (Text.decimalValue_toString _))
  | negative m =>
    refine scalar_text_eq_some ?_ (toNumber?_negative (Text.decimalValue_toString (m.val + 1)))
    rw [Number.toList_text_negative]
    exact numberText_integer true (m.val + 1) h
  | double x => exact scalar_double (hn x rfl) h

section

variable {α : Type} {item : Reader α} {text : α → List Char} {close : Char} {rest : List Char}

/-- A text of this kind is read off the front of what goes on with no numeric character. -/
def ReadsOff (item : Reader α) (text : α → List Char) (a : α) : Prop :=
  ∀ {rest}, Delimited rest → item (text a ++ rest) = some (a, rest)

/-- The text begins with a character that is neither blank nor closes. -/
def Opens (text : α → List Char) (close : Char) (a : α) : Prop :=
  ∃ c cs, text a = c :: cs ∧ isBlank c = false ∧ c ≠ close

theorem Opens.skipBlanks {a : α} (h : Opens text close a) (rest : List Char) :
    skipBlanks (text a ++ rest) = text a ++ rest := by
  obtain ⟨c, cs, hcs, hc, -⟩ := h
  rw [hcs, List.cons_append, skipBlanks_cons hc]

theorem items_separated (hnumeric : isNumeric close = false) (hblank : isBlank close = false)
    (hcomma : close ≠ ',') (hopens : ∀ a, Opens text close a) {fuel : Nat} {x : α} {xs : List α}
    (hread : ∀ y ∈ x :: xs, ReadsOff item text y) (hfuel : xs.length < fuel) :
    items item close fuel (separated ((x :: xs).map text) ++ close :: rest) =
      some (x :: xs, rest) := by
  induction xs generalizing x fuel with
  | nil =>
    obtain ⟨fuel, rfl⟩ := Nat.exists_eq_succ_of_ne_zero (Nat.ne_of_gt hfuel)
    have htext : separated ([x].map text) = text x := by simp [separated]
    have hitem := hread x List.mem_cons_self (delimited_cons hnumeric rest)
    rw [htext, items, (hopens x).skipBlanks, hitem]
    simp [skipBlanks_cons hblank, hcomma, expect]
  | cons x' xs ih =>
    obtain ⟨fuel, rfl⟩ := Nat.exists_eq_succ_of_ne_zero (Nat.ne_of_gt (Nat.zero_lt_of_lt hfuel))
    -- each item takes one unit of fuel, and the text is longer than it has items
    have hrest := ih (fun y hy => hread y (List.mem_cons_of_mem x hy))
      (Nat.lt_of_succ_lt_succ hfuel)
    have hitem := hread x List.mem_cons_self (delimited_cons (c := ',') rfl
      (separated ((x' :: xs).map text) ++ close :: rest))
    rw [List.map_cons, List.map_cons, separated_cons_cons, List.append_assoc, List.cons_append,
      ← List.map_cons]
    generalize separated ((x' :: xs).map text) ++ close :: rest = after at hrest hitem
    rw [items, (hopens x).skipBlanks, hitem]
    simp [skipBlanks_cons (c := ',') rfl, hrest]

theorem length_le_followed (ts : List (List Char)) :
    ts.length ≤ (ts.flatMap (',' :: ·)).length := by
  induction ts with
  | nil => exact Nat.le_refl 0
  | cons t ts ih =>
    rw [List.flatMap_cons, List.length_append, List.length_cons, List.length_cons]
    omega

theorem sequence_separated (hnumeric : isNumeric close = false) (hblank : isBlank close = false)
    (hcomma : close ≠ ',') (hopens : ∀ a, Opens text close a) {xs : List α}
    (hread : ∀ y ∈ xs, ReadsOff item text y) :
    sequence item close (separated (xs.map text) ++ close :: rest) = some (xs, rest) := by
  cases xs with
  | nil => simp [sequence, separated, skipBlanks_cons hblank, expect]
  | cons x xs =>
    obtain ⟨c, cs, hcs, hc, hne⟩ := hopens x
    have hopen : expect close (Json.skipBlanks (separated ((x :: xs).map text) ++ close :: rest)) =
        none := by
      rw [List.map_cons, separated, hcs]
      simp [skipBlanks_cons hc, expect, Ne.symm hne]
    rw [sequence, hopen]
    refine items_separated hnumeric hblank hcomma hopens hread ?_
    have hlength := length_le_followed (xs.map text)
    rw [List.length_map] at hlength
    rw [List.map_cons, separated, List.length_append, List.length_append, List.length_cons]
    omega

end

theorem opens_chars (v : Json) : Opens chars ']' v := by
  obtain ⟨c, cs, hv, hc⟩ := v.exists_cons_chars
  refine ⟨c, cs, hv, ?_⟩
  by_cases hnumeric : isNumeric c = true
  · refine ⟨isBlank_of_isNumeric hnumeric, ?_⟩
    rintro rfl
    cases hnumeric
  · rw [if_neg hnumeric] at hc
    cases v with
    | bool b => cases b <;> cases hc <;> exact ⟨rfl, by decide⟩
    | num n => cases hc
    | _ => cases hc; exact ⟨rfl, by decide⟩

theorem opens_memberText (e : String × Json) : Opens memberText '\x7d' e :=
  ⟨_, _, rfl, rfl, by decide⟩

mutual

/-- How deep brackets nest in the text of a value. -/
def depth : Json → Nat
  | arr items => itemsDepth items + 1
  | obj ms => membersDepth ms + 1
  | _ => 0

def itemsDepth : List Json → Nat
  | [] => 0
  | v :: rest => max v.depth (itemsDepth rest)

def membersDepth : List (String × Json) → Nat
  | [] => 0
  | (_, v) :: rest => max v.depth (membersDepth rest)

end

mutual

/-- The doubles that occur in a value. -/
def doubles : Json → List Double
  | num (.double x) => [x]
  | arr items => itemsDoubles items
  | obj ms => membersDoubles ms
  | _ => []

def itemsDoubles : List Json → List Double
  | [] => []
  | v :: rest => v.doubles ++ itemsDoubles rest

def membersDoubles : List (String × Json) → List Double
  | [] => []
  | (_, v) :: rest => v.doubles ++ membersDoubles rest

end

theorem itemsDepth_le_iff {items : List Json} {d : Nat} :
    itemsDepth items ≤ d ↔ ∀ v ∈ items, v.depth ≤ d := by
  induction items with
  | nil => simp [itemsDepth]
  | cons v items ih => rw [itemsDepth, Nat.max_le, ih, List.forall_mem_cons]

theorem membersDepth_le_iff {ms : List (String × Json)} {d : Nat} :
    membersDepth ms ≤ d ↔ ∀ e ∈ ms, e.2.depth ≤ d := by
  induction ms with
  | nil => simp [membersDepth]
  | cons e ms ih => rw [membersDepth, Nat.max_le, ih, List.forall_mem_cons]

theorem mem_itemsDoubles {items : List Json} {x : Double} :
    x ∈ itemsDoubles items ↔ ∃ v ∈ items, x ∈ v.doubles := by
  induction items with
  | nil => simp [itemsDoubles]
  | cons v items ih => rw [itemsDoubles, List.mem_append, ih, List.exists_mem_cons_iff]

theorem mem_membersDoubles {ms : List (String × Json)} {x : Double} :
    x ∈ membersDoubles ms ↔ ∃ e ∈ ms, x ∈ e.2.doubles := by
  induction ms with
  | nil => simp [membersDoubles]
  | cons e ms ih => rw [membersDoubles, List.mem_append, ih, List.exists_mem_cons_iff]

/-- The text of the value is within the reach of a reader of this depth. -/
structure Readable (d : Nat) (v : Json) : Prop where
  depth_le : v.depth ≤ d
  readsBack : ∀ x ∈ v.doubles, ReadsBack x

theorem readable_arr_iff {d : Nat} {items : List Json} :
    Readable d (arr items) ↔ ∃ d', d = d' + 1 ∧ ∀ v ∈ items, Readable d' v := by
  constructor
  · intro h
    obtain ⟨d', rfl⟩ := Nat.exists_eq_add_of_le' (Nat.le_of_add_left_le h.depth_le)
    have hdepth := itemsDepth_le_iff.1 (Nat.le_of_succ_le_succ h.depth_le)
    exact ⟨d', rfl, fun v hv => ⟨hdepth v hv, fun x hx =>
      h.readsBack x (mem_itemsDoubles.2 ⟨v, hv, hx⟩)⟩⟩
  · rintro ⟨d', rfl, h⟩
    refine ⟨Nat.succ_le_succ (itemsDepth_le_iff.2 fun v hv => (h v hv).depth_le), fun x hx => ?_⟩
    obtain ⟨v, hv, hx⟩ := mem_itemsDoubles.1 hx
    exact (h v hv).readsBack x hx

theorem readable_obj_iff {d : Nat} {ms : List (String × Json)} :
    Readable d (obj ms) ↔ ∃ d', d = d' + 1 ∧ ∀ e ∈ ms, Readable d' e.2 := by
  constructor
  · intro h
    obtain ⟨d', rfl⟩ := Nat.exists_eq_add_of_le' (Nat.le_of_add_left_le h.depth_le)
    have hdepth := membersDepth_le_iff.1 (Nat.le_of_succ_le_succ h.depth_le)
    exact ⟨d', rfl, fun e he => ⟨hdepth e he, fun x hx =>
      h.readsBack x (mem_membersDoubles.2 ⟨e, he, hx⟩)⟩⟩
  · rintro ⟨d', rfl, h⟩
    refine ⟨Nat.succ_le_succ (membersDepth_le_iff.2 fun e he => (h e he).depth_le), fun x hx => ?_⟩
    obtain ⟨e, he, hx⟩ := mem_membersDoubles.1 hx
    exact (h e he).readsBack x hx

theorem readsOff_memberText {item : Reader Json} {e : String × Json}
    (h : ReadsOff item chars e.2) : ReadsOff (member item) memberText e := by
  intro rest hrest
  have htext : memberText e ++ rest = quoted e.1 ++ ':' :: (e.2.chars ++ rest) := by
    simp [memberText]
  rw [htext, member, string_quoted]
  simp [skipBlanks_cons (c := ':') rfl, expect, (opens_chars e.2).skipBlanks, h hrest]

/-- A value is read off the front of a text that it begins. -/
theorem readsOff_chars (v : Json) {d : Nat} (h : Readable d v) : ReadsOff (value d) chars v := by
  induction v using Json.induction generalizing d with
  | null =>
    intro rest _
    exact value_scalar (by decide) (by decide) d _
  | bool b =>
    intro rest _
    cases b <;> exact value_scalar (by decide) (by decide) d _
  | num n =>
    intro rest hrest
    rw [chars, value_text]
    refine scalar_number ?_ hrest
    rintro x rfl
    exact h.readsBack x List.mem_cons_self
  | str s =>
    intro rest _
    have hscalar : value d (quoted s ++ rest) = (string (quoted s ++ rest)).map
        fun r => (str r.1, r.2) := value_scalar (by decide) (by decide) d _
    rw [chars, hscalar, string_quoted, Option.map_some]
  | arr items ih =>
    intro rest _
    obtain ⟨d, rfl, hitems⟩ := readable_arr_iff.1 h
    have hsequence : sequence (value d) ']' (separated (items.map chars) ++ ']' :: rest) =
        some (items, rest) :=
      sequence_separated rfl rfl (by decide) opens_chars fun v hv => ih v hv (hitems v hv)
    have htext : (arr items).chars ++ rest =
        '[' :: (separated (items.map chars) ++ ']' :: rest) := by
      simp [chars, itemChars_eq]
    rw [htext, value, hsequence, Option.map_some]
  | obj ms ih =>
    intro rest _
    obtain ⟨d, rfl, hmembers⟩ := readable_obj_iff.1 h
    have hsequence : sequence (member (value d)) '\x7d'
        (separated (ms.map memberText) ++ '\x7d' :: rest) = some (ms, rest) :=
      sequence_separated rfl rfl (by decide) opens_memberText fun e he =>
        readsOff_memberText (ih e he (hmembers e he))
    have htext : (obj ms).chars ++ rest =
        '\x7b' :: (separated (ms.map memberText) ++ '\x7d' :: rest) := by
      simp [chars, memberChars_eq]
    rw [htext, value, hsequence, Option.map_some]

/-- A value within the depth that is read is read back with its members in key order. -/
theorem parse?_text {v : Json} (h : Readable maxDepth v) : parse? v.text = some v.sorted := by
  have hvalue := readsOff_chars v h delimited_nil
  have hblank := (opens_chars v).skipBlanks []
  rw [List.append_nil] at hvalue hblank
  have hread : readMembers? v.text.toList = some v := by
    rw [text, String.toList_ofList, readMembers?, hblank, hvalue]
    rfl
  rw [parse?, hread, Option.map_some]

end Reconciliation.Json
