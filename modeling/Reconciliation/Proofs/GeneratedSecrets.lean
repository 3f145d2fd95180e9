import Mathlib.Data.Set.Card
import Reconciliation.Proofs.Step
import Reconciliation.Secret

/-! A secret takes the first twenty bytes below the limit from a stream of random bytes, which
comes in blocks. No block is asked for once they are there, and what is left of the last one is
dropped. The limit is a multiple of the alphabet's size, so each character stands for equally many
of the bytes. -/
namespace Reconciliation.Entropy

theorem length_alphabet : alphabet.length = 62 := by decide +kernel

theorem nodup_alphabet : alphabet.Nodup := by decide +kernel

theorem isAlphanum_of_mem_alphabet : ∀ c ∈ alphabet, c.isAlphanum = true :=
  List.all_eq_true.1 (by decide +kernel)

theorem getElem?_alphabet (b : UInt8) : alphabet[b.toNat % 62]? = some (secretChar b) := by
  have hlt : b.toNat % 62 < alphabet.length := by
    rw [length_alphabet]
    exact Nat.mod_lt _ (by decide)
  rw [secretChar, List.getD_eq_getElem?_getD, List.getElem?_eq_getElem hlt, Option.getD_some]

theorem isAlphanum_secretChar (b : UInt8) : (secretChar b).isAlphanum = true :=
  isAlphanum_of_mem_alphabet _ (List.mem_of_getElem? (getElem?_alphabet b))

theorem secretChar_eq_iff {i : Nat} (hi : i < alphabet.length) {b : UInt8} :
    secretChar b = alphabet[i] ↔ b.toNat % 62 = i := by
  obtain ⟨hlt, hchar⟩ := List.getElem?_eq_some_iff.1 (getElem?_alphabet b)
  rw [← hchar, nodup_alphabet.getElem_inj_iff]

/-- The bytes for one character are as far from each other as the alphabet is long. -/
theorem bytes_eq_image {i : Nat} (hi : i < alphabet.length) :
    {b : UInt8 | b < limit ∧ secretChar b = alphabet[i]} =
      (fun k => UInt8.ofNat (i + 62 * k)) '' (Finset.range 4 : Set Nat) := by
  have hsize := length_alphabet
  ext b
  simp only [Set.mem_ofPred_eq, secretChar_eq_iff hi, UInt8.lt_iff_toNat_lt, Set.mem_image,
    Finset.coe_range, Set.mem_Iio]
  have hlimit : limit.toNat = 248 := rfl
  have hbytes : UInt8.size = 256 := rfl
  constructor
  · rintro ⟨hb, hmod⟩
    refine ⟨b.toNat / 62, by omega, ?_⟩
    rw [← hmod, Nat.mod_add_div, UInt8.ofNat_toNat]
  · rintro ⟨k, hk, rfl⟩
    rw [UInt8.toNat_ofNat_of_lt' (by omega)]
    omega

theorem ncard_bytes {c : Char} (hc : c ∈ alphabet) :
    Set.ncard {b : UInt8 | b < limit ∧ secretChar b = c} = 4 := by
  obtain ⟨i, hi, rfl⟩ := List.getElem_of_mem hc
  have hsize := length_alphabet
  have hbytes : UInt8.size = 256 := rfl
  have hinj : Set.InjOn (fun k => UInt8.ofNat (i + 62 * k)) (Finset.range 4 : Set Nat) := by
    intro k hk l hl heq
    have hk := Finset.mem_range.1 hk
    have hl := Finset.mem_range.1 hl
    have hnat := congrArg UInt8.toNat heq
    simp only at hnat
    rw [UInt8.toNat_ofNat_of_lt' (by omega), UInt8.toNat_ofNat_of_lt' (by omega)] at hnat
    omega
  rw [bytes_eq_image hi, hinj.ncard_image, Set.ncard_coe_finset, Finset.card_range]

/-- The bytes of a stream that stand for characters. -/
def accepted (stream : List UInt8) : List UInt8 := stream.filter (· < limit)

theorem accepted_append (stream rest : List UInt8) :
    accepted (stream ++ rest) = accepted stream ++ accepted rest := List.filter_append ..

/-- A stream can be cut after any number of accepted bytes that it has. -/
theorem exists_front {n : Nat} {stream : List UInt8} (hn : n ≤ (accepted stream).length) :
    ∃ front back, stream = front ++ back ∧ (accepted front).length = n := by
  induction stream generalizing n with
  | nil => exact ⟨[], [], rfl, (Nat.le_zero.1 hn).symm⟩
  | cons b stream ih =>
    by_cases hzero : n = 0
    · exact ⟨[], b :: stream, rfl, hzero.symm⟩
    by_cases hb : b < limit
    · have hlength : (accepted (b :: stream)).length = (accepted stream).length + 1 := by
        simp [accepted, hb]
      obtain ⟨front, back, rfl, hfront⟩ := ih (n := n - 1) (by omega)
      refine ⟨b :: front, back, rfl, ?_⟩
      simp only [accepted] at hfront
      simp [accepted, hb, hfront]
      omega
    · have hlength : accepted (b :: stream) = accepted stream := by simp [accepted, hb]
      obtain ⟨front, back, rfl, hfront⟩ := ih (hlength ▸ hn)
      refine ⟨b :: front, back, rfl, ?_⟩
      simpa [accepted, hb] using hfront

variable {n : Nat} {blocks init more : Entropy} {block front back : List UInt8}

/-- Among enough blocks there is one in which the bytes become complete. -/
theorem exists_completing (hn : n ≠ 0) (h : n ≤ (accepted blocks.flatten).length) :
    ∃ init front back more, blocks = init ++ (front ++ back) :: more ∧
      (accepted init.flatten).length < n ∧ (accepted (init.flatten ++ front)).length = n := by
  induction blocks generalizing n with
  | nil => exact absurd (Nat.le_zero.1 h) hn
  | cons block blocks ih =>
    rw [List.flatten_cons, accepted_append, List.length_append] at h
    by_cases hblock : n ≤ (accepted block).length
    · obtain ⟨front, back, rfl, hfront⟩ := exists_front hblock
      exact ⟨[], front, back, blocks, rfl, Nat.pos_of_ne_zero hn, hfront⟩
    · obtain ⟨init, front, back, more, rfl, hshort, hfull⟩ :=
        ih (n := n - (accepted block).length) (by omega) (by omega)
      refine ⟨block :: init, front, back, more, rfl, ?_, ?_⟩
      · rw [List.flatten_cons, accepted_append, List.length_append]
        omega
      · rw [List.flatten_cons, List.append_assoc, accepted_append, List.length_append, hfull]
        omega

theorem draw_zero (blocks : Entropy) : draw 0 blocks = (.ok [], blocks) := by
  rw [draw.eq_def, if_pos rfl]

theorem draw_cons_of_short (h : (accepted block).length < n) :
    draw n (block :: more) =
      ((draw (n - (accepted block).length) more).1.map ((accepted block).map secretChar ++ ·),
        (draw (n - (accepted block).length) more).2) := by
  have htake : (block.filter (· < limit)).take n = accepted block := List.take_of_length_le h.le
  rw [draw, if_neg (Nat.ne_zero_of_lt h)]
  simp only [htake, List.length_map]
  rcases draw (n - (accepted block).length) more with ⟨e | cs, rest⟩ <;> rfl

theorem draw_cons_of_full (hn : n ≠ 0) (h : (accepted front).length = n) :
    draw n ((front ++ back) :: more) = (.ok ((accepted front).map secretChar), more) := by
  have htake : ((front ++ back).filter (· < limit)).take n = accepted front := by
    rw [List.filter_append]
    exact List.take_left' h
  have hnone : n - ((accepted front).map secretChar).length = 0 := by
    rw [List.length_map, h, Nat.sub_self]
  rw [draw, if_neg hn]
  simp only [htake, hnone, draw_zero, List.append_nil]

theorem draw_of_short (h : (accepted blocks.flatten).length < n) :
    draw n blocks = (.error (.random "no entropy"), []) := by
  induction blocks generalizing n with
  | nil => rw [draw, if_neg (Nat.ne_zero_of_lt h)]
  | cons block blocks ih =>
    rw [List.flatten_cons, accepted_append, List.length_append] at h
    rw [draw_cons_of_short (by omega), ih (by omega)]
    rfl

/-- Neither the rest of the block in which the bytes become complete nor the blocks after it play
a part. -/
theorem draw_of_full (hshort : (accepted init.flatten).length < n)
    (hfull : (accepted (init.flatten ++ front)).length = n) :
    draw n (init ++ (front ++ back) :: more) =
      (.ok ((accepted (init.flatten ++ front)).map secretChar), more) := by
  induction init generalizing n with
  | nil => exact draw_cons_of_full (Nat.ne_zero_of_lt hshort) hfull
  | cons block init ih =>
    rw [List.flatten_cons, accepted_append, List.length_append] at hshort
    rw [List.flatten_cons, List.append_assoc, accepted_append, List.length_append] at hfull
    rw [List.flatten_cons, List.append_assoc, accepted_append, List.map_append, List.cons_append,
      draw_cons_of_short (by omega), ih (by omega) (by omega)]
    rfl

theorem generate_of_short (h : (accepted blocks.flatten).length < secretLength) :
    generate blocks = (.error (.random "no entropy"), []) := by
  simp only [generate, Step.mk_apply, draw_of_short h]

theorem generate_of_full (hshort : (accepted init.flatten).length < secretLength)
    (hfull : (accepted (init.flatten ++ front)).length = secretLength) :
    generate (init ++ (front ++ back) :: more) =
      (.ok (String.ofList ((accepted (init.flatten ++ front)).map secretChar)), more) := by
  simp only [generate, Step.mk_apply, draw_of_full hshort hfull]

theorem exists_generate (h : secretLength ≤ (accepted blocks.flatten).length) :
    ∃ init block more, blocks = init ++ block :: more ∧
      (accepted init.flatten).length < secretLength ∧
      secretLength ≤ (accepted (init ++ [block]).flatten).length ∧
      generate blocks =
        (.ok (String.ofList (((accepted blocks.flatten).take secretLength).map secretChar)),
          more) := by
  obtain ⟨init, front, back, more, rfl, hshort, hfull⟩ := exists_completing (by decide) h
  have hstream : (init ++ (front ++ back) :: more).flatten =
      (init.flatten ++ front) ++ (back ++ more.flatten) := by simp
  refine ⟨init, front ++ back, more, rfl, hshort, ?_, ?_⟩
  · have hused : (init ++ [front ++ back]).flatten = (init.flatten ++ front) ++ back := by simp
    rw [hused, accepted_append, List.length_append, hfull]
    exact Nat.le_add_right ..
  · rw [generate_of_full hshort hfull, hstream, accepted_append (init.flatten ++ front),
      List.take_left' hfull]

theorem shape_of_generate {secret : String} (h : generate blocks = (.ok secret, more)) :
    secret.length = secretLength ∧ ∀ c ∈ secret.toList, c.isAlphanum = true := by
  by_cases henough : secretLength ≤ (accepted blocks.flatten).length
  · obtain ⟨_, _, _, _, _, _, hgenerate⟩ := exists_generate henough
    rw [hgenerate] at h
    cases h
    refine ⟨?_, ?_⟩
    · rw [String.length_ofList, List.length_map, List.length_take_of_le henough]
    · intro c hc
      rw [String.toList_ofList] at hc
      obtain ⟨b, -, rfl⟩ := List.mem_map.1 hc
      exact isAlphanum_secretChar b
  · rw [generate_of_short (Nat.not_le.1 henough)] at h
    cases h

/-- The secret is made of the first twenty accepted bytes, and the blocks after the one with the
last of them are left. A supply that ends before has no secret. What follows the twentieth byte,
be it in its block or in further ones without end, makes no difference. All secrets are twenty
letters and digits of ASCII, and each of these stands for four accepted bytes. -/
theorem generate_exact :
    (∀ blocks, secretLength ≤ (accepted blocks.flatten).length →
      ∃ init block more, blocks = init ++ block :: more ∧
        (accepted init.flatten).length < secretLength ∧
        secretLength ≤ (accepted (init ++ [block]).flatten).length ∧
        generate blocks =
          (.ok (String.ofList (((accepted blocks.flatten).take secretLength).map secretChar)),
            more)) ∧
    (∀ blocks, (accepted blocks.flatten).length < secretLength →
      generate blocks = (.error (.random "no entropy"), [])) ∧
    (∀ init front back more, (accepted init.flatten).length < secretLength →
      (accepted (init.flatten ++ front)).length = secretLength →
      generate (init ++ (front ++ back) :: more) =
        (.ok (String.ofList ((accepted (init.flatten ++ front)).map secretChar)), more)) ∧
    (∀ blocks secret more, generate blocks = (.ok secret, more) →
      secret.length = secretLength ∧ ∀ c ∈ secret.toList, c.isAlphanum = true) ∧
    (∀ b, alphabet[b.toNat % 62]? = some (secretChar b)) ∧
    ∀ c ∈ alphabet, Set.ncard {b : UInt8 | b < limit ∧ secretChar b = c} = 4 :=
  ⟨fun _ => exists_generate, fun _ => generate_of_short, fun _ _ _ _ => generate_of_full,
    fun _ _ _ => shape_of_generate, getElem?_alphabet, fun _ => ncard_bytes⟩

namespace Small

/-- One accepted byte is missing. -/
def scarce : List UInt8 := (List.range 19).map UInt8.ofNat ++ List.replicate 13 255

def ample : Entropy := [scarce, [250, 61] ++ List.replicate 30 7, List.replicate 32 0]

end Small

/-- The second block completes the secret with its second byte. -/
theorem generate_exact_small :
    generate Small.ample = (.ok "0123456789ABCDEFGHIz", [List.replicate 32 0]) ∧
    generate [Small.scarce] = (.error (.random "no entropy"), []) ∧
    "0123456789ABCDEFGHIz".length = secretLength ∧
    Set.ncard {b : UInt8 | b < limit ∧ secretChar b = 'z'} = 4 := by
  obtain ⟨-, hshort, hfull, hshape, -, hbytes⟩ := generate_exact
  have hgenerate : generate Small.ample = (.ok "0123456789ABCDEFGHIz", [List.replicate 32 0]) :=
    hfull [Small.scarce] [250, 61] (List.replicate 30 7) _ (by decide +kernel) (by decide +kernel)
  exact ⟨hgenerate, hshort _ (by decide +kernel), (hshape _ _ _ hgenerate).1,
    hbytes _ (by decide +kernel)⟩

end Reconciliation.Entropy
