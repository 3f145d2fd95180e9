import Mathlib.Algebra.Order.Field.Power
import Mathlib.Tactic.FieldSimp
import Mathlib.Tactic.Linarith
import Mathlib.Tactic.Positivity
import Mathlib.Tactic.Ring
import Reconciliation.Double.Shortest

/-! The numbers that round to one magnitude form an interval, and no two of these intervals meet:
where they touch, the common end belongs to the magnitude with the even significand. Seventeen
digits are enough to find a decimal in each of them. So the shortest decimal of a magnitude lies in
its interval, and different magnitudes have shortest decimals of different values. -/
namespace Reconciliation.Double

def Decimal.value (d : Decimal) : ℚ := d.digits * 10 ^ d.exponent

/-- All magnitudes are multiples of the inverse of this number. -/
def denominator : Nat := Nat.pow 2 1074

/-- Intervals are measured in quarters of it, in which their ends are whole. -/
def perOne : Nat := Nat.pow 2 1076

/-- The spacing of the magnitudes from this one upwards. -/
def unit (rank : Nat) : Nat := Nat.pow 2 (scale rank)

/-- The magnitude in quarters. -/
def middle (rank : Nat) : Nat := 4 * significand rank * unit rank

/-- The distance from a magnitude to the lower end of its interval. Below a power of two the
magnitudes lie closer. -/
def reach (rank : Nat) : Nat :=
  if significand rank = Nat.pow 2 52 ∧ scale rank ≠ 0 then unit rank else 2 * unit rank

def lower (rank : Nat) : Nat := middle rank - reach rank

def upper (rank : Nat) : Nat := middle rank + 2 * unit rank

theorem pow_fifty_two : Nat.pow 2 52 = 4503599627370496 := rfl

theorem perOne_eq : perOne = denominator * 4 := by decide +kernel

theorem denominator_pos : 0 < denominator := by decide +kernel

theorem unit_pos (rank : Nat) : 0 < unit rank := Nat.pow_pos (by decide)

theorem significand_mod_two (rank : Nat) : significand rank % 2 = rank % 2 := by
  simp only [significand, pow_fifty_two]
  split <;> omega

theorem reach_le (rank : Nat) : reach rank ≤ 2 * unit rank := by
  unfold reach
  split <;> omega

/-- The next magnitude has the next significand, or it is a power of two and begins a wider
spacing. -/
theorem succ_cases (rank : Nat) :
    (scale (rank + 1) = scale rank ∧ significand (rank + 1) = significand rank + 1 ∧
      reach (rank + 1) = 2 * unit (rank + 1)) ∨
    (scale (rank + 1) = scale rank + 1 ∧ significand rank + 1 = Nat.pow 2 53 ∧
      significand (rank + 1) = Nat.pow 2 52) := by
  have h53 : Nat.pow 2 53 = 9007199254740992 := rfl
  by_cases hpower : (rank + 1) % Nat.pow 2 52 = 0 ∧ Nat.pow 2 52 ≤ rank
  · refine .inr ?_
    simp only [scale, significand, pow_fifty_two, h53] at hpower ⊢
    split <;> split <;> omega
  · refine .inl ?_
    have hnarrow : ¬(significand (rank + 1) = Nat.pow 2 52 ∧ scale (rank + 1) ≠ 0) := by
      simp only [scale, significand, pow_fifty_two] at hpower ⊢
      split <;> omega
    refine ⟨?_, ?_, if_neg hnarrow⟩
    · simp only [scale, pow_fifty_two] at hpower ⊢
      split <;> split <;> omega
    · simp only [significand, pow_fifty_two] at hpower ⊢
      split <;> split <;> omega

/-- Each interval begins where the one before it ends. -/
theorem lower_succ (rank : Nat) : lower (rank + 1) = upper rank := by
  rcases succ_cases rank with ⟨hscale, hsig, hreach⟩ | ⟨hscale, hsig, hsig'⟩
  · have hunit : unit (rank + 1) = unit rank := by rw [unit, unit, hscale]
    have hmiddle : middle (rank + 1) = middle rank + 4 * unit rank := by
      rw [middle, middle, hunit, hsig]
      ring
    rw [lower, upper, hmiddle, hreach, hunit]
    omega
  · have hunit : unit (rank + 1) = 2 * unit rank := by
      rw [unit, unit, hscale]
      exact Nat.pow_succ'
    have hreach : reach (rank + 1) = 2 * unit rank := by
      rw [reach, if_pos ⟨hsig', by omega⟩, hunit]
    have hmiddle : middle (rank + 1) = middle rank + 4 * unit rank := by
      have hsum : 2 * significand (rank + 1) = significand rank + 1 := by
        rw [hsig, hsig']
      calc middle (rank + 1) = 4 * (2 * significand (rank + 1)) * unit rank := by
            rw [middle, hunit]
            ring
        _ = middle rank + 4 * unit rank := by
            rw [hsum, middle]
            ring
    rw [lower, upper, hmiddle, hreach]
    omega

theorem lower_lt_succ (rank : Nat) : lower rank < lower (rank + 1) := by
  have := unit_pos rank
  rw [lower_succ, lower, upper]
  omega

theorem lower_strictMono : StrictMono lower := strictMono_nat_of_lt_succ lower_lt_succ

/-- The number rounds to the magnitude: it lies in the interval, at an end only if the significand
is even. -/
structure RoundsTo (rank : Nat) (x : ℚ) : Prop where
  ge : (lower rank : ℚ) ≤ x * perOne
  le : x * perOne ≤ upper rank
  inside : rank % 2 = 1 → (lower rank : ℚ) < x * perOne ∧ x * perOne < upper rank

theorem RoundsTo.rank_le {r r' : Nat} {x : ℚ} (h : RoundsTo r x) (h' : RoundsTo r' x) :
    r' ≤ r := by
  by_contra hlt
  have hle : lower (r + 1) ≤ lower r' := lower_strictMono.monotone (by omega)
  rw [lower_succ] at hle
  have hmeet : (upper r : ℚ) ≤ lower r' := by exact_mod_cast hle
  have hx : x * perOne = upper r := le_antisymm h.le (hmeet.trans h'.ge)
  have hlower : lower r' = lower (r + 1) := by
    rw [lower_succ]
    exact_mod_cast le_antisymm (h'.ge.trans h.le) hmeet
  have hsucc : r' = r + 1 := lower_strictMono.injective hlower
  -- Of two neighbours one is odd and does not reach the common end.
  rcases Nat.mod_two_eq_zero_or_one r with heven | hodd
  · have hgt := (h'.inside (by omega)).1
    rw [hx, hlower, lower_succ] at hgt
    exact lt_irrefl _ hgt
  · have hlt := (h.inside hodd).2
    rw [hx] at hlt
    exact lt_irrefl _ hlt

theorem RoundsTo.unique {r r' : Nat} {x : ℚ} (h : RoundsTo r x) (h' : RoundsTo r' x) : r = r' :=
  le_antisymm (h'.rank_le h) (h.rank_le h')

namespace Decimal

variable (d : Decimal) (n : Nat)

theorem ratio_pos : 0 < d.ratio.2 := by
  unfold ratio
  split
  · exact Nat.pow_pos (by decide)
  · exact Nat.one_pos

theorem cast_pow (b n : Nat) : ((Nat.pow b n : Nat) : ℚ) = b ^ n := by
  rw [Nat.pow_eq, Nat.cast_pow]

theorem value_eq : d.value = d.ratio.1 / d.ratio.2 := by
  unfold value ratio
  split
  · next hneg =>
    obtain ⟨n, hn⟩ := Int.exists_eq_neg_ofNat hneg.le
    simp only [hn, cast_pow, Int.natAbs_neg, Int.natAbs_natCast, zpow_neg, zpow_natCast,
      div_eq_mul_inv]
    rfl
  · next hnonneg =>
    obtain ⟨n, hn⟩ := Int.eq_ofNat_of_zero_le (not_lt.1 hnonneg)
    simp only [hn, Nat.cast_mul, cast_pow, Int.natAbs_natCast, zpow_natCast, Nat.cast_one, div_one]
    rfl

theorem le_value_iff :
    (n : ℚ) ≤ d.value * perOne ↔ n * d.ratio.2 ≤ d.ratio.1 * perOne := by
  have hden : (0 : ℚ) < d.ratio.2 := by exact_mod_cast d.ratio_pos
  rw [value_eq, div_mul_eq_mul_div, le_div_iff₀ hden]
  exact_mod_cast Iff.rfl

theorem value_le_iff :
    d.value * perOne ≤ n ↔ d.ratio.1 * perOne ≤ n * d.ratio.2 := by
  have hden : (0 : ℚ) < d.ratio.2 := by exact_mod_cast d.ratio_pos
  rw [value_eq, div_mul_eq_mul_div, div_le_iff₀ hden]
  exact_mod_cast Iff.rfl

theorem lt_value_iff :
    (n : ℚ) < d.value * perOne ↔ n * d.ratio.2 < d.ratio.1 * perOne := by
  rw [← not_le, value_le_iff, not_le]

theorem value_lt_iff :
    d.value * perOne < n ↔ d.ratio.1 * perOne < n * d.ratio.2 := by
  rw [← not_le, le_value_iff, not_le]

end Decimal

theorem readsBack_eq (rank : Nat) (d : Decimal) : readsBack rank d =
    if rank % 2 = 0 then lower rank * d.ratio.2 ≤ d.ratio.1 * perOne &&
      d.ratio.1 * perOne ≤ upper rank * d.ratio.2
    else lower rank * d.ratio.2 < d.ratio.1 * perOne &&
      d.ratio.1 * perOne < upper rank * d.ratio.2 := by
  have hlower : lower rank = if significand rank = Nat.pow 2 52 ∧ scale rank ≠ 0 then
      middle rank - unit rank else middle rank - 2 * unit rank := by
    rw [lower, reach]
    split <;> rfl
  rw [← significand_mod_two, hlower]
  unfold upper middle unit perOne readsBack
  rfl

/-- The test compares the decimal with the ends of the interval. -/
theorem readsBack_iff {rank : Nat} {d : Decimal} :
    readsBack rank d = true ↔ RoundsTo rank d.value := by
  rw [readsBack_eq]
  split
  · next heven =>
    simp only [Bool.and_eq_true, decide_eq_true_eq, ← d.le_value_iff, ← d.value_le_iff]
    constructor
    · intro h
      exact ⟨h.1, h.2, fun hodd => by omega⟩
    · intro h
      exact ⟨h.ge, h.le⟩
  · next hodd =>
    simp only [Bool.and_eq_true, decide_eq_true_eq, ← d.lt_value_iff, ← d.value_lt_iff]
    constructor
    · intro h
      exact ⟨h.1.le, h.2.le, fun _ => h⟩
    · intro h
      exact h.inside (by omega)

theorem significand_lt (rank : Nat) : significand rank < Nat.pow 2 53 := by
  have h53 : Nat.pow 2 53 = 9007199254740992 := rfl
  simp only [significand, pow_fifty_two, h53]
  split <;> omega

theorem significand_pos {rank : Nat} (h : rank ≠ 0) : 0 < significand rank := by
  simp only [significand, pow_fifty_two]
  split <;> omega

/-- An interval reaches at least the `2 ^ 54`-th part of its magnitude in both directions. -/
theorem middle_le (rank : Nat) : middle rank ≤ Nat.pow 2 54 * reach rank := by
  unfold reach
  split
  · next hnarrow =>
    rw [middle, hnarrow.1]
  · calc middle rank = significand rank * (4 * unit rank) := by
          rw [middle]
          ring
      _ ≤ Nat.pow 2 53 * (4 * unit rank) :=
          Nat.mul_le_mul_right _ (significand_lt rank).le
      _ = Nat.pow 2 54 * (2 * unit rank) := by
          rw [show Nat.pow 2 54 = Nat.pow 2 53 * 2 from rfl]
          ring

theorem reach_le_middle {rank : Nat} (h : rank ≠ 0) : reach rank ≤ middle rank :=
  calc reach rank ≤ 2 * unit rank := reach_le rank
    _ ≤ 4 * significand rank * unit rank :=
        Nat.mul_le_mul_right _ (by have := significand_pos h; omega)

/-- What is closer to a magnitude than its `2 ^ 54`-th part rounds to it. -/
theorem roundsTo_of_near {rank : Nat} (hrank : rank ≠ 0) {x : ℚ}
    (h : |x * perOne - middle rank| * (Nat.pow 2 54 : Nat) < middle rank) : RoundsTo rank x := by
  have hmiddle : (middle rank : ℚ) ≤ (Nat.pow 2 54 : Nat) * reach rank := by
    exact_mod_cast middle_le rank
  have hpos : (0 : ℚ) < (Nat.pow 2 54 : Nat) := by exact_mod_cast Nat.pow_pos (by decide)
  have hnear : |x * perOne - middle rank| < reach rank := by
    refine lt_of_mul_lt_mul_left ?_ hpos.le
    rw [mul_comm]
    exact h.trans_le hmiddle
  have hlower : (lower rank : ℚ) = middle rank - reach rank := by
    rw [lower, Nat.cast_sub (reach_le_middle hrank)]
  have hupper : (middle rank : ℚ) + reach rank ≤ upper rank := by
    rw [upper]
    exact_mod_cast Nat.add_le_add_left (reach_le rank) _
  obtain ⟨hgt, hlt⟩ := abs_sub_lt_iff.1 hnear
  have hinside : (lower rank : ℚ) < x * perOne ∧ x * perOne < upper rank := by
    rw [hlower]
    constructor <;> linarith
  exact ⟨hinside.1.le, hinside.2.le, fun _ => hinside⟩

/-- `31 / 103` is below the decimal logarithm of two, and `28 / 93` is above it. -/
theorem zpow_ten_le {e l : ℤ} (hpos : 0 ≤ e → 103 * e ≤ 31 * l) (hneg : e < 0 → 93 * e ≤ 28 * l) :
    (10 : ℚ) ^ e ≤ 2 ^ l := by
  have hroot : ∀ {n : ℕ}, n ≠ 0 → ((10 : ℚ) ^ n) ^ e ≤ 2 ^ (n * l) → (10 : ℚ) ^ e ≤ 2 ^ l := by
    intro n hn h
    rw [← pow_le_pow_iff_left₀ (by positivity) (by positivity) hn, ← zpow_natCast, ← zpow_natCast,
      ← zpow_mul, ← zpow_mul, mul_comm e, mul_comm l, zpow_mul, zpow_natCast]
    exact h
  rcases le_or_gt 0 e with he | he
  · refine hroot (n := 31) (by decide) ?_
    calc ((10 : ℚ) ^ 31) ^ e ≤ (2 ^ 103) ^ e := zpow_le_zpow_left₀ he (by positivity) (by norm_num)
      _ = 2 ^ (103 * e) := by rw [zpow_mul]; rfl
      _ ≤ 2 ^ (31 * l) := zpow_le_zpow_right₀ (by norm_num) (hpos he)
  · refine hroot (n := 28) (by decide) ?_
    have hbase : ((10 : ℚ) ^ 28) ^ e ≤ (2 ^ 93) ^ e := by
      obtain ⟨n, rfl⟩ := Int.exists_eq_neg_ofNat he.le
      rw [zpow_neg, zpow_neg, zpow_natCast, zpow_natCast]
      exact inv_anti₀ (by positivity) (pow_le_pow_left₀ (by positivity) (by norm_num) n)
    calc ((10 : ℚ) ^ 28) ^ e ≤ (2 ^ 93) ^ e := hbase
      _ = 2 ^ (93 * e) := by rw [zpow_mul]; rfl
      _ ≤ 2 ^ (28 * l) := zpow_le_zpow_right₀ (by norm_num) (hneg he)

/-- The comparison that decides between the candidates for a decimal exponent. -/
def reaches (num den : Nat) (e : ℤ) : Bool :=
  if e < 0 then den ≤ num * Nat.pow 10 e.natAbs else den * Nat.pow 10 e.natAbs ≤ num

theorem zpow_le_of_reaches {num den : Nat} (hden : 0 < den) {e : ℤ}
    (h : reaches num den e = true) : (10 : ℚ) ^ e ≤ num / den := by
  have hden' : (0 : ℚ) < den := by exact_mod_cast hden
  rw [le_div_iff₀ hden']
  unfold reaches at h
  split at h
  · next hneg =>
    obtain ⟨n, rfl⟩ := Int.exists_eq_neg_ofNat hneg.le
    rw [Int.natAbs_neg, Int.natAbs_natCast, decide_eq_true_eq, mul_comm] at h
    rw [zpow_neg, zpow_natCast, inv_mul_le_iff₀ (by positivity)]
    exact_mod_cast h
  · next hnonneg =>
    obtain ⟨n, rfl⟩ := Int.eq_ofNat_of_zero_le (not_lt.1 hnonneg)
    rw [Int.natAbs_natCast, decide_eq_true_eq, mul_comm] at h
    rw [zpow_natCast]
    exact_mod_cast h

/-- The exponent passed the comparison, or it is below an estimate from the binary lengths. -/
theorem decimalExponent_cases (num den : Nat) :
    reaches num den (decimalExponent num den) = true ∨
      100000 * (decimalExponent num den + 1) ≤ 30103 * ((num.log2 : ℤ) - den.log2) := by
  generalize hestimate : (((num.log2 : ℤ) - den.log2) * 30103).fdiv 100000 = estimate
  have hle : 100000 * estimate ≤ 30103 * ((num.log2 : ℤ) - den.log2) := by
    rw [← hestimate, Int.fdiv_eq_ediv_of_nonneg _ (by decide)]
    omega
  have heq : decimalExponent num den =
      if reaches num den (estimate + 1) then estimate + 1
      else if reaches num den estimate then estimate else estimate - 1 := by
    rw [← hestimate]
    rfl
  rw [heq]
  split
  · next h => exact .inl h
  · split
    · next h => exact .inl h
    · exact .inr (by omega)

/-- The decimal exponent is not overestimated. -/
theorem zpow_decimalExponent_le {num den : Nat} (hnum : num ≠ 0) (hden : 0 < den)
    (hlognum : num.log2 < 4000) (hlogden : den.log2 < 4000) :
    (10 : ℚ) ^ decimalExponent num den ≤ num / den := by
  rcases decimalExponent_cases num den with h | h
  · exact zpow_le_of_reaches hden h
  · have hlower : (2 : ℚ) ^ num.log2 ≤ num := by exact_mod_cast Nat.log2_self_le hnum
    have hupper : (den : ℚ) ≤ 2 ^ (den.log2 + 1) := by exact_mod_cast Nat.lt_log2_self.le
    have hden' : (0 : ℚ) < den := by exact_mod_cast hden
    calc (10 : ℚ) ^ decimalExponent num den
        ≤ 2 ^ ((num.log2 : ℤ) - (den.log2 + 1 : Nat)) := zpow_ten_le (by omega) (by omega)
      _ = 2 ^ num.log2 / 2 ^ (den.log2 + 1) := by
        rw [zpow_sub₀ (by norm_num), zpow_natCast, zpow_natCast]
      _ ≤ num / den := by gcongr

/-- The neighbours are taken of the fraction in units of the grid. -/
theorem neighbours_grid (num : Nat) {den : Nat} (hden : 0 < den) (count : Nat) :
    ∃ n d : Nat, 0 < d ∧
      (n : ℚ) / d * 10 ^ (decimalExponent num den - (count - 1 : Nat)) = num / den ∧
      ∀ m, m = n / d ∨ m = n / d + 1 →
        ⟨m, decimalExponent num den - (count - 1 : Nat)⟩ ∈ neighbours num den count := by
  unfold neighbours
  generalize decimalExponent num den - (count - 1 : Nat) = k
  dsimp only
  have hmem : ∀ (n d m : Nat), m = n / d ∨ m = n / d + 1 → (⟨m, k⟩ : Decimal) ∈
      (if 2 * (n % d) ≤ d then [⟨n / d, k⟩, ⟨n / d + 1, k⟩]
        else [⟨n / d + 1, k⟩, ⟨n / d, k⟩] : List Decimal) := by
    rintro n d m (rfl | rfl) <;> split <;> simp
  split
  · next hneg =>
    obtain ⟨j, rfl⟩ := Int.exists_eq_neg_ofNat hneg.le
    refine ⟨num * Nat.pow 10 j, den, hden, ?_, ?_⟩
    · rw [Nat.cast_mul, Decimal.cast_pow, zpow_neg, zpow_natCast, Nat.cast_ofNat]
      field_simp
    · rw [Int.natAbs_neg, Int.natAbs_natCast]
      exact hmem _ _
  · next hnonneg =>
    obtain ⟨j, rfl⟩ := Int.eq_ofNat_of_zero_le (not_lt.1 hnonneg)
    refine ⟨num, den * Nat.pow 10 j, Nat.mul_pos hden (Nat.pow_pos (by decide)), ?_, ?_⟩
    · rw [Nat.cast_mul, Decimal.cast_pow, zpow_natCast, Nat.cast_ofNat]
      field_simp
    · rw [Int.natAbs_natCast]
      exact hmem _ _

/-- One of the two neighbours is at most half a step of the grid away. -/
theorem exists_neighbour (num : Nat) {den : Nat} (hden : 0 < den) (count : Nat) :
    ∃ d ∈ neighbours num den count,
      |d.value - num / den| * 2 ≤ 10 ^ (decimalExponent num den - (count - 1 : Nat)) := by
  obtain ⟨n, d, hd, hvalue, hmem⟩ := neighbours_grid num hden count
  generalize decimalExponent num den - (count - 1 : Nat) = k at hvalue hmem ⊢
  have hstep : (0 : ℚ) < 10 ^ k := by positivity
  have hd' : (0 : ℚ) < d := by exact_mod_cast hd
  have hsplit : (n : ℚ) / d = (n / d : Nat) + (n % d : Nat) / d := by
    rw [div_eq_iff hd'.ne', add_mul, div_mul_cancel₀ _ hd'.ne']
    exact_mod_cast (Nat.div_add_mod' n d).symm
  have hdist : ∀ m : Nat, |((m : ℚ) - n / d)| * 2 ≤ 1 →
      |Decimal.value ⟨m, k⟩ - num / den| * 2 ≤ 10 ^ k := by
    intro m hm
    have hfactor : Decimal.value ⟨m, k⟩ - num / den = (m - n / d) * 10 ^ k := by
      rw [← hvalue, Decimal.value]
      ring
    rw [hfactor, abs_mul, abs_of_pos hstep, mul_right_comm]
    exact mul_le_of_le_one_left hstep.le hm
  have hrest : (0 : ℚ) ≤ (n % d : Nat) / d ∧ ((n % d : Nat) : ℚ) / d < 1 :=
    ⟨by positivity, (div_lt_one hd').2 (by exact_mod_cast Nat.mod_lt n hd)⟩
  rcases le_or_gt (2 * ((n % d : Nat) / d : ℚ)) 1 with h | h
  · refine ⟨_, hmem _ (.inl rfl), hdist _ ?_⟩
    rw [hsplit, abs_sub_comm, add_sub_cancel_left, abs_of_nonneg hrest.1]
    linarith
  · refine ⟨_, hmem _ (.inr rfl), hdist _ ?_⟩
    rw [hsplit, Nat.cast_add, Nat.cast_one, add_sub_add_left_eq_sub, abs_of_nonneg (by linarith)]
    linarith

variable {rank : Nat}

/-- The magnitude as a number. -/
def magnitude (rank : Nat) : ℚ := (significand rank * unit rank : Nat) / denominator

theorem magnitude_mul_perOne (rank : Nat) : magnitude rank * perOne = middle rank := by
  have hpos : (denominator : ℚ) ≠ 0 := Nat.cast_ne_zero.2 denominator_pos.ne'
  rw [magnitude, perOne_eq, middle, Nat.cast_mul denominator, ← mul_assoc, div_mul_cancel₀ _ hpos,
    mul_assoc, mul_comm 4]
  exact (Nat.cast_mul _ _).symm

theorem scale_lt (h : rank < magnitudes) : scale rank < 2046 := by
  simp only [magnitudes, scale, pow_fifty_two] at h ⊢
  split <;> omega

/-- The binary length of a magnitude is far below what would throw off the estimate of its decimal
exponent. -/
theorem log2_lt (h : rank < magnitudes) (hrank : rank ≠ 0) :
    (significand rank * unit rank).log2 < 4000 := by
  have hpos := Nat.mul_pos (significand_pos hrank) (unit_pos rank)
  have hscale := scale_lt h
  refine (Nat.log2_lt hpos.ne').2 ?_
  calc significand rank * unit rank < 2 ^ 53 * unit rank :=
        Nat.mul_lt_mul_of_pos_right (significand_lt rank) (unit_pos rank)
    _ = 2 ^ (53 + scale rank) := (Nat.pow_add 2 53 (scale rank)).symm
    _ ≤ 2 ^ 4000 := Nat.pow_le_pow_right (by decide) (by omega)

theorem zpow_magnitude_le (h : rank < magnitudes) (hrank : rank ≠ 0) :
    (10 : ℚ) ^ decimalExponent (significand rank * unit rank) denominator ≤ magnitude rank := by
  have hnum := (Nat.mul_pos (significand_pos hrank) (unit_pos rank)).ne'
  exact zpow_decimalExponent_le hnum denominator_pos (log2_lt h hrank) (by decide +kernel)

/-- With seventeen digits the grid is fine enough for every interval. -/
theorem exists_candidate (h : rank < magnitudes) (hrank : rank ≠ 0) :
    ∃ d ∈ neighbours (significand rank * unit rank) denominator 17, RoundsTo rank d.value := by
  have hexponent := zpow_magnitude_le h hrank
  obtain ⟨d, hd, hnear⟩ := exists_neighbour (significand rank * unit rank) denominator_pos 17
  change |d.value - magnitude rank| * 2 ≤ _ at hnear
  generalize decimalExponent (significand rank * unit rank) denominator = e at hexponent hnear
  refine ⟨d, hd, roundsTo_of_near hrank ?_⟩
  have hstep : (10 : ℚ) ^ (e - (17 - 1 : Nat)) * 10 ^ 16 ≤ magnitude rank := by
    rw [zpow_sub₀ (by norm_num), zpow_natCast, div_mul_cancel₀ _ (by norm_num)]
    exact hexponent
  have hclose : |d.value - magnitude rank| * 2 * 10 ^ 16 ≤ magnitude rank :=
    (mul_le_mul_of_nonneg_right hnear (by norm_num)).trans hstep
  have hpos : (0 : ℚ) < magnitude rank := lt_of_lt_of_le (by positivity) hexponent
  have hperOne : (0 : ℚ) < perOne := by
    rw [perOne_eq]
    exact_mod_cast Nat.mul_pos denominator_pos (by decide)
  -- half a step is less than the part that every interval reaches, as 2 ^ 54 < 2 * 10 ^ 16
  have hbound : |d.value - magnitude rank| * (Nat.pow 2 54 : Nat) < magnitude rank := by
    have hpow : ((Nat.pow 2 54 : Nat) : ℚ) = 18014398509481984 := by norm_num
    rw [hpow]
    linarith
  rw [← magnitude_mul_perOne, ← sub_mul, abs_mul, abs_of_pos hperOne, mul_right_comm]
  exact mul_lt_mul_of_pos_right hbound hperOne

theorem value_trimmed (fuel : Nat) (d : Decimal) : (d.trimmed fuel).value = d.value := by
  induction fuel generalizing d with
  | zero => rfl
  | succ fuel ih =>
    rw [Decimal.trimmed]
    split
    · next hzero =>
      have hdigits : (d.digits : ℚ) = (d.digits / 10 : Nat) * 10 := by
        exact_mod_cast (Nat.div_mul_cancel (Nat.dvd_of_mod_eq_zero hzero.2)).symm
      rw [ih, Decimal.value, Decimal.value, hdigits, zpow_add_one₀ (by norm_num)]
      ring
    · rfl

theorem roundsTo_zero : RoundsTo 0 0 := by
  have hlower : lower 0 = 0 := by
    rw [lower, middle, show significand 0 = 0 from rfl, Nat.mul_zero, Nat.zero_mul, Nat.zero_sub]
  refine ⟨?_, ?_, nofun⟩
  · rw [hlower, Nat.cast_zero, zero_mul]
  · rw [zero_mul]
    exact Nat.cast_nonneg _

/-- The shortest decimal rounds to its magnitude. -/
theorem roundsTo_shortest (h : rank < magnitudes) : RoundsTo rank (shortest rank).value := by
  unfold shortest
  split
  · next hzero =>
    rw [hzero, Decimal.value, Nat.cast_zero, zero_mul]
    exact roundsTo_zero
  · next hrank =>
    obtain ⟨d, hd, hrounds⟩ := exists_candidate h hrank
    have hmem : d ∈ (List.range 17).flatMap fun i =>
        neighbours (significand rank * unit rank) denominator (i + 1) :=
      List.mem_flatMap.2 ⟨16, by decide, hd⟩
    have hfound := List.find?_isSome.2 ⟨d, hmem, readsBack_iff.2 hrounds⟩
    obtain ⟨d', hd'⟩ := Option.isSome_iff_exists.1 hfound
    have hrounds' := readsBack_iff.1 (List.find?_some hd')
    unfold unit denominator at hd'
    dsimp only
    rw [value_trimmed, hd']
    exact hrounds'

theorem eq_of_shortest_value_eq {r r' : Fin magnitudes}
    (h : (shortest r).value = (shortest r').value) : r = r' := by
  have hr := roundsTo_shortest r.isLt
  rw [h] at hr
  exact Fin.ext (hr.unique (roundsTo_shortest r'.isLt))

end Reconciliation.Double
