import Mathlib
import GapsoRbfPid.ExponentialReduction

/-! "Scale back to obtain exp(x)", and the accuracy of the whole function: the relative error is
at most `2 ^ -52`, with half the least place on top of it where the result has no full mantissa. -/

namespace GapsoRbfPid.Exponential
open Library.Binary64 Library.Rounding

section Scaling
variable {y : Float}

theorem magnitude_powers : magnitude ℝ (1022 * 2 ^ 52) = 1 / 2 ∧ magnitude ℝ (1023 * 2 ^ 52) = 1 ∧
    magnitude ℝ (1024 * 2 ^ 52) = 2 := by
  refine ⟨?_, ?_, ?_⟩ <;> norm_num [magnitude, exponentField, fraction]

/-- The pattern of a number of the primary range. -/
theorem primary_pattern (number : Number y) (low : 1 / 2 ≤ value ℝ y) (high : value ℝ y < 2) :
    1022 * 2 ^ 52 ≤ y.toBits.toNat ∧ y.toBits.toNat < 1024 * 2 ^ 52 ∧
      (value ℝ y < 1 → y.toBits.toNat < 1023 * 2 ^ 52) := by
  obtain ⟨half, one, two⟩ := magnitude_powers
  have width := y.toBits.toNat_lt
  have positive : 0 < value ℝ y := by linarith
  have size := abs_value (K := ℝ) number
  rw [abs_of_pos positive] at size
  have sign : y.toBits.toNat / 2 ^ 63 = 0 := by
    by_contra negative
    have exact := value_eq (K := ℝ) number
    have nonneg := magnitude_nonneg (K := ℝ) y.toBits.toNat
    rw [signOf, if_neg negative] at exact
    simp only [signed] at exact
    linarith
  have whole : y.toBits.toNat % 2 ^ 63 = y.toBits.toNat := by omega
  rw [whole] at size
  refine ⟨?_, ?_, ?_⟩
  · rw [← magnitude_le_iff (K := ℝ) (by norm_num) (by omega), half, ← size]
    exact low
  · by_contra large
    have le := (magnitude_le_iff (K := ℝ) (by norm_num) (by omega)).mpr (not_lt.mp large)
    rw [two, ← size] at le
    linarith
  · intro less
    by_contra large
    have le := (magnitude_le_iff (K := ℝ) (by norm_num) (by omega)).mpr (not_lt.mp large)
    rw [one, ← size] at le
    linarith

/-- "add k to y's exponent". -/
theorem shifted {k : Int32} (number : Number y) (low : 1 / 2 ≤ value ℝ y) (high : value ℝ y < 2)
    (least : -1021 ≤ k.toInt) (most : k.toInt ≤ 1024) (top : k.toInt = 1024 → value ℝ y < 1) :
    Number (setHighWord y (getHighWord y + (k.toUInt32 <<< 20))) ∧
      value ℝ (setHighWord y (getHighWord y + (k.toUInt32 <<< 20))) = value ℝ y * 2 ^ k.toInt := by
  obtain ⟨first, last, below⟩ := primary_pattern number low high
  have word := getHighWord_toNat y
  have times := toUInt32_toNat k
  have sum : ((getHighWord y + (k.toUInt32 <<< 20)).toNat : ℤ) =
      y.toBits.toNat / 2 ^ 32 + k.toInt * 2 ^ 20 := by
    have shift : (k.toUInt32 <<< 20).toNat = k.toUInt32.toNat * 2 ^ 20 % 2 ^ 32 := by
      rw [UInt32.toNat_shiftLeft, Nat.shiftLeft_eq]
      rfl
    rw [UInt32.toNat_add, shift, word]
    omega
  have capped : k.toInt = 1024 → y.toBits.toNat < 1023 * 2 ^ 52 := fun same => below (top same)
  have bits := setHighWord_bits y (getHighWord y + (k.toUInt32 <<< 20))
  apply add_exponent number
  · unfold exponentField
    omega
  · unfold exponentField
    omega
  · unfold exponentField
    omega
  · rw [bits]
    push_cast
    omega

end Scaling

section Reduced
variable {x : Float} {r : Locals} {k : ℤ}

/-- The value that is scaled back. -/
def unscaled (r : Locals) : Float :=
  one - ((r.lo - (r.x * remainder r.x) / (2.0 - remainder r.x)) - r.hi)

theorem exp_log_two (k : ℤ) : Real.exp (k * Real.log 2) = 2 ^ k := by
  rw [← Real.rpow_intCast, Real.rpow_def_of_pos two_pos, mul_comm]

theorem exp_times (v : ℝ) (k : ℤ) : Real.exp v = Real.exp (v - k * Real.log 2) * 2 ^ k := by
  rw [← exp_log_two, ← Real.exp_add, sub_add_cancel]

/-- The missing part of `k*ln2` is far below the last place. -/
theorem exp_close {s t : ℝ} (close : |s - t| ≤ 1 / 2 ^ 72) :
    |Real.exp s - Real.exp t| ≤ 1 / 2 ^ 71 * Real.exp t := by
  have apart := Library.ExpSeries.exp_apart (close.trans (by norm_num))
  apply apart.trans
  apply mul_le_mul_of_nonneg_right _ (Real.exp_pos t).le
  linarith

theorem Reduces.unscaled_near (h : Reduces x r k) : Number (unscaled r) ∧
    |value ℝ (unscaled r) - Real.exp (value ℝ x - k * Real.log 2)| ≤
      Real.exp (value ℝ x - k * Real.log 2) / 2 ^ 52 ∧
    1 / 2 ≤ value ℝ (unscaled r) ∧ value ℝ (unscaled r) < 2 := by
  obtain ⟨number, near⟩ := reduced_near h.hi_number h.lo_number (h.hi_near.trans (by norm_num))
    (h.lo_near.trans (by norm_num)) h.parts_near
  rw [← h.argument] at number near
  change Number (unscaled r) at number
  change |value ℝ (unscaled r) - _| ≤ _ at near
  have close := exp_close h.parts_stand
  obtain ⟨least, most, -⟩ := exp_reduced (h.parts_near.trans (by norm_num))
  set E := Real.exp (value ℝ x - k * Real.log 2)
  set S := Real.exp (value ℝ r.hi - value ℝ r.lo)
  have positive : 0 < E := Real.exp_pos _
  obtain ⟨near_low, near_high⟩ := abs_le.mp near
  obtain ⟨close_low, close_high⟩ := abs_le.mp close
  refine ⟨number, ?_, by linarith, by linarith⟩
  rw [abs_le]
  constructor <;> linarith

/-- Up to the threshold of the source the largest exponent comes with a mantissa below one. -/
theorem Reduces.below_one (h : Reduces x r 1024) (below : value ℝ x ≤ 6243314768165359 / 2 ^ 43) :
    value ℝ (unscaled r) < 1 := by
  obtain ⟨-, near, -⟩ := h.unscaled_near
  have log := (abs_le.mp ln2_near).1
  have apart : value ℝ x - (1024 : ℤ) * Real.log 2 ≤ -(1 / 2 ^ 46) := by
    rw [ln2] at log
    push_cast
    linarith
  set v := value ℝ x - (1024 : ℤ) * Real.log 2
  have least := Real.add_one_le_exp (-v)
  have positive := Real.exp_pos v
  have inverse : Real.exp v * Real.exp (-v) = 1 := by
    rw [← Real.exp_add, add_neg_cancel, Real.exp_zero]
  have product := mul_le_mul_of_nonneg_left least positive.le
  rw [inverse] at product
  have scaled := mul_le_mul_of_nonneg_left apart positive.le
  have high := (abs_le.mp near).2
  linarith

theorem times_add {k : Int32} (range : |k.toInt| ≤ 1075) : (k + 1000).toInt = k.toInt + 1000 := by
  obtain ⟨low, high⟩ := abs_le.mp range
  have thousand : (1000 : Int32).toInt = 1000 := rfl
  rw [Int32.toInt_add, thousand]
  apply Int.bmod_eq_of_le <;> omega

theorem Reduces.times_le_max (h : Reduces x r k) (high : value ℝ x ≤ 6243314768165359 / 2 ^ 43) :
    k ≤ 1024 := by
  by_contra large
  have wide : (1025 : ℝ) ≤ k := by exact_mod_cast (by omega : 1025 ≤ k)
  have parts := (abs_le.mp h.hi_near).1
  rw [h.hi_value] at parts
  linarith

/-- The end of the function, after a reduction: the scaling is exact but for exponents that leave
no full mantissa, and there it is rounded once. -/
theorem Reduces.primary_value (h : Reduces x r k) (high : value ℝ x ≤ 6243314768165359 / 2 ^ 43) :
    Number (primary r) ∧ (-1021 ≤ k → value ℝ (primary r) = value ℝ (unscaled r) * 2 ^ k) ∧
      (k < -1021 → Rounds 52 (-1074) (value ℝ (unscaled r) * 2 ^ k) (value ℝ (primary r))) := by
  obtain ⟨number, -, half, two⟩ := h.unscaled_near
  have times := h.times
  have range := abs_le.mp h.range
  have most := h.times_le_max high
  have nonzero : r.k ≠ 0 := by
    intro zero
    apply h.nonzero
    rw [← times, zero]
    rfl
  have branch : primary r = scaled (unscaled r) r.k := if_neg nonzero
  have bound : (-1021 : Int32) ≤ r.k ↔ -1021 ≤ k := by
    rw [Int32.le_iff_toInt_le, times]
    rfl
  rw [branch, scaled]
  by_cases least : -1021 ≤ k
  · rw [if_pos (bound.mpr least)]
    obtain ⟨result, same⟩ := shifted (k := r.k) number half two (by omega) (by omega) (by
      intro top
      rw [times] at top
      subst top
      exact h.below_one high)
    rw [times] at same
    exact ⟨result, fun _ => same, fun less => absurd least (by omega)⟩
  · rw [if_neg (fun le => least (bound.mp le))]
    have moved : (r.k + 1000).toInt = k + 1000 := by
      rw [times_add (by rw [times]; exact h.range), times]
    obtain ⟨shifted_number, same⟩ := shifted (k := r.k + 1000) number half two (by omega) (by omega)
      (by omega)
    rw [moved] at same
    have product : value ℝ (setHighWord (unscaled r) (getHighWord (unscaled r) +
        ((r.k + 1000).toUInt32 <<< 20))) * value ℝ twom1000 = value ℝ (unscaled r) * 2 ^ k := by
      rw [same, twom1000_value.2, zpow_add₀ two_ne_zero]
      field_simp
    have power := two_zpow_pos (K := ℝ) k
    have small : value ℝ (unscaled r) * 2 ^ k ≤ 2 * 1 := by
      apply mul_le_mul two.le _ power.le two_pos.le
      exact zpow_le_one_of_nonpos₀ one_le_two (by omega)
    have inside : |value ℝ (setHighWord (unscaled r) (getHighWord (unscaled r) +
        ((r.k + 1000).toUInt32 <<< 20))) * value ℝ twom1000| ≤ 2 ^ (1023 : ℤ) := by
      rw [product]
      apply inside_of_le
      rw [abs_of_pos (mul_pos (by linarith) power)]
      exact small.trans (by norm_num)
    obtain ⟨result, rounds⟩ := mul_rounds shifted_number twom1000_value.1 inside
    rw [product] at rounds
    exact ⟨result, fun le => absurd le least, fun _ => rounds⟩

theorem Reduces.primary_near (h : Reduces x r k) (high : value ℝ x ≤ 6243314768165359 / 2 ^ 43) :
    Number (primary r) ∧ |value ℝ (primary r) - Real.exp (value ℝ x)| ≤
      Real.exp (value ℝ x) / 2 ^ 52 + 1 / 2 ^ 1075 := by
  obtain ⟨-, near, half, two⟩ := h.unscaled_near
  obtain ⟨number, exact, rounded⟩ := h.primary_value high
  have power := two_zpow_pos (K := ℝ) k
  have error : |value ℝ (unscaled r) * 2 ^ k - Real.exp (value ℝ x)| ≤ Real.exp (value ℝ x) / 2 ^ 52 := by
    rw [exp_times _ k, ← sub_mul, abs_mul, abs_of_pos power, mul_div_right_comm]
    exact mul_le_mul_of_nonneg_right near power.le
  refine ⟨number, ?_⟩
  by_cases least : -1021 ≤ k
  · rw [exact least]
    exact error.trans (le_add_of_nonneg_right (by positivity))
  · have small : |value ℝ (unscaled r) * 2 ^ k| < 1 / 2 ^ 1021 := by
      rw [abs_of_pos (mul_pos (by linarith) power)]
      calc value ℝ (unscaled r) * 2 ^ k < 2 * 2 ^ k := mul_lt_mul_of_pos_right two power
        _ = 2 ^ (k + 1) := (two_zpow_succ k).symm
        _ ≤ 2 ^ (-1021 : ℤ) := two_zpow_le.mpr (by omega)
        _ = 1 / 2 ^ 1021 := by rw [zpow_neg, one_div]; rfl
    have close := near_of_rounds (rounded (not_le.mp least)) small le_rfl
    calc _ ≤ _ := abs_sub_le _ _ _
      _ ≤ 1 / 2 ^ (1021 + 54) + Real.exp (value ℝ x) / 2 ^ 52 := add_le_add close error
      _ = Real.exp (value ℝ x) / 2 ^ 52 + 1 / 2 ^ 1075 := add_comm _ _

end Reduced

section Branches
variable {x : Float}

theorem huge_value : Number huge ∧ 4 ≤ value ℝ huge ∧ value ℝ huge ≤ 2 ^ (1000 : ℤ) := by
  have bits : huge.toBits.toNat = 0x7E37E43C8800759C := by decide +kernel
  have number : Number huge := by
    rw [number_iff_field, bits]
    decide
  have same : value ℝ huge = magnitude ℝ (0x7E37E43C8800759C) := by
    rw [value_eq number, bits]
    rfl
  have four : magnitude ℝ (1025 * 2 ^ 52) = 4 := by norm_num [magnitude, exponentField, fraction]
  have top : magnitude ℝ (2023 * 2 ^ 52) = 2 ^ (1000 : ℤ) := by
    have fields : exponentField (2023 * 2 ^ 52) = 2023 ∧ fraction (2023 * 2 ^ 52) = 0 := by decide
    rw [magnitude, if_neg (by rw [fields.1]; norm_num), fields.1, fields.2, add_zero]
    rw [show ((2 ^ 52 : ℕ) : ℝ) = 2 ^ (52 : ℤ) by norm_num, ← zpow_add₀ two_ne_zero]
    norm_num
  refine ⟨number, ?_, ?_⟩
  · rw [same, ← four]
    exact (magnitude_le_iff (by norm_num) (by norm_num)).mpr (by norm_num)
  · rw [same, ← top]
    exact (magnitude_le_iff (by norm_num) (by norm_num)).mpr (by norm_num)

/-- "if(huge+x>one)" never fails for a small argument. -/
theorem huge_add (number : Number x) (near : |value ℝ x| ≤ 1) : one < huge + x := by
  obtain ⟨huge_number, low, high⟩ := huge_value
  obtain ⟨x_low, x_high⟩ := abs_le.mp near
  have far : (2 : ℝ) * 2 ^ (1000 : ℤ) ≤ 2 ^ (1023 : ℤ) := by
    rw [← two_zpow_succ]
    exact two_zpow_le.mpr (by norm_num)
  have inside : |value ℝ huge + value ℝ x| ≤ 2 ^ (1023 : ℤ) := by
    rw [abs_of_pos (by linarith)]
    have room : value ℝ huge + value ℝ x ≤ 2 ^ (1000 : ℤ) + 2 ^ (1000 : ℤ) := by
      apply add_le_add high
      exact x_high.trans (one_le_zpow₀ one_le_two (by norm_num))
    exact room.trans (by rw [← two_mul]; exact far)
  obtain ⟨sum, rounds⟩ := add_rounds huge_number number inside
  have two : Representable 52 (-1074) ((2 : ℝ) ^ (1 : ℤ)) := representable_two_zpow (by norm_num)
  have above := rounds.ge_of_ge two (by rw [zpow_one]; linarith)
  rw [zpow_one] at above
  rw [lt_iff (K := ℝ) one_value.1 sum, one_value.2]
  linarith

/-- "when |x|<2**-28". -/
theorem tiny_near (number : Number x) (near : |value ℝ x| < 1 / 2 ^ 28) :
    Number (one + x) ∧ |value ℝ (one + x) - Real.exp (value ℝ x)| ≤ Real.exp (value ℝ x) / 2 ^ 52 := by
  obtain ⟨low, high⟩ := abs_lt.mp near
  have positive : 0 < 1 + value ℝ x := by linarith
  obtain ⟨sum, rounded⟩ := add_relative (K := ℝ) one_value.1 number
    (by rw [one_value.2, abs_of_pos positive]; linarith)
    (by rw [one_value.2, abs_of_pos positive]; linarith)
  rw [one_value.2, abs_of_pos positive] at rounded
  have linear := Real.abs_exp_sub_one_sub_id_le (x := value ℝ x) (near.le.trans (by norm_num))
  have square : |value ℝ x| ^ 2 ≤ (1 / 2 ^ 28) ^ 2 := pow_le_pow_left₀ (abs_nonneg _) near.le 2
  rw [sq_abs] at square
  obtain ⟨rounded_low, rounded_high⟩ := abs_le.mp rounded
  obtain ⟨linear_low, linear_high⟩ := abs_le.mp linear
  refine ⟨sum, ?_⟩
  rw [abs_le]
  constructor <;> linarith

theorem word_le (w hx : UInt32) : w ≤ hx ↔ w.toNat ≤ hx.toNat := UInt32.le_iff_toNat_le

theorem word_lt (w hx : UInt32) : w < hx ↔ w.toNat < hx.toNat := UInt32.lt_iff_toNat_lt

theorem not_filtered (number : Number x) (low : value ℝ u_threshold ≤ value ℝ x)
    (high : value ℝ x ≤ value ℝ o_threshold) (xsb : UInt32) :
    filtered x (getHighWord x &&& 0x7fffffff) xsb = none := by
  have finite : ¬(0x7ff00000 : UInt32) ≤ getHighWord x &&& 0x7fffffff := by
    rw [word_le]
    exact fun full => (full_word x).mp full number
  have not_over : ¬o_threshold < x := by
    rw [lt_iff (K := ℝ) o_threshold_value.1 number]
    exact high.not_gt
  have not_under : ¬x < u_threshold := by
    rw [lt_iff (K := ℝ) number u_threshold_value.1]
    exact low.not_gt
  simp only [filtered, if_neg finite, if_neg not_over, if_neg not_under, ite_self]

/-- What the function computes where it does not return early. -/
inductive Computes (unset : Locals) (x : Float) : Prop
  | tiny (near : |value ℝ x| < 1 / 2 ^ 28) (result : exp unset x = one + x)
  | small (far : 1 / 2 ^ 28 ≤ |value ℝ x|) (near : |value ℝ x| ≤ 0.3467)
      (result : exp unset x = one - (x * remainder x / (remainder x - 2.0) - x))
  | reduced (r : Locals) (k : ℤ) (far : 0.3465 ≤ |value ℝ x|) (reduces : Reduces x r k)
      (result : exp unset x = primary r)

theorem computes (unset : Locals) (number : Number x) (low : value ℝ u_threshold ≤ value ℝ x)
    (high : value ℝ x ≤ value ℝ o_threshold) : Computes unset x := by
  have unfiltered := not_filtered number low high ((getHighWord x >>> 31) &&& 1)
  obtain ⟨tiny_word, half_word, wide_word, -⟩ := word_values
  obtain ⟨σ, sign⟩ := signBit_of number
  have size : |value ℝ x| ≤ 745.2 := by
    rw [u_threshold_value.2] at low
    rw [o_threshold_value.2] at high
    exact abs_le.mpr ⟨by linarith, by linarith⟩
  have unfolded (r : Float ⊕ Locals)
      (same : reduced unset x (getHighWord x &&& 0x7fffffff) ((getHighWord x >>> 31) &&& 1) = r) :
      exp unset x = r.elim id primary := by
    rw [exp, ieee754Exp]
    simp only [unfiltered, same]
    cases r <;> rfl
  by_cases half : 0x3fd62e42 < getHighWord x &&& 0x7fffffff
  · have above := word_below number (w := 0x3fd62e43) ((word_lt _ _).mp half) (by norm_num)
    rw [half_word] at above
    have far : 0.3465 ≤ |value ℝ x| := by linarith
    by_cases narrow : getHighWord x &&& 0x7fffffff < 0x3FF0A2B2
    · have near := below_word number (w := 0x3FF0A2B2) ((word_lt _ _).mp narrow) (by norm_num)
      rw [wide_word] at near
      exact .reduced _ σ far (near_reduces number sign above near)
        (unfolded (.inr _) ((if_pos half).trans (if_pos narrow)))
    · have wide := word_below number (w := 0x3FF0A2B2)
        (not_lt.mp fun less => narrow ((word_lt _ _).mpr less)) (by norm_num)
      rw [wide_word] at wide
      exact .reduced _ _ far (far_reduces number sign wide size)
        (unfolded (.inr _) ((if_pos half).trans (if_neg narrow)))
  · have near := below_word number (w := 0x3fd62e43)
      (Nat.lt_succ_of_le (not_lt.mp fun less => half ((word_lt _ _).mpr less))) (by norm_num)
    rw [half_word] at near
    by_cases tiny : getHighWord x &&& 0x7fffffff < 0x3e300000
    · have close := below_word number (w := 0x3e300000) ((word_lt _ _).mp tiny) (by norm_num)
      rw [tiny_word] at close
      have test := huge_add number (close.le.trans (by norm_num))
      exact .tiny close (unfolded (.inl _) (((if_neg half).trans (if_pos tiny)).trans (if_pos test)))
    · have far := word_below number (w := 0x3e300000)
        (not_lt.mp fun less => tiny ((word_lt _ _).mpr less)) (by norm_num)
      rw [tiny_word] at far
      exact .small far (by linarith) (unfolded (.inr _) ((if_neg half).trans (if_neg tiny)))

/-- The accuracy where the function does not return early. -/
theorem in_range (unset : Locals) (number : Number x) (low : value ℝ u_threshold ≤ value ℝ x)
    (high : value ℝ x ≤ value ℝ o_threshold) :
    Number (exp unset x) ∧ |value ℝ (exp unset x) - Real.exp (value ℝ x)| ≤
      Real.exp (value ℝ x) / 2 ^ 52 + 1 / 2 ^ 1075 := by
  have positive := Real.exp_pos (value ℝ x)
  have least : (0 : ℝ) ≤ 1 / 2 ^ 1075 := by positivity
  cases computes unset number low high with
  | tiny near result =>
    rw [result]
    obtain ⟨sum, error⟩ := tiny_near number near
    exact ⟨sum, error.trans (le_add_of_nonneg_right least)⟩
  | small far near result =>
    rw [result]
    obtain ⟨difference, error⟩ := unreduced_near number near
    have half_place : 1.98 / 2 ^ 53 * Real.exp (value ℝ x) ≤ Real.exp (value ℝ x) / 2 ^ 52 := by
      linarith
    exact ⟨difference, (error.trans half_place).trans (le_add_of_nonneg_right least)⟩
  | reduced r k far reduces result =>
    rw [result]
    exact reduces.primary_near (by rwa [← o_threshold_value.2])

end Branches

section Thresholds
variable {x : Float}

/-- Nothing lies between a pattern and the next one. -/
theorem next_above {b : ℕ} (number : Number x) (inside : b + 1 < 2 ^ 63)
    (more : magnitude ℝ b < |value ℝ x|) : magnitude ℝ (b + 1) ≤ |value ℝ x| := by
  rw [abs_value number] at more ⊢
  rw [magnitude_le_iff inside (Nat.mod_lt _ (by norm_num))]
  by_contra less
  have back := (magnitude_le_iff (K := ℝ) (a := x.toBits.toNat % 2 ^ 63) (b := b)
    (Nat.mod_lt _ (by norm_num)) (by omega)).mpr (by omega)
  exact absurd back more.not_ge

/-- The thresholds of the source and the numbers after them. -/
theorem threshold_values :
    magnitude ℝ 0x40862E42FEFA39EF = 6243314768165359 / 2 ^ 43 ∧
    magnitude ℝ (0x40862E42FEFA39EF + 1) = 6243314768165360 / 2 ^ 43 ∧
    magnitude ℝ 0x40874910D52D3051 = 6554261109157969 / 2 ^ 43 ∧
    magnitude ℝ (0x40874910D52D3051 + 1) = 6554261109157970 / 2 ^ 43 := by
  refine ⟨?_, ?_, ?_, ?_⟩ <;> norm_num [magnitude, exponentField, fraction]

/-- The threshold of overflow is the last number whose exponential is below `2 ^ 1024`. -/
theorem overflow_iff (number : Number x) :
    value ℝ o_threshold < value ℝ x ↔ 2 ^ (1024 : ℤ) ≤ Real.exp (value ℝ x) := by
  obtain ⟨last, next, -, -⟩ := threshold_values
  obtain ⟨log_low, log_high⟩ := abs_le.mp ln2_near
  rw [ln2] at log_low log_high
  rw [← exp_log_two, Real.exp_le_exp, o_threshold_value.2]
  push_cast
  constructor
  · intro more
    have positive : 0 < value ℝ x := by linarith
    have above := next_above (b := 0x40862E42FEFA39EF) number (by norm_num)
      (by rw [last, abs_of_pos positive]; exact more)
    rw [next, abs_of_pos positive] at above
    linarith
  · intro more
    linarith

/-- Past the threshold of underflow the exponential is below half the least number. -/
theorem underflow (number : Number x) (less : value ℝ x < value ℝ u_threshold) :
    Real.exp (value ℝ x) ≤ 1 / 2 ^ 1075 := by
  obtain ⟨-, -, last, next⟩ := threshold_values
  obtain ⟨log_low, log_high⟩ := abs_le.mp ln2_near
  rw [ln2] at log_low log_high
  rw [u_threshold_value.2] at less
  have negative : value ℝ x < 0 := by linarith
  have above := next_above (b := 0x40874910D52D3051) number (by norm_num)
    (by rw [last, abs_of_neg negative]; linarith)
  rw [next, abs_of_neg negative] at above
  have least : (1 : ℝ) / 2 ^ 1075 = 2 ^ (-1075 : ℤ) := by
    rw [zpow_neg, one_div]
    rfl
  rw [least, ← exp_log_two, Real.exp_le_exp]
  push_cast
  linarith

theorem large_word (number : Number x) (large : 710 ≤ |value ℝ x| ∨ value ℝ o_threshold < value ℝ x) :
    (0x40862E42 : UInt32) ≤ getHighWord x &&& 0x7fffffff ∧
      ¬(0x7ff00000 : UInt32) ≤ getHighWord x &&& 0x7fffffff := by
  rw [word_le, word_le]
  constructor
  · by_contra small
    have near := below_word number (w := 0x40862E42) (not_le.mp small) (by norm_num)
    rw [word_values.2.2.2] at near
    rw [o_threshold_value.2] at large
    have self := le_abs_self (value ℝ x)
    rcases large with large | large <;> linarith
  · exact fun full => (full_word x).mp full number

theorem exp_over (unset : Locals) (number : Number x) (over_it : value ℝ o_threshold < value ℝ x) :
    exp unset x = huge * huge := by
  obtain ⟨large, finite⟩ := large_word number (.inr over_it)
  have test : o_threshold < x := (lt_iff (K := ℝ) o_threshold_value.1 number).mpr over_it
  simp only [exp, ieee754Exp, filtered, if_pos large, if_neg finite, if_pos test]

theorem exp_under (unset : Locals) (number : Number x) (less : value ℝ x < value ℝ u_threshold) :
    exp unset x = twom1000 * twom1000 := by
  have below := less
  rw [u_threshold_value.2] at below
  obtain ⟨large, finite⟩ := large_word number (.inl (by
    rw [abs_of_neg (by linarith)]
    linarith))
  have not_over : ¬o_threshold < x := by
    rw [lt_iff (K := ℝ) o_threshold_value.1 number, o_threshold_value.2]
    exact not_lt.mpr (by linarith)
  have test : x < u_threshold := (lt_iff (K := ℝ) number u_threshold_value.1).mpr less
  simp only [exp, ieee754Exp, filtered, if_pos large, if_neg finite, if_neg not_over, if_pos test]

theorem early_values : (huge * huge).toBits = 0x7FF0000000000000 ∧ (twom1000 * twom1000).toBits = 0 := by
  decide +kernel

theorem zero_value {y : Float} (zero : y.toBits = 0) : Number y ∧ value ℝ y = 0 := by
  have number : Number y := by
    rw [number_iff_field, zero]
    decide
  refine ⟨number, ?_⟩
  rw [value_eq number, zero]
  norm_num [signed, magnitude, signOf, exponentField, fraction]

end Thresholds

section Accuracy

/-- For every finite argument, whatever the locals hold that the source leaves unassigned: as long as
the exponential is below `2 ^ 1024` the result is a number, and its error is at most one machine
epsilon of the exponential, with half the least double on top of it; from there on it is infinite. -/
theorem exp_accurate (unset : Locals) {x : Float} (number : Number x) :
    (Real.exp (value ℝ x) < 2 ^ 1024 → Number (exp unset x) ∧
      |value ℝ (exp unset x) - Real.exp (value ℝ x)| ≤ Real.exp (value ℝ x) / 2 ^ 52 + 1 / 2 ^ 1075) ∧
    (2 ^ 1024 ≤ Real.exp (value ℝ x) → (exp unset x).toBits = 0x7FF0000000000000) := by
  have limit := overflow_iff number
  rw [show (2 : ℝ) ^ (1024 : ℤ) = 2 ^ 1024 from zpow_natCast 2 1024] at limit
  constructor
  · intro below
    have high : value ℝ x ≤ value ℝ o_threshold := not_lt.mp fun more => (limit.mp more).not_gt below
    by_cases low : value ℝ u_threshold ≤ value ℝ x
    · exact in_range unset number low high
    · have result := exp_under unset number (not_le.mp low)
      obtain ⟨zero_number, zero⟩ := zero_value early_values.2
      have positive := Real.exp_pos (value ℝ x)
      rw [result, zero, zero_sub, abs_neg, abs_of_pos positive]
      exact ⟨zero_number, (underflow number (not_le.mp low)).trans (le_add_of_nonneg_left (by positivity))⟩
  · intro above
    rw [exp_over unset number (limit.mpr above)]
    exact early_values.1

/-- At one: a call whose result is 2.718... -/
theorem exp_accurate_one : Number one ∧ Number (exp ⟨one, one, one, 0⟩ one) ∧
    |value ℝ (exp ⟨one, one, one, 0⟩ one) - Real.exp 1| ≤ Real.exp 1 / 2 ^ 52 + 1 / 2 ^ 1075 := by
  have small : Real.exp (value ℝ one) < 2 ^ 1024 := by
    rw [one_value.2]
    calc Real.exp 1 < 2.7182818286 := Real.exp_one_lt_d9
      _ ≤ 2 ^ 2 := by norm_num
      _ ≤ 2 ^ 1024 := pow_le_pow_right₀ one_le_two (by norm_num)
  have result := (exp_accurate ⟨one, one, one, 0⟩ one_value.1).1 small
  rw [one_value.2] at result
  exact ⟨one_value.1, result⟩

end Accuracy

end GapsoRbfPid.Exponential
