import Mathlib
import GapsoRbfPid.ExponentialAccuracy

/-! What the callers of the exponential rely on: its result does not depend on the locals that the
source leaves unassigned, and for an argument that is not positive, as every hidden unit's is, the
rounding never takes it out of the unit interval. -/

namespace GapsoRbfPid.Exponential
open Library.Binary64 Library.Rounding Library.PolyBound

section Unset
variable {x : Float}

theorem tiny_number (tiny : getHighWord x &&& 0x7fffffff < 0x3e300000) : Number x := by
  rw [word_lt] at tiny
  by_contra full
  have large := (full_word x).mpr full
  have small : (getHighWord x &&& 0x7fffffff).toNat < 1043333120 := tiny
  omega

theorem tiny_test (tiny : getHighWord x &&& 0x7fffffff < 0x3e300000) : one < huge + x := by
  have number := tiny_number tiny
  have near := below_word number (w := 0x3e300000) ((word_lt _ _).mp tiny) (by norm_num)
  rw [word_values.1] at near
  exact huge_add number (near.le.trans (by norm_num))

/-- Without a reduction the two parts are not looked at. -/
theorem primary_unreduced (hi lo : Float) :
    primary ⟨x, hi, lo, 0⟩ = one - (x * remainder x / (remainder x - 2.0) - x) := by
  simp only [primary, ↓reduceIte]

/-- No argument, finite or not, makes the function read a local before it is assigned. -/
theorem exp_never_reads_unset (unset unset' : Locals) (x : Float) : exp unset x = exp unset' x := by
  rw [exp, exp, ieee754Exp, ieee754Exp]
  cases filtered x (getHighWord x &&& 0x7fffffff) ((getHighWord x >>> 31) &&& 1) with
  | some y => rfl
  | none =>
    simp only [reduced]
    by_cases half : 0x3fd62e42 < getHighWord x &&& 0x7fffffff
    · simp only [if_pos half]
    · by_cases tiny : getHighWord x &&& 0x7fffffff < 0x3e300000
      · simp only [if_neg half, if_pos tiny, if_pos (tiny_test tiny)]
      · simp only [if_neg half, if_neg tiny]
        exact (primary_unreduced unset.hi unset.lo).trans (primary_unreduced unset'.hi unset'.lo).symm

end Unset

section Unit
variable {x : Float}

theorem representable_zero : Representable 52 (-1074) (0 : ℝ) :=
  ⟨0, 0, by norm_num, by norm_num, by norm_num⟩

theorem representable_one : Representable 52 (-1074) (1 : ℝ) := by
  have power := representable_two_zpow (K := ℝ) (j := 0) (by norm_num)
  rwa [zpow_zero] at power

/-- Rounding keeps the unit interval. -/
theorem unit_of_rounds {a v : ℝ} (rounds : Rounds 52 (-1074) a v) (low : 0 ≤ a) (high : a ≤ 1) :
    0 ≤ v ∧ v ≤ 1 :=
  ⟨rounds.ge_of_ge representable_zero low, rounds.le_of_le representable_one high⟩

theorem tiny_unit (number : Number x) (near : |value ℝ x| < 1 / 2 ^ 28) (nonpos : value ℝ x ≤ 0) :
    Number (one + x) ∧ 0 ≤ value ℝ (one + x) ∧ value ℝ (one + x) ≤ 1 := by
  obtain ⟨low, high⟩ := abs_lt.mp near
  have inside : |value ℝ one + value ℝ x| ≤ 2 ^ (1023 : ℤ) := by
    apply inside_of_le
    rw [one_value.2, abs_of_pos (by linarith)]
    linarith
  obtain ⟨sum, rounds⟩ := add_rounds one_value.1 number inside
  rw [one_value.2] at rounds
  exact ⟨sum, unit_of_rounds rounds (by linarith) (by linarith)⟩

/-- What is taken from one is not negative: the errors are far below the argument. -/
theorem inner_nonneg (number : Number x) (far : 1 / 2 ^ 28 ≤ |value ℝ x|) (near : |value ℝ x| ≤ 0.3467)
    (nonpos : value ℝ x ≤ 0) :
    0 ≤ value ℝ (x * remainder x / (remainder x - 2.0) - x) := by
  have inner := (unreduced_inner number near).error
  have kernel := correction_near near
  have linear := Real.abs_exp_sub_one_sub_id_le (x := value ℝ x) (near.trans (by norm_num))
  have square : value ℝ x ^ 2 ≤ 0.3467 * |value ℝ x| := by
    rw [← sq_abs, pow_two]
    exact mul_le_mul_of_nonneg_right near (abs_nonneg _)
  rw [abs_of_nonpos nonpos] at far square
  have inner_low := (abs_le.mp inner).1
  have kernel_high := (abs_le.mp kernel).2
  have linear_high := (abs_le.mp linear).2
  linarith

theorem small_unit (number : Number x) (far : 1 / 2 ^ 28 ≤ |value ℝ x|) (near : |value ℝ x| ≤ 0.3467)
    (nonpos : value ℝ x ≤ 0) :
    Number (one - (x * remainder x / (remainder x - 2.0) - x)) ∧
      0 ≤ value ℝ (one - (x * remainder x / (remainder x - 2.0) - x)) ∧
      value ℝ (one - (x * remainder x / (remainder x - 2.0) - x)) ≤ 1 := by
  have inner := unreduced_inner number near
  have nonneg := inner_nonneg number far near nonpos
  have high := (abs_le.mp inner.value_le).2
  have inside : |value ℝ one - value ℝ (x * remainder x / (remainder x - 2.0) - x)| ≤ 2 ^ (1023 : ℤ) := by
    apply inside_of_le
    rw [one_value.2, abs_of_pos (by linarith)]
    linarith
  obtain ⟨difference, rounds⟩ := sub_rounds one_value.1 inner.number inside
  rw [one_value.2] at rounds
  exact ⟨difference, unit_of_rounds rounds (by linarith) (by linarith)⟩

theorem reduced_unit {r : Locals} {k : ℤ} (reduces : Reduces x r k) (far : 0.3465 ≤ |value ℝ x|)
    (nonpos : value ℝ x ≤ 0) :
    Number (primary r) ∧ 0 ≤ value ℝ (primary r) ∧ value ℝ (primary r) ≤ 1 := by
  obtain ⟨number, exact, rounded⟩ := reduces.primary_value (by linarith)
  obtain ⟨-, -, half, two⟩ := reduces.unscaled_near
  have power := two_zpow_pos (K := ℝ) k
  have negative : k < 0 := by
    by_contra nonneg
    have positive : (1 : ℝ) ≤ k := by
      have nonzero := reduces.nonzero
      exact_mod_cast (by omega : 1 ≤ k)
    have parts := (abs_le.mp reduces.hi_near).1
    rw [reduces.hi_value] at parts
    rw [abs_of_nonpos nonpos] at far
    linarith
  have low : 0 ≤ value ℝ (unscaled r) * 2 ^ k := mul_nonneg (by linarith) power.le
  have high : value ℝ (unscaled r) * 2 ^ k ≤ 1 := by
    calc value ℝ (unscaled r) * 2 ^ k ≤ 2 * 2 ^ k := mul_le_mul_of_nonneg_right two.le power.le
      _ = 2 ^ (k + 1) := (two_zpow_succ k).symm
      _ ≤ 1 := zpow_le_one_of_nonpos₀ one_le_two (by omega)
  by_cases least : -1021 ≤ k
  · rw [exact least]
    exact ⟨number, low, high⟩
  · exact ⟨number, unit_of_rounds (rounded (not_le.mp least)) low high⟩

/-- The exponential of a number that is not positive is a number of the unit interval, with every
rounding on the way. -/
theorem exp_unit_interval (unset : Locals) (number : Number x) (nonpos : value ℝ x ≤ 0) :
    Number (exp unset x) ∧ 0 ≤ value ℝ (exp unset x) ∧ value ℝ (exp unset x) ≤ 1 := by
  have high : value ℝ x ≤ value ℝ o_threshold := by
    rw [o_threshold_value.2]
    linarith
  by_cases low : value ℝ u_threshold ≤ value ℝ x
  · cases computes unset number low high with
    | tiny near result => exact result ▸ tiny_unit number near nonpos
    | small far near result => exact result ▸ small_unit number far near nonpos
    | reduced r k far reduces result => exact result ▸ reduced_unit reduces far nonpos
  · obtain ⟨zero_number, zero⟩ := zero_value early_values.2
    rw [exp_under unset number (not_le.mp low), zero]
    exact ⟨zero_number, le_rfl, zero_le_one⟩

theorem exp_unit_interval_threshold : Number (exp ⟨one, one, one, 0⟩ u_threshold) ∧
    0 ≤ value ℝ (exp ⟨one, one, one, 0⟩ u_threshold) ∧
    value ℝ (exp ⟨one, one, one, 0⟩ u_threshold) ≤ 1 := by
  apply exp_unit_interval _ u_threshold_value.1
  rw [u_threshold_value.2]
  norm_num

end Unit

end GapsoRbfPid.Exponential
