import Mathlib
import GapsoRbfPid.Library.Approximation
import GapsoRbfPid.ExponentialKernel

/-! What the rounding of the doubles makes of the rational function: the errors of the operations
in the primary range, where every hidden unit's exponential ends up. Errors are counted in units
of `2 ^ -53`, half the last place of a number just above one. -/

namespace GapsoRbfPid.Exponential
open Library.Binary64 Library.PolyBound

section Remainder

theorem constant_approximates {x : Float} {a : ℚ} {v c : ℝ} (exact : Number x ∧ value ℝ x = v)
    (same : v = a) (low : -c ≤ v) (high : v ≤ c) : Approximates x a 0 c :=
  (Approximates.exact exact.1 (exact.2.trans same)).weaken le_rfl (same ▸ abs_le.mpr ⟨low, high⟩)

/-- One turn of the scheme `p + t*z`. -/
theorem horner {t z p : Float} {T e b c : ℝ} {a : ℚ} {l : List ℚ} (n m : ℕ) (e' b' : ℝ)
    (square : Approximates t T (1 / 2 ^ 57) 0.1203) (constant : Approximates p a 0 c)
    (inner : Approximates z (eval l T) e b)
    (first : (0.1203 + 1 / 2 ^ 57) * (b + e) < 1 / 2 ^ n)
    (second : c + 0 + (0.1203 * b + (1 / 2 ^ (n + 54) + 1 / 2 ^ 57 * (b + e) + 0.1203 * e)) < 1 / 2 ^ m)
    (error : 1 / 2 ^ (m + 54) + 0 + (1 / 2 ^ (n + 54) + 1 / 2 ^ 57 * (b + e) + 0.1203 * e) ≤ e')
    (size : c + 0.1203 * b ≤ b') (room : n ≤ 1021) (room' : m ≤ 1021) :
    Approximates (p + t * z) (eval (a :: l) T) e' b' := by
  have sum := constant.add (square.mul inner first room) second room'
  exact sum.weaken error (sum.size.trans size)

variable {x : Float}

theorem square_approximates (number : Number x) (near : |value ℝ x| ≤ 0.3467) :
    Approximates (x * x) (value ℝ x ^ 2) (1 / 2 ^ 57) 0.1203 := by
  have self : Approximates x (value ℝ x) 0 0.3467 := (Approximates.exact number rfl).weaken le_rfl near
  have product := self.mul self (n := 3) (by norm_num) (by norm_num)
  rw [← pow_two] at product
  apply product.weaken (by norm_num)
  rw [abs_of_nonneg (sq_nonneg _)]
  exact (square_le near).le

/-- `c` stands for what the polynomial without its constant takes from the argument. -/
theorem remainder_approximates (number : Number x) (near : |value ℝ x| ≤ 0.3467) :
    Approximates (remainder x) (value ℝ x + 2 - eval coefficients (value ℝ x ^ 2)) (0.3 / 2 ^ 53)
      0.367 := by
  have self : Approximates x (value ℝ x) 0 0.3467 := (Approximates.exact number rfl).weaken le_rfl near
  have square := square_approximates number near
  set T := value ℝ x ^ 2
  have z5 : Approximates P5 (eval [390835970239053 / 2 ^ 73] T) 0 (1 / 2 ^ 24) := by
    simp only [eval_cons, eval_nil, mul_zero, add_zero]
    exact constant_approximates P5_value (by push_cast; rfl) (by norm_num) (by norm_num)
  have z4 := horner 26 19 (1 / 2 ^ 72) (1 / 2 ^ 19) square
    (constant_approximates (a := -7807914560613361 / 2 ^ 72) (c := 1.66e-6) P4_value
      (by push_cast; rfl) (by norm_num) (by norm_num)) z5
    (by norm_num) (by norm_num) (by norm_num) (by norm_num) (by norm_num) (by norm_num)
  have z3 := horner 21 13 (1 / 2 ^ 66) (1 / 2 ^ 13) square
    (constant_approximates (a := 1220022702274443 / 2 ^ 64) (c := 6.62e-5) P3_value
      (by push_cast; rfl) (by norm_num) (by norm_num)) z4
    (by norm_num) (by norm_num) (by norm_num) (by norm_num) (by norm_num) (by norm_num)
  have z2 := horner 15 8 (1 / 2 ^ 61) (1 / 2 ^ 8) square
    (constant_approximates (a := -6405119469862291 / 2 ^ 61) (c := 2.78e-3) P2_value
      (by push_cast; rfl) (by norm_num) (by norm_num)) z3
    (by norm_num) (by norm_num) (by norm_num) (by norm_num) (by norm_num) (by norm_num)
  have z1 := horner 10 2 (17 / 2 ^ 60) (0.1672) square
    (constant_approximates (a := 3002399751580319 / 2 ^ 54) (c := 0.16667) P1_value
      (by push_cast; rfl) (by norm_num) (by norm_num)) z2
    (by norm_num) (by norm_num) (by norm_num) (by norm_num) (by norm_num) (by norm_num)
  have difference := self.sub (square.mul z1 (n := 5) (by norm_num) (by norm_num)) (n := 1)
    (by norm_num) (by norm_num)
  have head : eval coefficients T = (2 : ℚ) + T * eval coefficients.tail T := eval_cons 2 _ T
  have same : value ℝ x - T * eval coefficients.tail T = value ℝ x + 2 - eval coefficients T := by
    rw [head, Rat.cast_ofNat]
    ring
  change Approximates (remainder x) (value ℝ x - T * eval coefficients.tail T) _ _ at difference
  rw [same] at difference
  exact difference.weaken (by norm_num) (difference.size.trans (by norm_num))

end Remainder

section Quotient

/-- `r*R1(r)/(2-R1(r))` with the polynomial of the source for `R1`. -/
noncomputable def correction (r : ℝ) : ℝ :=
  r * (r + 2 - eval coefficients (r ^ 2)) / (2 - (r + 2 - eval coefficients (r ^ 2)))

theorem rational_eq {r : ℝ} (near : |r| ≤ 0.3467) : rational r = 1 + r + correction r := by
  obtain ⟨low, high⟩ := abs_le.mp near
  have denominator : 0 < eval coefficients (r ^ 2) - r := by linarith [polynomial_ge near]
  have same : 2 - (r + 2 - eval coefficients (r ^ 2)) = eval coefficients (r ^ 2) - r := by ring
  rw [rational, correction, same]
  field_simp
  ring

/-- The three errors before the quotient is rounded: those of `c`, of the product and of the
denominator. -/
theorem quotient_error {r C c p d : ℝ} (argument : |r| ≤ 0.3467) (size : |C| ≤ 0.367)
    (close : |c - C| ≤ 0.3 / 2 ^ 53) (product : |p - r * c| ≤ 1 / 2 ^ 56)
    (denominator : |d - (2 - c)| ≤ (2 - c) / 2 ^ 53) :
    |p / d - r * C / (2 - C)| ≤ 0.2331 / 2 ^ 53 := by
  obtain ⟨C_low, C_high⟩ := abs_le.mp size
  obtain ⟨c_low, c_high⟩ := abs_le.mp close
  obtain ⟨d_low, d_high⟩ := abs_le.mp denominator
  have exact : 1.633 ≤ 2 - C := by linarith
  have computed : 1.6329 ≤ 2 - c := by linarith
  have rounded : 1.6328 ≤ d := by linarith
  have inner : |r * c| ≤ 0.1273 := by
    rw [abs_mul]
    have bound : |c| ≤ 0.3671 := abs_le.mpr ⟨by linarith, by linarith⟩
    calc |r| * |c| ≤ 0.3467 * 0.3671 := mul_le_mul argument bound (abs_nonneg _) (by norm_num)
      _ ≤ 0.1273 := by norm_num
  have first : |(p - r * c) / d| ≤ 0.0766 / 2 ^ 53 := by
    rw [abs_div, abs_of_pos (by linarith : 0 < d), div_le_iff₀ (by linarith)]
    linarith
  have second : |r * c * (2 - c - d) / (d * (2 - c))| ≤ 0.078 / 2 ^ 53 := by
    rw [abs_div, abs_mul, abs_sub_comm (2 - c), abs_of_pos (by positivity : 0 < d * (2 - c)),
      div_le_iff₀ (by positivity)]
    calc |r * c| * |d - (2 - c)| ≤ 0.1273 * ((2 - c) / 2 ^ 53) :=
          mul_le_mul inner denominator (abs_nonneg _) (by norm_num)
      _ = 0.1273 / 2 ^ 53 * (2 - c) := by ring
      _ ≤ 0.078 / 2 ^ 53 * d * (2 - c) := by
          apply mul_le_mul_of_nonneg_right _ (by linarith)
          linarith
      _ = 0.078 / 2 ^ 53 * (d * (2 - c)) := by ring
  have third : |2 * r * (c - C) / ((2 - c) * (2 - C))| ≤ 0.0782 / 2 ^ 53 := by
    rw [abs_div, abs_mul, abs_mul, abs_two, abs_of_pos (by positivity : 0 < (2 - c) * (2 - C)),
      div_le_iff₀ (by positivity)]
    calc 2 * |r| * |c - C| ≤ 2 * 0.3467 * (0.3 / 2 ^ 53) :=
          mul_le_mul (by linarith) close (abs_nonneg _) (by norm_num)
      _ ≤ 0.0782 / 2 ^ 53 * (1.6329 * 1.633) := by norm_num
      _ ≤ 0.0782 / 2 ^ 53 * ((2 - c) * (2 - C)) := by gcongr
  have split : p / d - r * C / (2 - C) = (p - r * c) / d + r * c * (2 - c - d) / (d * (2 - c)) +
      2 * r * (c - C) / ((2 - c) * (2 - C)) := by
    field_simp
    ring
  rw [split]
  calc _ ≤ 0.0766 / 2 ^ 53 + 0.078 / 2 ^ 53 + 0.0782 / 2 ^ 53 :=
        (abs_add_three _ _ _).trans (add_le_add_three first second third)
    _ ≤ 0.2331 / 2 ^ 53 := by norm_num

theorem correction_le {r : ℝ} (argument : |r| ≤ 0.3467)
    (size : |r + 2 - eval coefficients (r ^ 2)| ≤ 0.367) : |correction r| ≤ 0.078 := by
  obtain ⟨-, high⟩ := abs_le.mp size
  rw [correction, abs_div, abs_mul, abs_of_pos (by linarith : 0 < 2 - (r + 2 - eval coefficients (r ^ 2))),
    div_le_iff₀ (by linarith)]
  calc |r| * |r + 2 - eval coefficients (r ^ 2)| ≤ 0.3467 * 0.367 :=
        mul_le_mul argument size (abs_nonneg _) (by norm_num)
    _ ≤ 0.078 * (2 - (r + 2 - eval coefficients (r ^ 2))) := by linarith

variable {x d : Float} {σ : ℝ}

/-- The rounded quotient, for either sign of the denominator. -/
theorem quotient_approximates (number : Number x) (near : |value ℝ x| ≤ 0.3467)
    (sign : σ = 1 ∨ σ = -1) (denominator : Number d)
    (close : |σ * value ℝ d - (2 - value ℝ (remainder x))| ≤ (2 - value ℝ (remainder x)) / 2 ^ 53) :
    Approximates (x * remainder x / d) (σ * correction (value ℝ x)) (0.296 / 2 ^ 53) 0.078 := by
  have self : Approximates x (value ℝ x) 0 0.3467 := (Approximates.exact number rfl).weaken le_rfl near
  have rest := remainder_approximates number near
  have size := correction_le near rest.size
  have small : |value ℝ x * value ℝ (remainder x)| < 1 / 2 ^ 2 := by
    rw [abs_mul]
    calc |value ℝ x| * |value ℝ (remainder x)| ≤ 0.3467 * (0.367 + 0.3 / 2 ^ 53) :=
          mul_le_mul near rest.value_le (abs_nonneg _) (by norm_num)
      _ < 1 / 2 ^ 2 := by norm_num
  obtain ⟨product, product_near⟩ := mul_near number rest.number small (by norm_num)
  have error := quotient_error near rest.size rest.error product_near close
  have square : σ * σ = 1 := by rcases sign with rfl | rfl <;> norm_num
  have unit : |σ| = 1 := by rcases sign with rfl | rfl <;> norm_num
  have nonzero : σ ≠ 0 := by
    intro zero
    rw [zero] at unit
    norm_num at unit
  have turned : value ℝ (x * remainder x) / value ℝ d =
      σ * (value ℝ (x * remainder x) / (σ * value ℝ d)) := by
    by_cases zero : value ℝ d = 0
    · rw [zero, mul_zero, div_zero, mul_zero]
    · field_simp
  have exact : |value ℝ (x * remainder x) / value ℝ d - σ * correction (value ℝ x)| ≤ 0.2331 / 2 ^ 53 := by
    rw [turned, ← mul_sub, abs_mul, unit, one_mul]
    exact error
  have signed : |σ * correction (value ℝ x)| ≤ 0.078 := by rwa [abs_mul, unit, one_mul]
  have far : value ℝ d ≠ 0 := by
    intro zero
    rw [zero, mul_zero] at close
    have bound := (abs_le.mp rest.value_le).2
    have low := (abs_le.mp close).1
    linarith
  have below : |value ℝ (x * remainder x) / value ℝ d| < 1 / 2 ^ 3 := by
    have apart := abs_sub_abs_le_abs_sub (value ℝ (x * remainder x) / value ℝ d)
      (σ * correction (value ℝ x))
    linarith
  obtain ⟨quotient, quotient_near⟩ := div_near product denominator far below (by norm_num)
  refine ⟨quotient, ?_, signed⟩
  calc _ ≤ _ := abs_sub_le _ (value ℝ (x * remainder x) / value ℝ d) _
    _ ≤ 1 / 2 ^ (3 + 54) + 0.2331 / 2 ^ 53 := add_le_add quotient_near exact
    _ ≤ 0.296 / 2 ^ 53 := by norm_num

/-- "x*c/(2.0-c)". -/
theorem quotient_above (number : Number x) (near : |value ℝ x| ≤ 0.3467) :
    Approximates (x * remainder x / (2.0 - remainder x)) (correction (value ℝ x)) (0.296 / 2 ^ 53)
      0.078 := by
  have rest := remainder_approximates number near
  obtain ⟨low, high⟩ := abs_le.mp rest.value_le
  have positive : 0 < 2 - value ℝ (remainder x) := by linarith
  obtain ⟨denominator, close⟩ := sub_relative (K := ℝ) two_value.1 rest.number
    (by rw [two_value.2, abs_of_pos positive]; linarith)
    (by rw [two_value.2, abs_of_pos positive]; linarith)
  rw [two_value.2, abs_of_pos positive] at close
  have result := quotient_approximates (σ := 1) number near (.inl rfl) denominator (by rwa [one_mul])
  rwa [one_mul] at result

/-- "x*c/(c-2.0)". -/
theorem quotient_below (number : Number x) (near : |value ℝ x| ≤ 0.3467) :
    Approximates (x * remainder x / (remainder x - 2.0)) (-correction (value ℝ x)) (0.296 / 2 ^ 53)
      0.078 := by
  have rest := remainder_approximates number near
  obtain ⟨low, high⟩ := abs_le.mp rest.value_le
  have size : |value ℝ (remainder x) - 2| = 2 - value ℝ (remainder x) := by
    rw [abs_sub_comm, abs_of_pos (by linarith)]
  obtain ⟨denominator, close⟩ := sub_relative (K := ℝ) rest.number two_value.1
    (by rw [two_value.2, size]; linarith) (by rw [two_value.2, size]; linarith)
  rw [two_value.2, size, abs_sub_comm] at close
  have result := quotient_approximates (σ := -1) number near (.inr rfl) denominator
    (by rw [show -1 * value ℝ (remainder x - 2.0) - (2 - value ℝ (remainder x)) =
          value ℝ (remainder x) - 2 - value ℝ (remainder x - 2.0) by ring]; exact close)
  rwa [neg_one_mul] at result

end Quotient

section Primary

/-- The exponential over the reduced range. -/
theorem exp_reduced {s : ℝ} (near : |s| ≤ 0.34675) :
    0.7069 ≤ Real.exp s ∧ Real.exp s ≤ 1.4146 ∧ |Real.exp s - 1| ≤ 0.4146 * Real.exp s := by
  have top : Real.exp 0.34675 ≤ 1.4146 := by
    have bound := Real.exp_bound' (x := 0.34675) (by norm_num) (by norm_num) (n := 4) (by norm_num)
    norm_num [Finset.sum_range_succ, Nat.factorial] at bound
    linarith
  have upper {t : ℝ} (le : t ≤ 0.34675) : Real.exp t ≤ 1.4146 := (Real.exp_le_exp.mpr le).trans top
  obtain ⟨low, high⟩ := abs_le.mp near
  have above := upper high
  have opposite := upper (by linarith : -s ≤ 0.34675)
  have inverse : Real.exp s * Real.exp (-s) = 1 := by
    rw [← Real.exp_add, add_neg_cancel, Real.exp_zero]
  have positive := Real.exp_pos s
  refine ⟨by nlinarith, above, ?_⟩
  rw [abs_le]
  constructor <;> nlinarith

/-- The rounding of the reduced argument, which the sum of the parts does not have. -/
theorem exp_shift {s δ : ℝ} (near : |s| ≤ 0.3467) (small : |δ| ≤ 1 / 2 ^ 55) :
    |Real.exp (s + δ) - Real.exp s - δ| ≤ 0.104 / 2 ^ 53 * Real.exp s := by
  obtain ⟨least, -, apart⟩ := exp_reduced (near.trans (by norm_num))
  have positive := Real.exp_pos s
  have linear : |Real.exp δ - 1 - δ| ≤ 1 / 2 ^ 110 := by
    have bound := Real.abs_exp_sub_one_sub_id_le (x := δ) (small.trans (by norm_num))
    have square : |δ| ^ 2 ≤ (1 / 2 ^ 55) ^ 2 := pow_le_pow_left₀ (abs_nonneg δ) small 2
    rw [sq_abs] at square
    exact bound.trans (square.trans (by norm_num))
  have split : Real.exp (s + δ) - Real.exp s - δ =
      Real.exp s * (Real.exp δ - 1 - δ) + δ * (Real.exp s - 1) := by
    rw [Real.exp_add]
    ring
  have first : |Real.exp s * (Real.exp δ - 1 - δ)| ≤ Real.exp s * (1 / 2 ^ 110) := by
    rw [abs_mul, abs_of_pos positive]
    exact mul_le_mul_of_nonneg_left linear positive.le
  have second : |δ * (Real.exp s - 1)| ≤ 1 / 2 ^ 55 * (0.4146 * Real.exp s) := by
    rw [abs_mul]
    exact mul_le_mul small apart (abs_nonneg _) (by norm_num)
  rw [split]
  calc _ ≤ Real.exp s * (1 / 2 ^ 110) + 1 / 2 ^ 55 * (0.4146 * Real.exp s) :=
        (abs_add_le _ _).trans (add_le_add first second)
    _ ≤ 0.104 / 2 ^ 53 * Real.exp s := by linarith

/-- "one-(...)": the last operation, relative to the exponential. -/
theorem last_rounded {w : Float} {v s e : ℝ} (stands : Approximates w v (0.609 / 2 ^ 53) 0.4251)
    (reduced : |s| ≤ 0.3467) (close : |1 - v - Real.exp s| ≤ e)
    (small : e ≤ 0.0079 / 2 ^ 53 + 0.104 / 2 ^ 53 * Real.exp s) :
    Number (one - w) ∧ |value ℝ (one - w) - Real.exp s| ≤ 1.98 / 2 ^ 53 * Real.exp s := by
  obtain ⟨least, most, -⟩ := exp_reduced (reduced.trans (by norm_num))
  obtain ⟨w_low, w_high⟩ := abs_le.mp stands.value_le
  have positive : 0 < 1 - value ℝ w := by linarith
  obtain ⟨number, rounded⟩ := sub_relative (K := ℝ) one_value.1 stands.number
    (by rw [one_value.2, abs_of_pos positive]; linarith)
    (by rw [one_value.2, abs_of_pos positive]; linarith)
  rw [one_value.2, abs_of_pos positive] at rounded
  obtain ⟨error_low, error_high⟩ := abs_le.mp stands.error
  obtain ⟨close_low, close_high⟩ := abs_le.mp close
  obtain ⟨low, high⟩ := abs_le.mp rounded
  refine ⟨number, ?_⟩
  rw [abs_le]
  constructor <;> linarith

variable {x : Float}

theorem unreduced_inner (number : Number x) (near : |value ℝ x| ≤ 0.3467) :
    Approximates (x * remainder x / (remainder x - 2.0) - x) (-correction (value ℝ x) - value ℝ x)
      (0.609 / 2 ^ 53) 0.4251 := by
  have self : Approximates x (value ℝ x) 0 0.3467 := (Approximates.exact number rfl).weaken le_rfl near
  have inner := (quotient_below number near).sub self (n := 1) (by norm_num) (by norm_num)
  exact inner.weaken (by norm_num) (inner.size.trans (by norm_num))

theorem correction_near {r : ℝ} (near : |r| ≤ 0.3467) :
    |1 - (-correction r - r) - Real.exp r| ≤ 1 / 2 ^ 60 := by
  have kernel := rational_near near
  rw [rational_eq near] at kernel
  rw [show 1 - (-correction r - r) = 1 + r + correction r by ring]
  exact kernel

/-- The branch without a reduction. -/
theorem unreduced_near (number : Number x) (near : |value ℝ x| ≤ 0.3467) :
    Number (one - (x * remainder x / (remainder x - 2.0) - x)) ∧
      |value ℝ (one - (x * remainder x / (remainder x - 2.0) - x)) - Real.exp (value ℝ x)| ≤
        1.98 / 2 ^ 53 * Real.exp (value ℝ x) := by
  apply last_rounded (unreduced_inner number near) near (correction_near near)
  have positive := Real.exp_pos (value ℝ x)
  have extra : 0 ≤ 0.104 / 2 ^ 53 * Real.exp (value ℝ x) := by positivity
  linarith

/-- The branch after a reduction: the argument is the rounded difference of two parts, and the
sum of the parts is what counts. -/
theorem reduced_near {hi lo : Float} (hi_number : Number hi) (lo_number : Number lo)
    (hi_near : |value ℝ hi| ≤ 0.3469) (lo_near : |value ℝ lo| ≤ 1 / 2 ^ 20)
    (near : |value ℝ hi - value ℝ lo| ≤ 0.34668) :
    Number (one - ((lo - (hi - lo) * remainder (hi - lo) / (2.0 - remainder (hi - lo))) - hi)) ∧
      |value ℝ (one - ((lo - (hi - lo) * remainder (hi - lo) / (2.0 - remainder (hi - lo))) - hi)) -
          Real.exp (value ℝ hi - value ℝ lo)| ≤
        1.98 / 2 ^ 53 * Real.exp (value ℝ hi - value ℝ lo) := by
  obtain ⟨number, rounded⟩ := sub_near (K := ℝ) (n := 1) hi_number lo_number
    (near.trans_lt (by norm_num)) (by norm_num)
  set s := value ℝ hi - value ℝ lo
  have argument : |value ℝ (hi - lo)| ≤ 0.3467 := by
    have apart := abs_sub_abs_le_abs_sub (value ℝ (hi - lo)) s
    linarith
  have hi_stands : Approximates hi (value ℝ hi) 0 0.3469 :=
    (Approximates.exact hi_number rfl).weaken le_rfl hi_near
  have lo_stands : Approximates lo (value ℝ lo) 0 (1 / 2 ^ 20) :=
    (Approximates.exact lo_number rfl).weaken le_rfl lo_near
  have first := lo_stands.sub (quotient_above number argument) (n := 3) (by norm_num) (by norm_num)
  have inner := first.sub hi_stands (n := 1) (by norm_num) (by norm_num)
  have kernel := rational_near argument
  rw [rational_eq argument] at kernel
  have shift := exp_shift (s := s) (near.trans (by norm_num)) rounded
  rw [add_sub_cancel] at shift
  apply last_rounded (inner.weaken (by norm_num) (inner.size.trans (by norm_num)))
    (near.trans (by norm_num)) _ le_rfl
  have split : 1 - (value ℝ lo - correction (value ℝ (hi - lo)) - value ℝ hi) - Real.exp s =
      (1 + value ℝ (hi - lo) + correction (value ℝ (hi - lo)) - Real.exp (value ℝ (hi - lo))) +
        (Real.exp (value ℝ (hi - lo)) - Real.exp s - (value ℝ (hi - lo) - s)) := by
    ring
  rw [split]
  calc _ ≤ 1 / 2 ^ 60 + 0.104 / 2 ^ 53 * Real.exp s :=
        (abs_add_le _ _).trans (add_le_add kernel shift)
    _ ≤ 0.0079 / 2 ^ 53 + 0.104 / 2 ^ 53 * Real.exp s := by linarith

end Primary

end GapsoRbfPid.Exponential
