import Mathlib
import GapsoRbfPid.Library.ExpSeries
import GapsoRbfPid.Exponential

/-! "Approximation of exp(r) by a special rational function on the interval [0,0.34658]": how far
the polynomial with the coefficients of the source is from the function that it stands for. -/

namespace GapsoRbfPid.Exponential
open Library.PolyBound Library.ExpSeries

/-- `2.0 + P1*z + P2*z**2 + P3*z**3 + P4*z**4 + P5*z**5`. -/
def coefficients : List ℚ :=
  [2, 3002399751580319 / 2 ^ 54, -6405119469862291 / 2 ^ 61, 1220022702274443 / 2 ^ 64,
    -7807914560613361 / 2 ^ 72, 390835970239053 / 2 ^ 73]

/-- "Write R(r**2) = r*(exp(r)+1)/(exp(r)-1)". -/
noncomputable def R (r : ℝ) : ℝ := r * (Real.exp r + 1) / (Real.exp r - 1)

/-- What the polynomial makes of `exp(r) = (R+r)/(R-r)`. -/
noncomputable def rational (r : ℝ) : ℝ :=
  (eval coefficients (r ^ 2) + r) / (eval coefficients (r ^ 2) - r)

section Series

/-- The polynomial times the odd part of the exponential, less twice the even part. -/
def defect : List ℚ := add (mul coefficients (oddPart 7)) (scale (-2) (evenPart 7))

theorem defect_bounded : Bounded defect (3 / 2 ^ 60) 0 (1203 / 480000) 24 := by decide +kernel

theorem coefficients_bounded : Bounded coefficients (9 / 4) 0 (1203 / 20000) 1 := by decide +kernel

variable {r : ℝ}

theorem square_le (near : |r| ≤ 0.3467) : r ^ 2 < 0.1203 := by
  have square : |r| ^ 2 ≤ 0.3467 ^ 2 := pow_le_pow_left₀ (abs_nonneg r) near 2
  rw [sq_abs] at square
  exact square.trans_lt (by norm_num)

theorem defect_le (near : |r| ≤ 0.3467) : |eval defect (r ^ 2)| ≤ 3 / 2 ^ 60 := by
  have bound := defect_bounded.abs_eval_le (by norm_num) (x := r ^ 2)
    (by push_cast; exact sq_nonneg r) (by push_cast; linarith [square_le near])
  push_cast at bound
  exact bound

theorem polynomial_le (near : |r| ≤ 0.3467) : |eval coefficients (r ^ 2)| ≤ 9 / 4 := by
  have bound := coefficients_bounded.abs_eval_le (by norm_num) (x := r ^ 2)
    (by push_cast; exact sq_nonneg r) (by push_cast; linarith [square_le near])
  push_cast at bound
  exact bound

theorem remainder_le (near : |r| ≤ 0.3467) : Library.ExpSeries.remainder 7 r ≤ |r| / 2 ^ 70 := by
  have half : |r / 2| ≤ 0.3467 / 2 := by
    rw [abs_div, abs_two]
    linarith
  have power : |r / 2| ^ 14 ≤ (0.3467 / 2) ^ 14 := pow_le_pow_left₀ (abs_nonneg _) half 14
  have size := abs_nonneg r
  calc Library.ExpSeries.remainder 7 r
      = |r| * (|r / 2| ^ 14 * (16 / (1307674368000 * 15))) := by
        have twice : |r| = 2 * |r / 2| := by
          rw [abs_div, abs_two]
          ring
        have factorial : (2 * 7 + 1).factorial = 1307674368000 := rfl
        rw [Library.ExpSeries.remainder, twice, factorial]
        push_cast
        ring
    _ ≤ |r| * ((0.3467 / 2) ^ 14 * (16 / (1307674368000 * 15))) := by gcongr
    _ ≤ |r| / 2 ^ 70 := by
        rw [div_eq_mul_inv |r|]
        gcongr
        norm_num

/-- Where the polynomial would be exact, this is zero. -/
noncomputable def residual (r : ℝ) : ℝ :=
  eval coefficients (r ^ 2) * (Real.exp (r / 2) - Real.exp (-(r / 2))) -
    r * (Real.exp (r / 2) + Real.exp (-(r / 2)))

theorem residual_near (near : |r| ≤ 0.3467) :
    |residual r - r * eval defect (r ^ 2)| ≤ |r| / 2 ^ 68 := by
  have small : |r| ≤ 2 := near.trans (by norm_num)
  have sinh := (sinh_near small 7).trans (remainder_le near)
  have cosh := (cosh_near small 7).trans (remainder_le near)
  have series : eval defect (r ^ 2) = eval coefficients (r ^ 2) * eval (oddPart 7) (r ^ 2) -
      2 * eval (evenPart 7) (r ^ 2) := by
    rw [defect, eval_add, eval_mul, eval_scale]
    push_cast
    ring
  have split : residual r - r * eval defect (r ^ 2) = eval coefficients (r ^ 2) *
      (Real.exp (r / 2) - Real.exp (-(r / 2)) - r * eval (oddPart 7) (r ^ 2)) -
      r * (Real.exp (r / 2) + Real.exp (-(r / 2)) - 2 * eval (evenPart 7) (r ^ 2)) := by
    rw [residual, series]
    ring
  have size := abs_nonneg r
  rw [split]
  calc _ ≤ 9 / 4 * (|r| / 2 ^ 70) + 0.3467 * (|r| / 2 ^ 70) := by
        apply (abs_sub _ _).trans
        rw [abs_mul, abs_mul]
        apply add_le_add
        · exact mul_le_mul (polynomial_le near) sinh (abs_nonneg _) (by norm_num)
        · exact mul_le_mul near cosh (abs_nonneg _) (by norm_num)
    _ ≤ |r| / 2 ^ 68 := by linarith

theorem residual_le (near : |r| ≤ 0.3467) : |residual r| ≤ |r| / 2 ^ 58 := by
  have bound : |r * eval defect (r ^ 2)| ≤ |r| * (3 / 2 ^ 60) := by
    rw [abs_mul]
    exact mul_le_mul_of_nonneg_left (defect_le near) (abs_nonneg r)
  have apart := abs_sub_abs_le_abs_sub (residual r) (r * eval defect (r ^ 2))
  linarith [residual_near near, abs_nonneg r]

theorem sinh_ge (r : ℝ) : |r| ≤ |Real.exp (r / 2) - Real.exp (-(r / 2))| := by
  have positive {w : ℝ} (nonneg : 0 ≤ w) : 2 * w ≤ Real.exp w - Real.exp (-w) := by
    have least := Real.self_le_sinh_iff.mpr nonneg
    rw [Real.sinh_eq] at least
    linarith
  rcases le_total 0 r with nonneg | nonpos
  · have least := positive (by linarith : 0 ≤ r / 2)
    rw [abs_of_nonneg nonneg, abs_of_nonneg (by linarith)]
    linarith
  · have least := positive (by linarith : 0 ≤ -(r / 2))
    rw [neg_neg] at least
    rw [abs_of_nonpos nonpos, abs_of_nonpos (by linarith)]
    linarith

theorem exp_half (r : ℝ) : Real.exp r = Real.exp (r / 2) * Real.exp (r / 2) ∧
    Real.exp (r / 2) * Real.exp (-(r / 2)) = 1 := by
  constructor
  · rw [← Real.exp_add]
    congr 1
    ring
  · rw [← Real.exp_add, add_neg_cancel, Real.exp_zero]

/-- The distance from the function, at half the argument. -/
theorem polynomial_sub_R (nonzero : r ≠ 0) : eval coefficients (r ^ 2) - R r =
    residual r / (Real.exp (r / 2) - Real.exp (-(r / 2))) := by
  obtain ⟨square, inverse⟩ := exp_half r
  have odd : Real.exp (r / 2) - Real.exp (-(r / 2)) ≠ 0 :=
    abs_pos.mp ((abs_pos.mpr nonzero).trans_le (sinh_ge r))
  have numerator : Real.exp r + 1 =
      Real.exp (r / 2) * (Real.exp (r / 2) + Real.exp (-(r / 2))) := by
    rw [square]
    linear_combination -inverse
  have denominator : Real.exp r - 1 =
      Real.exp (r / 2) * (Real.exp (r / 2) - Real.exp (-(r / 2))) := by
    rw [square]
    linear_combination inverse
  have half := Real.exp_ne_zero (r / 2)
  rw [R, numerator, denominator, residual]
  field_simp

theorem R_near (nonzero : r ≠ 0) (near : |r| ≤ 0.3467) :
    |eval coefficients (r ^ 2) - R r| ≤ 1 / 2 ^ 58 := by
  have size := abs_pos.mpr nonzero
  have least := sinh_ge r
  rw [polynomial_sub_R nonzero, abs_div, div_le_iff₀ (size.trans_le least)]
  calc |residual r| ≤ |r| / 2 ^ 58 := residual_le near
    _ ≤ 1 / 2 ^ 58 * |Real.exp (r / 2) - Real.exp (-(r / 2))| := by linarith

theorem polynomial_ge (near : |r| ≤ 0.3467) : 2 ≤ eval coefficients (r ^ 2) := by
  have nonneg := sq_nonneg r
  have small := square_le near
  simp only [coefficients, eval_cons, eval_nil]
  push_cast
  nlinarith [mul_nonneg nonneg nonneg, mul_nonneg (mul_nonneg nonneg nonneg) nonneg,
    mul_nonneg (mul_nonneg (mul_nonneg nonneg nonneg) nonneg) nonneg]

/-- "= 1 + r + r*R1(r)/(2-R1(r))" with the polynomial of the source is the exponential but
for `2 ^ -60`. -/
theorem rational_near (near : |r| ≤ 0.3467) : |rational r - Real.exp r| ≤ 1 / 2 ^ 60 := by
  obtain ⟨square, inverse⟩ := exp_half r
  have positive := Real.exp_pos (r / 2)
  obtain ⟨low, high⟩ := abs_le.mp near
  have denominator : 1.653 ≤ eval coefficients (r ^ 2) - r := by linarith [polynomial_ge near]
  have half : Real.exp (r / 2) ≤ 1.19 := by
    have bound := Real.exp_bound' (x := 0.17335) (by norm_num) (by norm_num) (n := 3) (by norm_num)
    have larger : Real.exp (r / 2) ≤ Real.exp 0.17335 := Real.exp_le_exp.mpr (by linarith)
    norm_num [Finset.sum_range_succ, Nat.factorial] at bound
    linarith
  have split : rational r - Real.exp r = Real.exp (r / 2) *
      -residual r / (eval coefficients (r ^ 2) - r) := by
    rw [eq_div_iff (by linarith), rational, sub_mul, div_mul_cancel₀ _ (by linarith), square,
      residual]
    linear_combination (-(eval coefficients (r ^ 2)) - r) * inverse
  rw [split, abs_div, abs_mul, abs_neg, abs_of_pos positive,
    abs_of_pos (by linarith : 0 < eval coefficients (r ^ 2) - r), div_le_iff₀ (by linarith)]
  calc Real.exp (r / 2) * |residual r| ≤ 1.19 * (0.3467 / 2 ^ 58) := by
        apply mul_le_mul half _ (abs_nonneg _) (by norm_num)
        exact (residual_le near).trans (by gcongr)
    _ ≤ 1 / 2 ^ 60 * (eval coefficients (r ^ 2) - r) := by linarith

/-- Both parts at one third, where the distance is near its largest. -/
theorem parts_third : eval defect (1 / 9 : ℚ) < -(57 / 50) / 2 ^ 59 ∧
    1 < eval (oddPart 7) (1 / 9 : ℚ) ∧ eval (oddPart 7) (1 / 9 : ℚ) < 101 / 100 := by
  decide +kernel

theorem third_far : 1 / 2 ^ 59 < |eval coefficients ((1 / 3 : ℝ) ^ 2) - R (1 / 3)| := by
  obtain ⟨low, pos, high⟩ := parts_third
  have near : |(1 / 3 : ℝ)| ≤ 0.3467 := by norm_num [abs_of_pos]
  have square : (1 / 3 : ℝ) ^ 2 = (1 / 9 : ℚ) := by norm_num
  have odd := (sinh_near (near.trans (by norm_num)) 7).trans (remainder_le near)
  have apart := residual_near near
  have size : |(1 / 3 : ℝ)| = 1 / 3 := by norm_num [abs_of_pos]
  rw [square, eval_cast, size] at odd apart
  have low' : ((eval defect (1 / 9 : ℚ) : ℚ) : ℝ) < ((-(57 / 50) / 2 ^ 59 : ℚ) : ℝ) := Rat.cast_lt.mpr low
  have high' : ((eval (oddPart 7) (1 / 9 : ℚ) : ℚ) : ℝ) < ((101 / 100 : ℚ) : ℝ) := Rat.cast_lt.mpr high
  have pos' : ((1 : ℚ) : ℝ) < ((eval (oddPart 7) (1 / 9 : ℚ) : ℚ) : ℝ) :=
    Rat.cast_lt.mpr pos
  push_cast at low' high' pos'
  have below := (abs_le.mp apart).2
  obtain ⟨odd_low, odd_high⟩ := abs_le.mp odd
  have least := sinh_ge (1 / 3)
  rw [size, abs_of_nonneg (by linarith)] at least
  rw [polynomial_sub_R (by norm_num), abs_div, abs_of_neg (by linarith : residual (1 / 3) < 0),
    abs_of_pos (by linarith : 0 < Real.exp (1 / 3 / 2) - Real.exp (-(1 / 3 / 2))),
    lt_div_iff₀ (by linarith)]
  linarith

/-- "The maximum error of this polynomial approximation is bounded by 2**-59": with the rounded
coefficients it is bounded by twice as much, and not by `2 ^ -59`. -/
theorem polynomial_error :
    (∀ r ≠ 0, |r| ≤ 0.34658 → |eval coefficients (r ^ 2) - R r| ≤ 1 / 2 ^ 58) ∧
      ∃ r, 0 < r ∧ r ≤ 0.34658 ∧ 1 / 2 ^ 59 < |eval coefficients (r ^ 2) - R r| := by
  constructor
  · intro r nonzero near
    exact R_near nonzero (near.trans (by norm_num))
  · exact ⟨1 / 3, by norm_num, by norm_num, third_far⟩

end Series

end GapsoRbfPid.Exponential
