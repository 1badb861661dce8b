import Mathlib
import GapsoRbfPid.Library.PolyBound

/-! Rational enclosures of the exponential near zero and of the logarithm of two. The odd and the
even part of the exponential at `r / 2` are polynomials in the square of `r` up to a remainder. -/

namespace GapsoRbfPid.Library.ExpSeries
open PolyBound Finset

theorem eval_range {K : Type*} [Field K] [CharZero K] (f : ℕ → ℚ) (n : ℕ) (x : K) :
    eval ((List.range n).map f) x = ∑ i ∈ range n, (f i : K) * x ^ i := by
  induction n generalizing f with
  | zero => simp
  | succ n ih =>
    have tail := ih fun i => f (i + 1)
    rw [List.range_succ_eq_map, List.map_cons, List.map_map, eval_cons, sum_range_succ']
    change (f 0 : K) + x * eval ((List.range n).map fun i => f (i + 1)) x = _
    rw [tail, mul_sum, pow_zero, mul_one, add_comm]
    congr 1
    apply sum_congr rfl
    intro i _
    ring

/-- `sinh w / w` for `w = r / 2`, in the square of `r`. -/
def oddPart (n : ℕ) : List ℚ :=
  (List.range n).map fun i => 1 / (4 ^ i * (2 * i + 1).factorial)

/-- `cosh w` for `w = r / 2`, in the square of `r`. -/
def evenPart (n : ℕ) : List ℚ :=
  (List.range (n + 1)).map fun i => 1 / (4 ^ i * (2 * i).factorial)

theorem odd_terms (n : ℕ) (w : ℝ) :
    ∑ m ∈ range (2 * n + 1), w ^ m / m.factorial - ∑ m ∈ range (2 * n + 1), (-w) ^ m / m.factorial =
      2 * ∑ i ∈ range n, w ^ (2 * i + 1) / (2 * i + 1).factorial := by
  induction n with
  | zero => simp
  | succ n ih =>
    have odd : (-w) ^ (2 * n + 1) = -w ^ (2 * n + 1) := Odd.neg_pow ⟨n, rfl⟩ w
    have even : (-w) ^ (2 * n + 1 + 1) = w ^ (2 * n + 1 + 1) := Even.neg_pow ⟨n + 1, by ring⟩ w
    rw [show 2 * (n + 1) + 1 = 2 * n + 1 + 1 + 1 by ring, sum_range_succ, sum_range_succ,
      sum_range_succ _ (2 * n + 1 + 1), sum_range_succ _ (2 * n + 1), sum_range_succ _ n, odd, even]
    linear_combination ih

theorem even_terms (n : ℕ) (w : ℝ) :
    ∑ m ∈ range (2 * n + 1), w ^ m / m.factorial + ∑ m ∈ range (2 * n + 1), (-w) ^ m / m.factorial =
      2 * ∑ i ∈ range (n + 1), w ^ (2 * i) / (2 * i).factorial := by
  induction n with
  | zero =>
    simp
    norm_num
  | succ n ih =>
    have odd : (-w) ^ (2 * n + 1) = -w ^ (2 * n + 1) := Odd.neg_pow ⟨n, rfl⟩ w
    have even : (-w) ^ (2 * n + 1 + 1) = w ^ (2 * n + 1 + 1) := Even.neg_pow ⟨n + 1, by ring⟩ w
    rw [show 2 * (n + 1) + 1 = 2 * n + 1 + 1 + 1 by ring, sum_range_succ, sum_range_succ,
      sum_range_succ _ (2 * n + 1 + 1), sum_range_succ _ (2 * n + 1), sum_range_succ _ (n + 1), odd,
      even, show 2 * (n + 1) = 2 * n + 1 + 1 by ring]
    linear_combination ih

theorem oddPart_eval (n : ℕ) (r : ℝ) :
    r * eval (oddPart n) (r ^ 2) =
      2 * ∑ i ∈ range n, (r / 2) ^ (2 * i + 1) / (2 * i + 1).factorial := by
  rw [oddPart, eval_range, mul_sum, mul_sum]
  apply sum_congr rfl
  intro i _
  have power : (r / 2) ^ (2 * i + 1) = r * (r ^ 2) ^ i / (2 * 4 ^ i) := by
    rw [div_pow, show (4 : ℝ) = 2 ^ 2 by norm_num, ← pow_mul, ← pow_mul, pow_succ, pow_succ]
    ring
  rw [power]
  push_cast
  field_simp

theorem evenPart_eval (n : ℕ) (r : ℝ) :
    eval (evenPart n) (r ^ 2) = ∑ i ∈ range (n + 1), (r / 2) ^ (2 * i) / (2 * i).factorial := by
  rw [evenPart, eval_range]
  apply sum_congr rfl
  intro i _
  have power : (r / 2) ^ (2 * i) = (r ^ 2) ^ i / 4 ^ i := by
    rw [div_pow, pow_mul, pow_mul]
    norm_num
  rw [power]
  push_cast
  field_simp

/-- What the terms up to `2 * n` leave of the exponential. -/
noncomputable def remainder (n : ℕ) (r : ℝ) : ℝ :=
  2 * (|r / 2| ^ (2 * n + 1) * ((2 * n + 2 : ℕ) / ((2 * n + 1).factorial * (2 * n + 1 : ℕ))))

theorem exp_terms {w : ℝ} (small : |w| ≤ 1) (n : ℕ) :
    |Real.exp w - ∑ m ∈ range (2 * n + 1), w ^ m / m.factorial| ≤
      |w| ^ (2 * n + 1) * ((2 * n + 2 : ℕ) / ((2 * n + 1).factorial * (2 * n + 1 : ℕ))) := by
  have bound := Real.exp_bound small (n := 2 * n + 1) (Nat.succ_pos _)
  exact_mod_cast bound

theorem sinh_near {r : ℝ} (small : |r| ≤ 2) (n : ℕ) :
    |Real.exp (r / 2) - Real.exp (-(r / 2)) - r * eval (oddPart n) (r ^ 2)| ≤ remainder n r := by
  have half : |r / 2| ≤ 1 := by rw [abs_div, abs_two]; linarith
  have first := exp_terms half n
  have second := exp_terms (w := -(r / 2)) (by rwa [abs_neg]) n
  rw [oddPart_eval, ← odd_terms, remainder]
  rw [abs_neg] at second
  obtain ⟨low, high⟩ := abs_le.mp first
  obtain ⟨low', high'⟩ := abs_le.mp second
  rw [abs_le]
  constructor <;> linarith

theorem cosh_near {r : ℝ} (small : |r| ≤ 2) (n : ℕ) :
    |Real.exp (r / 2) + Real.exp (-(r / 2)) - 2 * eval (evenPart n) (r ^ 2)| ≤ remainder n r := by
  have half : |r / 2| ≤ 1 := by rw [abs_div, abs_two]; linarith
  have first := exp_terms half n
  have second := exp_terms (w := -(r / 2)) (by rwa [abs_neg]) n
  rw [evenPart_eval, ← even_terms, remainder]
  rw [abs_neg] at second
  obtain ⟨low, high⟩ := abs_le.mp first
  obtain ⟨low', high'⟩ := abs_le.mp second
  rw [abs_le]
  constructor <;> linarith

/-- The exponentials of two numbers that are close. -/
theorem exp_apart {s t : ℝ} (close : |s - t| ≤ 1) :
    |Real.exp s - Real.exp t| ≤ 2 * |s - t| * Real.exp t := by
  have split : Real.exp s - Real.exp t = (Real.exp (s - t) - 1) * Real.exp t := by
    rw [Real.exp_sub]
    field_simp
  rw [split, abs_mul, abs_of_pos (Real.exp_pos t)]
  exact mul_le_mul_of_nonneg_right (Real.abs_exp_sub_one_le close) (Real.exp_pos t).le

/-- The logarithm of two, with an error below one unit of the last term. -/
theorem log_two_near (n : ℕ) :
    |Real.log 2 - ∑ i ∈ range n, (1 / 2 : ℝ) ^ (i + 1) / (i + 1)| ≤ (1 / 2) ^ n := by
  have half : |(1 / 2 : ℝ)| = 1 / 2 := by norm_num
  have bound := Real.abs_log_sub_add_sum_range_le (x := 1 / 2) (by rw [half]; norm_num) n
  have inverse : Real.log (1 - 1 / 2) = -Real.log 2 := by
    rw [show (1 - 1 / 2 : ℝ) = 2⁻¹ by norm_num, Real.log_inv]
  have power : |(1 / 2 : ℝ)| ^ (n + 1) / (1 - |1 / 2|) = (1 / 2) ^ n := by
    rw [half, pow_succ]
    norm_num
  rw [inverse, power, ← sub_eq_add_neg, abs_sub_comm] at bound
  exact bound

end GapsoRbfPid.Library.ExpSeries
