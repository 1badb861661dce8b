import Mathlib
import GapsoRbfPid.Library.Binary64

/-! Floats that stand for a number up to an error, and what the operations make of the errors. -/

namespace GapsoRbfPid.Library.Binary64

/-- The float stands for `v`, which is at most `b` in size, up to an error of `e`. -/
structure Approximates (x : Float) (v e b : ℝ) : Prop where
  number : Number x
  error : |value ℝ x - v| ≤ e
  size : |v| ≤ b

namespace Approximates
variable {x y : Float} {v w e f b c : ℝ} {n : ℕ}

theorem exact (number : Number x) (same : value ℝ x = v) : Approximates x v 0 |v| where
  number := number
  error := by rw [same, sub_self, abs_zero]
  size := le_rfl

theorem weaken {e' b' : ℝ} (h : Approximates x v e b) (error : e ≤ e') (size : |v| ≤ b') :
    Approximates x v e' b' where
  number := h.number
  error := h.error.trans error
  size := size

theorem value_le (h : Approximates x v e b) : |value ℝ x| ≤ b + e := by
  have apart := abs_sub_abs_le_abs_sub (value ℝ x) v
  linarith [h.error, h.size]

section Rounded
variable {ε : ℝ}

theorem add_rounded (left : Approximates x v e b) (right : Approximates y w f c)
    (rounded : Number (x + y) ∧ |value ℝ (x + y) - (value ℝ x + value ℝ y)| ≤ ε) :
    Approximates (x + y) (v + w) (ε + e + f) (b + c) := by
  refine ⟨rounded.1, ?_, (abs_add_le v w).trans (add_le_add left.size right.size)⟩
  calc |value ℝ (x + y) - (v + w)|
      = |value ℝ (x + y) - (value ℝ x + value ℝ y) + (value ℝ x - v) + (value ℝ y - w)| := by
        congr 1
        ring
    _ ≤ ε + e + f :=
        (abs_add_three _ _ _).trans (add_le_add_three rounded.2 left.error right.error)

theorem mul_rounded (left : Approximates x v e b) (right : Approximates y w f c)
    (rounded : Number (x * y) ∧ |value ℝ (x * y) - value ℝ x * value ℝ y| ≤ ε) :
    Approximates (x * y) (v * w) (ε + e * (c + f) + b * f) (b * c) := by
  have first : |(value ℝ x - v) * value ℝ y| ≤ e * (c + f) := by
    rw [abs_mul]
    exact mul_le_mul left.error right.value_le (abs_nonneg _) ((abs_nonneg _).trans left.error)
  have second : |v * (value ℝ y - w)| ≤ b * f := by
    rw [abs_mul]
    exact mul_le_mul left.size right.error (abs_nonneg _) ((abs_nonneg _).trans left.size)
  have size : |v * w| ≤ b * c := by
    rw [abs_mul]
    exact mul_le_mul left.size right.size (abs_nonneg _) ((abs_nonneg _).trans left.size)
  refine ⟨rounded.1, ?_, size⟩
  calc |value ℝ (x * y) - v * w|
      = |value ℝ (x * y) - value ℝ x * value ℝ y + (value ℝ x - v) * value ℝ y +
          v * (value ℝ y - w)| := by
        congr 1
        ring
    _ ≤ ε + e * (c + f) + b * f :=
        (abs_add_three _ _ _).trans (add_le_add_three rounded.2 first second)

theorem sum_le (left : Approximates x v e b) (right : Approximates y w f c) :
    |value ℝ x + value ℝ y| ≤ b + e + (c + f) :=
  (abs_add_le _ _).trans (add_le_add left.value_le right.value_le)

theorem product_le (left : Approximates x v e b) (right : Approximates y w f c) :
    |value ℝ x * value ℝ y| ≤ (b + e) * (c + f) := by
  rw [abs_mul]
  exact mul_le_mul left.value_le right.value_le (abs_nonneg _) ((abs_nonneg _).trans left.value_le)

end Rounded

theorem add (left : Approximates x v e b) (right : Approximates y w f c)
    (small : b + e + (c + f) < 1 / 2 ^ n) (room : n ≤ 1021) :
    Approximates (x + y) (v + w) (1 / 2 ^ (n + 54) + e + f) (b + c) :=
  left.add_rounded right (add_near left.number right.number ((left.sum_le right).trans_lt small) room)

theorem mul (left : Approximates x v e b) (right : Approximates y w f c)
    (small : (b + e) * (c + f) < 1 / 2 ^ n) (room : n ≤ 1021) :
    Approximates (x * y) (v * w) (1 / 2 ^ (n + 54) + e * (c + f) + b * f) (b * c) :=
  left.mul_rounded right (mul_near left.number right.number ((left.product_le right).trans_lt small) room)

/-- Sums that may be above one. -/
theorem add_wide (left : Approximates x v e b) (right : Approximates y w f c)
    (small : b + e + (c + f) < 2 ^ n) (room : n ≤ 20) :
    Approximates (x + y) (v + w) (2 ^ n / 2 ^ 54 + e + f) (b + c) := by
  have sum := (left.sum_le right).trans_lt small
  obtain ⟨number, rounds⟩ := add_rounds left.number right.number
    (inside_of_le (sum.le.trans (pow_le_pow_right₀ one_le_two room)))
  exact left.add_rounded right ⟨number, wide_of_rounds rounds sum⟩

theorem mul_wide (left : Approximates x v e b) (right : Approximates y w f c)
    (small : (b + e) * (c + f) < 2 ^ n) (room : n ≤ 20) :
    Approximates (x * y) (v * w) (2 ^ n / 2 ^ 54 + e * (c + f) + b * f) (b * c) := by
  have product := (left.product_le right).trans_lt small
  obtain ⟨number, rounds⟩ := mul_rounds left.number right.number
    (inside_of_le (product.le.trans (pow_le_pow_right₀ one_le_two room)))
  exact left.mul_rounded right ⟨number, wide_of_rounds rounds product⟩

theorem neg (h : Approximates x v e b) : Approximates (-x) (-v) e b := by
  obtain ⟨number, same⟩ := neg_value (K := ℝ) h.number
  refine ⟨number, ?_, by rw [abs_neg]; exact h.size⟩
  rw [same, show -value ℝ x - -v = -(value ℝ x - v) by ring, abs_neg]
  exact h.error

theorem sub (left : Approximates x v e b) (right : Approximates y w f c)
    (small : b + e + (c + f) < 1 / 2 ^ n) (room : n ≤ 1021) :
    Approximates (x - y) (v - w) (1 / 2 ^ (n + 54) + e + f) (b + c) := by
  have difference : |value ℝ x - value ℝ y| < 1 / 2 ^ n :=
    ((abs_sub _ _).trans (add_le_add left.value_le right.value_le)).trans_lt small
  obtain ⟨number, near⟩ := sub_near left.number right.number difference room
  refine ⟨number, ?_, (abs_sub v w).trans (add_le_add left.size right.size)⟩
  have reversed : |w - value ℝ y| ≤ f := by
    rw [abs_sub_comm]
    exact right.error
  calc |value ℝ (x - y) - (v - w)|
      = |value ℝ (x - y) - (value ℝ x - value ℝ y) + (value ℝ x - v) + (w - value ℝ y)| := by
        congr 1
        ring
    _ ≤ 1 / 2 ^ (n + 54) + e + f :=
        (abs_add_three _ _ _).trans (add_le_add_three near left.error reversed)

end Approximates

end GapsoRbfPid.Library.Binary64
