import GapsoRbfPid.Library.Vectors
import Mathlib.Algebra.Field.Basic
import Mathlib.Tactic.Linarith
import Mathlib.Tactic.Ring

/-! An accumulator that is held between two bounds after every addition. Equal additions
saturate once and stay, so that clamping along the way is clamping at the end. -/

namespace GapsoRbfPid.Library.Clamp

section Bounds
variable {R : Type*} [LinearOrder R] {low high value : R}

def clamp (low high value : R) : R := max low (min value high)

theorem clamp_of_mem (above : low ≤ value) (below : value ≤ high) : clamp low high value = value := by
  rw [clamp, min_eq_left below, max_eq_right above]

theorem clamp_of_high (ordered : low ≤ high) (beyond : high ≤ value) : clamp low high value = high := by
  rw [clamp, min_eq_right beyond, max_eq_right ordered]

theorem clamp_of_low (ordered : low ≤ high) (beyond : value ≤ low) : clamp low high value = low := by
  rw [clamp, min_eq_left (beyond.trans ordered), max_eq_left beyond]

end Bounds

variable {R : Type*} [Field R] [LinearOrder R]

/-- The accumulator after a number of equal additions. -/
def accumulate (low high change : R) : ℕ → R → R
  | 0, value => value
  | count + 1, value => clamp low high (accumulate low high change count value + change)

variable [IsStrictOrderedRing R] {low high change value : R}

/-- A bound that was reached is not left by a further step in the same direction. -/
theorem clamp_add_of_same (ordered : low ≤ high) (far : R)
    (same : 0 ≤ change ∧ low ≤ far ∨ change ≤ 0 ∧ far ≤ high) :
    clamp low high (clamp low high far + change) = clamp low high (far + change) := by
  rcases same with ⟨rises, above⟩ | ⟨falls, below⟩
  · rcases le_total far high with inside | beyond
    · rw [clamp_of_mem above inside]
    · rw [clamp_of_high ordered beyond, clamp_of_high ordered (by linarith),
        clamp_of_high ordered (by linarith)]
  · rcases le_total low far with inside | beyond
    · rw [clamp_of_mem inside below]
    · rw [clamp_of_low ordered beyond, clamp_of_low ordered (by linarith),
        clamp_of_low ordered (by linarith)]

theorem accumulate_eq (above : low ≤ value) (below : value ≤ high) (count : ℕ) :
    accumulate low high change count value = clamp low high (value + count * change) := by
  have ordered := above.trans below
  induction count with
  | zero =>
    rw [Nat.cast_zero, zero_mul, add_zero, clamp_of_mem above below]
    rfl
  | succ count ih =>
    have further : value + ((count + 1 : ℕ) : R) * change = value + count * change + change := by
      push_cast
      ring
    rw [accumulate, ih, further]
    apply clamp_add_of_same ordered
    have counted : (0 : R) ≤ count := Nat.cast_nonneg count
    rcases le_total 0 change with rises | falls
    · left
      have total := mul_nonneg counted rises
      exact ⟨rises, by linarith⟩
    · right
      have total := mul_nonpos_of_nonneg_of_nonpos counted falls
      exact ⟨falls, by linarith⟩

end GapsoRbfPid.Library.Clamp
