import GapsoRbfPid.Library.Vectors
import Mathlib.Algebra.Order.Field.Power
import Mathlib.Tactic.Linarith
import Mathlib.Tactic.NormNum
import Mathlib.Tactic.Positivity
import Mathlib.Tactic.Ring

/-! Rounding to nearest in a binary format, as a relation between a number and its rounding.
A mantissa has a leading bit and `bits` more; the last place of a number is what its size leaves
for them, and no place is below `least`. -/

namespace GapsoRbfPid.Library.Rounding

variable {K : Type*} [Field K] [LinearOrder K]

/-- The exponent `t` is the last place of `x`, and `v` is nearest to `x` among the multiples
of that place. -/
structure RoundsAt (bits : ℕ) (least : ℤ) (t : ℤ) (x v : K) : Prop where
  inside : least ≤ t
  below : |x| < 2 ^ (bits + 1 + t)
  above : t = least ∨ 2 ^ (bits + t) ≤ |x|
  grid : ∃ n : ℤ, v = n * 2 ^ t
  near : |v - x| ≤ 2 ^ t / 2

def Rounds (bits : ℕ) (least : ℤ) (x v : K) : Prop := ∃ t, RoundsAt bits least t x v

/-- A number that needs no rounding. -/
def Representable (bits : ℕ) (least : ℤ) (x : K) : Prop :=
  ∃ n e : ℤ, least ≤ e ∧ x = n * 2 ^ e ∧ |x| < 2 ^ (bits + 1 + e)

theorem RoundsAt.neg {bits : ℕ} {least t : ℤ} {x v : K} (h : RoundsAt bits least t x v) :
    RoundsAt bits least t (-x) (-v) where
  inside := h.inside
  below := by rw [abs_neg]; exact h.below
  above := by rw [abs_neg]; exact h.above
  grid := by
    obtain ⟨n, rfl⟩ := h.grid
    exact ⟨-n, by push_cast; ring⟩
  near := by
    rw [show -v - -x = -(v - x) by ring, abs_neg]
    exact h.near

theorem Rounds.neg {bits : ℕ} {least : ℤ} {x v : K} (h : Rounds bits least x v) :
    Rounds bits least (-x) (-v) := by
  obtain ⟨t, h⟩ := h
  exact ⟨t, h.neg⟩

variable [IsStrictOrderedRing K] {bits : ℕ} {least : ℤ} {x v : K}

theorem two_zpow_pos (e : ℤ) : (0 : K) < 2 ^ e := zpow_pos two_pos e

theorem two_zpow_lt {a b : ℤ} : (2 : K) ^ a < 2 ^ b ↔ a < b := zpow_lt_zpow_iff_right₀ one_lt_two

theorem two_zpow_le {a b : ℤ} : (2 : K) ^ a ≤ 2 ^ b ↔ a ≤ b := zpow_le_zpow_iff_right₀ one_lt_two

theorem two_zpow_succ (e : ℤ) : (2 : K) ^ (e + 1) = 2 * 2 ^ e := by
  rw [zpow_add_one₀ two_ne_zero, mul_comm]

/-- A multiple of a power of two is a multiple of every smaller one. -/
theorem multiple_of_le {e t : ℤ} (le : t ≤ e) (n : ℤ) :
    ∃ m : ℤ, (n : K) * 2 ^ e = m * 2 ^ t := by
  obtain ⟨k, rfl⟩ := Int.le.dest le
  refine ⟨n * 2 ^ k, ?_⟩
  rw [zpow_add₀ two_ne_zero, zpow_natCast]
  push_cast
  ring

/-- A multiple that is less than one step above zero is not above it. -/
theorem multiple_nonpos {t n : ℤ} (low : (n : K) * 2 ^ t < 2 ^ t) : (n : K) * 2 ^ t ≤ 0 := by
  have pos := two_zpow_pos (K := K) t
  have less : (n : K) < 1 := by
    by_contra large
    have := mul_le_mul_of_nonneg_right (not_lt.mp large) pos.le
    linarith
  have small : n ≤ 0 := by
    have : n < 1 := by exact_mod_cast less
    omega
  exact mul_nonpos_of_nonpos_of_nonneg (by exact_mod_cast small) pos.le

/-- The last place of a number below a power of two. -/
theorem RoundsAt.place_lt {t j : ℤ} (h : RoundsAt bits least t x v) (small : |x| < 2 ^ j)
    (room : bits + least < j) : bits + t < j := by
  rcases h.above with rfl | large
  · exact room
  · exact two_zpow_lt.mp (large.trans_lt small)

/-- A number on the grid rounds to itself. -/
theorem RoundsAt.fixed {t m : ℤ} (h : RoundsAt bits least t x v) (same : x = m * 2 ^ t) :
    v = x := by
  obtain ⟨n, rfl⟩ := h.grid
  have pos := two_zpow_pos (K := K) t
  obtain ⟨low, high⟩ := abs_le.mp h.near
  have up := multiple_nonpos (K := K) (t := t) (n := n - m) (by push_cast; linarith)
  have down := multiple_nonpos (K := K) (t := t) (n := m - n) (by push_cast; linarith)
  push_cast at up down
  linarith

/-- A representable number is a multiple of its own last place. -/
theorem RoundsAt.on_grid {t : ℤ} (h : RoundsAt bits least t x v)
    (representable : Representable bits least x) : ∃ m : ℤ, x = m * 2 ^ t := by
  obtain ⟨n, e, low, same, small⟩ := representable
  have place := h.place_lt small (by omega)
  rw [same]
  exact multiple_of_le (by omega) n

theorem Representable.multiple {j : ℤ} (h : Representable bits least x) (large : 2 ^ j ≤ |x|) :
    ∃ m : ℤ, x = m * 2 ^ (j - bits) := by
  obtain ⟨n, e, -, same, small⟩ := h
  have place : j < bits + 1 + e := two_zpow_lt.mp (large.trans_lt small)
  rw [same]
  exact multiple_of_le (by omega) n

theorem Rounds.exact (h : Rounds bits least x v) (representable : Representable bits least x) :
    v = x := by
  obtain ⟨t, h⟩ := h
  obtain ⟨m, same⟩ := h.on_grid representable
  exact h.fixed same

/-- The error is at most half the last place that the size of the number allows. -/
theorem Rounds.error_le {j : ℤ} (h : Rounds bits least x v) (small : |x| < 2 ^ (bits + 1 + j))
    (room : least ≤ j) : |v - x| ≤ 2 ^ j / 2 := by
  obtain ⟨t, h⟩ := h
  have place := h.place_lt small (by omega)
  have coarse : (2 : K) ^ t ≤ 2 ^ j := two_zpow_le.mpr (by omega)
  linarith [h.near]

/-- Unless the number is too small for a full mantissa, the error is relative to it. -/
theorem Rounds.relative (h : Rounds bits least x v) (normal : 2 ^ (bits + least) ≤ |x|) :
    |v - x| ≤ |x| / 2 ^ (bits + 1) := by
  obtain ⟨t, h⟩ := h
  have large : (2 : K) ^ (bits + t) ≤ |x| := by
    rcases h.above with rfl | large
    · exact normal
    · exact large
  have half : (2 : K) ^ t / 2 ≤ |x| / 2 ^ (bits + 1) := by
    rw [zpow_add₀ two_ne_zero, zpow_natCast] at large
    rw [le_div_iff₀ (by positivity), pow_succ]
    calc (2 : K) ^ t / 2 * (2 ^ bits * 2) = 2 ^ bits * 2 ^ t := by ring
      _ ≤ |x| := large
  exact h.near.trans half

/-- Rounding does not cross a representable number. -/
theorem Rounds.le_of_le {b : K} (h : Rounds bits least x v)
    (representable : Representable bits least b) (le : x ≤ b) : v ≤ b := by
  obtain ⟨t, h⟩ := h
  obtain ⟨n, e, low, same, small⟩ := representable
  have pos := two_zpow_pos (K := K) t
  obtain ⟨-, high⟩ := abs_le.mp h.near
  obtain ⟨k, grid⟩ := h.grid
  by_cases fine : t ≤ e
  · obtain ⟨m, multiple⟩ := multiple_of_le (K := K) fine n
    have difference : ((k - m : ℤ) : K) * 2 ^ t = v - b := by
      rw [grid, same, multiple]
      push_cast
      ring
    have step := multiple_nonpos (K := K) (t := t) (n := k - m) (by rw [difference]; linarith)
    rw [difference] at step
    linarith
  · -- the place of `x` is above that of `b`, so `x` is larger in size and has to be negative
    have large : (2 : K) ^ (bits + t) ≤ |x| := h.above.resolve_left (by omega)
    have apart : (2 : K) ^ (bits + 1 + e) ≤ 2 ^ (bits + t) := two_zpow_le.mpr (by omega)
    have wide : |b| < |x| := by linarith
    have negative : x < 0 := by
      by_contra nonneg
      rw [abs_of_nonneg (not_lt.mp nonneg)] at wide
      linarith [le_abs_self b]
    rw [abs_of_neg negative] at large
    obtain ⟨below, -⟩ := abs_lt.mp small
    have sum : ((k + 2 ^ bits : ℤ) : K) * 2 ^ t = v + 2 ^ (bits + t) := by
      rw [grid, zpow_add₀ two_ne_zero, zpow_natCast]
      push_cast
      ring
    have step := multiple_nonpos (K := K) (t := t) (n := k + 2 ^ bits) (by rw [sum]; linarith)
    rw [sum] at step
    linarith

theorem Rounds.ge_of_ge {b : K} (h : Rounds bits least x v)
    (representable : Representable bits least b) (le : b ≤ x) : b ≤ v := by
  obtain ⟨n, e, low, same, small⟩ := representable
  have opposite : Representable bits least (-b) :=
    ⟨-n, e, low, by rw [same]; push_cast; ring, by rwa [abs_neg]⟩
  exact neg_le_neg_iff.mp (h.neg.le_of_le opposite (neg_le_neg le))

end GapsoRbfPid.Library.Rounding
