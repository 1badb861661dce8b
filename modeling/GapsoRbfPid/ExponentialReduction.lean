import Mathlib
import GapsoRbfPid.ExponentialRounding

/-! "Argument reduction": "Given x, find r and integer k such that x = k*ln2 + r, |r| <= 0.5*ln2".
The high word picks the branch; the part `hi` is exact, and the two parts together miss `x - k*ln2`
by less than `2 ^ -72`. -/

namespace GapsoRbfPid.Exponential
open Library.Binary64 Library.Rounding Finset

section Thresholds
variable {x : Float} {w : ℕ}

theorem below_word (number : Number x) (less : (getHighWord x &&& 0x7fffffff).toNat < w)
    (inside : w < 2 ^ 31) : |value ℝ x| < magnitude ℝ (w * 2 ^ 32) := by
  rw [hx_toNat] at less
  rw [abs_value number]
  exact magnitude_lt (by omega) (by omega)

theorem word_below (number : Number x) (le : w ≤ (getHighWord x &&& 0x7fffffff).toNat)
    (inside : w < 2 ^ 31) : magnitude ℝ (w * 2 ^ 32) ≤ |value ℝ x| := by
  rw [hx_toNat] at le
  rw [abs_value number, magnitude_le_iff (by omega) (by omega)]
  omega

theorem full_word (x : Float) :
    2146435072 ≤ (getHighWord x &&& 0x7fffffff).toNat ↔ ¬Number x := by
  have width := x.toBits.toNat_lt
  rw [hx_toNat, number_iff_field, not_not]
  unfold exponentField
  omega

/-- The words of the source, as numbers. -/
theorem word_values :
    magnitude ℝ (0x3e300000 * 2 ^ 32) = 1 / 2 ^ 28 ∧
    magnitude ℝ (0x3fd62e43 * 2 ^ 32) = 1453635 / 4194304 ∧
    magnitude ℝ (0x3FF0A2B2 * 2 ^ 32) = 545113 / 524288 ∧
    magnitude ℝ (0x40862E42 * 2 ^ 32) = 726817 / 1024 := by
  refine ⟨?_, ?_, ?_, ?_⟩ <;> norm_num [magnitude, exponentField, fraction]

end Thresholds

section Logarithm

/-- What the two constants of the source are together. -/
noncomputable def ln2 : ℝ := 2977044471 / 2 ^ 32 + 3691024475790907 / 2 ^ 84

theorem partial_sum : |(∑ i ∈ range 90, (1 / 2 : ℚ) ^ (i + 1) / (i + 1)) -
    (2977044471 / 2 ^ 32 + 3691024475790907 / 2 ^ 84)| ≤ 1 / 2 ^ 85 := by
  decide +kernel

theorem ln2_near : |Real.log 2 - ln2| ≤ 1 / 2 ^ 84 := by
  have series := Library.ExpSeries.log_two_near 90
  have cast : ((|∑ i ∈ range 90, (1 / 2 : ℚ) ^ (i + 1) / (i + 1) -
      (2977044471 / 2 ^ 32 + 3691024475790907 / 2 ^ 84)| : ℚ) : ℝ) ≤ ((1 / 2 ^ 85 : ℚ) : ℝ) :=
    Rat.cast_le.mpr partial_sum
  push_cast at cast
  calc |Real.log 2 - ln2| ≤ (1 / 2) ^ 90 + 1 / 2 ^ 85 :=
        (abs_sub_le _ (∑ i ∈ range 90, (1 / 2 : ℝ) ^ (i + 1) / (i + 1)) _).trans (add_le_add series cast)
    _ ≤ 1 / 2 ^ 84 := by norm_num

end Logarithm

section Parts

/-- The locals of the source stand for a reduction by `k` times the logarithm of two. -/
structure Reduces (x : Float) (r : Locals) (k : ℤ) : Prop where
  times : r.k.toInt = k
  range : |k| ≤ 1075
  nonzero : k ≠ 0
  argument : r.x = r.hi - r.lo
  hi_number : Number r.hi
  hi_value : value ℝ r.hi = value ℝ x - k * (2977044471 / 2 ^ 32)
  hi_near : |value ℝ r.hi| ≤ 0.3466
  lo_number : Number r.lo
  lo_value : |value ℝ r.lo - k * (3691024475790907 / 2 ^ 84)| ≤ 1 / 2 ^ 76

namespace Reduces
variable {x : Float} {r : Locals} {k : ℤ}

theorem times_le (h : Reduces x r k) : |(k : ℝ)| ≤ 1075 := by
  have bound := h.range
  exact_mod_cast bound

theorem lo_near (h : Reduces x r k) : |value ℝ r.lo| ≤ 1 / 2 ^ 22 := by
  have product : |(k : ℝ) * (3691024475790907 / 2 ^ 84)| ≤ 1075 * (3691024475790907 / 2 ^ 84) := by
    rw [abs_mul, abs_of_pos (by norm_num : (0 : ℝ) < 3691024475790907 / 2 ^ 84)]
    exact mul_le_mul_of_nonneg_right h.times_le (by norm_num)
  have apart := abs_sub_abs_le_abs_sub (value ℝ r.lo) (k * (3691024475790907 / 2 ^ 84))
  have error := h.lo_value
  calc |value ℝ r.lo| ≤ 1 / 2 ^ 76 + 1075 * (3691024475790907 / 2 ^ 84) := by linarith
    _ ≤ 1 / 2 ^ 22 := by norm_num

theorem parts_near (h : Reduces x r k) : |value ℝ r.hi - value ℝ r.lo| ≤ 0.34668 := by
  calc |value ℝ r.hi - value ℝ r.lo| ≤ 0.3466 + 1 / 2 ^ 22 :=
        (abs_sub _ _).trans (add_le_add h.hi_near h.lo_near)
    _ ≤ 0.34668 := by norm_num

/-- The parts stand for `x - k*ln2`. -/
theorem parts_stand (h : Reduces x r k) :
    |value ℝ r.hi - value ℝ r.lo - (value ℝ x - k * Real.log 2)| ≤ 1 / 2 ^ 72 := by
  have log : |(k : ℝ) * (Real.log 2 - ln2)| ≤ 1075 * (1 / 2 ^ 84) := by
    rw [abs_mul]
    exact mul_le_mul h.times_le ln2_near (abs_nonneg _) (by norm_num)
  have split : value ℝ r.hi - value ℝ r.lo - (value ℝ x - k * Real.log 2) =
      k * (Real.log 2 - ln2) - (value ℝ r.lo - k * (3691024475790907 / 2 ^ 84)) := by
    rw [h.hi_value, ln2]
    ring
  rw [split]
  calc _ ≤ 1075 * (1 / 2 ^ 84) + 1 / 2 ^ 76 := (abs_sub _ _).trans (add_le_add log h.lo_value)
    _ ≤ 1 / 2 ^ 72 := by norm_num

end Reduces

end Parts

section Branches
variable {x : Float} {xsb : UInt32}

/-- The sign bit as the source uses it. -/
structure SignBit (x : Float) (xsb : UInt32) (σ : ℤ) : Prop where
  bit : xsb = 0 ∧ σ = 1 ∨ xsb = 1 ∧ σ = -1
  same : value ℝ x = σ * |value ℝ x|

theorem signBit_of (number : Number x) : ∃ σ, SignBit x ((getHighWord x >>> 31) &&& 1) σ := by
  have width := x.toBits.toNat_lt
  have bit := xsb_toNat x
  have size : |value ℝ x| = |magnitude ℝ x.toBits.toNat| := by rw [value_eq number, abs_signed]
  rw [abs_of_nonneg (magnitude_nonneg (K := ℝ) x.toBits.toNat)] at size
  by_cases positive : x.toBits.toNat / 2 ^ 63 = 0
  · refine ⟨1, .inl ⟨?_, rfl⟩, ?_⟩
    · exact UInt32.toNat_inj.mp (bit.trans positive)
    · rw [size, value_eq number, signOf, if_pos positive]
      simp [signed]
  · refine ⟨-1, .inr ⟨?_, rfl⟩, ?_⟩
    · exact UInt32.toNat_inj.mp (bit.trans (by change _ = 1; omega))
    · rw [size, value_eq number, signOf, if_neg positive]
      simp [signed]

namespace SignBit
variable {σ : ℤ}

theorem unit (h : SignBit x xsb σ) : |(σ : ℝ)| = 1 := by
  rcases h.bit with ⟨-, rfl⟩ | ⟨-, rfl⟩ <;> norm_num

theorem ln2HI_value (h : SignBit x xsb σ) :
    Number (ln2HI xsb) ∧ value ℝ (ln2HI xsb) = σ * (2977044471 / 2 ^ 32) := by
  rcases h.bit with ⟨rfl, rfl⟩ | ⟨rfl, rfl⟩
  · exact ⟨Exponential.ln2HI_value.1, Exponential.ln2HI_value.2.trans (by norm_num)⟩
  · exact ⟨ln2HI_neg_value.1, ln2HI_neg_value.2.trans (by norm_num)⟩

theorem ln2LO_value (h : SignBit x xsb σ) :
    Number (ln2LO xsb) ∧ value ℝ (ln2LO xsb) = σ * (3691024475790907 / 2 ^ 84) := by
  rcases h.bit with ⟨rfl, rfl⟩ | ⟨rfl, rfl⟩
  · exact ⟨Exponential.ln2LO_value.1, Exponential.ln2LO_value.2.trans (by norm_num)⟩
  · exact ⟨ln2LO_neg_value.1, ln2LO_neg_value.2.trans (by norm_num)⟩

theorem halF_value (h : SignBit x xsb σ) :
    Number (halF xsb) ∧ value ℝ (halF xsb) = σ / 2 := by
  rcases h.bit with ⟨rfl, rfl⟩ | ⟨rfl, rfl⟩
  · exact ⟨Exponential.halF_value.1, Exponential.halF_value.2.trans (by norm_num)⟩
  · exact ⟨halF_neg_value.1, halF_neg_value.2.trans (by norm_num)⟩

theorem one_sub (h : SignBit x xsb σ) : (1 - xsb.toInt32 - xsb.toInt32).toInt = σ := by
  rcases h.bit with ⟨rfl, rfl⟩ | ⟨rfl, rfl⟩ <;> rfl

end SignBit

/-- "t*ln2HI is exact here", and so is the difference. -/
theorem hi_exact {t : Float} {k : ℤ} (number : Number x) (large : 1 / 4 ≤ |value ℝ x|)
    (product : Number t ∧ value ℝ t = k * (2977044471 / 2 ^ 32))
    (near : |value ℝ x - k * (2977044471 / 2 ^ 32)| ≤ 0.3466) :
    Number (x - t) ∧ value ℝ (x - t) = value ℝ x - k * (2977044471 / 2 ^ 32) := by
  have quarter : (2 : ℝ) ^ (-2 : ℤ) ≤ |value ℝ x| := by
    rw [show (2 : ℝ) ^ (-2 : ℤ) = 1 / 4 by norm_num]
    exact large
  obtain ⟨n, multiple⟩ := (number.representable (K := ℝ)).multiple quarter
  have difference : value ℝ x - value ℝ t = (n - k * 2977044471 * 2 ^ 22 : ℤ) * 2 ^ (-54 : ℤ) := by
    have place : (2 : ℝ) ^ ((-2 : ℤ) - (52 : ℕ)) = 2 ^ (-54 : ℤ) := by norm_num
    rw [product.2, multiple, place]
    push_cast
    norm_num
    ring
  rw [← product.2] at near ⊢
  apply sub_exact number product.1 difference (by norm_num)
  · apply near.trans_lt
    norm_num
  · exact near.trans (by norm_num)

/-- "and |x| < 1.5 ln2". -/
theorem near_reduces {σ : ℤ} (number : Number x) (sign : SignBit x xsb σ)
    (low : 1453635 / 4194304 ≤ |value ℝ x|) (high : |value ℝ x| < 545113 / 524288) :
    Reduces x ⟨x - ln2HI xsb - ln2LO xsb, x - ln2HI xsb, ln2LO xsb, 1 - xsb.toInt32 - xsb.toInt32⟩ σ := by
  have near : |value ℝ x - σ * (2977044471 / 2 ^ 32)| ≤ 0.3466 := by
    rw [sign.same, ← mul_sub, abs_mul, sign.unit, one_mul, abs_le]
    constructor <;> linarith
  obtain ⟨hi_number, hi_value⟩ := hi_exact number (by linarith) sign.ln2HI_value near
  refine ⟨sign.one_sub, ?_, ?_, rfl, hi_number, hi_value, ?_, sign.ln2LO_value.1, ?_⟩
  · rcases sign.bit with ⟨-, rfl⟩ | ⟨-, rfl⟩ <;> norm_num
  · rcases sign.bit with ⟨-, rfl⟩ | ⟨-, rfl⟩ <;> norm_num
  · rwa [hi_value]
  · rw [sign.ln2LO_value.2, sub_self, abs_zero]
    positivity

/-- The integer of the source is the nearest one but for the rounding of the two operations. -/
theorem times_nearest {σ : ℤ} (number : Number x) (sign : SignBit x xsb σ)
    (low : 545113 / 524288 ≤ |value ℝ x|) (high : |value ℝ x| ≤ 745.2) :
    |3248660424278399 / 2 ^ 51 * value ℝ x - (truncate (invln2 * x + halF xsb)).toInt| ≤
      1 / 2 + 1 / 2 ^ 41 := by
  have size : |value ℝ invln2 * value ℝ x| = 3248660424278399 / 2 ^ 51 * |value ℝ x| := by
    rw [invln2_value.2, abs_mul, abs_of_pos (by norm_num : (0 : ℝ) < 3248660424278399 / 2 ^ 51)]
  obtain ⟨product, close⟩ := mul_relative (K := ℝ) invln2_value.1 number
    (by rw [size]; linarith) (by rw [size]; norm_num; linarith)
  rw [size, invln2_value.2] at close
  have first : |value ℝ (invln2 * x) - 3248660424278399 / 2 ^ 51 * value ℝ x| ≤ 1 / 2 ^ 42 :=
    close.trans (by norm_num; linarith)
  obtain ⟨first_low, first_high⟩ := abs_le.mp first
  have same := sign.same
  have bit := sign.bit
  have half := sign.halF_value
  have bounds : 1 / 2 ≤ |value ℝ (invln2 * x) + value ℝ (halF xsb)| ∧
      |value ℝ (invln2 * x) + value ℝ (halF xsb)| ≤ 1076 := by
    rw [half.2]
    rcases bit with ⟨-, rfl⟩ | ⟨-, rfl⟩
    · push_cast at same ⊢
      rw [abs_of_pos (by linarith)]
      constructor <;> linarith
    · push_cast at same ⊢
      rw [abs_of_neg (by linarith)]
      constructor <;> linarith
  obtain ⟨sum, near⟩ := add_relative (K := ℝ) product half.1 bounds.1
    (bounds.2.trans (by norm_num))
  have second : |value ℝ (invln2 * x + halF xsb) - (value ℝ (invln2 * x) + value ℝ (halF xsb))| ≤
      1 / 2 ^ 42 := near.trans (by have := bounds.2; norm_num; linarith)
  obtain ⟨second_low, second_high⟩ := abs_le.mp second
  obtain ⟨large, small⟩ := bounds
  have whole := truncate_spec (K := ℝ) sum (by
    have apart := abs_sub_abs_le_abs_sub (value ℝ (invln2 * x + halF xsb))
      (value ℝ (invln2 * x) + value ℝ (halF xsb))
    linarith)
  rw [half.2] at second_low second_high
  rw [abs_le]
  rcases bit with ⟨-, rfl⟩ | ⟨-, rfl⟩
  · push_cast at same second_low second_high
    obtain ⟨below, above⟩ := whole.1 (by linarith)
    constructor <;> linarith
  · push_cast at same second_low second_high
    obtain ⟨below, above⟩ := whole.2 (by linarith)
    constructor <;> linarith

/-- The branch that multiplies. -/
theorem far_reduces {σ : ℤ} (number : Number x) (sign : SignBit x xsb σ)
    (low : 545113 / 524288 ≤ |value ℝ x|) (high : |value ℝ x| ≤ 745.2) :
    Reduces x ⟨x - ofInt32 (truncate (invln2 * x + halF xsb)) * ln2HI 0 -
        ofInt32 (truncate (invln2 * x + halF xsb)) * ln2LO 0,
      x - ofInt32 (truncate (invln2 * x + halF xsb)) * ln2HI 0,
      ofInt32 (truncate (invln2 * x + halF xsb)) * ln2LO 0, truncate (invln2 * x + halF xsb)⟩
      (truncate (invln2 * x + halF xsb)).toInt := by
  have nearest := times_nearest number sign low high
  set k := truncate (invln2 * x + halF xsb)
  obtain ⟨nearest_low, nearest_high⟩ := abs_le.mp nearest
  obtain ⟨x_low, x_high⟩ := abs_le.mp high
  have range : |k.toInt| ≤ 1075 := by
    have below : (-1076 : ℝ) < k.toInt := by linarith
    have above : (k.toInt : ℝ) < 1076 := by linarith
    rw [abs_le]
    constructor
    · have : -1076 < k.toInt := by exact_mod_cast below
      omega
    · have : k.toInt < 1076 := by exact_mod_cast above
      omega
  have real_range : |(k.toInt : ℝ)| ≤ 1075 := by exact_mod_cast range
  obtain ⟨k_low, k_high⟩ := abs_le.mp real_range
  obtain ⟨t_number, t_value⟩ := ofInt32_spec (K := ℝ) k
  have nonzero : k.toInt ≠ 0 := by
    intro zero
    rw [zero, Int.cast_zero, sub_zero, abs_mul,
      abs_of_pos (by norm_num : (0 : ℝ) < 3248660424278399 / 2 ^ 51)] at nearest
    linarith
  have near : |value ℝ x - k.toInt * (2977044471 / 2 ^ 32)| ≤ 0.3466 := by
    rw [abs_le]
    constructor <;> linarith
  have product : Number (ofInt32 k * ln2HI 0) ∧
      value ℝ (ofInt32 k * ln2HI 0) = k.toInt * (2977044471 / 2 ^ 32) := by
    have size : |value ℝ (ofInt32 k) * value ℝ (ln2HI 0)| ≤ 746 := by
      rw [t_value, ln2HI_value.2, abs_mul, abs_of_pos (by norm_num : (0 : ℝ) < 2977044471 / 2 ^ 32)]
      linarith
    have exact := mul_exact (K := ℝ) (m := k.toInt * 2977044471) (j := -32) t_number ln2HI_value.1
      (by rw [t_value, ln2HI_value.2]; push_cast; norm_num; ring) (by norm_num)
      (size.trans_lt (by norm_num)) (size.trans (by norm_num))
    rwa [t_value, ln2HI_value.2] at exact
  obtain ⟨hi_number, hi_value⟩ := hi_exact number (by linarith) product near
  have small : |value ℝ (ofInt32 k) * value ℝ (ln2LO 0)| < 1 / 2 ^ 22 := by
    rw [t_value, ln2LO_value.2, abs_mul,
      abs_of_pos (by norm_num : (0 : ℝ) < 3691024475790907 / 2 ^ 84)]
    linarith
  obtain ⟨lo_number, lo_near⟩ := mul_near (K := ℝ) t_number ln2LO_value.1 small (by norm_num)
  rw [t_value, ln2LO_value.2] at lo_near
  exact ⟨rfl, range, nonzero, rfl, hi_number, hi_value, by rwa [hi_value], lo_number, lo_near⟩

end Branches

end GapsoRbfPid.Exponential
