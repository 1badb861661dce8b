import GapsoRbfPid.Library.Vectors
import Mathlib.Data.Rat.Floor
import Mathlib.Tactic.Linarith

/-! The conversions between C's 32-bit integer types and its `double`, over an
arbitrary ordered field in place of `double`. -/

namespace GapsoRbfPid.Library.CInt

abbrev intMax : ℤ := 2147483647

/-- `abs` of a 32-bit word read as an `int`. Negation wraps, so the word with only
the top bit set is its own absolute value. -/
def absInt (word : BitVec 32) : ℤ :=
  (if word.toInt < 0 then -word else word).toInt

theorem absInt_minimum : absInt (BitVec.intMin 32) = -2147483648 := by decide

theorem absInt_nonneg_iff (word : BitVec 32) : 0 ≤ absInt word ↔ word ≠ BitVec.intMin 32 := by
  constructor
  · rintro nonneg rfl
    rw [absInt_minimum] at nonneg
    omega
  · intro different
    have bound := word.isLt
    have value : word.toNat ≠ 2147483648 := fun same =>
      different (BitVec.eq_of_toNat_eq (by simpa using same))
    unfold absInt
    split_ifs with negative
    · rw [BitVec.toInt_neg]
      simp only [BitVec.toInt_eq_toNat_cond, Int.bmod] at negative ⊢
      omega
    · exact not_lt.mp negative

theorem absInt_of_low {word : BitVec 32} (low : word.toNat < 2 ^ 31) :
    absInt word = word.toNat := by
  have value : word.toInt = word.toNat := by
    rw [BitVec.toInt_eq_toNat_cond]
    omega
  unfold absInt
  rw [if_neg (by omega), value]

theorem absInt_of_high {word : BitVec 32} (high : 2 ^ 31 < word.toNat) :
    absInt word = 2 ^ 32 - word.toNat := by
  have bound := word.isLt
  have value : word.toInt = word.toNat - 2 ^ 32 := by
    rw [BitVec.toInt_eq_toNat_cond]
    omega
  unfold absInt
  rw [if_pos (by omega), BitVec.toInt_neg, value]
  simp only [Int.bmod]
  omega

/-- The `int` stored by the C expression `length - reference` for an unsigned
length: the subtraction is unsigned and the result is reinterpreted. -/
def subInt (length : BitVec 32) (reference : Int32) : Int32 :=
  .ofBitVec (length - reference.toBitVec)

theorem subInt_eq (length : BitVec 32) (reference : Int32)
    (low : -2147483648 ≤ length.toNat - reference.toInt)
    (high : length.toNat - reference.toInt ≤ intMax) :
    (subInt length reference).toInt = length.toNat - reference.toInt := by
  have bound := length.isLt
  change (length - reference.toBitVec).toInt = _
  rw [BitVec.toInt_sub, Int32.toInt_toBitVec, BitVec.toInt_eq_toNat_bmod, Int.bmod_sub_bmod]
  simp only [intMax] at high
  simp only [Int.bmod]
  omega

/-- A length below `2^31` against a positive reference never overflows. -/
theorem subInt_of_positive {length : BitVec 32} {reference : Int32}
    (positive : 0 < reference.toInt) (small : length.toNat < 2 ^ 31) :
    (subInt length reference).toInt = length.toNat - reference.toInt := by
  have bound := reference.toInt_lt
  apply subInt_eq
  · omega
  · simp only [intMax]
    omega

theorem ofBitVec_toInt {word : BitVec 32} (small : word.toNat < 2 ^ 31) :
    (Int32.ofBitVec word).toInt = word.toNat := by
  change word.toInt = _
  rw [BitVec.toInt_eq_toNat_cond]
  omega

section Truncation

variable {K : Type} [Field K] [LinearOrder K] [FloorRing K]

def trunc (x : K) : ℤ := if 0 ≤ x then ⌊x⌋ else ⌈x⌉

/-- Conversion of a `double` to `int`. A truncated value that is no `int` gives the
processor's indefinite integer. -/
def toInt (x : K) : ℤ :=
  if -2147483648 ≤ trunc x ∧ trunc x ≤ intMax then trunc x else -2147483648

/-- Conversion of a `double` to `unsigned`: the low word of the conversion to a 64-bit integer,
whose indefinite value has a low word of zero. -/
def toUnsigned (x : K) : BitVec 32 :=
  if -2 ^ 63 ≤ trunc x ∧ trunc x < 2 ^ 63 then .ofInt 32 (trunc x) else 0

theorem toInt_le (x : K) : toInt x ≤ intMax := by
  unfold toInt
  split_ifs with fits
  · exact fits.2
  · decide

variable [IsStrictOrderedRing K]

@[simp] theorem toInt_zero : toInt (0 : K) = 0 := by
  simp [toInt, trunc]

/-- Between zero and the largest `int` the conversion is the floor: it neither
overflows nor leaves the range. -/
theorem toInt_of_range {x : K} (low : 0 ≤ x) (high : x ≤ (intMax : K)) :
    toInt x = ⌊x⌋ ∧ 0 ≤ toInt x ∧ toInt x ≤ intMax := by
  have lower : 0 ≤ ⌊x⌋ := Int.floor_nonneg.mpr low
  have upper : ⌊x⌋ ≤ intMax := by
    have bound : ((⌊x⌋ : ℤ) : K) ≤ ((intMax : ℤ) : K) := (Int.floor_le x).trans high
    exact_mod_cast bound
  have value : toInt x = ⌊x⌋ := by
    simp only [toInt, trunc, if_pos low]
    rw [if_pos ⟨by omega, upper⟩]
  exact ⟨value, by omega, by omega⟩

end Truncation

end GapsoRbfPid.Library.CInt
