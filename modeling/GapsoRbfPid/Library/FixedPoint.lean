import GapsoRbfPid.Library.Vectors
import Mathlib.Algebra.Order.Floor.Ring
import Mathlib.Algebra.Order.Field.Basic
import Mathlib.Data.Nat.Bitwise
import Mathlib.Tactic.Linarith
import Mathlib.Tactic.Ring

/-! Binary fractions of a fixed number of bits. The encoder doubles and takes the carry, so it
meets the most significant bit first; the decoder halves and meets the least significant one
first. Values outside the unit interval come out at the nearest code. -/

namespace GapsoRbfPid.Library.FixedPoint

variable {K : Type*} [Field K] [LinearOrder K]

def encodeBit (state : ℕ × K) : ℕ × K :=
  if 1 ≤ 2 * state.2 then (2 * state.1 + 1, 2 * state.2 - 1) else (2 * state.1, 2 * state.2)

/-- The code of a number of bits, and what remains below the last one. -/
def encode (d : K) : ℕ → ℕ × K
  | 0 => (0, d)
  | bits + 1 => encodeBit (encode d bits)

omit [LinearOrder K] in
def decodeBit (state : ℕ × K) : ℕ × K :=
  (state.1 / 2, (if state.1 % 2 = 1 then state.2 + 1 else state.2) / 2)

/-- The bits that are left of a code, and the value of those read. -/
def decode (K : Type*) [Field K] (code : ℕ) : ℕ → ℕ × K
  | 0 => (code, 0)
  | bits + 1 => decodeBit (decode K code bits)

section Encoder
variable [IsStrictOrderedRing K]

omit [IsStrictOrderedRing K] in
/-- No bit is lost: code and remainder make up the scaled value. -/
theorem encode_value (d : K) (bits : ℕ) :
    d * 2 ^ bits = (encode d bits).1 + (encode d bits).2 := by
  induction bits with
  | zero => simp [encode]
  | succ bits ih =>
    have double : d * 2 ^ (bits + 1) = 2 * (d * 2 ^ bits) := by ring
    rw [double, ih, encode, encodeBit]
    split_ifs
    · push_cast
      ring
    · push_cast
      ring

theorem encode_rest {d : K} (low : 0 ≤ d) (high : d < 1) (bits : ℕ) :
    0 ≤ (encode d bits).2 ∧ (encode d bits).2 < 1 := by
  induction bits with
  | zero => exact ⟨low, high⟩
  | succ bits ih =>
    rw [encode, encodeBit]
    split_ifs with carry
    · constructor <;> linarith [ih.2]
    · exact ⟨by linarith [ih.1], not_le.mp carry⟩

variable [FloorRing K]

theorem encode_floor {d : K} (low : 0 ≤ d) (high : d < 1) (bits : ℕ) :
    ((encode d bits).1 : ℤ) = ⌊d * 2 ^ bits⌋ := by
  obtain ⟨restLow, restHigh⟩ := encode_rest low high bits
  symm
  rw [Int.floor_eq_iff, encode_value]
  push_cast
  constructor <;> linarith

omit [FloorRing K] in
/-- From one on every bit carries. -/
theorem encode_above {d : K} (above : 1 ≤ d) (bits : ℕ) :
    (encode d bits).1 + 1 = 2 ^ bits ∧ 1 ≤ (encode d bits).2 := by
  induction bits with
  | zero => exact ⟨rfl, above⟩
  | succ bits ih =>
    have carry : 1 ≤ 2 * (encode d bits).2 := by linarith [ih.2]
    rw [encode, encodeBit, if_pos carry, pow_succ]
    exact ⟨by omega, by linarith [ih.2]⟩

omit [FloorRing K] in
/-- Below zero no bit does. -/
theorem encode_below {d : K} (below : d < 0) (bits : ℕ) :
    (encode d bits).1 = 0 ∧ (encode d bits).2 < 0 := by
  induction bits with
  | zero => exact ⟨rfl, below⟩
  | succ bits ih =>
    have noCarry : ¬1 ≤ 2 * (encode d bits).2 := by linarith [ih.2]
    rw [encode, encodeBit, if_neg noCarry]
    exact ⟨by omega, by linarith [ih.2]⟩

omit [IsStrictOrderedRing K] [FloorRing K] in
theorem encode_lt (d : K) (bits : ℕ) : (encode d bits).1 < 2 ^ bits := by
  induction bits with
  | zero => exact Nat.one_pos
  | succ bits ih =>
    rw [encode, encodeBit, pow_succ]
    split_ifs
    · change 2 * (encode d bits).1 + 1 < _
      omega
    · change 2 * (encode d bits).1 < _
      omega

/-- The code of any value is its scaled floor, clamped to the codes there are. -/
theorem encode_clamp (d : K) (bits : ℕ) :
    ((encode d bits).1 : ℤ) = max 0 (min ⌊d * 2 ^ bits⌋ (2 ^ bits - 1)) := by
  have scale : (0 : K) < 2 ^ bits := by positivity
  rcases lt_or_ge d 0 with below | low
  · have negative : ⌊d * 2 ^ bits⌋ < 0 := Int.floor_lt.mpr (by
      rw [Int.cast_zero]
      exact mul_neg_of_neg_of_pos below scale)
    rw [(encode_below below bits).1, max_eq_left (min_le_of_left_le (le_of_lt negative))]
    rfl
  rcases lt_or_ge d 1 with high | above
  · have code := encode_floor low high bits
    have room : ((encode d bits).1 : ℤ) < 2 ^ bits := by exact_mod_cast encode_lt d bits
    rw [← code, min_eq_left (by omega), max_eq_right (by omega)]
  · have code : ((encode d bits).1 : ℤ) + 1 = 2 ^ bits := by exact_mod_cast (encode_above above bits).1
    have full : (2 ^ bits : ℤ) ≤ ⌊d * 2 ^ bits⌋ := Int.le_floor.mpr (by
      push_cast
      exact le_mul_of_one_le_left (le_of_lt scale) above)
    rw [min_eq_right (by omega), max_eq_right (by omega)]
    omega

end Encoder

section Decoder

omit [LinearOrder K]

theorem decode_left (code bits : ℕ) : (decode K code bits).1 = code / 2 ^ bits := by
  induction bits with
  | zero => simp [decode]
  | succ bits ih => rw [decode, decodeBit, ih, Nat.div_div_eq_div_mul, ← pow_succ]

theorem decode_value [CharZero K] (code bits : ℕ) :
    (decode K code bits).2 = ((code % 2 ^ bits : ℕ) : K) / 2 ^ bits := by
  induction bits with
  | zero => simp [decode, Nat.mod_one]
  | succ bits ih =>
    have two : (2 : K) ≠ 0 := by exact_mod_cast (Nat.succ_ne_zero 1)
    have scale : (2 : K) ^ bits ≠ 0 := pow_ne_zero bits two
    rw [decode, decodeBit, decode_left, ih, Nat.mod_pow_succ]
    rcases Nat.mod_two_eq_zero_or_one (code / 2 ^ bits) with even | odd
    · rw [even, if_neg zero_ne_one, mul_zero, add_zero, div_div, ← pow_succ]
    · rw [odd, if_pos rfl]
      push_cast
      rw [div_add_one scale, div_div, ← pow_succ, mul_one]

theorem decode_of_lt [CharZero K] {code bits : ℕ} (fits : code < 2 ^ bits) :
    (decode K code bits).2 = (code : K) / 2 ^ bits := by
  rw [decode_value, Nat.mod_eq_of_lt fits]

end Decoder

section RoundTrips
variable [IsStrictOrderedRing K] [FloorRing K]

/-- Decoding and encoding again gives the code back. -/
theorem encode_decode {code bits : ℕ} (fits : code < 2 ^ bits) :
    (encode (decode K code bits).2 bits).1 = code := by
  have scale : (2 : K) ^ bits ≠ 0 := pow_ne_zero bits two_ne_zero
  have room : (code : ℤ) < 2 ^ bits := by exact_mod_cast fits
  have clamped := encode_clamp (decode K code bits).2 bits
  rw [decode_of_lt fits, div_mul_cancel₀ _ scale, Int.floor_natCast, min_eq_left (by omega),
    max_eq_right (by omega)] at clamped
  rw [decode_of_lt fits]
  exact_mod_cast clamped

/-- Encoding and decoding again loses less than one code. -/
theorem decode_encode {d : K} (low : 0 ≤ d) (high : d < 1) (bits : ℕ) :
    (decode K (encode d bits).1 bits).2 ≤ d ∧
      d < (decode K (encode d bits).1 bits).2 + 1 / 2 ^ bits := by
  have scale : (0 : K) < 2 ^ bits := by positivity
  have value := encode_value d bits
  obtain ⟨restLow, restHigh⟩ := encode_rest low high bits
  rw [decode_of_lt (encode_lt d bits)]
  constructor
  · rw [div_le_iff₀ scale]
    linarith
  · rw [← add_div, lt_div_iff₀ scale]
    linarith

end RoundTrips

end GapsoRbfPid.Library.FixedPoint
