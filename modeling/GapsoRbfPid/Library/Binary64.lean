import Mathlib
import GapsoRbfPid.Library.UnpackedFloat

/-! The numbers behind the bit patterns of `Float`: what the fields of a pattern mean, and that
packing a rounded result keeps it as long as it is not too large. -/

namespace GapsoRbfPid.Library.Binary64
open Rounding Float.Model Float.Model.UnpackedFloat

variable {K : Type*} [Field K] [LinearOrder K]

section Packing

/-- The fields of a bit pattern. -/
def fraction (n : ℕ) : ℕ := n % 2 ^ 52
def exponentField (n : ℕ) : ℕ := n / 2 ^ 52 % 2 ^ 11

theorem unpackMantissa_toNat (b : BitVec 64) :
    (@unpackMantissa Format.binary64 b).toNat = fraction b.toNat := by
  simp only [unpackMantissa, BitVec.toNat_cast, BitVec.extractLsb_toNat, Nat.shiftRight_zero]
  rfl

theorem unpackExponent_toNat (b : BitVec 64) :
    (@unpackExponent Format.binary64 b).toNat = exponentField b.toNat := by
  simp only [unpackExponent, BitVec.toNat_cast, BitVec.extractLsb_toNat, Nat.shiftRight_eq_div_pow]
  rfl

theorem unpackSign_toNat (b : BitVec 64) :
    (@unpackSign Format.binary64 b).toNat = b.toNat / 2 ^ 63 := by
  have small : b.toNat / 2 ^ 63 < 2 := by
    have := b.isLt
    omega
  simp only [unpackSign, BitVec.toNat_cast, BitVec.extractLsb_toNat, Nat.shiftRight_eq_div_pow]
  exact Nat.mod_eq_of_lt small

def signOf (n : ℕ) : Sign := if n / 2 ^ 63 = 0 then .positive else .negative

theorem ofBitVec_unpackSign (b : BitVec 64) :
    Sign.ofBitVec (@unpackSign Format.binary64 b) = signOf b.toNat := by
  have same : @unpackSign Format.binary64 b = 0#1 ↔ b.toNat / 2 ^ 63 = 0 := by
    rw [← unpackSign_toNat, ← BitVec.toNat_inj]
    rfl
  simp only [Sign.ofBitVec, signOf, same]

/-- A pattern whose exponent field is not full, unpacked. -/
theorem unpack_of_field {b : BitVec 64} (finite : exponentField b.toNat ≠ 2047) :
    UnpackedFloat.unpack Format.binary64 b =
      if exponentField b.toNat = 0 then
        if h : fraction b.toNat = 0 then .zero (signOf b.toNat)
        else .finite (signOf b.toNat) (fraction b.toNat) (-1074) (Nat.pos_of_ne_zero h)
      else .finite (signOf b.toNat) (2 ^ 52 + fraction b.toNat) (exponentField b.toNat - 1075)
        (by positivity) := by
  have full : @unpackExponent Format.binary64 b ≠ -1#_ := by
    intro full
    apply finite
    rw [← unpackExponent_toNat, full]
    rfl
  have subnormal : @unpackExponent Format.binary64 b = 0#_ ↔ exponentField b.toNat = 0 := by
    rw [← unpackExponent_toNat, ← BitVec.toNat_inj]
    rfl
  have zero : @unpackMantissa Format.binary64 b = 0#_ ↔ fraction b.toNat = 0 := by
    rw [← unpackMantissa_toNat, ← BitVec.toNat_inj]
    rfl
  have implicit : (1#1 ++ @unpackMantissa Format.binary64 b).toNat =
      2 ^ 52 + fraction b.toNat := by
    rw [BitVec.toNat_append, ← Nat.shiftLeft_add_eq_or_of_lt (BitVec.isLt _), unpackMantissa_toNat]
    rfl
  simp only [UnpackedFloat.unpack, if_neg full, subnormal, zero, ofBitVec_unpackSign,
    unpackMantissa_toNat, unpackExponent_toNat, implicit]
  split
  next least =>
    split
    · rfl
    · rw [least]
      rfl
  next => rfl

theorem unpack_of_full {b : BitVec 64} (full : exponentField b.toNat = 2047) :
    UnpackedFloat.unpack Format.binary64 b =
      if fraction b.toNat = 0 then .infinity (signOf b.toNat) else .notANumber := by
  have full : @unpackExponent Format.binary64 b = -1#_ := by
    rw [← BitVec.toNat_inj, unpackExponent_toNat, full]
    rfl
  have zero : @unpackMantissa Format.binary64 b = 0#_ ↔ fraction b.toNat = 0 := by
    rw [← unpackMantissa_toNat, ← BitVec.toNat_inj]
    rfl
  simp only [UnpackedFloat.unpack, if_pos full, zero, ofBitVec_unpackSign]

def signBit (s : Sign) : ℕ :=
  match s with
  | .negative => 1
  | .positive => 0

theorem packComponents_toNat (s : Sign) (e : BitVec 11) (m : BitVec 52) :
    (packComponents Format.binary64 s e m).toNat =
      signBit s * 2 ^ 63 + e.toNat * 2 ^ 52 + m.toNat := by
  have outer := Nat.shiftLeft_add_eq_or_of_lt m.isLt (s.toBitVec ++ e).toNat
  have inner := Nat.shiftLeft_add_eq_or_of_lt e.isLt s.toBitVec.toNat
  have sign : s.toBitVec.toNat = signBit s := by cases s <;> rfl
  change (s.toBitVec ++ e ++ m).toNat = _
  rw [BitVec.toNat_append, ← outer, BitVec.toNat_append, ← inner, sign, Nat.shiftLeft_eq,
    Nat.shiftLeft_eq]
  ring

section Fields
variable (s : Sign) {e m : ℕ}

theorem exponentField_of (field : e < 2 ^ 11) (mantissa : m < 2 ^ 52) :
    exponentField (signBit s * 2 ^ 63 + e * 2 ^ 52 + m) = e := by
  unfold exponentField
  cases s <;> simp only [signBit] <;> omega

theorem fraction_of (mantissa : m < 2 ^ 52) :
    fraction (signBit s * 2 ^ 63 + e * 2 ^ 52 + m) = m := by
  unfold fraction
  cases s <;> simp only [signBit] <;> omega

theorem signOf_of (field : e < 2 ^ 11) (mantissa : m < 2 ^ 52) :
    signOf (signBit s * 2 ^ 63 + e * 2 ^ 52 + m) = s := by
  unfold signOf
  cases s with
  | negative => rw [if_neg (by simp only [signBit]; omega)]
  | positive => rw [if_pos (by simp only [signBit]; omega)]

end Fields

theorem finite_congr (s : Sign) {m m' : ℕ} {e e' : ℤ} {pos : 0 < m} {pos' : 0 < m'} (mantissa : m = m')
    (exponent : e = e') : UnpackedFloat.finite s m e pos = .finite s m' e' pos' := by
  subst mantissa exponent
  rfl

/-- A canonical float with an exponent in range survives packing. -/
theorem unpack_pack {u : UnpackedFloat} (h : Canonical u)
    (bounded : ∀ s m e pos, u = .finite s m e pos → e ≤ 971) :
    UnpackedFloat.unpack Format.binary64 (UnpackedFloat.pack Format.binary64 u) = u := by
  match u, h with
  | .zero s, _ => cases s <;> rfl
  | .finite s m e pos, ⟨small, low, full⟩ =>
      have high := bounded s m e pos rfl
      have room : ¬2 ^ 11 ≤ (e + 1023 + 52).toNat + 1 := by omega
      by_cases normal : 2 ^ 52 ≤ m
      · have log : m.log2 + 1 = 53 := by
          rw [(Nat.log2_eq_iff pos.ne').mpr ⟨normal, small⟩]
        have packed : UnpackedFloat.pack Format.binary64 (.finite s m e pos) = packComponents
            Format.binary64 s (BitVec.ofNat 11 (e + 1023 + 52).toNat) (BitVec.ofNat 52 m) := by
          exact (if_neg room).trans (if_pos log)
        have bits : (UnpackedFloat.pack Format.binary64 (.finite s m e pos)).toNat =
            signBit s * 2 ^ 63 + (e + 1075).toNat * 2 ^ 52 + (m - 2 ^ 52) := by
          rw [packed, packComponents_toNat, BitVec.toNat_ofNat, BitVec.toNat_ofNat]
          omega
        have field := exponentField_of s (e := (e + 1075).toNat) (m := m - 2 ^ 52) (by omega)
          (by omega)
        rw [unpack_of_field (by rw [bits, field]; omega), bits, field,
          fraction_of s (by omega), signOf_of s (by omega) (by omega), if_neg (by omega)]
        exact finite_congr s (by omega) (by omega)
      · have least : e = -1074 := full.resolve_left normal
        have log : ¬m.log2 + 1 = 53 := by
          have : m.log2 < 52 := (Nat.log2_lt pos.ne').mpr (not_le.mp normal)
          omega
        have packed : UnpackedFloat.pack Format.binary64 (.finite s m e pos) = packComponents
            Format.binary64 s 0#11 (BitVec.ofNat 52 m) := by
          exact (if_neg room).trans (if_neg log)
        have bits : (UnpackedFloat.pack Format.binary64 (.finite s m e pos)).toNat =
            signBit s * 2 ^ 63 + 0 * 2 ^ 52 + m := by
          rw [packed, packComponents_toNat, BitVec.toNat_ofNat, BitVec.toNat_ofNat]
          omega
        have field := exponentField_of s (e := 0) (m := m) (by norm_num) (by omega)
        rw [unpack_of_field (by rw [bits, field]; norm_num), bits, field,
          fraction_of s (by omega), signOf_of s (by norm_num) (by omega), if_pos rfl,
          dif_neg pos.ne']
        exact finite_congr s rfl least.symm

end Packing

section Floats

/-- The number a `Float` stands for. -/
def value (K : Type*) [Field K] (x : Float) : K := unpackedValue K x.toModel.unpack

/-- Neither infinite nor no number. -/
structure Number (x : Float) : Prop where
  canonical : Canonical x.toModel.unpack

theorem unpack_canonical {b : BitVec 64} (finite : exponentField b.toNat ≠ 2047) :
    Canonical (UnpackedFloat.unpack Format.binary64 b) := by
  have field : exponentField b.toNat < 2 ^ 11 := Nat.mod_lt _ (by norm_num)
  have mantissa : fraction b.toNat < 2 ^ 52 := Nat.mod_lt _ (by norm_num)
  rw [unpack_of_field finite]
  split
  · split
    · trivial
    · exact ⟨by omega, le_rfl, .inr rfl⟩
  · exact ⟨by omega, by omega, .inl (by omega)⟩

theorem number_iff_field (x : Float) : Number x ↔ exponentField x.toBits.toNat ≠ 2047 := by
  constructor
  · intro number full
    have unpacked : x.toModel.unpack = _ := unpack_of_full (b := x.toBits.toBitVec) full
    have canonical := number.canonical
    rw [unpacked] at canonical
    split at canonical <;> exact canonical
  · intro finite
    exact ⟨unpack_canonical (b := x.toBits.toBitVec) finite⟩

variable [IsStrictOrderedRing K]

theorem representable_two_zpow {j : ℤ} (low : -1074 ≤ j) : Representable 52 (-1074) ((2 : K) ^ j) := by
  refine ⟨1, j, low, by push_cast; ring, ?_⟩
  rw [abs_of_pos (two_zpow_pos j)]
  exact two_zpow_lt.mpr (by push_cast; omega)

/-- A rounded result that is not too large survives packing. -/
theorem packed_spec {u : UnpackedFloat} {x : K} (canonical : Canonical u)
    (rounds : Rounds 52 (-1074) x (unpackedValue K u)) (small : |x| ≤ 2 ^ (1023 : ℤ)) :
    Number (.ofModel (.pack u)) ∧ Rounds 52 (-1074) x (value K (.ofModel (.pack u))) := by
  have power : Representable 52 (-1074) ((2 : K) ^ (1023 : ℤ)) := representable_two_zpow (by norm_num)
  obtain ⟨low, high⟩ := abs_le.mp small
  have bounded : |unpackedValue K u| ≤ 2 ^ (1023 : ℤ) := by
    rw [abs_le]
    have above := rounds.neg.le_of_le power (neg_le.mp low)
    exact ⟨neg_le.mp above, rounds.le_of_le power high⟩
  have kept : UnpackedFloat.unpack Format.binary64 (UnpackedFloat.pack Format.binary64 u) = u := by
    apply unpack_pack canonical
    rintro s m e pos rfl
    obtain ⟨-, -, full⟩ := canonical
    by_contra large
    have wide : (2 : K) ^ 52 ≤ m := by exact_mod_cast full.resolve_right (by omega)
    have far : (2 : K) ^ (972 : ℤ) ≤ 2 ^ e := two_zpow_le.mpr (by omega)
    rw [unpackedValue_finite, abs_signed, abs_of_nonneg (by positivity)] at bounded
    have size : (2 : K) ^ (1024 : ℤ) ≤ m * 2 ^ e := by
      calc (2 : K) ^ (1024 : ℤ) = 2 ^ 52 * 2 ^ (972 : ℤ) := by
            rw [← zpow_natCast, ← zpow_add₀ two_ne_zero]
            rfl
        _ ≤ m * 2 ^ e := by gcongr
    have apart : (2 : K) ^ (1023 : ℤ) < 2 ^ (1024 : ℤ) := two_zpow_lt.mpr (by norm_num)
    exact absurd (size.trans bounded) (not_le.mpr apart)
  have same : (Float.ofModel (.pack u)).toModel.unpack = u := kept
  exact ⟨⟨by rwa [same]⟩, by rwa [value, same]⟩

variable {x y : Float}

theorem add_rounds (left : Number x) (right : Number y) (small : |value K x + value K y| ≤ 2 ^ (1023 : ℤ)) :
    Number (x + y) ∧ Rounds 52 (-1074) (value K x + value K y) (value K (x + y)) := by
  obtain ⟨canonical, rounds⟩ := add_spec (K := K) left.canonical right.canonical
  exact packed_spec canonical rounds small

theorem sub_rounds (left : Number x) (right : Number y) (small : |value K x - value K y| ≤ 2 ^ (1023 : ℤ)) :
    Number (x - y) ∧ Rounds 52 (-1074) (value K x - value K y) (value K (x - y)) := by
  obtain ⟨canonical, rounds⟩ := sub_spec (K := K) left.canonical right.canonical
  exact packed_spec canonical rounds small

theorem mul_rounds (left : Number x) (right : Number y) (small : |value K x * value K y| ≤ 2 ^ (1023 : ℤ)) :
    Number (x * y) ∧ Rounds 52 (-1074) (value K x * value K y) (value K (x * y)) := by
  obtain ⟨canonical, rounds⟩ := mul_spec (K := K) left.canonical right.canonical
  exact packed_spec canonical rounds small

theorem div_rounds (left : Number x) (right : Number y) (nonzero : value K y ≠ 0)
    (small : |value K x / value K y| ≤ 2 ^ (1023 : ℤ)) :
    Number (x / y) ∧ Rounds 52 (-1074) (value K x / value K y) (value K (x / y)) := by
  obtain ⟨canonical, rounds⟩ := div_spec (K := K) left.canonical right.canonical nonzero
  exact packed_spec canonical rounds small

theorem Number.representable (number : Number x) :
    Representable 52 (-1074) (value K x) := by
  rw [value]
  match x.toModel.unpack, number.canonical with
  | .zero s, _ => exact ⟨0, 0, by norm_num, by simp [unpackedValue], by simp [unpackedValue]⟩
  | .finite s m e pos, ⟨small, low, _⟩ =>
      have narrow : (m : K) < 2 ^ 53 := by exact_mod_cast small
      have below : |unpackedValue K (.finite s m e pos)| < 2 ^ (((52 : ℕ) : ℤ) + 1 + e) := by
        rw [unpackedValue_finite, abs_signed, abs_of_nonneg (by positivity), zpow_add₀ two_ne_zero]
        exact mul_lt_mul_of_pos_right (by exact_mod_cast narrow) (two_zpow_pos e)
      cases s with
      | negative => exact ⟨-m, e, low, by simp [unpackedValue], below⟩
      | positive => exact ⟨m, e, low, by simp [unpackedValue], below⟩

section Near
variable {n : ℕ}

/-- A number below a power of two is rounded by half the place that the power leaves. -/
theorem near_of_rounds {a v : K} (rounds : Rounds 52 (-1074) a v) (small : |a| < 1 / 2 ^ n)
    (room : n ≤ 1021) : |v - a| ≤ 1 / 2 ^ (n + 54) := by
  have power (m : ℕ) : (2 : K) ^ (-(m : ℤ)) = 1 / 2 ^ m := by
    rw [zpow_neg, zpow_natCast, one_div]
  have bound := rounds.error_le (j := -((n + 53 : ℕ) : ℤ))
    (by rw [show ((52 : ℕ) : ℤ) + 1 + -((n + 53 : ℕ) : ℤ) = -(n : ℤ) by push_cast; ring, power]; exact small)
    (by omega)
  rw [power, div_div, ← pow_succ] at bound
  exact bound

theorem inside_of_small {a : K} (small : |a| < 1 / 2 ^ n) : |a| ≤ 2 ^ (1023 : ℤ) := by
  have one : (1 : K) / 2 ^ n ≤ 1 := by
    apply div_le_one_of_le₀ _ (by positivity)
    exact one_le_pow₀ one_le_two
  have far : (1 : K) ≤ 2 ^ (1023 : ℤ) := one_le_zpow₀ one_le_two (by norm_num)
  exact (small.le.trans one).trans far

theorem add_near (left : Number x) (right : Number y) (small : |value K x + value K y| < 1 / 2 ^ n)
    (room : n ≤ 1021) :
    Number (x + y) ∧ |value K (x + y) - (value K x + value K y)| ≤ 1 / 2 ^ (n + 54) := by
  obtain ⟨number, rounds⟩ := add_rounds left right (inside_of_small small)
  exact ⟨number, near_of_rounds rounds small room⟩

theorem sub_near (left : Number x) (right : Number y) (small : |value K x - value K y| < 1 / 2 ^ n)
    (room : n ≤ 1021) :
    Number (x - y) ∧ |value K (x - y) - (value K x - value K y)| ≤ 1 / 2 ^ (n + 54) := by
  obtain ⟨number, rounds⟩ := sub_rounds left right (inside_of_small small)
  exact ⟨number, near_of_rounds rounds small room⟩

theorem mul_near (left : Number x) (right : Number y) (small : |value K x * value K y| < 1 / 2 ^ n)
    (room : n ≤ 1021) :
    Number (x * y) ∧ |value K (x * y) - value K x * value K y| ≤ 1 / 2 ^ (n + 54) := by
  obtain ⟨number, rounds⟩ := mul_rounds left right (inside_of_small small)
  exact ⟨number, near_of_rounds rounds small room⟩

theorem div_near (left : Number x) (right : Number y) (nonzero : value K y ≠ 0)
    (small : |value K x / value K y| < 1 / 2 ^ n) (room : n ≤ 1021) :
    Number (x / y) ∧ |value K (x / y) - value K x / value K y| ≤ 1 / 2 ^ (n + 54) := by
  obtain ⟨number, rounds⟩ := div_rounds left right nonzero (inside_of_small small)
  exact ⟨number, near_of_rounds rounds small room⟩

/-- The same for powers from one on. -/
theorem wide_of_rounds {a v : K} (rounds : Rounds 52 (-1074) a v) (small : |a| < 2 ^ n) :
    |v - a| ≤ 2 ^ n / 2 ^ 54 := by
  have bound := rounds.error_le (j := n - 53)
    (by rw [show ((52 : ℕ) : ℤ) + 1 + ((n : ℤ) - 53) = n by push_cast; ring, zpow_natCast]; exact small)
    (by omega)
  rw [zpow_sub₀ two_ne_zero, zpow_natCast, div_div] at bound
  have place : (2 : K) ^ (53 : ℤ) * 2 = 2 ^ 54 := by norm_num
  rwa [place] at bound

theorem relative_of_rounds {a v : K} (rounds : Rounds 52 (-1074) a v) (large : 1 / 2 ≤ |a|) :
    |v - a| ≤ |a| / 2 ^ 53 := by
  have half : (2 : K) ^ (((52 : ℕ) : ℤ) + -1074) ≤ 2 ^ (-1 : ℤ) := two_zpow_le.mpr (by norm_num)
  rw [zpow_neg_one, ← one_div] at half
  exact rounds.relative (half.trans large)

theorem inside_of_le {a : K} (small : |a| ≤ 2 ^ 20) : |a| ≤ 2 ^ (1023 : ℤ) := by
  have far : (2 : K) ^ (20 : ℤ) ≤ 2 ^ (1023 : ℤ) := two_zpow_le.mpr (by norm_num)
  exact small.trans (by exact_mod_cast far)

theorem add_relative (left : Number x) (right : Number y) (large : 1 / 2 ≤ |value K x + value K y|)
    (small : |value K x + value K y| ≤ 2 ^ 20) : Number (x + y) ∧
      |value K (x + y) - (value K x + value K y)| ≤ |value K x + value K y| / 2 ^ 53 := by
  obtain ⟨number, rounds⟩ := add_rounds left right (inside_of_le small)
  exact ⟨number, relative_of_rounds rounds large⟩

theorem sub_relative (left : Number x) (right : Number y) (large : 1 / 2 ≤ |value K x - value K y|)
    (small : |value K x - value K y| ≤ 2 ^ 20) : Number (x - y) ∧
      |value K (x - y) - (value K x - value K y)| ≤ |value K x - value K y| / 2 ^ 53 := by
  obtain ⟨number, rounds⟩ := sub_rounds left right (inside_of_le small)
  exact ⟨number, relative_of_rounds rounds large⟩

theorem mul_relative (left : Number x) (right : Number y) (large : 1 / 2 ≤ |value K x * value K y|)
    (small : |value K x * value K y| ≤ 2 ^ 20) : Number (x * y) ∧
      |value K (x * y) - value K x * value K y| ≤ |value K x * value K y| / 2 ^ 53 := by
  obtain ⟨number, rounds⟩ := mul_rounds left right (inside_of_le small)
  exact ⟨number, relative_of_rounds rounds large⟩

section Exact
variable {m j : ℤ}

omit [IsStrictOrderedRing K] in
theorem representable_of_multiple {a : K} (multiple : a = m * 2 ^ j) (room : -1074 ≤ j)
    (small : |a| < 2 ^ (53 + j)) : Representable 52 (-1074) a :=
  ⟨m, j, room, multiple, small⟩

/-- A product or a difference that fits the mantissa is not rounded. -/
theorem mul_exact (left : Number x) (right : Number y) (multiple : value K x * value K y = m * 2 ^ j)
    (room : -1074 ≤ j) (fits : |value K x * value K y| < 2 ^ (53 + j))
    (small : |value K x * value K y| ≤ 2 ^ 20) :
    Number (x * y) ∧ value K (x * y) = value K x * value K y := by
  obtain ⟨number, rounds⟩ := mul_rounds left right (inside_of_le small)
  exact ⟨number, rounds.exact (representable_of_multiple multiple room fits)⟩

theorem sub_exact (left : Number x) (right : Number y) (multiple : value K x - value K y = m * 2 ^ j)
    (room : -1074 ≤ j) (fits : |value K x - value K y| < 2 ^ (53 + j))
    (small : |value K x - value K y| ≤ 2 ^ 20) :
    Number (x - y) ∧ value K (x - y) = value K x - value K y := by
  obtain ⟨number, rounds⟩ := sub_rounds left right (inside_of_le small)
  exact ⟨number, rounds.exact (representable_of_multiple multiple room fits)⟩

end Exact

end Near

/-- Exponents decide first, then mantissas. -/
theorem magnitudes_lt {m m' : ℕ} {e e' : ℤ} (small : m < 2 ^ 53) (full' : 2 ^ 52 ≤ m' ∨ e' = -1074)
    (low : -1074 ≤ e) (less : e < e') : (m : K) * 2 ^ e < m' * 2 ^ e' := by
  have wide : (2 : K) ^ 52 ≤ m' := by exact_mod_cast full'.resolve_right (by omega)
  have narrow : (m : K) < 2 ^ 53 := by exact_mod_cast small
  calc (m : K) * 2 ^ e < 2 ^ 53 * 2 ^ e := mul_lt_mul_of_pos_right narrow (two_zpow_pos e)
    _ = 2 ^ 52 * 2 ^ (e + 1) := by rw [two_zpow_succ]; ring
    _ ≤ m' * 2 ^ e' := mul_le_mul wide (two_zpow_le.mpr less) (two_zpow_pos _).le (by positivity)

theorem magnitudes_iff {m m' : ℕ} {e e' : ℤ} (small : m < 2 ^ 53) (small' : m' < 2 ^ 53)
    (full : 2 ^ 52 ≤ m ∨ e = -1074) (full' : 2 ^ 52 ≤ m' ∨ e' = -1074) (low : -1074 ≤ e)
    (low' : -1074 ≤ e') :
    (compare e e').then (compare m m') = .lt ↔ (m : K) * 2 ^ e < m' * 2 ^ e' := by
  rw [Ordering.then_eq_lt, compare_lt_iff_lt, compare_eq_iff_eq, compare_lt_iff_lt]
  rcases lt_trichotomy e e' with less | rfl | more
  · exact iff_of_true (.inl less) (magnitudes_lt small full' low less)
  · rw [mul_lt_mul_iff_left₀ (two_zpow_pos e), Nat.cast_lt]
    simp
  · have back := magnitudes_lt (K := K) small' full low' more
    exact iff_of_false (by omega) (not_lt.mpr back.le)

theorem compare_swap (a b : ℕ × ℤ) : ((compare a.2 b.2).then (compare a.1 b.1)).swap =
    (compare b.2 a.2).then (compare b.1 a.1) := by
  rw [Ordering.swap_then, ← Std.OrientedOrd.eq_swap, ← Std.OrientedOrd.eq_swap]

theorem lt_spec {a b : UnpackedFloat} (left : Canonical a) (right : Canonical b) :
    a.lt b = true ↔ unpackedValue K a < unpackedValue K b := by
  have size {m : ℕ} {e : ℤ} (pos : 0 < m) : (0 : K) < m * 2 ^ e :=
    mul_pos (by exact_mod_cast pos) (two_zpow_pos e)
  rw [UnpackedFloat.lt, beq_iff_eq]
  match a, left, b, right with
  | .zero s, _, .zero s', _ => exact iff_of_false (by simp [UnpackedFloat.compare]) (lt_irrefl 0)
  | .zero s, _, .finite .positive m e pos, _ => exact iff_of_true rfl (size pos)
  | .zero s, _, .finite .negative m e pos, _ =>
      exact iff_of_false (by simp [UnpackedFloat.compare]) (neg_neg_of_pos (size pos)).le.not_gt
  | .finite .positive m e pos, _, .zero s, _ =>
      exact iff_of_false (by simp [UnpackedFloat.compare]) (size pos).le.not_gt
  | .finite .negative m e pos, _, .zero s, _ => exact iff_of_true rfl (neg_neg_of_pos (size pos))
  | .finite .negative m e pos, _, .finite .positive m' e' pos', _ =>
      exact iff_of_true rfl ((neg_neg_of_pos (size pos)).trans (size pos'))
  | .finite .positive m e pos, _, .finite .negative m' e' pos', _ =>
      exact iff_of_false (by simp [UnpackedFloat.compare])
        ((neg_neg_of_pos (size pos')).trans (size pos)).le.not_gt
  | .finite .positive m e _, ⟨small, low, full⟩, .finite .positive m' e' _, ⟨small', low', full'⟩ =>
      rw [UnpackedFloat.compare, Option.some_inj]
      exact magnitudes_iff small small' full full' low low'
  | .finite .negative m e _, ⟨small, low, full⟩, .finite .negative m' e' _, ⟨small', low', full'⟩ =>
      rw [UnpackedFloat.compare, Option.some_inj, compare_swap (m, e) (m', e')]
      exact (magnitudes_iff small' small full' full low' low).trans neg_lt_neg_iff.symm

theorem lt_iff (left : Number x) (right : Number y) : x < y ↔ value K x < value K y := by
  refine Iff.trans ?_ (lt_spec left.canonical right.canonical)
  change decide (x.toModel < y.toModel) = true ↔ _
  rw [decide_eq_true_iff]
  rfl

end Floats

section Conversions
variable [IsStrictOrderedRing K]

/-- The conversion from `int`. -/
def ofInt32 (k : Int32) : Float := .ofModel (.ofInt32 k)

/-- The conversion to `int`. -/
def truncate (x : Float) : Int32 := x.toModel.toInt32

theorem ofInt32_spec (k : Int32) : Number (ofInt32 k) ∧ value K (ofInt32 k) = k.toInt := by
  have low := k.le_toInt
  have high := k.toInt_lt
  have size : |(k.toInt : K)| ≤ 2 ^ 31 := by
    rw [abs_le]
    constructor
    · exact_mod_cast low
    · exact_mod_cast high.le
  obtain ⟨canonical, rounds⟩ := normalize_spec (K := K) k.toInt 0 .positive
  rw [zpow_zero, mul_one] at rounds
  have far : (2 : K) ^ 31 ≤ 2 ^ (1023 : ℤ) := by
    rw [← zpow_natCast]
    exact two_zpow_le.mpr (by norm_num)
  obtain ⟨number, packed⟩ := packed_spec canonical rounds (size.trans far)
  refine ⟨number, packed.exact ⟨k.toInt, 0, by norm_num, by simp, ?_⟩⟩
  exact size.trans_lt (by norm_num)

/-- Truncation of the size. -/
theorem roundToInt_spec (s : Sign) (m : ℕ) (e : ℤ) :
    ∃ n : ℕ, roundToInt s m e = s.apply n ∧ (n : K) ≤ m * 2 ^ e ∧ (m : K) * 2 ^ e < n + 1 := by
  have value := decreaseExponent_value (K := K) m e 0
  have place : (decreaseExponent m e 0).2 = min e 0 := by
    simp only [decreaseExponent]
    omega
  have located := (locates_exact (K := K) (decreaseExponent m e 0).1).shiftRight
    (0 - min e 0).toNat
  have quotient : ((decreaseExponent m e 0).1 : K) / 2 ^ (0 - min e 0).toNat = m * 2 ^ e := by
    rw [← value, place, div_eq_mul_inv, ← zpow_natCast, ← zpow_neg]
    congr 2
    omega
  rw [quotient] at located
  refine ⟨_, ?_, located.floor⟩
  simp only [roundToInt, shiftToExponent, place]

theorem ofIntClamp_toInt {i : ℤ} (low : -2 ^ 31 ≤ i) (high : i < 2 ^ 31) :
    (Int32.ofIntClamp i).toInt = i := by
  have first : Int32.minValue.toInt ≤ i := low
  have last : i ≤ Int32.maxValue.toInt := Int.le_sub_one_of_lt high
  rw [← @Int32.ofIntLE_eq_ofIntClamp i first last]
  exact Int32.toInt_ofIntLE

/-- `n` is `v` without its fraction. -/
def Truncates (v : K) (n : ℤ) : Prop :=
  (0 ≤ v → n ≤ v ∧ v < n + 1) ∧ (v ≤ 0 → v ≤ n ∧ n < v + 1)

theorem Truncates.neg {v : K} {n : ℤ} (h : Truncates v n) : Truncates (-v) (-n) := by
  constructor
  · intro nonneg
    obtain ⟨low, high⟩ := h.2 (by linarith)
    push_cast
    constructor <;> linarith
  · intro nonpos
    obtain ⟨low, high⟩ := h.1 (by linarith)
    push_cast
    constructor <;> linarith

theorem truncate_spec {x : Float} (number : Number x) (small : |value K x| < 2 ^ 31) :
    Truncates (value K x) (truncate x).toInt := by
  have clamped : (truncate x).toInt = (Int32.ofIntClamp (x.toModel.unpack.toInt
    Int32.minValue.toInt Int32.maxValue.toInt)).toInt := rfl
  rw [clamped]
  unfold value at *
  match x.toModel.unpack, number.canonical, small with
  | .zero s, _, _ =>
      change Truncates (0 : K) (Int32.ofIntClamp 0).toInt
      rw [ofIntClamp_toInt (by norm_num) (by norm_num)]
      exact ⟨fun _ => by simp, fun _ => by simp⟩
  | .finite s m e pos, _, small =>
      obtain ⟨n, same, low, high⟩ := roundToInt_spec (K := K) s m e
      have size : (0 : K) < m * 2 ^ e := mul_pos (by exact_mod_cast pos) (two_zpow_pos e)
      rw [unpackedValue_finite, abs_signed, abs_of_pos size] at small
      have bounded : n < 2 ^ 31 := by
        have : (n : K) < 2 ^ 31 := low.trans_lt small
        exact_mod_cast this
      have whole : Truncates ((m : K) * 2 ^ e) n :=
        ⟨fun _ => ⟨by exact_mod_cast low, by exact_mod_cast high⟩, fun nonpos => absurd size nonpos.not_gt⟩
      rw [UnpackedFloat.toInt, same, unpackedValue_finite]
      cases s with
      | negative =>
          change Truncates (-((m : K) * 2 ^ e)) (Int32.ofIntClamp (-(n : ℤ))).toInt
          rw [ofIntClamp_toInt (by omega) (by omega)]
          exact whole.neg
      | positive =>
          change Truncates ((m : K) * 2 ^ e) (Int32.ofIntClamp (n : ℤ)).toInt
          rw [ofIntClamp_toInt (by omega) (by omega)]
          exact whole

end Conversions

section Bits

/-- The size of the number behind a pattern. -/
def magnitude (K : Type*) [Field K] (n : ℕ) : K :=
  if exponentField n = 0 then fraction n * 2 ^ (-1074 : ℤ)
  else (2 ^ 52 + fraction n : ℕ) * 2 ^ ((exponentField n : ℤ) - 1075)

omit [LinearOrder K] in
theorem unpackedValue_unpack {b : BitVec 64} (finite : exponentField b.toNat ≠ 2047) :
    unpackedValue K (UnpackedFloat.unpack Format.binary64 b) =
      signed (signOf b.toNat) (magnitude K b.toNat) := by
  rw [unpack_of_field finite, magnitude]
  split
  · split
    next zero =>
      rw [zero, Nat.cast_zero, zero_mul]
      cases signOf b.toNat <;> simp [unpackedValue, signed]
    next => exact unpackedValue_finite _ _ _ _
  · exact unpackedValue_finite _ _ _ _

omit [LinearOrder K] in
theorem value_eq {x : Float} (number : Number x) :
    value K x = signed (signOf x.toBits.toNat) (magnitude K x.toBits.toNat) :=
  unpackedValue_unpack (b := x.toBits.toBitVec) ((number_iff_field x).mp number)

/-- What is unpacked from a pattern survives packing. -/
theorem unpack_kept {b : BitVec 64} (finite : exponentField b.toNat ≠ 2047) :
    ∀ s m e pos, UnpackedFloat.unpack Format.binary64 b = .finite s m e pos → e ≤ 971 := by
  have field : exponentField b.toNat < 2 ^ 11 := Nat.mod_lt _ (by norm_num)
  intro s m e pos same
  rw [unpack_of_field finite] at same
  split at same
  · split at same
    · cases same
    · cases same
      norm_num
  · cases same
    omega

theorem ofBits_unpack {b : UInt64} (finite : exponentField b.toNat ≠ 2047) :
    (Float.ofBits b).toModel.unpack = UnpackedFloat.unpack Format.binary64 b.toBitVec :=
  unpack_pack (unpack_canonical (b := b.toBitVec) finite) (unpack_kept (b := b.toBitVec) finite)

omit [LinearOrder K] in
/-- The sign change is exact. -/
theorem neg_value {x : Float} (number : Number x) : Number (-x) ∧ value K (-x) = -value K x := by
  have kept := unpack_kept (b := x.toBits.toBitVec) ((number_iff_field x).mp number)
  have canonical := number.canonical
  have negated : Canonical x.toModel.unpack.neg := by
    match x.toModel.unpack, canonical with
    | .zero s, _ => trivial
    | .finite s m e pos, h => exact h
  have same : (-x).toModel.unpack = x.toModel.unpack.neg := by
    apply unpack_pack negated
    intro s m e pos equal
    have place : ∀ u : UnpackedFloat, u.neg = .finite s m e pos → ∃ s', u = .finite s' m e pos := by
      intro u equal
      match u, equal with
      | .finite s' m' e' pos', equal =>
          cases equal
          exact ⟨s', rfl⟩
    obtain ⟨s', back⟩ := place _ equal
    exact kept s' m e pos back
  refine ⟨⟨by rwa [same]⟩, ?_⟩
  rw [value, same, value]
  match x.toModel.unpack with
  | .zero s => exact neg_zero.symm
  | .finite .negative m e pos => exact (neg_neg _).symm
  | .finite .positive m e pos => rfl
  | .infinity s => exact neg_zero.symm
  | .notANumber => exact neg_zero.symm

variable [IsStrictOrderedRing K]

/-- A number that is added to the exponent field scales the value, as long as the field does not
leave the range of normal numbers. -/
theorem add_exponent {x : Float} {b : UInt64} {k : ℤ} (number : Number x)
    (normal : exponentField x.toBits.toNat ≠ 0) (low : 1 ≤ exponentField x.toBits.toNat + k)
    (high : exponentField x.toBits.toNat + k ≤ 2046)
    (bits : (b.toNat : ℤ) = x.toBits.toNat + k * 2 ^ 52) :
    Number (.ofBits b) ∧ value K (.ofBits b) = value K x * 2 ^ k := by
  have width := x.toBits.toNat_lt
  have field : (exponentField b.toNat : ℤ) = exponentField x.toBits.toNat + k := by
    unfold exponentField at *
    omega
  have same : fraction b.toNat = fraction x.toBits.toNat := by
    unfold fraction at *
    omega
  have sign : signOf b.toNat = signOf x.toBits.toNat := by
    have : b.toNat / 2 ^ 63 = x.toBits.toNat / 2 ^ 63 := by
      unfold exponentField at *
      omega
    rw [signOf, this, signOf]
  have finite : exponentField b.toNat ≠ 2047 := by omega
  have unpacked := ofBits_unpack finite
  constructor
  · constructor
    rw [unpacked]
    exact unpack_canonical (b := b.toBitVec) finite
  · rw [value_eq number, value, unpacked, unpackedValue_unpack (b := b.toBitVec) finite]
    change signed (signOf b.toNat) (magnitude K b.toNat) = _
    rw [sign, magnitude, magnitude, if_neg (by omega), if_neg normal, same, field]
    have scale : (2 : K) ^ ((exponentField x.toBits.toNat : ℤ) + k - 1075) =
        2 ^ ((exponentField x.toBits.toNat : ℤ) - 1075) * 2 ^ k := by
      rw [← zpow_add₀ two_ne_zero]
      congr 1
      ring
    rw [scale]
    cases signOf x.toBits.toNat <;> simp only [signed] <;> ring

theorem magnitude_nonneg (n : ℕ) : 0 ≤ magnitude K n := by
  unfold magnitude
  split <;> positivity

theorem abs_value {x : Float} (number : Number x) :
    |value K x| = magnitude K (x.toBits.toNat % 2 ^ 63) := by
  have field : exponentField (x.toBits.toNat % 2 ^ 63) = exponentField x.toBits.toNat := by
    unfold exponentField
    omega
  have mantissa : fraction (x.toBits.toNat % 2 ^ 63) = fraction x.toBits.toNat := by
    unfold fraction
    omega
  rw [value_eq number, abs_signed, abs_of_nonneg (magnitude_nonneg _), magnitude, magnitude, field,
    mantissa]

/-- Larger patterns stand for larger numbers. -/
theorem magnitude_lt {a b : ℕ} (inside : b < 2 ^ 63) (less : a < b) :
    magnitude K a < magnitude K b := by
  have first : fraction a < 2 ^ 52 := Nat.mod_lt _ (by norm_num)
  have second : fraction b < 2 ^ 52 := Nat.mod_lt _ (by norm_num)
  have order : exponentField a < exponentField b ∨
      exponentField a = exponentField b ∧ fraction a < fraction b := by
    unfold exponentField fraction
    omega
  have least := two_zpow_pos (K := K) (-1074)
  unfold magnitude
  rcases order with fields | ⟨same, fractions⟩
  · rw [if_neg (by omega : ¬exponentField b = 0)]
    by_cases subnormal : exponentField a = 0
    · rw [if_pos subnormal]
      calc (fraction a : K) * 2 ^ (-1074 : ℤ)
          < (2 ^ 52 + fraction b : ℕ) * 2 ^ (-1074 : ℤ) := by
            apply mul_lt_mul_of_pos_right _ least
            exact_mod_cast (by omega : fraction a < 2 ^ 52 + fraction b)
        _ ≤ (2 ^ 52 + fraction b : ℕ) * 2 ^ ((exponentField b : ℤ) - 1075) := by
            apply mul_le_mul_of_nonneg_left _ (Nat.cast_nonneg _)
            exact two_zpow_le.mpr (by omega)
    · rw [if_neg subnormal]
      exact magnitudes_lt (by omega) (.inl (by omega)) (by omega) (by omega)
  · rw [same]
    split
    · exact mul_lt_mul_of_pos_right (by exact_mod_cast fractions) least
    · apply mul_lt_mul_of_pos_right _ (two_zpow_pos _)
      exact_mod_cast (by omega : 2 ^ 52 + fraction a < 2 ^ 52 + fraction b)

theorem magnitude_le_iff {a b : ℕ} (left : a < 2 ^ 63) (right : b < 2 ^ 63) :
    magnitude K a ≤ magnitude K b ↔ a ≤ b := by
  constructor
  · intro le
    by_contra more
    exact absurd (magnitude_lt left (not_le.mp more)) (not_lt.mpr le)
  · intro le
    rcases le.lt_or_eq with less | same
    · exact (magnitude_lt right less).le
    · rw [same]

end Bits

end GapsoRbfPid.Library.Binary64
