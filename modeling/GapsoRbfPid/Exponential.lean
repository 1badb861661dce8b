import Mathlib
import GapsoRbfPid.Library.Binary64

/-! The exponential of `include/exp.h`, which every hidden unit of the network calls. The source
takes doubles apart by their words; here they are `Float`s, whose logical model rounds every
operation to nearest. -/

namespace GapsoRbfPid.Exponential
open Library.Binary64

def getHighWord (d : Float) : UInt32 := (d.toBits >>> 32).toUInt32

def getLowWord (d : Float) : UInt32 := d.toBits.toUInt32

def setHighWord (d : Float) (v : UInt32) : Float :=
  .ofBits (v.toUInt64 <<< 32 ||| d.toBits.toUInt32.toUInt64)

section Constants

def one : Float := 1.0
def huge : Float := 1.0e+300
def twom1000 : Float := 9.33263618503218878990e-302
def o_threshold : Float := 7.09782712893383973096e+02
def u_threshold : Float := -7.45133219101941108420e+02

/-- The arrays of two, indexed by the sign bit. -/
def halF (xsb : UInt32) : Float := if xsb = 0 then 0.5 else -0.5
def ln2HI (xsb : UInt32) : Float :=
  if xsb = 0 then 6.93147180369123816490e-01 else -6.93147180369123816490e-01
def ln2LO (xsb : UInt32) : Float :=
  if xsb = 0 then 1.90821492927058770002e-10 else -1.90821492927058770002e-10

def invln2 : Float := 1.44269504088896338700e+00
def P1 : Float := 1.66666666666666019037e-01
def P2 : Float := -2.77777777770155933842e-03
def P3 : Float := 6.61375632143793436117e-05
def P4 : Float := -1.65339022054652515390e-06
def P5 : Float := 4.13813679705723846039e-08

end Constants

/-- The locals at "x is now in primary range". -/
structure Locals where
  x : Float
  hi : Float
  lo : Float
  k : Int32

/-- "filter out non-finite argument": the result where the function returns here. -/
def filtered (x : Float) (hx xsb : UInt32) : Option Float :=
  if 0x40862E42 ≤ hx then
    if 0x7ff00000 ≤ hx then
      if (hx &&& 0xfffff) ||| getLowWord x ≠ 0 then some (x + x)
      else some (if xsb = 0 then x else 0.0)
    else if o_threshold < x then some (huge * huge)
    else if x < u_threshold then some (twom1000 * twom1000)
    else none
  else none

/-- "argument reduction". For a tiny argument the function returns; were the test against `one` to
fail, it would go on with locals that were never assigned, here those of `unset`. -/
def reduced (unset : Locals) (x : Float) (hx xsb : UInt32) : Float ⊕ Locals :=
  if 0x3fd62e42 < hx then
    if hx < 0x3FF0A2B2 then
      let hi := x - ln2HI xsb
      let lo := ln2LO xsb
      .inr ⟨hi - lo, hi, lo, 1 - xsb.toInt32 - xsb.toInt32⟩
    else
      let k := truncate (invln2 * x + halF xsb)
      let t := ofInt32 k
      let hi := x - t * ln2HI 0
      let lo := t * ln2LO 0
      .inr ⟨hi - lo, hi, lo, k⟩
  else if hx < 0x3e300000 then
    if one < huge + x then .inl (one + x) else .inr { unset with x }
  else .inr { unset with x, k := 0 }

def remainder (x : Float) : Float :=
  let t := x * x
  x - t * (P1 + t * (P2 + t * (P3 + t * (P4 + t * P5))))

/-- "add k to y's exponent". -/
def scaled (y : Float) (k : Int32) : Float :=
  if -1021 ≤ k then setHighWord y (getHighWord y + (k.toUInt32 <<< 20))
  else setHighWord y (getHighWord y + ((k + 1000).toUInt32 <<< 20)) * twom1000

def primary (r : Locals) : Float :=
  let c := remainder r.x
  if r.k = 0 then one - ((r.x * c) / (c - 2.0) - r.x)
  else scaled (one - ((r.lo - (r.x * c) / (2.0 - c)) - r.hi)) r.k

/-- `__ieee754_exp`. -/
def ieee754Exp (unset : Locals) (x : Float) : Float :=
  let hx := getHighWord x
  let xsb := (hx >>> 31) &&& 1
  let hx := hx &&& 0x7fffffff
  match filtered x hx xsb with
  | some y => y
  | none =>
      match reduced unset x hx xsb with
      | .inl y => y
      | .inr r => primary r

def exp (unset : Locals) (x : Float) : Float := ieee754Exp unset x

section Values

/-- The patterns that the source gives for its decimal constants. -/
def patterns : List (Float × ℕ) :=
  [(halF 0, 0x3FE0000000000000), (halF 1, 0xBFE0000000000000), (twom1000, 0x0170000000000000),
    (o_threshold, 0x40862E42FEFA39EF), (u_threshold, 0xC0874910D52D3051),
    (ln2HI 0, 0x3FE62E42FEE00000), (ln2HI 1, 0xBFE62E42FEE00000),
    (ln2LO 0, 0x3DEA39EF35793C76), (ln2LO 1, 0xBDEA39EF35793C76), (invln2, 0x3FF71547652B82FE),
    (P1, 0x3FC555555555553E), (P2, 0xBF66C16C16BEBD93), (P3, 0x3F11566AAF25DE2C),
    (P4, 0xBEBBBD41C5D26BF1), (P5, 0x3E66376972BEA4D0)]

theorem constants_patterns : ∀ c ∈ patterns, c.1.toBits.toNat = c.2 := by decide +kernel

/-- The numbers behind them, as fractions of a power of two. -/
def constants : List (Float × ℤ × ℕ) :=
  [(one, 1, 0), (2.0, 2, 0), (halF 0, 1, 1), (halF 1, -1, 1), (o_threshold, 6243314768165359, 43),
    (u_threshold, -6554261109157969, 43), (ln2HI 0, 2977044471, 32), (ln2HI 1, -2977044471, 32),
    (ln2LO 0, 3691024475790907, 84), (ln2LO 1, -3691024475790907, 84),
    (invln2, 3248660424278399, 51), (P1, 3002399751580319, 54), (P2, -6405119469862291, 61),
    (P3, 1220022702274443, 64), (P4, -7807914560613361, 72), (P5, 390835970239053, 73),
    (twom1000, 1, 1000)]

theorem constants_exact : ∀ c ∈ constants, exponentField c.1.toBits.toNat ≠ 2047 ∧
    signed (signOf c.1.toBits.toNat) (magnitude ℚ c.1.toBits.toNat) = c.2.1 / 2 ^ c.2.2 := by
  decide +kernel

theorem cast_value {x : Float} (number : Number x) : value ℝ x = (value ℚ x : ℚ) := by
  rw [value_eq number, value_eq number, magnitude, magnitude]
  cases signOf x.toBits.toNat <;> simp only [signed] <;> split <;>
    simp only [Rat.cast_neg, Rat.cast_mul, Rat.cast_natCast, Rat.cast_zpow, Rat.cast_ofNat]

theorem constant_value {x : Float} {n : ℤ} {k : ℕ} {v : ℝ} (member : (x, n, k) ∈ constants)
    (same : (n : ℝ) / 2 ^ k = v) : Number x ∧ value ℝ x = v := by
  obtain ⟨finite, exact⟩ := constants_exact (x, n, k) member
  have number := (number_iff_field x).mpr finite
  rw [cast_value number, value_eq number, exact, ← same]
  push_cast
  exact ⟨number, rfl⟩

theorem one_value : Number one ∧ value ℝ one = 1 :=
  constant_value (n := 1) (k := 0) (by simp [constants]) (by push_cast; norm_num)

theorem two_value : Number 2.0 ∧ value ℝ 2.0 = 2 :=
  constant_value (n := 2) (k := 0) (by simp [constants]) (by push_cast; norm_num)

theorem halF_value : Number (halF 0) ∧ value ℝ (halF 0) = 1 / 2 ^ 1 :=
  constant_value (n := 1) (k := 1) (by simp [constants]) (by push_cast; norm_num)

theorem halF_neg_value : Number (halF 1) ∧ value ℝ (halF 1) = -1 / 2 ^ 1 :=
  constant_value (n := -1) (k := 1) (by simp [constants]) (by push_cast; norm_num)

theorem o_threshold_value : Number o_threshold ∧ value ℝ o_threshold = 6243314768165359 / 2 ^ 43 :=
  constant_value (n := 6243314768165359) (k := 43) (by simp [constants]) (by push_cast; rfl)

theorem u_threshold_value : Number u_threshold ∧ value ℝ u_threshold = -6554261109157969 / 2 ^ 43 :=
  constant_value (n := -6554261109157969) (k := 43) (by simp [constants]) (by push_cast; rfl)

theorem ln2HI_value : Number (ln2HI 0) ∧ value ℝ (ln2HI 0) = 2977044471 / 2 ^ 32 :=
  constant_value (n := 2977044471) (k := 32) (by simp [constants]) (by push_cast; rfl)

theorem ln2HI_neg_value : Number (ln2HI 1) ∧ value ℝ (ln2HI 1) = -2977044471 / 2 ^ 32 :=
  constant_value (n := -2977044471) (k := 32) (by simp [constants]) (by push_cast; rfl)

theorem ln2LO_value : Number (ln2LO 0) ∧ value ℝ (ln2LO 0) = 3691024475790907 / 2 ^ 84 :=
  constant_value (n := 3691024475790907) (k := 84) (by simp [constants]) (by push_cast; rfl)

theorem ln2LO_neg_value : Number (ln2LO 1) ∧ value ℝ (ln2LO 1) = -3691024475790907 / 2 ^ 84 :=
  constant_value (n := -3691024475790907) (k := 84) (by simp [constants]) (by push_cast; rfl)

theorem invln2_value : Number invln2 ∧ value ℝ invln2 = 3248660424278399 / 2 ^ 51 :=
  constant_value (n := 3248660424278399) (k := 51) (by simp [constants]) (by push_cast; rfl)

theorem P1_value : Number P1 ∧ value ℝ P1 = 3002399751580319 / 2 ^ 54 :=
  constant_value (n := 3002399751580319) (k := 54) (by simp [constants]) (by push_cast; rfl)

theorem P2_value : Number P2 ∧ value ℝ P2 = -6405119469862291 / 2 ^ 61 :=
  constant_value (n := -6405119469862291) (k := 61) (by simp [constants]) (by push_cast; rfl)

theorem P3_value : Number P3 ∧ value ℝ P3 = 1220022702274443 / 2 ^ 64 :=
  constant_value (n := 1220022702274443) (k := 64) (by simp [constants]) (by push_cast; rfl)

theorem P4_value : Number P4 ∧ value ℝ P4 = -7807914560613361 / 2 ^ 72 :=
  constant_value (n := -7807914560613361) (k := 72) (by simp [constants]) (by push_cast; rfl)

theorem P5_value : Number P5 ∧ value ℝ P5 = 390835970239053 / 2 ^ 73 :=
  constant_value (n := 390835970239053) (k := 73) (by simp [constants]) (by push_cast; rfl)

theorem twom1000_value : Number twom1000 ∧ value ℝ twom1000 = 1 / 2 ^ 1000 :=
  constant_value (n := 1) (k := 1000) (by simp [constants]) (by rw [Int.cast_one])

end Values

section Words

theorem getHighWord_toNat (d : Float) : (getHighWord d).toNat = d.toBits.toNat / 2 ^ 32 := by
  have width := d.toBits.toNat_lt
  rw [getHighWord, UInt64.toNat_toUInt32, UInt64.toNat_shiftRight, Nat.shiftRight_eq_div_pow]
  change d.toBits.toNat / 2 ^ 32 % 2 ^ 32 = _
  omega

theorem hx_toNat (d : Float) :
    (getHighWord d &&& 0x7fffffff).toNat = d.toBits.toNat % 2 ^ 63 / 2 ^ 32 := by
  rw [UInt32.toNat_and, getHighWord_toNat]
  change d.toBits.toNat / 2 ^ 32 &&& (2 ^ 31 - 1) = _
  rw [Nat.and_two_pow_sub_one_eq_mod]
  omega

theorem xsb_toNat (d : Float) :
    ((getHighWord d >>> 31) &&& 1).toNat = d.toBits.toNat / 2 ^ 63 := by
  have width := d.toBits.toNat_lt
  rw [UInt32.toNat_and, UInt32.toNat_shiftRight, getHighWord_toNat, Nat.shiftRight_eq_div_pow]
  change d.toBits.toNat / 2 ^ 32 / 2 ^ 31 &&& (2 ^ 1 - 1) = _
  rw [Nat.and_two_pow_sub_one_eq_mod]
  omega

theorem toUInt32_toNat (k : Int32) : (k.toUInt32.toNat : ℤ) = k.toInt % 2 ^ 32 := by
  have same : k.toInt = Int.bmod k.toUInt32.toNat (2 ^ 32) := BitVec.toInt_eq_toNat_bmod k.toBitVec
  have width := k.toUInt32.toNat_lt
  rw [same]
  have reduced : Int.bmod k.toUInt32.toNat (2 ^ 32) % (2 ^ 32 : ℕ) = k.toUInt32.toNat % (2 ^ 32 : ℕ) :=
    Int.bmod_emod
  omega

theorem setHighWord_bits (d : Float) (v : UInt32) :
    (v.toUInt64 <<< 32 ||| d.toBits.toUInt32.toUInt64).toNat =
      v.toNat * 2 ^ 32 + d.toBits.toNat % 2 ^ 32 := by
  have width := v.toNat_lt
  have low : d.toBits.toNat % 2 ^ 32 < 2 ^ 32 := Nat.mod_lt _ (by norm_num)
  have shifted : v.toNat * 2 ^ 32 % 2 ^ 64 = v.toNat * 2 ^ 32 := Nat.mod_eq_of_lt (by omega)
  rw [UInt64.toNat_or, UInt64.toNat_shiftLeft, UInt32.toNat_toUInt64, UInt32.toNat_toUInt64,
    UInt64.toNat_toUInt32, Nat.shiftLeft_eq]
  change v.toNat * 2 ^ 32 % 2 ^ 64 ||| _ = _
  rw [shifted, ← Nat.shiftLeft_eq, ← Nat.shiftLeft_add_eq_or_of_lt low]

end Words

end GapsoRbfPid.Exponential
