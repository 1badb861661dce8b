import GapsoRbfPid.Library.CInt
import GapsoRbfPid.Library.FixedPoint
import GapsoRbfPid.Library.Transition

/-! The fixed-point codec that `tc/q_blue.c` and `tc/q_rbfgrad.c` both carry. Its loops run over
the 31 value bits of an `int`. -/

namespace GapsoRbfPid.FixpointCodec
open GapsoRbfPid Library

variable {K : Type} [Field K] [LinearOrder K]

/-- `i` runs from 1 to `8*sizeof(int)` excluded. -/
abbrev VALUE_BITS : ℕ := 31

section Bits

/-- The body of the loop of `double2fixpoint`, on `ret` and `d`. -/
def encodeTurn (state : BitVec 32 × K) (_ : Fin VALUE_BITS) : BitVec 32 × K :=
  let ret := state.1 <<< 1
  let d := state.2 * 2
  if d ≥ 1 then (ret ||| 1, d - 1) else (ret, d)

omit [LinearOrder K] in
/-- The body of the loop of `fixpoint2double`, on `f` and `ret`; the shift is the one of `int`. -/
def decodeTurn (state : BitVec 32 × K) (_ : Fin VALUE_BITS) : BitVec 32 × K :=
  let ret := if state.1 &&& 1 ≠ 0 then state.2 + 1 else state.2
  (state.1.sshiftRight 1, ret / 2)

end Bits

/-! The copies of `tc/q_blue.c`. -/

def Blue.double2fixpoint (d : K) : Int32 :=
  .ofBitVec (Transition.sweep encodeTurn (0, d)).1

omit [LinearOrder K] in
def Blue.fixpoint2double (K : Type) [Field K] (f : Int32) : K :=
  (Transition.sweep decodeTurn (f.toBitVec, (0 : K))).2

/-! The copies of `tc/q_rbfgrad.c`. -/

def Rbfgrad.double2fixpoint (d : K) : Int32 :=
  .ofBitVec (Transition.sweep encodeTurn (0, d)).1

omit [LinearOrder K] in
def Rbfgrad.fixpoint2double (K : Type) [Field K] (f : Int32) : K :=
  (Transition.sweep decodeTurn (f.toBitVec, (0 : K))).2

section Loops

/-- Doubling a word that has room for it, with and without a carry. -/
theorem shiftLeft_toNat {word : BitVec 32} (room : word.toNat < 2 ^ 31) :
    (word <<< 1).toNat = 2 * word.toNat ∧ (word <<< 1 ||| 1#32).toNat = 2 * word.toNat + 1 := by
  have doubled : (word <<< 1).toNat = 2 * word.toNat := by
    rw [BitVec.toNat_shiftLeft, Nat.shiftLeft_eq]
    omega
  have carried : 2 ^ 1 * word.toNat + 1 = 2 ^ 1 * word.toNat ||| 1 :=
    Nat.two_pow_add_eq_or_of_lt (by decide) word.toNat
  refine ⟨doubled, ?_⟩
  rw [BitVec.toNat_or, doubled]
  exact carried.symm

/-- A word without its sign bit, halved, and its lowest bit. -/
theorem shiftRight_toNat {word : BitVec 32} (room : word.toNat < 2 ^ 31) :
    (word.sshiftRight 1).toNat = word.toNat / 2 ∧ (word &&& 1 ≠ 0 ↔ word.toNat % 2 = 1) := by
  have positive : word.msb = false := by
    rw [BitVec.msb_eq_decide]
    simpa using room
  constructor
  · rw [BitVec.sshiftRight_eq_of_msb_false positive, BitVec.toNat_ushiftRight, Nat.shiftRight_eq_div_pow]
  · have bit : (word &&& 1).toNat = word.toNat % 2 := by
      rw [BitVec.toNat_and]
      exact Nat.and_one_is_mod word.toNat
    rw [Ne, ← BitVec.toNat_inj, bit]
    change ¬word.toNat % 2 = 0 ↔ _
    omega

theorem encode_loop (d : K) :
    (Transition.sweep encodeTurn ((0 : BitVec 32), d)).1.toNat =
      (FixedPoint.encode d VALUE_BITS).1 := by
  let reached : ℕ → BitVec 32 × K → Prop := fun i state =>
    state.1.toNat = (FixedPoint.encode d i).1 ∧ state.2 = (FixedPoint.encode d i).2
  have keeps : ∀ state (i : Fin VALUE_BITS), reached i state →
      reached (i + 1) (encodeTurn state i) := by
    rintro ⟨ret, rest⟩ i ⟨code, remainder⟩
    dsimp only at code remainder
    have room : ret.toNat < 2 ^ 31 := by
      have bits := FixedPoint.encode_lt d i
      have wide : 2 ^ i.val ≤ 2 ^ 31 := Nat.pow_le_pow_right (by decide) (le_of_lt i.isLt)
      omega
    obtain ⟨doubled, carried⟩ := shiftLeft_toNat room
    change (encodeTurn (ret, rest) i).1.toNat = (FixedPoint.encodeBit _).1 ∧
      (encodeTurn (ret, rest) i).2 = (FixedPoint.encodeBit _).2
    simp only [encodeTurn, FixedPoint.encodeBit, ← code, ← remainder, mul_comm rest 2, ge_iff_le]
    by_cases carry : 1 ≤ 2 * rest
    · simp only [if_pos carry]
      exact ⟨carried, trivial⟩
    · simp only [if_neg carry]
      exact ⟨doubled, trivial⟩
  have start : reached 0 ((0 : BitVec 32), d) := ⟨rfl, rfl⟩
  have ends : reached VALUE_BITS (Transition.sweep encodeTurn ((0 : BitVec 32), d)) :=
    Transition.sweep_invariant keeps start
  exact ends.1

omit [LinearOrder K] in
theorem decode_loop {f : BitVec 32} (positive : f.toNat < 2 ^ 31) :
    (Transition.sweep decodeTurn (f, (0 : K))).2 = (FixedPoint.decode K f.toNat VALUE_BITS).2 := by
  let reached : ℕ → BitVec 32 × K → Prop := fun i state =>
    state.1.toNat = (FixedPoint.decode K f.toNat i).1 ∧ state.2 = (FixedPoint.decode K f.toNat i).2
  have keeps : ∀ state (i : Fin VALUE_BITS), reached i state →
      reached (i + 1) (decodeTurn state i) := by
    rintro ⟨left, ret⟩ i ⟨code, value⟩
    dsimp only at code value
    have room : left.toNat < 2 ^ 31 := by
      rw [code, FixedPoint.decode_left]
      exact lt_of_le_of_lt (Nat.div_le_self _ _) positive
    obtain ⟨halved, bit⟩ := shiftRight_toNat room
    change (decodeTurn (left, ret) i).1.toNat = (FixedPoint.decodeBit _).1 ∧
      (decodeTurn (left, ret) i).2 = (FixedPoint.decodeBit _).2
    simp only [decodeTurn, FixedPoint.decodeBit, ← code, ← value]
    refine ⟨halved, ?_⟩
    by_cases odd : left.toNat % 2 = 1
    · rw [if_pos odd, if_pos (bit.mpr odd)]
    · rw [if_neg odd, if_neg (fun set => odd (bit.mp set))]
  have start : reached 0 (f, (0 : K)) := ⟨rfl, rfl⟩
  have ends : reached VALUE_BITS (Transition.sweep decodeTurn (f, (0 : K))) :=
    Transition.sweep_invariant keeps start
  exact ends.2

end Loops

section Codec

theorem double2fixpoint_toInt (d : K) :
    (Rbfgrad.double2fixpoint d).toInt = (FixedPoint.encode d VALUE_BITS).1 := by
  have code := encode_loop d
  have room := FixedPoint.encode_lt d VALUE_BITS
  rw [← code] at room
  exact (CInt.ofBitVec_toInt room).trans (by rw [code])

/-- A code that is no negative `int` is the word it is stored in. -/
theorem toBitVec_of_nonneg {f : Int32} (nonneg : 0 ≤ f.toInt) :
    f.toBitVec.toNat < 2 ^ 31 ∧ f.toInt = f.toBitVec.toNat := by
  have bound := f.toBitVec.isLt
  have value : f.toInt = f.toBitVec.toInt := rfl
  rw [value, BitVec.toInt_eq_toNat_cond] at nonneg ⊢
  split_ifs at nonneg ⊢ with small
  · omega
  · omega

omit [LinearOrder K] in
theorem fixpoint2double_eq {f : Int32} (nonneg : 0 ≤ f.toInt) :
    Rbfgrad.fixpoint2double K f = (FixedPoint.decode K f.toBitVec.toNat VALUE_BITS).2 :=
  decode_loop (toBitVec_of_nonneg nonneg).1

variable [IsStrictOrderedRing K] [FloorRing K]

/-- The codec of both programs: the encoder floors and clamps, the decoder is exact on every code,
and each undoes the other as far as the bits go. -/
theorem codec_exact :
    (∀ d : K, (Rbfgrad.double2fixpoint d).toInt = max 0 (min ⌊d * 2 ^ 31⌋ (2 ^ 31 - 1))) ∧
    (∀ f : Int32, 0 ≤ f.toInt → Rbfgrad.fixpoint2double K f = (f.toInt : K) / 2 ^ 31) ∧
    (∀ f : Int32, 0 ≤ f.toInt → Rbfgrad.double2fixpoint (Rbfgrad.fixpoint2double K f) = f) ∧
    (∀ d : K, 0 ≤ d → d < 1 →
      Rbfgrad.fixpoint2double K (Rbfgrad.double2fixpoint d) ≤ d ∧
        d < Rbfgrad.fixpoint2double K (Rbfgrad.double2fixpoint d) + 1 / 2 ^ 31) ∧
    (∀ d : K, Blue.double2fixpoint d = Rbfgrad.double2fixpoint d) ∧
    ∀ f : Int32, Blue.fixpoint2double K f = Rbfgrad.fixpoint2double K f := by
  refine ⟨?_, ?_, ?_, ?_, fun _ => rfl, fun _ => rfl⟩
  · intro d
    rw [double2fixpoint_toInt]
    exact FixedPoint.encode_clamp d VALUE_BITS
  · intro f nonneg
    obtain ⟨fits, value⟩ := toBitVec_of_nonneg nonneg
    rw [fixpoint2double_eq nonneg, FixedPoint.decode_of_lt fits, value, Int.cast_natCast]
  · intro f nonneg
    obtain ⟨fits, value⟩ := toBitVec_of_nonneg nonneg
    have code := double2fixpoint_toInt (Rbfgrad.fixpoint2double K f)
    rw [fixpoint2double_eq nonneg, FixedPoint.encode_decode fits, ← value] at code
    rw [fixpoint2double_eq nonneg]
    exact Int32.toInt_inj.mp code
  · intro d low high
    have code := double2fixpoint_toInt d
    have nonneg : 0 ≤ (Rbfgrad.double2fixpoint d).toInt := by
      rw [code]
      exact Int.natCast_nonneg _
    have word : (Rbfgrad.double2fixpoint d).toBitVec.toNat = (FixedPoint.encode d VALUE_BITS).1 := by
      rw [(toBitVec_of_nonneg nonneg).2] at code
      exact_mod_cast code
    rw [fixpoint2double_eq nonneg, word]
    exact FixedPoint.decode_encode low high VALUE_BITS

theorem codec_exact_third :
    (Rbfgrad.double2fixpoint (1 / 3 : ℚ)).toInt = 715827882 ∧
      Rbfgrad.double2fixpoint (Rbfgrad.fixpoint2double ℚ 715827882) = 715827882 := by
  obtain ⟨encodes, -, undoes, -⟩ := codec_exact (K := ℚ)
  refine ⟨?_, undoes 715827882 (by decide)⟩
  rw [encodes]
  norm_num

end Codec

end GapsoRbfPid.FixpointCodec
