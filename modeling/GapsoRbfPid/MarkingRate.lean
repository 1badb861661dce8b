import GapsoRbfPid.Deployment
import Mathlib.Algebra.Order.Field.Basic
import Mathlib.Data.Set.Card
import Mathlib.Order.Interval.Finset.Nat

/-! The rate of marking over a uniform draw. The absolute value folds two draws onto every
value but two: zero comes from one draw, and the draw `2 ^ 31` lies below every value. -/

namespace GapsoRbfPid.MarkingRate
open GapsoRbfPid Library

section Counting

/-- The draws whose absolute value lies below a bound: the small ones, their negatives and the
one that wraps. -/
def folded (bound : ℕ) : Finset ℕ :=
  Finset.range bound ∪ (Finset.Ioo (2 ^ 32 - bound) (2 ^ 32) ∪ {2 ^ 31})

theorem mem_folded (bound n : ℕ) :
    n ∈ folded bound ↔ n < bound ∨ (2 ^ 32 - bound < n ∧ n < 2 ^ 32) ∨ n = 2 ^ 31 := by
  simp only [folded, Finset.mem_union, Finset.mem_range, Finset.mem_Ioo, Finset.mem_singleton]

theorem card_folded {bound : ℕ} (small : bound < 2 ^ 31) :
    (folded bound).card = bound + (bound - 1) + 1 := by
  have upper : Disjoint (Finset.Ioo (2 ^ 32 - bound) (2 ^ 32)) {2 ^ 31} := by
    rw [Finset.disjoint_singleton_right, Finset.mem_Ioo]
    omega
  have lower : Disjoint (Finset.range bound)
      (Finset.Ioo (2 ^ 32 - bound) (2 ^ 32) ∪ {2 ^ 31}) := by
    rw [Finset.disjoint_left]
    intro n below above
    simp only [Finset.mem_union, Finset.mem_range, Finset.mem_Ioo, Finset.mem_singleton] at below above
    omega
  rw [folded, Finset.card_union_of_disjoint lower, Finset.card_union_of_disjoint upper,
    Finset.card_range, Nat.card_Ioo, Finset.card_singleton]
  omega

theorem absInt_lt_iff (word : BitVec 32) {bound : ℕ} (small : bound < 2 ^ 31) :
    CInt.absInt word < bound ↔ word.toNat ∈ folded bound := by
  have inside := word.isLt
  rw [mem_folded]
  rcases lt_trichotomy word.toNat (2 ^ 31) with low | wraps | high
  · rw [CInt.absInt_of_low low]
    omega
  · have minimum : word = BitVec.intMin 32 := BitVec.eq_of_toNat_eq wraps
    rw [minimum, CInt.absInt_minimum, ← minimum]
    omega
  · rw [CInt.absInt_of_high high]
    omega

theorem ncard_absInt_lt {bound : ℕ} (small : bound < 2 ^ 31) :
    {word : BitVec 32 | CInt.absInt word < bound}.ncard = bound + (bound - 1) + 1 := by
  have injective : Function.Injective (BitVec.toNat (w := 32)) := by
    intro first second same
    exact BitVec.eq_of_toNat_eq same
  have image : BitVec.toNat '' {word : BitVec 32 | CInt.absInt word < bound} = folded bound := by
    ext n
    constructor
    · rintro ⟨word, below, rfl⟩
      exact (absInt_lt_iff word small).mp below
    · intro member
      have inside : n < 2 ^ 32 := by
        have cases := (mem_folded bound n).mp member
        omega
      have value : (BitVec.ofNat 32 n).toNat = n := by
        rw [BitVec.toNat_ofNat, Nat.mod_eq_of_lt inside]
      refine ⟨BitVec.ofNat 32 n, ?_, value⟩
      rw [Set.mem_ofPred_eq, absInt_lt_iff _ small, value]
      exact member
  rw [← Set.ncard_image_of_injective _ injective, image, Set.ncard_coe_finset, card_folded small]

end Counting

section Rate
variable {K : Type} [Field K] [LinearOrder K] [FloorRing K] [IsStrictOrderedRing K]

omit [IsStrictOrderedRing K] in
/-- The answers of `net_random()` on which a packet is marked. -/
def markedDraws (p : RbfgradParms K) : Set (BitVec 32) :=
  {netRandom | rbfgradAction p netRandom = .probMark}

/-- The threshold is the scaled probability, rounded down. -/
theorem currentP_bounds {p : RbfgradParms K} (low : 0 ≤ p.p_k) (high : p.p_k ≤ 1) :
    ∃ threshold : ℕ, currentP p = threshold ∧ threshold < 2 ^ 31 ∧
      (threshold : K) ≤ p.p_k * 2147483647 ∧ p.p_k * 2147483647 < threshold + 1 := by
  have scaled : p.p_k * (RAND_MAX : K) = p.p_k * 2147483647 := by norm_num
  have nonneg : 0 ≤ p.p_k * (RAND_MAX : K) := by
    rw [scaled]
    positivity
  have fits : p.p_k * (RAND_MAX : K) ≤ (CInt.intMax : K) := by
    rw [scaled]
    norm_num
    linarith
  obtain ⟨floor, lower, upper⟩ := CInt.toInt_of_range nonneg fits
  obtain ⟨threshold, value⟩ := Int.eq_ofNat_of_zero_le lower
  rw [value] at floor upper
  have below : (threshold : K) ≤ p.p_k * 2147483647 := by
    have bound := Int.floor_le (p.p_k * (RAND_MAX : K))
    rw [← floor, scaled] at bound
    exact_mod_cast bound
  have above : p.p_k * 2147483647 < (threshold : K) + 1 := by
    have bound := Int.lt_floor_add_one (p.p_k * (RAND_MAX : K))
    rw [← floor, scaled] at bound
    exact_mod_cast bound
  have small : threshold < 2 ^ 31 := by
    simp only [CInt.intMax] at upper
    omega
  exact ⟨threshold, value, small, below, above⟩

omit [IsStrictOrderedRing K] in
/-- The number of marked draws for each threshold. -/
theorem ncard_markedDraws {p : RbfgradParms K} {threshold : ℕ} (value : currentP p = threshold)
    (small : threshold < 2 ^ 31) :
    (markedDraws p).ncard = threshold + (threshold - 1) + 1 := by
  have same : markedDraws p = {word : BitVec 32 | CInt.absInt word < threshold} := by
    ext word
    rw [markedDraws, Set.mem_ofPred_eq, action_mark_iff, value, Set.mem_ofPred_eq]
  rw [same, ncard_absInt_lt small]

/-- The marked draws are as many as the probability asks for, up to fewer than four of the
`2 ^ 32`. -/
theorem marking_rate {p : RbfgradParms K} (low : 0 ≤ p.p_k) (high : p.p_k ≤ 1) :
    |((markedDraws p).ncard : K) - p.p_k * 2 ^ 32| < 4 ∧
      |((markedDraws p).ncard : K) / 2 ^ 32 - p.p_k| < 1 / 2 ^ 30 := by
  obtain ⟨threshold, value, small, below, above⟩ := currentP_bounds low high
  have near : |((markedDraws p).ncard : K) - p.p_k * 2 ^ 32| < 4 := by
    rw [ncard_markedDraws value small, abs_lt]
    rcases Nat.eq_zero_or_pos threshold with zero | positive
    · -- only the draw that wraps is marked
      subst zero
      norm_num at below above ⊢
      constructor <;> linarith
    · have count : ((threshold + (threshold - 1) + 1 : ℕ) : K) = 2 * threshold := by
        have twice : threshold + (threshold - 1) + 1 = 2 * threshold := by omega
        rw [twice]
        push_cast
        ring
      rw [count]
      constructor <;> linarith
  refine ⟨near, ?_⟩
  have size : (0 : K) < 2 ^ 32 := by positivity
  calc
    |((markedDraws p).ncard : K) / 2 ^ 32 - p.p_k|
      = |((markedDraws p).ncard : K) - p.p_k * 2 ^ 32| / 2 ^ 32 := by
        rw [← abs_of_pos size, ← abs_div, abs_of_pos size, sub_div,
          mul_div_cancel_right₀ _ (ne_of_gt size)]
    _ < 4 / 2 ^ 32 := div_lt_div_of_pos_right near size
    _ = 1 / 2 ^ 30 := by norm_num

/-- A record that asks for every tenth packet. -/
def tenth : RbfgradParms ℚ := { Deployment.start.qdisc.parms with p_k := 1 / 10 }

theorem marking_rate_tenth :
    |((markedDraws tenth).ncard : ℚ) - 1 / 10 * 2 ^ 32| < 4 ∧
      |((markedDraws tenth).ncard : ℚ) / 2 ^ 32 - 1 / 10| < 1 / 2 ^ 30 := by
  have low : 0 ≤ tenth.p_k := by decide +kernel
  have high : tenth.p_k ≤ 1 := by decide +kernel
  exact marking_rate low high

end Rate

end GapsoRbfPid.MarkingRate
