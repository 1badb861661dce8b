import Mathlib
import GapsoRbfPid.Library.Rounding

/-! The numbers behind `Float`. Its logical model unpacks both operands, computes on mantissas and
exponents, rounds and packs the result; here every operation is shown to round the exact result
to nearest. -/

namespace GapsoRbfPid.Library.Binary64
open Rounding Float.Model Float.Model.UnpackedFloat

variable {K : Type*} [Field K] [LinearOrder K]

def signed (s : Sign) (x : K) : K :=
  match s with
  | .negative => -x
  | .positive => x

/-- The number an unpacked float stands for, zero where it stands for none. -/
def unpackedValue (K : Type*) [Field K] : UnpackedFloat → K
  | .finite .negative m e _ => -(m * 2 ^ e)
  | .finite .positive m e _ => m * 2 ^ e
  | _ => 0

/-- The mantissa has its 53 bits, or the exponent is the least one. -/
def Canonical : UnpackedFloat → Prop
  | .finite _ m e _ => m < 2 ^ 53 ∧ -1074 ≤ e ∧ (2 ^ 52 ≤ m ∨ e = -1074)
  | .zero _ => True
  | _ => False

theorem abs_signed [IsStrictOrderedRing K] (s : Sign) (x : K) : |signed s x| = |x| := by
  cases s with
  | negative => exact abs_neg x
  | positive => rfl

omit [LinearOrder K] in
theorem unpackedValue_finite (s : Sign) (m : ℕ) (e : ℤ) (pos : 0 < m) :
    unpackedValue K (.finite s m e pos) = signed s ((m : K) * 2 ^ e) := by
  cases s <;> rfl

theorem Rounds.signed {x v : K} (h : Rounds 52 (-1074) x v) (s : Sign) :
    Rounds 52 (-1074) (signed s x) (signed s v) := by
  cases s with
  | negative => exact h.neg
  | positive => exact h

section Rounding
variable [IsStrictOrderedRing K]

/-- The number lies where the mantissa and its two residual bits say. -/
def Locates (em : ExtendedMantissa) (r : K) : Prop :=
  match em.roundBit, em.stickyBit with
  | false, false => r = em.mantissa
  | false, true => em.mantissa < r ∧ r < em.mantissa + 1 / 2
  | true, false => r = em.mantissa + 1 / 2
  | true, true => em.mantissa + 1 / 2 < r ∧ r < em.mantissa + 1

theorem Locates.floor {em : ExtendedMantissa} {r : K} (h : Locates em r) :
    em.mantissa ≤ r ∧ r < em.mantissa + 1 := by
  obtain ⟨m, round, sticky⟩ := em
  cases round <;> cases sticky <;> simp only [Locates] at h <;> constructor <;> linarith

theorem Locates.shiftRightOne {em : ExtendedMantissa} {r : K} (h : Locates em r) :
    Locates em.shiftRightOne (r / 2) := by
  obtain ⟨m, round, sticky⟩ := em
  obtain ⟨half, even | odd⟩ : ∃ half, m = 2 * half ∨ m = 2 * half + 1 := ⟨m / 2, by omega⟩
  · subst even
    have quotient : 2 * half / 2 = half := by omega
    have remainder : 2 * half % 2 = 0 := by omega
    cases round <;> cases sticky <;>
      simp only [Locates, ExtendedMantissa.shiftRightOne, quotient, remainder, Bool.or_false,
        Bool.or_true, bne_self_eq_false] at h ⊢ <;>
      push_cast at h ⊢ <;> first | linarith | (constructor <;> linarith)
  · subst odd
    have quotient : (2 * half + 1) / 2 = half := by omega
    have remainder : (2 * half + 1) % 2 = 1 := by omega
    cases round <;> cases sticky <;>
      simp only [Locates, ExtendedMantissa.shiftRightOne, quotient, remainder, Bool.or_false,
        Bool.or_true] at h ⊢ <;>
      push_cast at h ⊢ <;> first | linarith | (constructor <;> linarith)

theorem Locates.shiftRight {em : ExtendedMantissa} {r : K} (h : Locates em r) (k : ℕ) :
    Locates (em >>> k) (r / 2 ^ k) := by
  change Locates (k.repeat ExtendedMantissa.shiftRightOne em) _
  induction k with
  | zero =>
    rw [pow_zero, div_one]
    exact h
  | succ k ih =>
    have next := ih.shiftRightOne
    rwa [div_div, ← pow_succ] at next

/-- The rounded mantissa is the next integer on one of the two sides, the nearer one. -/
theorem Locates.rounded {em : ExtendedMantissa} {r : K} (h : Locates em r) :
    |(em.roundedMantissa : K) - r| ≤ 1 / 2 := by
  obtain ⟨m, round, sticky⟩ := em
  rw [abs_le]
  cases round <;> cases sticky <;>
    simp only [Locates, ExtendedMantissa.roundedMantissa, ExtendedMantissa.accuracy,
      Accuracy.roundToNearestEven] at h ⊢
  · constructor <;> linarith
  · constructor <;> linarith
  · rcases Nat.mod_two_eq_zero_or_one m with even | odd
    · rw [even]
      push_cast
      constructor <;> linarith
    · rw [odd]
      push_cast
      constructor <;> linarith
  · push_cast
    constructor <;> linarith

theorem rounded_bounds (em : ExtendedMantissa) :
    em.mantissa ≤ em.roundedMantissa ∧ em.roundedMantissa ≤ em.mantissa + 1 := by
  obtain ⟨m, round, sticky⟩ := em
  cases round <;> cases sticky <;>
    simp only [ExtendedMantissa.roundedMantissa, ExtendedMantissa.accuracy,
      Accuracy.roundToNearestEven] <;> omega

theorem targetExponent_eq (m : ℕ) (e : ℤ) :
    Format.binary64.targetExponent (totalExponent m e) = max (m.log2 + e - 52) (-1074) := by
  simp only [Format.targetExponent, totalExponent, Format.mantissaBits, Format.minExponent]
  norm_num
  omega

theorem shift_kept {m : ℕ} {e : ℤ} (small : m < 2 ^ 53) (low : -1074 ≤ e) :
    shiftToTargetExponent Format.binary64 m e .exact = (⟨m, false, false⟩, e) := by
  have bits : m.log2 ≤ 52 := by
    by_cases zero : m = 0
    · simp [zero]
    · have := (Nat.log2_lt zero).mpr small
      omega
  have none : (max ((m.log2 : ℤ) + e - 52) (-1074) - e).toNat = 0 := by omega
  simp only [shiftToTargetExponent, shiftToExponent, targetExponent_eq, none]
  rw [Nat.cast_zero, add_zero]
  rfl

theorem shift_carry {e : ℤ} (low : -1074 ≤ e) :
    shiftToTargetExponent Format.binary64 (2 ^ 53) e .exact = (⟨2 ^ 52, false, false⟩, e + 1) := by
  have one : (max (((2 ^ 53 : ℕ).log2 : ℤ) + e - 52) (-1074) - e).toNat = 1 := by
    rw [Nat.log2_two_pow]
    omega
  simp only [shiftToTargetExponent, shiftToExponent, targetExponent_eq, one]
  rfl

/-- Rounding the mantissa may carry; the value does not see how the carry is put away. -/
theorem carried_value (s : Sign) {n : ℕ} {t : ℤ} (small : n ≤ 2 ^ 53) (low : -1074 ≤ t)
    (full : 2 ^ 52 ≤ n ∨ t = -1074) :
    let shifted := shiftToTargetExponent Format.binary64 n t .exact
    let u : UnpackedFloat := if h : shifted.1.mantissa = 0 then .zero s
      else .finite s shifted.1.mantissa shifted.2 (Nat.pos_of_ne_zero h)
    Canonical u ∧ unpackedValue K u = signed s ((n : K) * 2 ^ t) := by
  by_cases carry : n = 2 ^ 53
  · rw [carry, shift_carry low]
    refine ⟨⟨by norm_num, by omega, .inl le_rfl⟩, ?_⟩
    refine (unpackedValue_finite s _ _ _).trans (congrArg (signed s) ?_)
    rw [two_zpow_succ]
    push_cast
    ring
  · rw [shift_kept (by omega) low]
    by_cases zero : n = 0
    · subst zero
      refine ⟨trivial, ?_⟩
      cases s <;> simp [unpackedValue, signed]
    · dsimp only
      rw [dif_neg zero]
      exact ⟨⟨by omega, low, full⟩, unpackedValue_finite s n t _⟩

theorem ofMantissaAndAccuracy_mantissa (m : ℕ) (accuracy : Accuracy) :
    (ExtendedMantissa.ofMantissaAndAccuracy m accuracy).mantissa = m := by
  cases accuracy with
  | exact => rfl
  | inexact side => cases side <;> rfl

section Place
variable {m : ℕ} {e t : ℤ} {r : K}

/-- The last place leaves room for the leading bit. -/
theorem place_top (place : max ((m.log2 : ℤ) + e - 52) (-1074) = t) (high : r < m + 1) :
    r * 2 ^ e < 2 ^ (53 + t) := by
  have next : (m : K) + 1 ≤ 2 ^ (m.log2 + 1) := by exact_mod_cast Nat.lt_log2_self
  calc r * 2 ^ e < 2 ^ (m.log2 + 1) * 2 ^ e :=
        mul_lt_mul_of_pos_right (high.trans_le next) (two_zpow_pos e)
    _ = 2 ^ ((m.log2 : ℤ) + 1 + e) := by
        rw [zpow_add₀ two_ne_zero, ← zpow_natCast]
        push_cast
        rfl
    _ ≤ 2 ^ (53 + t) := two_zpow_le.mpr (by omega)

/-- Above the least place the leading bit is there. -/
theorem place_bottom (place : max ((m.log2 : ℤ) + e - 52) (-1074) = t) (wide : 2 ^ 52 ≤ m ∨ e ≤ -1074)
    (low : m ≤ r) : t = -1074 ∨ 2 ^ (52 + t) ≤ r * 2 ^ e := by
  by_cases least : t = -1074
  · exact .inl least
  · have nonzero : m ≠ 0 := by
      rintro rfl
      have : Nat.log2 0 = 0 := rfl
      omega
    have leading : (2 : K) ^ m.log2 ≤ m := by exact_mod_cast Nat.log2_self_le nonzero
    right
    calc (2 : K) ^ (52 + t) = 2 ^ m.log2 * 2 ^ e := by
          rw [← zpow_natCast, ← zpow_add₀ two_ne_zero]
          congr 1
          omega
      _ ≤ r * 2 ^ e := mul_le_mul_of_nonneg_right (leading.trans low) (two_zpow_pos e).le

theorem mantissa_narrow (low : m ≤ r) (top : r * 2 ^ t < 2 ^ (53 + t)) : m < 2 ^ 53 := by
  have split : (2 : K) ^ (53 + t) = 2 ^ 53 * 2 ^ t := by
    rw [zpow_add₀ two_ne_zero]
    norm_num
  have bound : (m : K) < 2 ^ 53 := by
    apply lt_of_mul_lt_mul_right _ (two_zpow_pos t).le
    calc (m : K) * 2 ^ t ≤ r * 2 ^ t := mul_le_mul_of_nonneg_right low (two_zpow_pos t).le
      _ < 2 ^ 53 * 2 ^ t := by rw [← split]; exact top
  exact_mod_cast bound

theorem mantissa_full (high : r < m + 1) (bottom : t = -1074 ∨ 2 ^ (52 + t) ≤ r * 2 ^ t) :
    2 ^ 52 ≤ m ∨ t = -1074 := by
  rcases bottom with least | large
  · exact .inr least
  · have split : (2 : K) ^ (52 + t) = 2 ^ 52 * 2 ^ t := by
      rw [zpow_add₀ two_ne_zero]
      norm_num
    have bound : (2 : K) ^ 52 < m + 1 := by
      apply lt_of_mul_lt_mul_right _ (two_zpow_pos t).le
      calc (2 : K) ^ 52 * 2 ^ t ≤ r * 2 ^ t := by rw [← split]; exact large
        _ < (m + 1) * 2 ^ t := mul_lt_mul_of_pos_right high (two_zpow_pos t)
    exact .inl (Nat.lt_succ_iff.mp (by exact_mod_cast bound))

end Place

/-- A mantissa that is wide enough, with what its residual bits say of the exact number, is rounded
to nearest. -/
theorem roundWithAccuracy_spec (s : Sign) {m : ℕ} {e : ℤ} {accuracy : Accuracy} {r : K}
    (located : Locates (.ofMantissaAndAccuracy m accuracy) r) (wide : 2 ^ 52 ≤ m ∨ e ≤ -1074) :
    Canonical (roundWithAccuracy Format.binary64 s m e accuracy) ∧
      Rounds 52 (-1074) (signed s (r * 2 ^ e))
        (unpackedValue K (roundWithAccuracy Format.binary64 s m e accuracy)) := by
  generalize place : max ((m.log2 : ℤ) + e - 52) (-1074) = t
  have log : 2 ^ 52 ≤ m → 52 ≤ m.log2 := fun large => (Nat.le_log2 (by omega)).mpr large
  have fits : e ≤ t := by omega
  obtain ⟨k, shift⟩ := Int.le.dest fits
  have amount : (max ((m.log2 : ℤ) + e - 52) (-1074) - e).toNat = k := by omega
  generalize moved : ExtendedMantissa.ofMantissaAndAccuracy m accuracy >>> k = em
  have first : shiftToTargetExponent Format.binary64 m e accuracy = (em, t) := by
    simp only [shiftToTargetExponent, shiftToExponent, targetExponent_eq, amount, moved, shift]
  have inside : Locates em (r / 2 ^ k) := moved ▸ located.shiftRight k
  have place_pos := two_zpow_pos (K := K) t
  have scale : r / 2 ^ k * 2 ^ t = r * 2 ^ e := by
    have power : (0 : K) < 2 ^ k := pow_pos two_pos k
    rw [← shift, zpow_add₀ two_ne_zero, zpow_natCast]
    field_simp
  obtain ⟨low, high⟩ := located.floor
  rw [ofMantissaAndAccuracy_mantissa] at low high
  have nonneg : 0 ≤ r * 2 ^ e :=
    mul_nonneg ((Nat.cast_nonneg m).trans low) (two_zpow_pos e).le
  have top := place_top place high
  have bottom := place_bottom place wide low
  obtain ⟨below, above⟩ := inside.floor
  have narrow := mantissa_narrow below (scale ▸ top)
  have full := mantissa_full above (scale ▸ bottom)
  obtain ⟨least, most⟩ := rounded_bounds em
  obtain ⟨canonical, result⟩ := carried_value (K := K) s (n := em.roundedMantissa) (t := t)
    (by omega) (by omega) (by omega)
  have same : roundWithAccuracy Format.binary64 s m e accuracy =
      let shifted := shiftToTargetExponent Format.binary64 em.roundedMantissa t .exact
      if h : shifted.1.mantissa = 0 then .zero s
        else .finite s shifted.1.mantissa shifted.2 (Nat.pos_of_ne_zero h) := by
    rw [roundWithAccuracy, first]
  rw [same]
  refine ⟨canonical, ?_⟩
  rw [result]
  apply Rounds.signed
  have near : |(em.roundedMantissa : K) * 2 ^ t - r * 2 ^ e| ≤ 2 ^ t / 2 := by
    rw [← scale, ← sub_mul, abs_mul, abs_of_pos place_pos]
    linarith [mul_le_mul_of_nonneg_right inside.rounded place_pos.le]
  exact ⟨t, by omega, by rw [abs_of_nonneg nonneg]; exact_mod_cast top,
    by rw [abs_of_nonneg nonneg]; exact_mod_cast bottom, ⟨em.roundedMantissa, by push_cast; rfl⟩, near⟩

/-- A canonical float is its own rounding. -/
theorem Canonical.rounds_self {u : UnpackedFloat} (h : Canonical u) :
    Rounds 52 (-1074) (unpackedValue K u) (unpackedValue K u) := by
  match u, h with
  | .zero _, _ =>
      refine ⟨-1074, le_rfl, by simp [unpackedValue], .inl rfl, ⟨0, by simp [unpackedValue]⟩, ?_⟩
      rw [sub_self, abs_zero]
      positivity
  | .finite s m e _, ⟨small, low, full⟩ =>
      rw [unpackedValue_finite]
      apply Rounds.signed
      have pos := two_zpow_pos (K := K) e
      have size : |(m : K) * 2 ^ e| = m * 2 ^ e := abs_of_nonneg (by positivity)
      refine ⟨e, low, ?_, ?_, ⟨m, by push_cast; rfl⟩, by rw [sub_self, abs_zero]; positivity⟩
      · rw [size, zpow_add₀ two_ne_zero]
        apply mul_lt_mul_of_pos_right _ pos
        exact_mod_cast small
      · rw [size, zpow_add₀ two_ne_zero]
        rcases full with full | least
        · right
          apply mul_le_mul_of_nonneg_right _ pos.le
          exact_mod_cast full
        · exact .inl least

omit [IsStrictOrderedRing K] in
theorem locates_exact (m : ℕ) : Locates (.ofMantissaAndAccuracy m .exact) (m : K) := rfl

theorem decreaseExponent_value (m : ℕ) (e target : ℤ) :
    ((decreaseExponent m e target).1 : K) * 2 ^ (decreaseExponent m e target).2 = m * 2 ^ e := by
  simp only [decreaseExponent, Nat.shiftLeft_eq]
  push_cast
  rw [mul_assoc, ← zpow_natCast, ← zpow_add₀ two_ne_zero]
  congr 2
  omega

theorem round_spec (s : Sign) {m : ℕ} (nonzero : m ≠ 0) (e : ℤ) :
    Canonical (UnpackedFloat.round Format.binary64 s m e) ∧
      Rounds 52 (-1074) (signed s ((m : K) * 2 ^ e))
        (unpackedValue K (UnpackedFloat.round Format.binary64 s m e)) := by
  have leading := Nat.log2_self_le nonzero
  have value := decreaseExponent_value (K := K) m e (max ((m.log2 : ℤ) + e - 52) (-1074))
  rw [UnpackedFloat.round, targetExponent_eq]
  generalize moved : decreaseExponent m e (max ((m.log2 : ℤ) + e - 52) (-1074)) = shifted at value
  rw [← value]
  apply roundWithAccuracy_spec s (locates_exact shifted.1)
  rw [← moved]
  simp only [decreaseExponent, Nat.shiftLeft_eq]
  generalize amount : (e - max ((m.log2 : ℤ) + e - 52) (-1074)).toNat = d
  by_cases wide : 52 ≤ m.log2 + d
  · left
    calc 2 ^ 52 ≤ 2 ^ (m.log2 + d) := Nat.pow_le_pow_right two_pos wide
      _ = 2 ^ m.log2 * 2 ^ d := pow_add _ _ _
      _ ≤ m * 2 ^ d := Nat.mul_le_mul_right _ leading
  · right
    omega

theorem normalize_spec (mantissa : ℤ) (e : ℤ) (s : Sign) :
    Canonical (UnpackedFloat.normalize Format.binary64 mantissa e s) ∧
      Rounds 52 (-1074) ((mantissa : K) * 2 ^ e)
        (unpackedValue K (UnpackedFloat.normalize Format.binary64 mantissa e s)) := by
  unfold UnpackedFloat.normalize
  rcases lt_trichotomy mantissa 0 with negative | rfl | positive
  · obtain ⟨m, rfl⟩ : ∃ m : ℕ, mantissa = -m := ⟨mantissa.natAbs, by omega⟩
    rw [Int.compare_eq_lt.mpr negative]
    have rounded := round_spec (K := K) .negative (m := m) (by omega) e
    simpa only [signed, neg_neg, Int.toNat_natCast, Int.cast_neg, Int.cast_natCast, neg_mul]
      using rounded
  · rw [Int.cast_zero, zero_mul]
    exact ⟨trivial, Canonical.rounds_self (u := .zero s) trivial⟩
  · obtain ⟨m, rfl⟩ := Int.eq_ofNat_of_zero_le positive.le
    rw [Int.compare_eq_gt.mpr positive]
    exact_mod_cast round_spec (K := K) .positive (m := m) (by omega) e

omit [LinearOrder K] [IsStrictOrderedRing K] in
theorem signed_apply (s : Sign) (m : ℕ) (x : K) : ((s.apply m : ℤ) : K) * x = signed s (m * x) := by
  cases s <;> simp [Sign.apply, signed]

omit [LinearOrder K] [IsStrictOrderedRing K] in
theorem unpackedValue_neg (u : UnpackedFloat) : unpackedValue K u.neg = -unpackedValue K u := by
  match u with
  | .finite .negative .. => exact (neg_neg _).symm
  | .finite .positive .. => rfl
  | .zero _ => exact neg_zero.symm
  | .infinity _ => exact neg_zero.symm
  | .notANumber => exact neg_zero.symm

theorem Canonical.neg {u : UnpackedFloat} (h : Canonical u) : Canonical u.neg := by
  match u, h with
  | .finite .., h => exact h
  | .zero _, h => exact h

theorem add_spec {a b : UnpackedFloat} (left : Canonical a) (right : Canonical b) :
    Canonical (UnpackedFloat.add Format.binary64 a b) ∧
      Rounds 52 (-1074) (unpackedValue K a + unpackedValue K b)
        (unpackedValue K (UnpackedFloat.add Format.binary64 a b)) := by
  match a, left, b, right with
  | .zero s, _, .zero s', _ =>
      have value : unpackedValue K (.zero s) + unpackedValue K (.zero s') = 0 := add_zero _
      rw [value, UnpackedFloat.add]
      split
      · exact ⟨trivial, Canonical.rounds_self (u := .zero s) trivial⟩
      · exact ⟨trivial, Canonical.rounds_self (u := .zero .positive) trivial⟩
  | .zero s, _, .finite s' m e p, right =>
      have value : unpackedValue K (.zero s) + unpackedValue K (.finite s' m e p) =
        unpackedValue K (.finite s' m e p) := zero_add _
      rw [value]
      exact ⟨right, right.rounds_self⟩
  | .finite s m e p, left, .zero s', _ =>
      have value : unpackedValue K (.finite s m e p) + unpackedValue K (.zero s') =
        unpackedValue K (.finite s m e p) := add_zero _
      rw [value]
      exact ⟨left, left.rounds_self⟩
  | .finite s₁ m₁ e₁ _, _, .finite s₂ m₂ e₂ _, _ =>
      have first := decreaseExponent_value (K := K) m₁ e₁ (min e₁ e₂)
      have second := decreaseExponent_value (K := K) m₂ e₂ (min e₁ e₂)
      have place₁ : (decreaseExponent m₁ e₁ (min e₁ e₂)).2 = min e₁ e₂ := by
        simp only [decreaseExponent]
        omega
      have place₂ : (decreaseExponent m₂ e₂ (min e₁ e₂)).2 = min e₁ e₂ := by
        simp only [decreaseExponent]
        omega
      rw [place₁] at first
      rw [place₂] at second
      rw [unpackedValue_finite, unpackedValue_finite, ← first, ← second, ← signed_apply,
        ← signed_apply, ← add_mul, ← Int.cast_add]
      exact normalize_spec _ _ _

theorem sub_eq_add {a b : UnpackedFloat} (left : Canonical a) (right : Canonical b) :
    UnpackedFloat.sub Format.binary64 a b = UnpackedFloat.add Format.binary64 a b.neg := by
  match a, left, b, right with
  | .zero _, _, .zero _, _ => rfl
  | .zero _, _, .finite .., _ => rfl
  | .finite .., _, .zero _, _ => rfl
  | .finite s₁ m₁ e₁ _, _, .finite s₂ m₂ e₂ _, _ =>
      cases s₂ with
      | negative =>
          simp only [UnpackedFloat.sub, UnpackedFloat.add, UnpackedFloat.neg, Sign.apply, sub_neg_eq_add]
      | positive => rfl

theorem sub_spec {a b : UnpackedFloat} (left : Canonical a) (right : Canonical b) :
    Canonical (UnpackedFloat.sub Format.binary64 a b) ∧
      Rounds 52 (-1074) (unpackedValue K a - unpackedValue K b)
        (unpackedValue K (UnpackedFloat.sub Format.binary64 a b)) := by
  rw [sub_eq_add left right, sub_eq_add_neg, ← unpackedValue_neg]
  exact add_spec left right.neg

omit [LinearOrder K] [IsStrictOrderedRing K] in
theorem signed_mul (s s' : Sign) (x y : K) : signed (s * s') (x * y) = signed s x * signed s' y := by
  cases s with
  | negative =>
    cases s' with
    | negative => exact (neg_mul_neg x y).symm
    | positive => exact (neg_mul x y).symm
  | positive =>
    cases s' with
    | negative => exact (mul_neg x y).symm
    | positive => rfl

omit [LinearOrder K] [IsStrictOrderedRing K] in
theorem signed_div (s s' : Sign) (x y : K) : signed (s / s') (x / y) = signed s x / signed s' y := by
  cases s with
  | negative =>
    cases s' with
    | negative => exact (neg_div_neg_eq x y).symm
    | positive => exact (neg_div y x).symm
  | positive =>
    cases s' with
    | negative => exact (div_neg x).symm
    | positive => rfl

theorem mul_spec {a b : UnpackedFloat} (left : Canonical a) (right : Canonical b) :
    Canonical (UnpackedFloat.mul Format.binary64 a b) ∧
      Rounds 52 (-1074) (unpackedValue K a * unpackedValue K b)
        (unpackedValue K (UnpackedFloat.mul Format.binary64 a b)) := by
  match a, left, b, right with
  | .zero s, _, .zero s', _ =>
      rw [show unpackedValue K (.zero s) * unpackedValue K (.zero s') = 0 from mul_zero _]
      exact ⟨trivial, Canonical.rounds_self (u := .zero (s * s')) trivial⟩
  | .zero s, _, .finite s' m e p, _ =>
      rw [show unpackedValue K (.zero s) * unpackedValue K (.finite s' m e p) = 0 from zero_mul _]
      exact ⟨trivial, Canonical.rounds_self (u := .zero (s * s')) trivial⟩
  | .finite s m e p, _, .zero s', _ =>
      rw [show unpackedValue K (.finite s m e p) * unpackedValue K (.zero s') = 0 from mul_zero _]
      exact ⟨trivial, Canonical.rounds_self (u := .zero (s * s')) trivial⟩
  | .finite s₁ m₁ e₁ pos₁, ⟨_, low₁, full₁⟩, .finite s₂ m₂ e₂ pos₂, ⟨_, low₂, full₂⟩ =>
      have product : signed s₁ ((m₁ : K) * 2 ^ e₁) * signed s₂ ((m₂ : K) * 2 ^ e₂) =
          signed (s₁ * s₂) (((m₁ * m₂ : ℕ) : K) * 2 ^ (e₁ + e₂)) := by
        rw [← signed_mul, zpow_add₀ two_ne_zero]
        push_cast
        congr 1
        ring
      rw [unpackedValue_finite, unpackedValue_finite, product]
      apply roundWithAccuracy_spec _ (locates_exact (m₁ * m₂))
      rcases full₁ with full₁ | rfl
      · exact .inl (full₁.trans (Nat.le_mul_of_pos_right _ pos₂))
      · rcases full₂ with full₂ | rfl
        · exact .inl (full₂.trans (Nat.le_mul_of_pos_left _ pos₁))
        · exact .inr (by norm_num)

/-- Quotient and remainder of the mantissas say where the exact quotient lies. -/
theorem locates_quotient (m : ℕ) {d : ℕ} (pos : 0 < d) :
    Locates (.ofMantissaAndAccuracy (m / d) (accuracyOfFraction (m % d) d)) ((m : K) / d) := by
  have positive : (0 : K) < d := by exact_mod_cast pos
  have parts : (m : K) / d = (m / d : ℕ) + ((m % d : ℕ) : K) / d := by
    rw [div_eq_iff positive.ne', add_mul, div_mul_cancel₀ _ positive.ne']
    exact_mod_cast (Nat.div_add_mod' m d).symm
  have rest : ((m % d : ℕ) : K) / d < 1 := by
    rw [div_lt_one positive]
    exact_mod_cast Nat.mod_lt m pos
  rw [parts, accuracyOfFraction]
  by_cases whole : m % d = 0
  · rw [if_pos whole, whole, Nat.cast_zero, zero_div, add_zero]
    exact locates_exact _
  · have some : (0 : K) < ((m % d : ℕ) : K) / d :=
      div_pos (by exact_mod_cast Nat.pos_of_ne_zero whole) positive
    have half (twice : ℕ) : ((2 * twice : ℕ) : K) / d = 2 * ((twice : K) / d) := by
      push_cast
      ring
    rw [if_neg whole]
    rcases lt_trichotomy (2 * (m % d)) d with less | equal | more
    · have : ((2 * (m % d) : ℕ) : K) / d < 1 := (div_lt_one positive).mpr (by exact_mod_cast less)
      rw [half] at this
      rw [compare_lt_iff_lt.mpr less]
      change ((m / d : ℕ) : K) < _ ∧ _ < ((m / d : ℕ) : K) + 1 / 2
      exact ⟨by linarith, by linarith⟩
    · have : ((2 * (m % d) : ℕ) : K) / d = 1 := by rw [equal, div_self positive.ne']
      rw [half] at this
      rw [compare_eq_iff_eq.mpr equal]
      change _ = ((m / d : ℕ) : K) + 1 / 2
      linarith
    · have : 1 < ((2 * (m % d) : ℕ) : K) / d := (one_lt_div positive).mpr (by exact_mod_cast more)
      rw [half] at this
      rw [compare_gt_iff_gt.mpr more]
      change ((m / d : ℕ) : K) + 1 / 2 < _ ∧ _ < ((m / d : ℕ) : K) + 1
      exact ⟨by linarith, by linarith⟩

theorem div_spec {a b : UnpackedFloat} (left : Canonical a) (right : Canonical b)
    (nonzero : unpackedValue K b ≠ 0) :
    Canonical (UnpackedFloat.div Format.binary64 a b) ∧
      Rounds 52 (-1074) (unpackedValue K a / unpackedValue K b)
        (unpackedValue K (UnpackedFloat.div Format.binary64 a b)) := by
  match a, left, b, right with
  | .zero _, _, .zero _, _ => exact absurd rfl nonzero
  | .finite .., _, .zero _, _ => exact absurd rfl nonzero
  | .zero s, _, .finite s' m e p, _ =>
      rw [show unpackedValue K (.zero s) / unpackedValue K (.finite s' m e p) = 0 from zero_div _]
      exact ⟨trivial, Canonical.rounds_self (u := .zero (s / s')) trivial⟩
  | .finite s₁ m₁ e₁ pos₁, _, .finite s₂ m₂ e₂ pos₂, _ =>
      have target : Format.binary64.targetExponent (totalExponent m₁ e₁ - totalExponent m₂ e₂) =
          max ((m₁.log2 : ℤ) + e₁ - m₂.log2 - e₂ - 53) (-1074) := by
        simp only [Format.targetExponent, totalExponent, Format.mantissaBits, Format.minExponent]
        norm_num
        omega
      rw [UnpackedFloat.div, divCore, target, unpackedValue_finite, unpackedValue_finite, ← signed_div]
      generalize place : min (e₁ - e₂) (max ((m₁.log2 : ℤ) + e₁ - m₂.log2 - e₂ - 53) (-1074)) = t
      obtain ⟨k, shift⟩ := Int.le.dest (show t ≤ e₁ - e₂ by omega)
      have amount : (e₁ - e₂ - t).toNat = k := by omega
      have quotient : (m₁ : K) * 2 ^ e₁ / (m₂ * 2 ^ e₂) = ((m₁ * 2 ^ k : ℕ) : K) / m₂ * 2 ^ t := by
        have e : e₁ = k + t + e₂ := by omega
        have denominator : (m₂ : K) ≠ 0 := by exact_mod_cast pos₂.ne'
        have power := (two_zpow_pos (K := K) e₂).ne'
        rw [e, zpow_add₀ two_ne_zero, zpow_add₀ two_ne_zero, zpow_natCast]
        push_cast
        field_simp
      rw [quotient, amount, Nat.shiftLeft_eq]
      apply roundWithAccuracy_spec _ (locates_quotient (m₁ * 2 ^ k) pos₂)
      by_cases least : t ≤ -1074
      · exact .inr least
      · left
        have wide : m₂.log2 + 1 + 52 ≤ m₁.log2 + k := by omega
        apply (Nat.le_div_iff_mul_le pos₂).mpr
        calc 2 ^ 52 * m₂ ≤ 2 ^ 52 * 2 ^ (m₂.log2 + 1) := Nat.mul_le_mul_left _ Nat.lt_log2_self.le
          _ = 2 ^ (m₂.log2 + 1 + 52) := by rw [← pow_add, add_comm]
          _ ≤ 2 ^ (m₁.log2 + k) := Nat.pow_le_pow_right two_pos wide
          _ = 2 ^ m₁.log2 * 2 ^ k := pow_add _ _ _
          _ ≤ m₁ * 2 ^ k := Nat.mul_le_mul_right _ (Nat.log2_self_le pos₁.ne')

end Rounding

end GapsoRbfPid.Library.Binary64
