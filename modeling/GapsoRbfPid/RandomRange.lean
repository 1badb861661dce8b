import GapsoRbfPid.Deployment
import GapsoRbfPid.Effects
import Mathlib.Algebra.Order.Group.Abs

/-! The ranges of the random draws. The macro divides a 32-bit draw by `2 ^ 31`. With `int`
arguments the product wraps, which keeps the quotient below two; with `double` arguments it does
not, and a draw with the top bit set leaves the range. -/

namespace GapsoRbfPid.RandomRange
open GapsoRbfPid Library

variable {K : Type} [Field K] [LinearOrder K]

/-- The draw fits into the 31 bits that the divisor is made for. -/
abbrev Fits (draw : BitVec 32) : Prop := draw.toNat < 2 ^ 31

section Macros
variable [IsStrictOrderedRing K]

omit [LinearOrder K] [IsStrictOrderedRing K] in
theorem divisor : ((RAND_MAX : ℤ) : K) + 1 = 2 ^ 31 := by norm_num

theorem fits_iff (draw : BitVec 32) : Fits draw ↔ (draw.toNat : K) / 2 ^ 31 < 1 := by
  have size : (0 : K) < 2 ^ 31 := by positivity
  rw [div_lt_one size]
  constructor
  · intro fits
    exact_mod_cast fits
  · intro below
    exact_mod_cast below

/-- With `double` arguments the range is left by the draws that do not fit. -/
theorem randMy_range_iff {min max : K} (order : min < max) (draw : BitVec 32) :
    (min ≤ randMy min max draw ∧ randMy min max draw < max) ↔ Fits draw := by
  have width : 0 < max - min := sub_pos.mpr order
  have value : randMy min max draw = (max - min) * ((draw.toNat : K) / 2 ^ 31) + min := by
    rw [randMy, divisor, mul_div_assoc]
  have share : 0 ≤ (draw.toNat : K) / 2 ^ 31 := by positivity
  have above : min ≤ randMy min max draw := by
    rw [value]
    exact le_add_of_nonneg_left (mul_nonneg (le_of_lt width) share)
  have below : randMy min max draw < max ↔ Fits draw := by
    rw [value, ← lt_sub_iff_add_lt, mul_lt_iff_lt_one_right width, ← fits_iff]
  exact ⟨fun inside => below.mp inside.2, fun fits => ⟨above, below.mpr fits⟩⟩

theorem rannum_range_iff (draw : BitVec 32) :
    (0 ≤ rannum (K := K) draw ∧ rannum (K := K) draw < 1) ↔ Fits draw := by
  have value : (rannum draw : K) = (draw.toNat : K) / 2 ^ 31 := by rw [rannum, divisor]
  have nonneg : 0 ≤ (draw.toNat : K) / 2 ^ 31 := by positivity
  rw [value, fits_iff (K := K)]
  exact ⟨fun inside => inside.2, fun below => ⟨nonneg, below⟩⟩

/-- With the `int` arguments of the source the product wraps, and every draw is in range. -/
theorem randMyInt_range (draw : BitVec 32) :
    -1 ≤ (randMyInt (-1) 1 draw : K) ∧ (randMyInt (-1) 1 draw : K) < 1 := by
  have size : (0 : K) < 2 ^ 31 := by positivity
  have value : (randMyInt (-1) 1 draw : K) =
      ((BitVec.ofInt 32 (1 - -1) * draw).toNat : K) / 2 ^ 31 - 1 := by
    rw [randMyInt, divisor]
    norm_num
    ring
  have bound := (BitVec.ofInt 32 (1 - -1) * draw).isLt
  have share : ((BitVec.ofInt 32 (1 - -1) * draw).toNat : K) / 2 ^ 31 < 2 := by
    rw [div_lt_iff₀ size]
    have cast : ((BitVec.ofInt 32 (1 - -1) * draw).toNat : K) < 2 ^ 32 := by exact_mod_cast bound
    calc
      ((BitVec.ofInt 32 (1 - -1) * draw).toNat : K) < 2 ^ 32 := cast
      _ = 2 * 2 ^ 31 := by norm_num
  have nonneg : 0 ≤ ((BitVec.ofInt 32 (1 - -1) * draw).toNat : K) / 2 ^ 31 := by positivity
  rw [value]
  constructor <;> linarith

end Macros

section Uses

/-- The call of `random32` behind a starting position. The first particle has none: it starts
from the weights. -/
def posCall (j k : ℕ) : ℕ := 3 * UNIT_NUM + 2 * ((j - 1) * UNIT_NUM + k)

/-- The call of `random32` behind a starting velocity. -/
def velCall (j k : ℕ) : ℕ := if j = 0 then 2 * UNIT_NUM + k else posCall j k + 1

/-- The first coefficient of the velocity update. -/
def rannum1 (random32 : ℕ → BitVec 32) (epoch j k : ℕ) : K :=
  rannum (random32 (2 * ((epoch * PARTICLE_NUM + j) * UNIT_NUM + k)))

def rannum2 (random32 : ℕ → BitVec 32) (epoch j k : ℕ) : K :=
  rannum (random32 (2 * ((epoch * PARTICLE_NUM + j) * UNIT_NUM + k) + 1))

theorem velocity_eq (random32 : ℕ → BitVec 32) (p : RbfgradParms K) (iwt : K) (epoch : ℕ)
    (j : Fin PARTICLE_NUM) (k : Fin UNIT_NUM) : velocity random32 p iwt epoch j k =
      clampVelocity p.mv (iwt * p.vel[j][k] +
        p.ac1 * rannum1 random32 epoch j k * (p.pbest[j][k] - p.pos[j][k]) +
        p.ac2 * rannum2 random32 epoch j k * (p.gbest[k] - p.pos[j][k])) := rfl

variable (ctl : TcRbfgradQopt K) (stab : Stab) (random32 : ℕ → BitVec 32) (p : RbfgradParms K)

omit [LinearOrder K] in
theorem configured_vel (j : Fin PARTICLE_NUM) (k : Fin UNIT_NUM) :
    (configured ctl stab random32 p).vel[j][k] =
      randMy (-(1 / 100)) (1 / 100) (random32 (velCall j k)) := by
  simp only [configured, rbfgradSetParms, Vectors.getElem_fin, Vector.getElem_ofFn, velCall, posCall]
  by_cases first : j.val = 0
  · rw [if_pos first, if_pos first]
  · rw [if_neg first, if_neg first]

omit [LinearOrder K] in
theorem configured_pos_first (k : Fin UNIT_NUM) :
    (configured ctl stab random32 p).pos[(0 : Fin PARTICLE_NUM)][k] =
      (configured ctl stab random32 p).w_k[k] := by
  have first : (0 : Fin PARTICLE_NUM).val = 0 := rfl
  simp only [configured, rbfgradSetParms, Vectors.getElem_fin, Vector.getElem_ofFn]
  simp only [if_pos first, Vector.getElem_ofFn]

omit [LinearOrder K] in
theorem configured_pos {j : Fin PARTICLE_NUM} (later : j.val ≠ 0) (k : Fin UNIT_NUM) :
    (configured ctl stab random32 p).pos[j][k] = randMy (-1) 1 (random32 (posCall j k)) := by
  simp only [configured, rbfgradSetParms, Vectors.getElem_fin, Vector.getElem_ofFn, posCall]
  simp only [if_neg later, Vector.getElem_ofFn]

omit [LinearOrder K] in
theorem configured_weights (i : Fin UNIT_NUM) :
    (configured ctl stab random32 p).w_k[i] = randMyInt (-1) 1 (random32 (2 * i)) ∧
      (configured ctl stab random32 p).w_k_1[i] = randMyInt (-1) 1 (random32 (2 * i + 1)) := by
  simp only [configured, rbfgradSetParms, Vectors.getElem_fin, Vector.getElem_ofFn, and_self]

end Uses

section Ranges

/-- The ranges that the members of a fresh record are documented to have. -/
structure InRange (p : RbfgradParms K) : Prop where
  w_k : ∀ i : Fin UNIT_NUM, -1 ≤ p.w_k[i] ∧ p.w_k[i] < 1
  w_k_1 : ∀ i : Fin UNIT_NUM, -1 ≤ p.w_k_1[i] ∧ p.w_k_1[i] < 1
  pos : ∀ (j : Fin PARTICLE_NUM) (k : Fin UNIT_NUM), -p.mwav ≤ p.pos[j][k] ∧ p.pos[j][k] < p.mwav
  vel : ∀ (j : Fin PARTICLE_NUM) (k : Fin UNIT_NUM), -p.mv ≤ p.vel[j][k] ∧ p.vel[j][k] < p.mv

/-- The coefficients of all velocity updates of a call are shares of one. -/
def Shares (random32 : ℕ → BitVec 32) : Prop :=
  ∀ (epoch : Fin MAX_EPOCH) (j : Fin PARTICLE_NUM) (k : Fin UNIT_NUM),
    (0 ≤ rannum1 (K := K) random32 epoch j k ∧ rannum1 (K := K) random32 epoch j k < 1) ∧
      (0 ≤ rannum2 (K := K) random32 epoch j k ∧ rannum2 (K := K) random32 epoch j k < 1)

/-- Every call after those for the weights has one use, as a position or as a velocity. -/
theorem call_used {n : ℕ} (low : 12 ≤ n) (high : n < 1086) :
    (∃ (j : Fin PARTICLE_NUM) (k : Fin UNIT_NUM), j.val ≠ 0 ∧ n = posCall j k) ∨
      ∃ (j : Fin PARTICLE_NUM) (k : Fin UNIT_NUM), n = velCall j k := by
  by_cases first : n < 18
  · right
    have column : n - 12 < 6 := by omega
    refine ⟨0, ⟨n - 12, column⟩, ?_⟩
    change n = if 0 = 0 then 12 + (n - 12) else _
    rw [if_pos rfl]
    omega
  · have row : (n - 18) / 12 + 1 < 90 := by omega
    have column : (n - 18) % 12 / 2 < 6 := by omega
    by_cases even : n % 2 = 0
    · left
      refine ⟨⟨_, row⟩, ⟨_, column⟩, Nat.succ_ne_zero _, ?_⟩
      simp only [posCall, UNIT_NUM]
      omega
    · right
      refine ⟨⟨_, row⟩, ⟨_, column⟩, ?_⟩
      simp only [velCall, posCall, UNIT_NUM, Nat.add_eq_zero_iff, one_ne_zero, and_false, if_false]
      omega

theorem velCall_bounds (j : Fin PARTICLE_NUM) (k : Fin UNIT_NUM) :
    12 ≤ velCall j k ∧ velCall j k < 1086 := by
  have row := j.isLt
  have column := k.isLt
  simp only [velCall, posCall, UNIT_NUM, PARTICLE_NUM] at *
  split_ifs <;> omega

theorem posCall_bounds (j : Fin PARTICLE_NUM) (k : Fin UNIT_NUM) :
    12 ≤ posCall j k ∧ posCall j k < 1086 := by
  have row := j.isLt
  have column := k.isLt
  simp only [posCall, UNIT_NUM, PARTICLE_NUM] at *
  omega

variable [IsStrictOrderedRing K] (ctl : TcRbfgradQopt K) (stab : Stab)
  (random32 : ℕ → BitVec 32) (p : RbfgradParms K)

theorem vel_range_iff (j : Fin PARTICLE_NUM) (k : Fin UNIT_NUM) :
    (-(1 / 100) ≤ (configured ctl stab random32 p).vel[j][k] ∧
      (configured ctl stab random32 p).vel[j][k] < 1 / 100) ↔ Fits (random32 (velCall j k)) := by
  have order : (-(1 / 100) : K) < 1 / 100 := by norm_num
  rw [configured_vel]
  exact randMy_range_iff order _

theorem pos_range_iff {j : Fin PARTICLE_NUM} (later : j.val ≠ 0) (k : Fin UNIT_NUM) :
    (-1 ≤ (configured ctl stab random32 p).pos[j][k] ∧
      (configured ctl stab random32 p).pos[j][k] < 1) ↔ Fits (random32 (posCall j k)) := by
  have order : (-1 : K) < 1 := by norm_num
  rw [configured_pos ctl stab random32 p later]
  exact randMy_range_iff order _

theorem weights_in_range (i : Fin UNIT_NUM) :
    (-1 ≤ (configured ctl stab random32 p).w_k[i] ∧
      (configured ctl stab random32 p).w_k[i] < 1) ∧
    -1 ≤ (configured ctl stab random32 p).w_k_1[i] ∧
      (configured ctl stab random32 p).w_k_1[i] < 1 := by
  obtain ⟨now, before⟩ := configured_weights ctl stab random32 p i
  rw [now, before]
  exact ⟨randMyInt_range _, randMyInt_range _⟩

theorem configured_inRange_iff : InRange (configured ctl stab random32 p) ↔
    ∀ n, 12 ≤ n → n < 1086 → Fits (random32 n) := by
  constructor
  · intro range n low high
    rcases call_used low high with ⟨j, k, later, rfl⟩ | ⟨j, k, rfl⟩
    · exact (pos_range_iff ctl stab random32 p later k).mp (range.pos j k)
    · exact (vel_range_iff ctl stab random32 p j k).mp (range.vel j k)
  · intro fits
    apply InRange.mk
    · exact fun i => (weights_in_range ctl stab random32 p i).1
    · exact fun i => (weights_in_range ctl stab random32 p i).2
    · intro j k
      by_cases first : j.val = 0
      · have same : j = 0 := Fin.ext first
        rw [same, configured_pos_first]
        exact (weights_in_range ctl stab random32 p k).1
      · obtain ⟨low, high⟩ := posCall_bounds j k
        exact (pos_range_iff ctl stab random32 p first k).mpr (fits _ low high)
    · intro j k
      obtain ⟨low, high⟩ := velCall_bounds j k
      exact (vel_range_iff ctl stab random32 p j k).mpr (fits _ low high)

theorem shares_iff (updates : ℕ → BitVec 32) :
    Shares (K := K) updates ↔ ∀ n < 10800, Fits (updates n) := by
  constructor
  · intro shares n inside
    have epoch : n / 1080 < 10 := by omega
    have row : n / 12 % 90 < 90 := by omega
    have column : n / 2 % 6 < 6 := by omega
    obtain ⟨first, second⟩ := shares ⟨_, epoch⟩ ⟨_, row⟩ ⟨_, column⟩
    rcases Nat.mod_two_eq_zero_or_one n with even | odd
    · have call : 2 * ((n / 1080 * PARTICLE_NUM + n / 12 % 90) * UNIT_NUM + n / 2 % 6) = n := by
        simp only [PARTICLE_NUM, UNIT_NUM]
        omega
      rw [rannum1, rannum_range_iff, call] at first
      exact first
    · have call : 2 * ((n / 1080 * PARTICLE_NUM + n / 12 % 90) * UNIT_NUM + n / 2 % 6) + 1 = n := by
        simp only [PARTICLE_NUM, UNIT_NUM]
        omega
      rw [rannum2, rannum_range_iff, call] at second
      exact second
  · intro fits epoch j k
    have turn := epoch.isLt
    have row := j.isLt
    have column := k.isLt
    rw [rannum1, rannum2, rannum_range_iff, rannum_range_iff]
    simp only [PARTICLE_NUM, UNIT_NUM, MAX_EPOCH] at *
    exact ⟨fits _ (by omega), fits _ (by omega)⟩

theorem abs_le_of_range {bound x : K} (inside : -bound ≤ x ∧ x < bound) : |x| ≤ bound :=
  abs_le.mpr ⟨inside.1, le_of_lt inside.2⟩

/-- The weights are always in range. Positions, velocities and the coefficients of the velocity
updates are exactly when every draw behind them fits into 31 bits. -/
theorem draws_in_range_iff (ctl : TcRbfgradQopt K) (stab : Stab) (random32 : ℕ → BitVec 32)
    (p : RbfgradParms K) (updates : ℕ → BitVec 32) :
    let set := configured ctl stab random32 p
    (∀ i : Fin UNIT_NUM, (-1 ≤ set.w_k[i] ∧ set.w_k[i] < 1) ∧
      -1 ≤ set.w_k_1[i] ∧ set.w_k_1[i] < 1) ∧
    (((∀ i : Fin UNIT_NUM, |set.w_k[i]| ≤ 1) ∧
        (∀ (j : Fin PARTICLE_NUM) (k : Fin UNIT_NUM),
          |set.pos[j][k]| ≤ set.mwav ∧ |set.vel[j][k]| ≤ set.mv) ∧
        InRange set ∧ Shares (K := K) updates) ↔
      (∀ n, 12 ≤ n → n < 1086 → Fits (random32 n)) ∧ ∀ n < 10800, Fits (updates n)) := by
  intro set
  refine ⟨weights_in_range ctl stab random32 p, ?_⟩
  constructor
  · rintro ⟨-, -, range, shares⟩
    exact ⟨(configured_inRange_iff ctl stab random32 p).mp range, (shares_iff updates).mp shares⟩
  · rintro ⟨fits, updatesFit⟩
    have range : InRange set := (configured_inRange_iff ctl stab random32 p).mpr fits
    exact ⟨fun i => abs_le_of_range (range.w_k i),
      fun j k => ⟨abs_le_of_range (range.pos j k), abs_le_of_range (range.vel j k)⟩,
      range, (shares_iff updates).mpr updatesFit⟩

end Ranges

/-- The largest answer of `random32`. -/
def topDraw : ℕ → BitVec 32 := fun _ => BitVec.allOnes 32

/-- With it a position starts near three times its bound, and so does a velocity. -/
theorem draws_out_of_range :
    let set := configured Deployment.options Deployment.stab topDraw Deployment.start.qdisc.parms
    set.mwav < |set.pos[1][0]| ∧ set.mv < |set.vel[0][0]| ∧ (1 : ℚ) < rannum1 topDraw 0 0 0 := by
  decide +kernel

theorem draws_in_range_deployed :
    let set := configured Deployment.options Deployment.stab Deployment.silent
      Deployment.start.qdisc.parms
    InRange set ∧ Shares (K := ℚ) Deployment.silent := by
  have fits : ∀ n, Fits (Deployment.silent n) := by
    intro n
    change (0 : BitVec 32).toNat < 2 ^ 31
    decide
  have range := (draws_in_range_iff Deployment.options Deployment.stab Deployment.silent
    Deployment.start.qdisc.parms Deployment.silent).2.mpr ⟨fun n _ _ => fits n, fun n _ => fits n⟩
  exact range.2.2

end GapsoRbfPid.RandomRange
