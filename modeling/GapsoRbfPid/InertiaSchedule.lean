import GapsoRbfPid.Learning
import Mathlib.Tactic.FieldSimp
import Mathlib.Tactic.Positivity

/-! The inertia weights of the swarm: a line from `iw1` that is to reach `iw2`, then `iw2`.
The slope is taken over `iwe - 1` and the line is left at `iwe`, so an epoch between the two
runs past the end of the line. -/

namespace GapsoRbfPid.InertiaSchedule
open GapsoRbfPid Library

/-- What the weights of a run of epochs are for. -/
structure Schedule {K : Type} [LE K] [NatCast K] (iwt : ℕ → K) (iw1 iw2 iwe : K)
    (epochs : ℕ) : Prop where
  starts : iwt 0 = iw1
  falls : ∀ epoch, epoch + 1 < epochs → iwt (epoch + 1) ≤ iwt epoch
  above : ∀ epoch, epoch < epochs → iw2 ≤ iwt epoch
  flat : ∀ epoch, epoch < epochs → iwe ≤ epoch → iwt epoch = iw2

variable {K : Type} [Field K]

/-- `iwe` as `rbfgrad_set_parms` computes it, for any number of epochs. -/
def iweOf (epochs : ℕ) : K := (epochs : K) * 3 / 4

theorem iwe_configured (p : RbfgradParms K) (sampl_period q_ref : Int32)
    (p_init p_min p_max kp_k ki_k kd_k eta_p eta_i eta_d : K) (n m : Int32) (alpha eta : K)
    (Scell_log : BitVec 8) (stab : Stab) (random32 : ℕ → BitVec 32) :
    (rbfgradSetParms p sampl_period q_ref p_init p_min p_max kp_k ki_k kd_k eta_p eta_i eta_d n m
      alpha eta Scell_log stab random32).iwe = iweOf MAX_EPOCH := rfl

variable [LinearOrder K]

def iwt (iw1 iw2 : K) (epochs epoch : ℕ) : K := inertia iw1 iw2 (iweOf epochs) epoch

/-- Every epoch of a call takes its velocities with the weight of the schedule. -/
theorem epochStep_vel (exp : K → K) (random32 : ℕ → BitVec 32)
    (state : RbfgradParms K × Fin PARTICLE_NUM) (epoch : Fin MAX_EPOCH)
    (configured : state.1.iwe = iweOf MAX_EPOCH) :
    (epochStep exp random32 state epoch).1.vel =
      Vector.ofFn fun j => Vector.ofFn fun k =>
        velocity random32 (selectBest (Transition.sweep (evalParticle exp) state.1)).1
          (iwt state.1.iw1 state.1.iw2 MAX_EPOCH epoch) epoch j k := by
  have kept : (selectBest (Transition.sweep (evalParticle exp) state.1)).1.toParams =
      state.1.toParams :=
    congrArg Prod.fst ((frame_selectBest _).trans
      (Transition.sweep_preserves frame (frame_evalParticle exp) state.1))
  unfold epochStep
  dsimp only
  generalize (selectBest (Transition.sweep (evalParticle exp) state.1)).1 = q at kept ⊢
  show (move random32 epoch q).vel = _
  simp only [move, iwt, kept, configured]

section Line
variable [IsStrictOrderedRing K] {iw1 iw2 iwe : K} {epoch : ℕ}

omit [IsStrictOrderedRing K] in
theorem inertia_late (late : iwe ≤ epoch) : inertia iw1 iw2 iwe epoch = iw2 :=
  if_neg (not_lt.mpr late)

/-- The line meets `iw2` at `iwe - 1`. -/
theorem inertia_early (steep : 1 < iwe) (early : (epoch : K) < iwe) :
    inertia iw1 iw2 iwe epoch = iw2 + (iw1 - iw2) * (iwe - 1 - epoch) / (iwe - 1) := by
  have run : iwe - 1 ≠ 0 := (sub_pos.mpr steep).ne'
  unfold inertia
  rw [if_pos early]
  field_simp
  ring

theorem inertia_ge (steep : 1 < iwe) (order : iw2 ≤ iw1) (inside : (epoch : K) ≤ iwe - 1) :
    iw2 ≤ inertia iw1 iw2 iwe epoch := by
  have run : 0 < iwe - 1 := sub_pos.mpr steep
  have early : (epoch : K) < iwe := by linarith
  have drop : 0 ≤ iw1 - iw2 := sub_nonneg.mpr order
  have left : 0 ≤ iwe - 1 - epoch := sub_nonneg.mpr inside
  rw [inertia_early steep early]
  exact le_add_of_nonneg_right (div_nonneg (mul_nonneg drop left) run.le)

theorem inertia_lt (steep : 1 < iwe) (drop : iw2 < iw1) (beyond : iwe - 1 < epoch)
    (early : (epoch : K) < iwe) : inertia iw1 iw2 iwe epoch < iw2 := by
  have run : 0 < iwe - 1 := sub_pos.mpr steep
  have left : iwe - 1 - epoch < 0 := sub_neg.mpr beyond
  rw [inertia_early steep early]
  have below : (iw1 - iw2) * (iwe - 1 - epoch) / (iwe - 1) < 0 :=
    div_neg_of_neg_of_pos (mul_neg_of_pos_of_neg (sub_pos.mpr drop) left) run
  linarith

/-- One epoch to the next, unless the line is left below `iw2`. -/
theorem inertia_falls (steep : 1 < iwe) (order : iw2 ≤ iw1)
    (ended : (epoch : K) < iwe → (epoch : K) ≤ iwe - 1) :
    inertia iw1 iw2 iwe (epoch + 1) ≤ inertia iw1 iw2 iwe epoch := by
  have run : 0 < iwe - 1 := sub_pos.mpr steep
  rcases lt_or_ge ((epoch + 1 : ℕ) : K) iwe with next | next
  · have now : (epoch : K) < iwe := (Nat.cast_lt.mpr (Nat.lt_succ_self epoch)).trans next
    have fall : iw2 - iw1 ≤ 0 := sub_nonpos.mpr order
    have slope : (iw2 - iw1) / (iwe - 1) ≤ 0 := div_nonpos_of_nonpos_of_nonneg fall run.le
    unfold inertia
    rw [if_pos next, if_pos now, Nat.cast_succ, mul_add, mul_one]
    linarith
  · rw [inertia_late next]
    rcases lt_or_ge (epoch : K) iwe with now | now
    · exact inertia_ge steep order (ended now)
    · exact (inertia_late now).ge

omit [IsStrictOrderedRing K] in
theorem inertia_level : inertia iw1 iw1 iwe epoch = iw1 := by
  unfold inertia
  split
  · rw [sub_self, zero_div, zero_mul, zero_add]
  · rfl

/-- No epoch lies strictly between `iwe - 1` and `iwe`. -/
def Clear (iwe : K) : Prop := ∀ epoch : ℕ, (epoch : K) < iwe → (epoch : K) ≤ iwe - 1

theorem schedule_of_clear (steep : 1 < iwe) (order : iw2 ≤ iw1) (clear : Clear iwe)
    (epochs : ℕ) : Schedule (inertia iw1 iw2 iwe) iw1 iw2 iwe epochs where
  starts := by
    have first : ((0 : ℕ) : K) < iwe := by
      rw [Nat.cast_zero]
      exact zero_lt_one.trans steep
    unfold inertia
    rw [if_pos first, Nat.cast_zero, mul_zero, zero_add]
  falls epoch _ := inertia_falls steep order (clear epoch)
  above epoch _ := by
    rcases lt_or_ge (epoch : K) iwe with early | late
    · exact inertia_ge steep order (clear epoch early)
    · exact (inertia_late late).ge
  flat epoch _ late := inertia_late late

omit [IsStrictOrderedRing K] in
theorem schedule_level (epochs : ℕ) :
    Schedule (inertia iw1 iw1 iwe) iw1 iw1 iwe epochs where
  starts := inertia_level
  falls _ _ := (inertia_level.trans inertia_level.symm).le
  above _ _ := inertia_level.ge
  flat _ _ _ := inertia_level

/-- Where the line is left within the epochs, the schedule is met exactly if no epoch runs
past the end of the line, or the line is level. -/
theorem schedule_iff_clear (steep : 1 < iwe) (order : iw2 ≤ iw1) {epochs : ℕ}
    (within : ∀ epoch : ℕ, (epoch : K) < iwe → epoch < epochs) :
    Schedule (inertia iw1 iw2 iwe) iw1 iw2 iwe epochs ↔ Clear iwe ∨ iw1 = iw2 := by
  constructor
  · intro schedule
    rcases order.eq_or_lt with level | drop
    · exact .inr level.symm
    · left
      intro epoch early
      by_contra beyond
      have below : inertia iw1 iw2 iwe epoch < iw2 :=
        inertia_lt steep drop (not_le.mp beyond) early
      exact below.not_ge (schedule.above epoch (within epoch early))
  · rintro (clear | rfl)
    · exact schedule_of_clear steep order clear epochs
    · exact schedule_level epochs

end Line

section Epochs
variable [IsStrictOrderedRing K]

theorem before_iweOf {epochs epoch : ℕ} :
    (epoch : K) < iweOf epochs ↔ 4 * epoch < 3 * epochs := by
  have scaled : (epoch : K) < iweOf epochs ↔ ((4 * epoch : ℕ) : K) < ((3 * epochs : ℕ) : K) := by
    unfold iweOf
    rw [lt_div_iff₀ (by norm_num), Nat.cast_mul, Nat.cast_mul, mul_comm, mul_comm (epochs : K)]
    norm_num
  rw [scaled, Nat.cast_lt]

theorem upto_iweOf {epochs epoch : ℕ} :
    (epoch : K) ≤ iweOf epochs - 1 ↔ 4 * (epoch + 1) ≤ 3 * epochs := by
  have scaled : (epoch : K) ≤ iweOf epochs - 1 ↔
      ((4 * (epoch + 1) : ℕ) : K) ≤ ((3 * epochs : ℕ) : K) := by
    unfold iweOf
    rw [le_sub_iff_add_le, le_div_iff₀ (by norm_num), Nat.cast_mul, Nat.cast_mul, Nat.cast_succ,
      mul_comm, mul_comm (epochs : K)]
    norm_num
  rw [scaled, Nat.cast_le]

theorem iweOf_steep {epochs : ℕ} (several : 2 ≤ epochs) : 1 < (iweOf epochs : K) := by
  have first : ((1 : ℕ) : K) < iweOf epochs := before_iweOf.mpr (by omega)
  rwa [Nat.cast_one] at first

theorem clear_iweOf_iff (epochs : ℕ) : Clear (iweOf epochs : K) ↔ 4 ∣ epochs := by
  unfold Clear
  simp only [before_iweOf, upto_iweOf]
  constructor
  · intro clear
    by_contra odd
    have last := clear (3 * epochs / 4) (by omega)
    omega
  · rintro ⟨quarter, rfl⟩ epoch early
    omega

/-- The weights of the call meet the schedule exactly if the number of epochs is a multiple
of four or there is no fall. -/
theorem schedule_iff (iw1 iw2 : K) (epochs : ℕ) (several : 2 ≤ epochs) (order : iw2 ≤ iw1) :
    Schedule (iwt iw1 iw2 epochs) iw1 iw2 (iweOf epochs) epochs ↔ 4 ∣ epochs ∨ iw1 = iw2 := by
  have within : ∀ epoch : ℕ, (epoch : K) < iweOf epochs → epoch < epochs := by
    intro epoch early
    have scaled := before_iweOf.mp early
    omega
  rw [← clear_iweOf_iff (K := K) epochs]
  exact schedule_iff_clear (iweOf_steep several) order within

end Epochs

/-- With the ten epochs of the module the weight falls to `19 / 130` before it is `2 / 10`. -/
theorem schedule_ten :
    ¬ Schedule (iwt (9 / 10 : ℚ) (2 / 10) MAX_EPOCH) (9 / 10) (2 / 10) (iweOf MAX_EPOCH)
      MAX_EPOCH := by
  intro schedule
  have above := schedule.above 7 (by decide)
  have past : iwt (9 / 10 : ℚ) (2 / 10) MAX_EPOCH 7 = 19 / 130 := by decide +kernel
  rw [past] at above
  norm_num at above

theorem schedule_twelve :
    Schedule (iwt (9 / 10 : ℚ) (2 / 10) 12) (9 / 10) (2 / 10) (iweOf 12) 12 :=
  (schedule_iff (9 / 10) (2 / 10) 12 (by decide) (by norm_num)).mpr (.inl (by decide))

end GapsoRbfPid.InertiaSchedule
