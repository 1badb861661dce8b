import GapsoRbfPid.Deployment
import GapsoRbfPid.Swarm
import Mathlib.Data.BitVec
import Mathlib.Tactic.Linarith
import Mathlib.Tactic.Positivity

/-! What the swarm has on record at the end of a learning pass: the best of all the positions
that were evaluated, and the outputs of the positions that were evaluated last. -/

namespace GapsoRbfPid.SwarmRecord
open GapsoRbfPid Library

variable {K : Type} [Field K]

section Definitions
variable (exp : K → K) (p : RbfgradParms K)

/-- The network output for a weight vector, on the input vector of the call. -/
def output (w : Vector K UNIT_NUM) : K := ∑ i : Fin UNIT_NUM, w[i] * hidden exp (snapshot p) i

def error (w : Vector K UNIT_NUM) : K :=
  ((p.queue_len[(0 : Fin SAM_NUM)].toInt : K) / 6500 - output exp p w) ^ 2 / 2

theorem error_newest (w : Vector K UNIT_NUM) :
    error exp p w = ((p.queue_len[0].toInt : K) / 6500 - output exp p w) ^ 2 / 2 := rfl

variable [LinearOrder K] (random32 : ℕ → BitVec 32)

/-- The swarm and the local variable `index` at the start of an epoch. -/
def beforeEpoch (epoch : ℕ) : RbfgradParms K × Fin PARTICLE_NUM :=
  Transition.turns (epochStep exp random32) (initSwarm exp (snapshot p)) epoch

/-- A position that some particle held at the start of the call or of one of the epochs. -/
def Held (x : Vector K UNIT_NUM) : Prop :=
  ∃ j : Fin PARTICLE_NUM, x = p.pos[j] ∨
    ∃ epoch < MAX_EPOCH, x = (beforeEpoch exp p random32 epoch).1.pos[j]

end Definitions

/-- What the learning pass leaves to the rest of the call. -/
def published (p : RbfgradParms K) := (p.toSwarm, p.w_k, p.NetOut)

theorem output_eq (exp : K → K) (p : RbfgradParms K) (w : Vector K UNIT_NUM) :
    netOut exp (snapshot p) w = output exp p w :=
  netOut_eq_sum exp (snapshot p) w

theorem error_eq (exp : K → K) (p : RbfgradParms K) (w : Vector K UNIT_NUM) :
    errorAt exp (snapshot p) w = error exp p w := by
  rw [errorAt, squaredError, output_eq, error, sq]
  rfl

section Invariant
variable [LinearOrder K] {exp : K → K} {p : RbfgradParms K}

/-- The network is the one of the head of the call, the values on record are the errors of the
positions on record, and the best of them is chosen. -/
structure Recorded (exp : K → K) (p : RbfgradParms K) (state : RbfgradParms K × Fin PARTICLE_NUM) :
    Prop where
  network : netOut exp state.1 = netOut exp p
  target : liveTarget state.1 = liveTarget p
  scored : ∀ j : Fin PARTICLE_NUM, state.1.pbestval[j] = errorAt exp p state.1.pbest[j]
  best : state.1.gbest = state.1.pbest[state.2]
  value : state.1.gbestval = state.1.pbestval[state.2]
  least : ∀ j : Fin PARTICLE_NUM, state.1.gbestval ≤ state.1.pbestval[j]

theorem Recorded.error {state : RbfgradParms K × Fin PARTICLE_NUM} (recorded : Recorded exp p state) :
    errorAt exp state.1 = errorAt exp p := by
  funext w
  rw [errorAt, squaredError, recorded.network, recorded.target]
  rfl

/-- The choice of the best position establishes what it is for. -/
theorem adopt_recorded {state : RbfgradParms K} {least : K × Fin PARTICLE_NUM}
    (network : netOut exp state = netOut exp p) (target : liveTarget state = liveTarget p)
    (scored : ∀ j : Fin PARTICLE_NUM, state.pbestval[j] = errorAt exp p state.pbest[j])
    (chosen : least = leastIndex state.pbestval) : Recorded exp p (adopt state least) := by
  refine ⟨(netOut_adopt exp state least).trans network, target, scored, rfl, ?_, ?_⟩
  · change least.1 = state.pbestval[least.2]
    rw [chosen]
    exact leastIndex_fst state.pbestval
  · intro j
    change least.1 ≤ state.pbestval[j]
    rw [chosen]
    exact Argmin.scan_le state.pbestval 0 j

theorem move_record (random32 : ℕ → BitVec 32) (epoch : ℕ) (p : RbfgradParms K) :
    (move random32 epoch p).pbest = p.pbest ∧ (move random32 epoch p).pbestval = p.pbestval ∧
      (move random32 epoch p).gbest = p.gbest ∧ (move random32 epoch p).gbestval = p.gbestval ∧
      liveTarget (move random32 epoch p) = liveTarget p ∧
      (move random32 epoch p).NetOut = p.NetOut := by
  simp only [move, liveTarget, and_self]

/-- The particles move without touching what is on record. -/
theorem Recorded.move {state : RbfgradParms K × Fin PARTICLE_NUM} (recorded : Recorded exp p state)
    (random32 : ℕ → BitVec 32) (epoch : ℕ) :
    Recorded exp p (move random32 epoch state.1, state.2) := by
  obtain ⟨pbest, pbestval, gbest, gbestval, target, -⟩ := move_record random32 epoch state.1
  have network := netOut_move exp random32 epoch state.1
  generalize GapsoRbfPid.move random32 epoch state.1 = moved at *
  apply Recorded.mk
  · exact network.trans recorded.network
  · exact target.trans recorded.target
  · intro j
    simp only [pbestval, pbest]
    exact recorded.scored j
  · simp only [gbest, pbest]
    exact recorded.best
  · simp only [gbestval, pbestval]
    exact recorded.value
  · intro j
    simp only [gbestval, pbestval]
    exact recorded.least j

/-- The swarm at the start of the first loop. -/
def restarted (p : RbfgradParms K) : RbfgradParms K := withRecord p.NetOut p.pbestval p.pos p

theorem initSwarm_eq (exp : K → K) (p : RbfgradParms K) :
    initSwarm exp p = adopt (evaluated exp (restarted p))
      (leastIndex (evaluated exp (restarted p)).pbestval) := by
  rw [initSwarm, sweep_initEval, selectBest_eq]
  rfl

theorem initSwarm_recorded (exp : K → K) (p : RbfgradParms K) : Recorded exp p (initSwarm exp p) := by
  have network : netOut exp (restarted p) = netOut exp p := netOut_withRecord exp _ _ _ p
  rw [initSwarm_eq]
  apply adopt_recorded ((netOut_withScores exp _ _ _).trans network) rfl _ rfl
  intro j
  simp only [withScores, squaredError, network, errorAt, Vectors.getElem_fin, Vector.getElem_ofFn]
  rfl

/-- The first loop moves no particle: each starts from its own position as the best one. -/
theorem initSwarm_start (exp : K → K) (p : RbfgradParms K) :
    (initSwarm exp p).1.pos = p.pos ∧ (initSwarm exp p).1.vel = p.vel ∧
      (initSwarm exp p).1.pbest = p.pos := by
  rw [initSwarm_eq]
  generalize leastIndex (evaluated exp (restarted p)).pbestval = least
  exact ⟨rfl, rfl, rfl⟩

theorem compared_pbestval (exp : K → K) (p : RbfgradParms K) (j : Fin PARTICLE_NUM) :
    (compared exp p).pbestval[j] = betterError exp p j := by
  simp only [compared, withRecord, Vectors.getElem_fin, Vector.getElem_ofFn]

theorem compared_pbest (exp : K → K) (p : RbfgradParms K) (j : Fin PARTICLE_NUM) :
    (compared exp p).pbest[j] = betterPosition exp p j := by
  simp only [compared, withRecord, Vectors.getElem_fin, Vector.getElem_ofFn]

/-- The better of two errors is at most each of them. -/
theorem betterError_le (exp : K → K) (p : RbfgradParms K) (j : Fin PARTICLE_NUM) :
    betterError exp p j ≤ p.pbestval[j] ∧ betterError exp p j ≤ errorAt exp p p.pos[j] := by
  unfold betterError
  split_ifs with better
  · exact ⟨le_of_lt better, le_refl _⟩
  · exact ⟨le_refl _, not_lt.mp better⟩

omit [LinearOrder K] in
theorem liveTarget_withRecord (outputs errors : Vector K PARTICLE_NUM)
    (bests : Vector (Vector K UNIT_NUM) PARTICLE_NUM) (p : RbfgradParms K) :
    liveTarget (withRecord outputs errors bests p) = liveTarget p := rfl

/-- After the comparisons of an epoch the values on record belong to the positions on record. -/
theorem compared_scored {state : RbfgradParms K × Fin PARTICLE_NUM}
    (recorded : Recorded exp p state) (j : Fin PARTICLE_NUM) :
    (compared exp state.1).pbestval[j] = errorAt exp p (compared exp state.1).pbest[j] := by
  rw [compared_pbestval, compared_pbest, betterError, betterPosition]
  by_cases better : Improves exp state.1 j
  · rw [if_pos better, if_pos better]
    exact congrFun recorded.error _
  · rw [if_neg better, if_neg better]
    exact recorded.scored j

/-- What is left by an epoch comes from the comparisons, and nothing of it from the moves. -/
theorem epochStep_record (exp : K → K) (random32 : ℕ → BitVec 32)
    (state : RbfgradParms K × Fin PARTICLE_NUM) (epoch : Fin MAX_EPOCH) :
    (epochStep exp random32 state epoch).1.pbest = (compared exp state.1).pbest ∧
      (epochStep exp random32 state epoch).1.pbestval = (compared exp state.1).pbestval ∧
      (epochStep exp random32 state epoch).1.NetOut = (compared exp state.1).NetOut ∧
      (epochStep exp random32 state epoch).2 = (leastIndex (compared exp state.1).pbestval).2 := by
  rw [epochStep_eq, selected]
  generalize leastIndex (compared exp state.1).pbestval = least
  obtain ⟨pbest, pbestval, -, -, -, outputs⟩ :=
    move_record random32 epoch (adopt (compared exp state.1) least).1
  exact ⟨pbest, pbestval, outputs, rfl⟩

theorem epochStep_recorded (random32 : ℕ → BitVec 32) (epoch : Fin MAX_EPOCH)
    {state : RbfgradParms K × Fin PARTICLE_NUM} (recorded : Recorded exp p state) :
    Recorded exp p (epochStep exp random32 state epoch) := by
  have network : netOut exp (compared exp state.1) = netOut exp p :=
    (netOut_withRecord exp _ _ _ state.1).trans recorded.network
  have target : liveTarget (compared exp state.1) = liveTarget p :=
    (liveTarget_withRecord _ _ _ state.1).trans recorded.target
  have chosen : Recorded exp p (selected exp state.1) :=
    adopt_recorded network target (compared_scored recorded) rfl
  rw [epochStep_eq]
  exact chosen.move random32 epoch

/-- An epoch raises no value on record and also covers where the particles stood. -/
theorem epochStep_lowers (random32 : ℕ → BitVec 32) (epoch : Fin MAX_EPOCH)
    {state : RbfgradParms K × Fin PARTICLE_NUM} (recorded : Recorded exp p state)
    (j : Fin PARTICLE_NUM) :
    (epochStep exp random32 state epoch).1.pbestval[j] ≤ state.1.pbestval[j] ∧
      (epochStep exp random32 state epoch).1.pbestval[j] ≤ errorAt exp p state.1.pos[j] := by
  rw [(epochStep_record exp random32 state epoch).2.1, compared_pbestval, ← recorded.error]
  exact betterError_le exp state.1 j

variable (exp p) (random32 : ℕ → BitVec 32)

theorem beforeEpoch_succ {epoch : ℕ} (inside : epoch < MAX_EPOCH) :
    beforeEpoch exp p random32 (epoch + 1) =
      epochStep exp random32 (beforeEpoch exp p random32 epoch) ⟨epoch, inside⟩ :=
  Transition.turns_succ (epochStep exp random32) _ ⟨epoch, inside⟩

/-- By induction on the epochs: the record covers all the positions held so far. -/
theorem beforeEpoch_recorded {epoch : ℕ} (inside : epoch ≤ MAX_EPOCH) :
    Recorded exp (snapshot p) (beforeEpoch exp p random32 epoch) ∧
      ∀ earlier < epoch, ∀ j : Fin PARTICLE_NUM,
        (beforeEpoch exp p random32 epoch).1.pbestval[j] ≤
          errorAt exp (snapshot p) (beforeEpoch exp p random32 earlier).1.pos[j] := by
  induction epoch with
  | zero =>
    refine ⟨initSwarm_recorded exp (snapshot p), ?_⟩
    intro earlier before
    exact absurd before (Nat.not_lt_zero earlier)
  | succ epoch ih =>
    obtain ⟨recorded, covered⟩ := ih (Nat.le_of_succ_le inside)
    rw [beforeEpoch_succ exp p random32 inside]
    refine ⟨epochStep_recorded random32 ⟨epoch, inside⟩ recorded, ?_⟩
    intro earlier before j
    obtain ⟨kept, lowered⟩ := epochStep_lowers random32 ⟨epoch, inside⟩ recorded j
    rcases Nat.lt_succ_iff_lt_or_eq.mp before with old | rfl
    · exact le_trans kept (covered earlier old j)
    · exact lowered

theorem learn_eq : learn exp random32 (snapshot p) =
    { (beforeEpoch exp p random32 MAX_EPOCH).1 with
      w_k := (beforeEpoch exp p random32 MAX_EPOCH).1.gbest
      gbest_index := (beforeEpoch exp p random32 MAX_EPOCH).2 } := by
  rw [beforeEpoch, Transition.turns_all]
  rfl

theorem markProbability_published :
    published (rbfgradMarkProbability exp random32 p) =
      published (learn exp random32 (snapshot p)) := by
  by_cases fit : (learn exp random32 (snapshot p)).gbestval < (learn exp random32 (snapshot p)).E0
  · rw [rbfgradMarkProbability, tune_of_fit fit]
    generalize learn exp random32 (snapshot p) = learned
    rfl
  · rw [rbfgradMarkProbability, tune_of_misfit fit]
    generalize learn exp random32 (snapshot p) = learned
    rfl

/-- The call publishes the swarm of the last epoch. -/
theorem markProbability_swarm :
    let after := rbfgradMarkProbability exp random32 p
    let last := beforeEpoch exp p random32 MAX_EPOCH
    after.toSwarm = { last.1.toSwarm with gbest_index := last.2 } ∧
      after.w_k = last.1.gbest ∧ after.NetOut = last.1.NetOut := by
  intro after last
  have written := markProbability_published exp p random32
  rw [learn_eq] at written
  exact ⟨congrArg Prod.fst written, congrArg (fun parts => parts.2.1) written,
    congrArg (fun parts => parts.2.2) written⟩

theorem markProbability_record :
    let after := rbfgradMarkProbability exp random32 p
    let last := beforeEpoch exp p random32 MAX_EPOCH
    after.w_k = last.1.gbest ∧ after.gbest = last.1.gbest ∧ after.gbestval = last.1.gbestval ∧
      after.pbest = last.1.pbest ∧ after.pbestval = last.1.pbestval ∧
      after.gbest_index = last.2 ∧ after.NetOut = last.1.NetOut := by
  obtain ⟨swarm, weights, outputs⟩ := markProbability_swarm exp p random32
  dsimp only
  generalize beforeEpoch exp p random32 MAX_EPOCH = last at *
  generalize rbfgradMarkProbability exp random32 p = after at *
  refine ⟨weights, ?_, ?_, ?_, ?_, ?_, outputs⟩ <;> rw [swarm]

end Invariant

section Optimality
variable [LinearOrder K] (exp : K → K) (p : RbfgradParms K) (random32 : ℕ → BitVec 32)

/-- The value of the best particle covers every position that was held. -/
theorem gbestval_le_held {x : Vector K UNIT_NUM} (held : Held exp p random32 x) :
    (beforeEpoch exp p random32 MAX_EPOCH).1.gbestval ≤ error exp p x := by
  obtain ⟨recorded, covered⟩ := beforeEpoch_recorded exp p random32 (le_refl MAX_EPOCH)
  have atEpoch : ∀ epoch < MAX_EPOCH, ∀ j : Fin PARTICLE_NUM,
      (beforeEpoch exp p random32 MAX_EPOCH).1.gbestval ≤
        error exp p (beforeEpoch exp p random32 epoch).1.pos[j] := by
    intro epoch inside j
    rw [← error_eq]
    exact le_trans (recorded.least j) (covered epoch inside j)
  obtain ⟨j, atStart | ⟨epoch, inside, there⟩⟩ := held
  · -- the particles have not moved yet when the first epoch begins
    have stands : (beforeEpoch exp p random32 0).1.pos = p.pos :=
      (initSwarm_start exp (snapshot p)).1
    rw [atStart, ← stands]
    exact atEpoch 0 (by decide) j
  · rw [there]
    exact atEpoch epoch inside j

theorem published_value : (rbfgradMarkProbability exp random32 p).gbestval =
    error exp p (rbfgradMarkProbability exp random32 p).w_k := by
  obtain ⟨weights, -, value, -⟩ := markProbability_record exp p random32
  obtain ⟨recorded, -⟩ := beforeEpoch_recorded exp p random32 (le_refl MAX_EPOCH)
  obtain ⟨-, -, scored, best, stored, -⟩ := recorded
  simp only [error_eq] at scored
  simp only [weights, value]
  generalize beforeEpoch exp p random32 MAX_EPOCH = last at *
  calc
    last.1.gbestval = last.1.pbestval[last.2] := stored
    _ = error exp p last.1.pbest[last.2] := scored last.2
    _ = error exp p last.1.gbest := by rw [best]

/-- At the end of a call the published weights are the best of all positions that any particle
held, and every value on record is the error of the position beside it. -/
theorem pass_optimal (exp : K → K) (p : RbfgradParms K) (random32 : ℕ → BitVec 32) :
    let after := rbfgradMarkProbability exp random32 p
    after.w_k = after.gbest ∧ after.gbest = after.pbest[after.gbest_index] ∧
      after.gbestval = error exp p after.gbest ∧
      (∀ j : Fin PARTICLE_NUM, after.gbestval ≤ after.pbestval[j]) ∧
      (∃ j : Fin PARTICLE_NUM, after.gbestval = after.pbestval[j]) ∧
      (∀ j : Fin PARTICLE_NUM, after.pbestval[j] = error exp p after.pbest[j]) ∧
      ∀ x, Held exp p random32 x → after.gbestval ≤ error exp p x := by
  intro after
  obtain ⟨weights, best_position, best_value, positions, values, index, -⟩ :=
    markProbability_record exp p random32
  obtain ⟨recorded, -⟩ := beforeEpoch_recorded exp p random32 (le_refl MAX_EPOCH)
  have covered : ∀ x, Held exp p random32 x →
      (beforeEpoch exp p random32 MAX_EPOCH).1.gbestval ≤ error exp p x :=
    fun x held => gbestval_le_held exp p random32 held
  have best_error := published_value exp p random32
  obtain ⟨-, -, scored, best, value, least⟩ := recorded
  simp only [error_eq] at scored
  simp only [weights, best_value] at best_error
  simp only [after, weights, best_position, best_value, positions, values, index]
  generalize beforeEpoch exp p random32 MAX_EPOCH = last at *
  exact ⟨trivial, best, best_error, least, ⟨last.2, value⟩, scored, covered⟩

end Optimality

section Output
variable [LinearOrder K] (exp : K → K) (p : RbfgradParms K) (random32 : ℕ → BitVec 32)

/-- The particle whose better position is the best one when the last epoch compares them. -/
def winner (last : RbfgradParms K) : Fin PARTICLE_NUM :=
  (leastIndex (Vector.ofFn (betterError exp last))).2

/-- The swarm at the start of the last epoch. -/
def last : RbfgradParms K := (beforeEpoch exp p random32 (MAX_EPOCH - 1)).1

end Output

section Drift

/-- Draws that leave the weights at zero, the first particle with the largest velocity and the
other particles at the upper bound. -/
def level (call : ℕ) : BitVec 32 := if call < 2 * UNIT_NUM then 2 ^ 30 else 2 ^ 31

def settled : RbfgradParms ℚ :=
  (rbfgradInit ByteFifo.kernel Deployment.message none level 0 1
    ⟨Deployment.loaded, .zeroed ByteFifo.kernel⟩).2.qdisc.parms

abbrev lead : Fin PARTICLE_NUM := 0

/-- The first particle remembers the weights it started from and has been moving away. -/
structure Drifting (state : RbfgradParms ℚ × Fin PARTICLE_NUM) : Prop where
  recorded : Recorded Deployment.decay (snapshot settled) state
  params : state.1.toParams = settled.toParams
  home : state.1.pbest[lead] = Vector.replicate UNIT_NUM 0
  ahead : ∀ k : Fin UNIT_NUM, (0 : ℚ) ≤ state.1.pos[lead][k]
  speed : ∀ k : Fin UNIT_NUM, (0 : ℚ) < state.1.vel[lead][k]

theorem settled_output (w : Vector ℚ UNIT_NUM) :
    output Deployment.decay settled w = ∑ i : Fin UNIT_NUM, w[i] := by
  have units : ∀ i, hidden Deployment.decay (snapshot settled) i = 1 := by decide +kernel
  simp only [output, units, mul_one]

theorem settled_error_nonneg (w : Vector ℚ UNIT_NUM) : 0 ≤ error Deployment.decay settled w := by
  unfold error
  positivity

theorem Drifting.value {state : RbfgradParms ℚ × Fin PARTICLE_NUM} (drifting : Drifting state) :
    state.1.pbestval[lead] = 0 := by
  have queue : settled.queue_len[0].toInt = 0 := by decide +kernel
  rw [drifting.recorded.scored, error_eq, drifting.home, error_newest, settled_output, queue]
  simp

/-- The remembered weights have no error, so nothing is better. -/
theorem Drifting.stays {state : RbfgradParms ℚ × Fin PARTICLE_NUM} (drifting : Drifting state) :
    ¬Improves Deployment.decay state.1 lead := by
  rw [Improves, drifting.recorded.error, error_eq, drifting.value]
  exact not_lt.mpr (settled_error_nonneg _)

theorem clampVelocity_pos {mv v : ℚ} (limit : 0 < mv) (speed : 0 < v) :
    0 < clampVelocity mv v := by
  unfold clampVelocity
  dsimp only
  split_ifs <;> linarith

theorem velocity_silent (q : RbfgradParms ℚ) (iwt : ℚ) (epoch : ℕ) (j : Fin PARTICLE_NUM)
    (k : Fin UNIT_NUM) :
    velocity Deployment.silent q iwt epoch j k = clampVelocity q.mv (iwt * q.vel[j][k]) := by
  have still : rannum (0 : BitVec 32) = (0 : ℚ) := by simp [rannum]
  simp only [velocity, Deployment.silent, still, mul_zero, zero_mul, add_zero]

/-- Without attraction the velocity keeps its direction. -/
theorem silent_velocity_pos {q : RbfgradParms ℚ} (params : q.toParams = settled.toParams)
    (epoch : Fin MAX_EPOCH) {j : Fin PARTICLE_NUM} {k : Fin UNIT_NUM} (speed : 0 < q.vel[j][k]) :
    0 < velocity Deployment.silent q (inertia q.iw1 q.iw2 q.iwe epoch) epoch j k := by
  have slows : 0 < settled.mv ∧
      ∀ epoch : Fin MAX_EPOCH, 0 < inertia settled.iw1 settled.iw2 settled.iwe epoch := by
    decide +kernel
  rw [← params] at slows
  rw [velocity_silent]
  exact clampVelocity_pos slows.1 (mul_pos (slows.2 epoch) speed)

theorem Drifting.step {state : RbfgradParms ℚ × Fin PARTICLE_NUM} (drifting : Drifting state)
    (epoch : Fin MAX_EPOCH) :
    Drifting (epochStep Deployment.decay Deployment.silent state epoch) ∧ ∀ k : Fin UNIT_NUM,
      (0 : ℚ) < (epochStep Deployment.decay Deployment.silent state epoch).1.pos[lead][k] := by
  have recorded := epochStep_recorded Deployment.silent epoch drifting.recorded
  have framed := frame_epochStep Deployment.decay Deployment.silent state epoch
  simp only [frame, Prod.mk.injEq] at framed
  have params := framed.1
  have stored := (epochStep_record Deployment.decay Deployment.silent state epoch).1
  have home := compared_pbest Deployment.decay state.1 lead
  rw [betterPosition, if_neg drifting.stays, ← stored] at home
  have kept := motion_selected Deployment.decay state.1
  simp only [motion, Prod.mk.injEq] at kept
  obtain ⟨selectedParams, position, velocities⟩ := kept
  rw [epochStep_eq] at recorded params home ⊢
  generalize selected Deployment.decay state.1 = chosen at *
  have speed : ∀ k : Fin UNIT_NUM,
      (0 : ℚ) < (move Deployment.silent epoch chosen.1).vel[lead][k] := by
    intro k
    have moving : (0 : ℚ) < chosen.1.vel[lead][k] := by
      rw [velocities]
      exact drifting.speed k
    rw [move_vel]
    exact silent_velocity_pos (selectedParams.trans drifting.params) epoch moving
  have ahead : ∀ k : Fin UNIT_NUM,
      (0 : ℚ) < (move Deployment.silent epoch chosen.1).pos[lead][k] := by
    intro k
    have standing : (0 : ℚ) ≤ chosen.1.pos[lead][k] := by
      rw [position]
      exact drifting.ahead k
    rw [move_pos]
    exact add_pos_of_nonneg_of_pos standing (speed k)
  refine ⟨⟨recorded, ?_, ?_, fun k => le_of_lt (ahead k), speed⟩, ahead⟩
  · exact params.trans drifting.params
  · exact home.trans drifting.home

theorem Drifting.winner {state : RbfgradParms ℚ × Fin PARTICLE_NUM} (drifting : Drifting state) :
    winner Deployment.decay state.1 = lead := by
  have zero : betterError Deployment.decay state.1 lead = 0 := by
    rw [betterError, if_neg drifting.stays]
    exact drifting.value
  have nonneg : ∀ j : Fin PARTICLE_NUM, 0 ≤ betterError Deployment.decay state.1 j := by
    intro j
    have scored := compared_scored drifting.recorded j
    rw [compared_pbestval, error_eq] at scored
    exact scored ▸ settled_error_nonneg _
  unfold SwarmRecord.winner
  generalize betterError Deployment.decay state.1 = errors at *
  have least : ∀ j : Fin PARTICLE_NUM, (Vector.ofFn errors)[lead] ≤ (Vector.ofFn errors)[j] := by
    intro j
    simp only [Vectors.getElem_fin, Vector.getElem_ofFn, Fin.eta, zero]
    exact nonneg j
  rw [leastIndex_eq, Argmin.scan_first least]

/-- The best position is still where the first particle started, with an output of zero; the
place it has reached has a positive output. -/
theorem Drifting.outputs {state : RbfgradParms ℚ × Fin PARTICLE_NUM} (drifting : Drifting state)
    (ahead : ∀ k : Fin UNIT_NUM, (0 : ℚ) < state.1.pos[lead][k]) :
    0 < output Deployment.decay settled
        state.1.pos[SwarmRecord.winner Deployment.decay state.1] ∧
      output Deployment.decay settled
        (betterPosition Deployment.decay state.1 (SwarmRecord.winner Deployment.decay state.1)) =
          0 := by
  simp only [drifting.winner]
  constructor
  · rw [settled_output]
    apply Finset.sum_pos
    · intro i _
      exact ahead i
    · exact Finset.univ_nonempty
  · rw [betterPosition, if_neg drifting.stays, drifting.home, settled_output]
    simp

end Drift

end GapsoRbfPid.SwarmRecord
