import GapsoRbfPid.Learning
import GapsoRbfPid.Library.Argmin
import Mathlib.Algebra.BigOperators.Fin

/-! The loops of the learning pass in closed form. The first one overwrites what the swarm
remembered of an earlier pass; those of an epoch leave every particle its better position. -/

namespace GapsoRbfPid
open Library

variable {K : Type}

section Evaluation
variable [Field K]

/-- The squared error of a weight vector against a target. -/
def squaredError (exp : K → K) (p : RbfgradParms K) (target : K) (w : Vector K UNIT_NUM) : K :=
  (target - netOut exp p w) * (target - netOut exp p w) / 2

/-- The target that `get_rbf_SSE` reads. -/
def liveTarget (p : RbfgradParms K) : K := (p.queue_len[(0 : Fin SAM_NUM)].toInt : K) / 6500

/-- The output is the sum that the loop adds up. -/
theorem netOut_eq_sum (exp : K → K) (p : RbfgradParms K) (w : Vector K UNIT_NUM) :
    netOut exp p w = ∑ i : Fin UNIT_NUM, w[i] * hidden exp p i := by
  rw [Fin.sum_univ_def, List.sum_eq_foldl, List.foldl_map]
  rfl

/-- The network reads its input and its hidden units, and nothing of the swarm. -/
theorem netOut_congr (exp : K → K) {p q : RbfgradParms K} (input : p.SamIn = q.SamIn)
    (centres : p.c_k = q.c_k) (widths : p.delta_k = q.delta_k) : netOut exp p = netOut exp q := by
  have units : hidden exp p = hidden exp q := by
    funext i
    simp only [hidden, distance, input, centres, widths]
  funext w
  simp only [netOut, units]

/-- The evaluations write only these two members. -/
def withScores (outputs errors : Vector K PARTICLE_NUM) (p : RbfgradParms K) : RbfgradParms K :=
  { p with NetOut := outputs, pbestval := errors }

theorem netOut_withScores (exp : K → K) (outputs errors : Vector K PARTICLE_NUM)
    (p : RbfgradParms K) : netOut exp (withScores outputs errors p) = netOut exp p :=
  netOut_congr exp rfl rfl rfl

theorem initEval_withScores (exp : K → K) (outputs errors : Vector K PARTICLE_NUM)
    (p : RbfgradParms K) (i : Fin PARTICLE_NUM) :
    initEval exp (withScores outputs errors p) i =
      withScores (outputs.set i (netOut exp p p.pos[i]) i.isLt)
        (errors.set i (squaredError exp p (liveTarget p) p.pos[i]) i.isLt) p := by
  simp only [initEval, getRbfSSE, netOut_withScores]
  rfl

/-- What the first loop leaves behind. -/
def evaluated (exp : K → K) (p : RbfgradParms K) : RbfgradParms K :=
  withScores (Vector.ofFn fun i => netOut exp p p.pos[i])
    (Vector.ofFn fun i => squaredError exp p (liveTarget p) p.pos[i]) p

theorem sweep_initEval (exp : K → K) (p : RbfgradParms K) :
    Transition.sweep (initEval exp) p = evaluated exp p := by
  let outputs : Fin PARTICLE_NUM → K := fun i => netOut exp p p.pos[i]
  let errors : Fin PARTICLE_NUM → K := fun i => squaredError exp p (liveTarget p) p.pos[i]
  let reached : ℕ → RbfgradParms K → Prop := fun k state =>
    state = withScores (Transition.filled k p.NetOut outputs)
      (Transition.filled k p.pbestval errors) p
  have keeps : ∀ state (i : Fin PARTICLE_NUM), reached i state →
      reached (i + 1) (initEval exp state i) := by
    rintro state i rfl
    change initEval exp (withScores _ _ p) i = withScores _ _ p
    rw [initEval_withScores, ← Transition.filled_set p.NetOut outputs,
      ← Transition.filled_set p.pbestval errors]
  have begins : reached 0 p := by
    change p = withScores _ _ p
    rw [Transition.filled_zero, Transition.filled_zero]
    rfl
  have ends : reached PARTICLE_NUM (Transition.sweep (initEval exp) p) :=
    Transition.sweep_invariant keeps begins
  rw [ends, Transition.filled_all, Transition.filled_all]
  rfl

end Evaluation

/-- The best position taken from a given entry. -/
def adopt (p : RbfgradParms K) (least : K × Fin PARTICLE_NUM) :
    RbfgradParms K × Fin PARTICLE_NUM :=
  ({ p with gbestval := least.1, gbest := p.pbest[least.2] }, least.2)

theorem selectBest_eq [LinearOrder K] (p : RbfgradParms K) :
    selectBest p = adopt p (leastIndex p.pbestval) := rfl

theorem netOut_adopt [Field K] (exp : K → K) (p : RbfgradParms K) (least : K × Fin PARTICLE_NUM) :
    netOut exp (adopt p least).1 = netOut exp p :=
  netOut_congr exp rfl rfl rfl

theorem netOut_move [Field K] [LinearOrder K] (exp : K → K) (random32 : ℕ → BitVec 32) (epoch : ℕ)
    (p : RbfgradParms K) : netOut exp (move random32 epoch p) = netOut exp p := by
  apply netOut_congr <;> simp only [move]

theorem leastIndex_eq [LinearOrder K] (values : Vector K PARTICLE_NUM) :
    leastIndex values = Argmin.scan values 0 := rfl

theorem leastIndex_fst [LinearOrder K] (values : Vector K PARTICLE_NUM) :
    (leastIndex values).1 = values[(leastIndex values).2] := Argmin.scan_attained values 0

section Comparison
variable [Field K] [LinearOrder K] {exp : K → K} {p : RbfgradParms K} {j : Fin PARTICLE_NUM}

theorem evalParticle_of_better (better : p.pbestval[j] > (getRbfSSE exp p j).1) :
    evalParticle exp p j =
      { (getRbfSSE exp p j).2 with
        pbestval := p.pbestval.set j (getRbfSSE exp p j).1 j.isLt
        pbest := p.pbest.set j p.pos[j] j.isLt } :=
  if_pos better

theorem evalParticle_of_not_better (worse : ¬p.pbestval[j] > (getRbfSSE exp p j).1) :
    evalParticle exp p j = (getRbfSSE exp p j).2 :=
  if_neg worse

end Comparison

section Epoch
variable [Field K]

/-- The error that an evaluation finds for a position. -/
def errorAt (exp : K → K) (p : RbfgradParms K) (w : Vector K UNIT_NUM) : K :=
  squaredError exp p (liveTarget p) w

/-- The evaluations of an epoch write only these three members. -/
def withRecord (outputs errors : Vector K PARTICLE_NUM)
    (bests : Vector (Vector K UNIT_NUM) PARTICLE_NUM) (p : RbfgradParms K) : RbfgradParms K :=
  { p with NetOut := outputs, pbestval := errors, pbest := bests }

theorem netOut_withRecord (exp : K → K) (outputs errors : Vector K PARTICLE_NUM)
    (bests : Vector (Vector K UNIT_NUM) PARTICLE_NUM) (p : RbfgradParms K) :
    netOut exp (withRecord outputs errors bests p) = netOut exp p :=
  netOut_congr exp rfl rfl rfl

theorem errorAt_withRecord (exp : K → K) (outputs errors : Vector K PARTICLE_NUM)
    (bests : Vector (Vector K UNIT_NUM) PARTICLE_NUM) (p : RbfgradParms K) :
    errorAt exp (withRecord outputs errors bests p) = errorAt exp p := by
  funext w
  simp only [errorAt, squaredError, netOut_withRecord]
  rfl

variable [LinearOrder K] (exp : K → K) (p : RbfgradParms K)

/-- The particle is at a better position than any it remembers. -/
abbrev Improves (j : Fin PARTICLE_NUM) : Prop := p.pbestval[j] > errorAt exp p p.pos[j]

def betterError (j : Fin PARTICLE_NUM) : K :=
  if Improves exp p j then errorAt exp p p.pos[j] else p.pbestval[j]

def betterPosition (j : Fin PARTICLE_NUM) : Vector K UNIT_NUM :=
  if Improves exp p j then p.pos[j] else p.pbest[j]

/-- What the evaluations of an epoch leave behind. -/
def compared : RbfgradParms K :=
  withRecord (Vector.ofFn fun j => netOut exp p p.pos[j]) (Vector.ofFn (betterError exp p))
    (Vector.ofFn (betterPosition exp p)) p

theorem evalParticle_withRecord {outputs errors : Vector K PARTICLE_NUM}
    {bests : Vector (Vector K UNIT_NUM) PARTICLE_NUM} (j : Fin PARTICLE_NUM)
    (error : errors[j] = p.pbestval[j]) (best : bests[j] = p.pbest[j]) :
    evalParticle exp (withRecord outputs errors bests p) j =
      withRecord (outputs.set j (netOut exp p p.pos[j]) j.isLt)
        (errors.set j (betterError exp p j) j.isLt)
        (bests.set j (betterPosition exp p j) j.isLt) p := by
  have found : (getRbfSSE exp (withRecord outputs errors bests p) j).1 = errorAt exp p p.pos[j] :=
    congrFun (errorAt_withRecord exp outputs errors bests p) p.pos[j]
  have left : (getRbfSSE exp (withRecord outputs errors bests p) j).2 =
      withRecord (outputs.set j (netOut exp p p.pos[j]) j.isLt) errors bests p := by
    simp only [getRbfSSE, netOut_withRecord]
    rfl
  by_cases better : Improves exp p j
  · have smaller : (withRecord outputs errors bests p).pbestval[j] >
        (getRbfSSE exp (withRecord outputs errors bests p) j).1 := by
      rw [found]
      exact error ▸ better
    rw [evalParticle_of_better smaller, found, left, betterError, if_pos better, betterPosition,
      if_pos better]
    rfl
  · have notSmaller : ¬(withRecord outputs errors bests p).pbestval[j] >
        (getRbfSSE exp (withRecord outputs errors bests p) j).1 := by
      rw [found]
      exact error ▸ better
    rw [evalParticle_of_not_better notSmaller, left, betterError, if_neg better, betterPosition,
      if_neg better, ← error, ← best, Transition.set_same, Transition.set_same]

theorem sweep_evalParticle : Transition.sweep (evalParticle exp) p = compared exp p := by
  let outputs : Fin PARTICLE_NUM → K := fun j => netOut exp p p.pos[j]
  let reached : ℕ → RbfgradParms K → Prop := fun k state =>
    state = withRecord (Transition.filled k p.NetOut outputs)
      (Transition.filled k p.pbestval (betterError exp p))
      (Transition.filled k p.pbest (betterPosition exp p)) p
  have keeps : ∀ state (j : Fin PARTICLE_NUM), reached j state →
      reached (j + 1) (evalParticle exp state j) := by
    rintro state j rfl
    change evalParticle exp (withRecord _ _ _ p) j = withRecord _ _ _ p
    rw [evalParticle_withRecord exp p j (Transition.filled_at _ _ j) (Transition.filled_at _ _ j),
      ← Transition.filled_set p.NetOut outputs, ← Transition.filled_set p.pbestval,
      ← Transition.filled_set p.pbest]
  have begins : reached 0 p := by
    change p = withRecord _ _ _ p
    rw [Transition.filled_zero, Transition.filled_zero, Transition.filled_zero]
    rfl
  have ends : reached PARTICLE_NUM (Transition.sweep (evalParticle exp) p) :=
    Transition.sweep_invariant keeps begins
  rw [ends, Transition.filled_all, Transition.filled_all, Transition.filled_all]
  rfl

/-- The swarm of an epoch between the comparisons and the moves. -/
def selected : RbfgradParms K × Fin PARTICLE_NUM :=
  adopt (compared exp p) (leastIndex (compared exp p).pbestval)

/-- What steers the moves, apart from the best positions. -/
def motion (p : RbfgradParms K) := (p.toParams, p.pos, p.vel)

omit [Field K] [LinearOrder K] in
theorem motion_adopt (p : RbfgradParms K) (least : K × Fin PARTICLE_NUM) :
    motion (adopt p least).1 = motion p := rfl

omit [Field K] [LinearOrder K] in
theorem motion_withRecord (outputs errors : Vector K PARTICLE_NUM)
    (bests : Vector (Vector K UNIT_NUM) PARTICLE_NUM) (p : RbfgradParms K) :
    motion (withRecord outputs errors bests p) = motion p := rfl

theorem motion_selected : motion (selected exp p).1 = motion p :=
  (motion_adopt (compared exp p) _).trans (motion_withRecord _ _ _ p)

theorem epochStep_eq (random32 : ℕ → BitVec 32) (state : RbfgradParms K × Fin PARTICLE_NUM)
    (epoch : Fin MAX_EPOCH) : epochStep exp random32 state epoch =
      (move random32 epoch (selected exp state.1).1, (selected exp state.1).2) := by
  rw [epochStep, sweep_evalParticle, selectBest_eq]
  rfl

theorem move_vel (random32 : ℕ → BitVec 32) (epoch : ℕ) (j : Fin PARTICLE_NUM)
    (k : Fin UNIT_NUM) : (move random32 epoch p).vel[j][k] =
      velocity random32 p (inertia p.iw1 p.iw2 p.iwe epoch) epoch j k := by
  simp only [move, Vectors.getElem_fin, Vector.getElem_ofFn]

theorem move_pos (random32 : ℕ → BitVec 32) (epoch : ℕ) (j : Fin PARTICLE_NUM)
    (k : Fin UNIT_NUM) : (move random32 epoch p).pos[j][k] =
      p.pos[j][k] + (move random32 epoch p).vel[j][k] := by
  simp only [move, Vectors.getElem_fin, Vector.getElem_ofFn]

end Epoch

section Tuning
variable [Field K] [LinearOrder K] {exp : K → K} {random32 : ℕ → BitVec 32} {p : RbfgradParms K}

theorem tune_of_fit (fit : (learn exp random32 (snapshot p)).gbestval <
    (learn exp random32 (snapshot p)).E0) :
    tune exp random32 p = updateGains exp (learn exp random32 (snapshot p)) :=
  if_pos fit

theorem tune_of_misfit (misfit : ¬(learn exp random32 (snapshot p)).gbestval <
    (learn exp random32 (snapshot p)).E0) :
    tune exp random32 p = learn exp random32 (snapshot p) :=
  if_neg misfit

end Tuning

end GapsoRbfPid
