import GapsoRbfPid.Parms
import GapsoRbfPid.Library.Transition

/-! The worker of `modules/sch_rbfgrad.c`: the network evaluation `get_rbf_SSE`, the
particle swarm that fits its weights, and the PID update of the marking probability.
One call of `rbfgrad_mark_probability` is cut at the comments of its body. -/

namespace GapsoRbfPid
open Library

variable {K : Type} [Field K]

def distance (p : RbfgradParms K) (i : Fin UNIT_NUM) : K :=
  Transition.sweep (fun sum (j : Fin SAM_NUM) =>
    sum + (p.SamIn[j] - p.c_k[i][j]) * (p.SamIn[j] - p.c_k[i][j])) 0

def hidden (exp : K → K) (p : RbfgradParms K) (i : Fin UNIT_NUM) : K :=
  exp (-distance p i / (2 * p.delta_k[i] * p.delta_k[i]))

def netOut (exp : K → K) (p : RbfgradParms K) (w : Vector K UNIT_NUM) : K :=
  Transition.sweep (fun out (i : Fin UNIT_NUM) => out + w[i] * hidden exp p i) 0

/-- `get_rbf_SSE`: the squared error of one particle's weights. The target is read
from the live `queue_len[0]`, and the network output is left in `NetOut`. -/
def getRbfSSE (exp : K → K) (p : RbfgradParms K) (which : Fin PARTICLE_NUM) :
    K × RbfgradParms K :=
  let out := netOut exp p p.pos[which]
  let error := (p.queue_len[0].toInt : K) / 6500 - out
  (error * error / 2, { p with NetOut := p.NetOut.set which out which.isLt })

/-- The head of the call: the jacobian is cleared and the input vector is built from
the newest half of both windows. -/
def snapshot (p : RbfgradParms K) : RbfgradParms K :=
  { p with
    jacobian := 0
    SamIn := Vector.ofFn fun i =>
      if i.val < SAM_NUM / 2 then p.proba[i]
      else (p.queue_len[i.val - SAM_NUM / 2].toInt : K) / 6500 }

def initEval (exp : K → K) (p : RbfgradParms K) (i : Fin PARTICLE_NUM) : RbfgradParms K :=
  let evaluated := getRbfSSE exp p i
  { evaluated.2 with pbestval := p.pbestval.set i evaluated.1 i.isLt }

def inertia [LinearOrder K] (iw1 iw2 iwe : K) (epoch : ℕ) : K :=
  if (epoch : K) < iwe then (iw2 - iw1) / (iwe - 1) * epoch + iw1 else iw2

section Swarm
variable [LinearOrder K]

/-- The search for the least entry: the earliest index wins among equals. -/
def leastIndex (values : Vector K PARTICLE_NUM) : K × Fin PARTICLE_NUM :=
  Transition.sweep (fun best (j : Fin PARTICLE_NUM) =>
    if best.1 > values[j] then (values[j], j) else best) (values[0], 0)

/-- The two copies of the `gbest` update, with the index they leave in the local variable. -/
def selectBest (p : RbfgradParms K) : RbfgradParms K × Fin PARTICLE_NUM :=
  let least := leastIndex p.pbestval
  ({ p with gbestval := least.1, gbest := p.pbest[least.2] }, least.2)

def evalParticle (exp : K → K) (p : RbfgradParms K) (j : Fin PARTICLE_NUM) : RbfgradParms K :=
  let evaluated := getRbfSSE exp p j
  if p.pbestval[j] > evaluated.1 then
    { evaluated.2 with
      pbestval := p.pbestval.set j evaluated.1 j.isLt
      pbest := p.pbest.set j p.pos[j] j.isLt }
  else evaluated.2

/-- The two one-sided velocity clamps, in the order of the source. -/
def clampVelocity (mv v : K) : K :=
  let v := if v > mv then mv else v
  if v < -mv then -mv else v

def rannum (draw : BitVec 32) : K := (draw.toNat : K) / ((RAND_MAX : K) + 1)

/-- The velocity of one coordinate in one epoch. Two draws are made for each
coordinate of each particle of each epoch, in this order. -/
def velocity (random32 : ℕ → BitVec 32) (p : RbfgradParms K) (iwt : K) (epoch : ℕ)
    (j : Fin PARTICLE_NUM) (k : Fin UNIT_NUM) : K :=
  let call := 2 * ((epoch * PARTICLE_NUM + j) * UNIT_NUM + k)
  let rannum1 := rannum (random32 call)
  let rannum2 := rannum (random32 (call + 1))
  clampVelocity p.mv (iwt * p.vel[j][k] + p.ac1 * rannum1 * (p.pbest[j][k] - p.pos[j][k]) +
    p.ac2 * rannum2 * (p.gbest[k] - p.pos[j][k]))

/-- The particles move independently of one another: each reads its own row and `gbest`. -/
def move (random32 : ℕ → BitVec 32) (epoch : ℕ) (p : RbfgradParms K) : RbfgradParms K :=
  let iwt := inertia p.iw1 p.iw2 p.iwe epoch
  let vel : Vector (Vector K UNIT_NUM) PARTICLE_NUM :=
    Vector.ofFn fun j => Vector.ofFn fun k => velocity random32 p iwt epoch j k
  { p with
    vel := vel
    pos := Vector.ofFn fun j => Vector.ofFn fun k => p.pos[j][k] + vel[j][k] }

def initSwarm (exp : K → K) (p : RbfgradParms K) : RbfgradParms K × Fin PARTICLE_NUM :=
  selectBest (Transition.sweep (initEval exp) { p with pbest := p.pos })

def epochStep (exp : K → K) (random32 : ℕ → BitVec 32)
    (state : RbfgradParms K × Fin PARTICLE_NUM) (epoch : Fin MAX_EPOCH) :
    RbfgradParms K × Fin PARTICLE_NUM :=
  let best := selectBest (Transition.sweep (evalParticle exp) state.1)
  (move random32 epoch best.1, best.2)

def learn (exp : K → K) (random32 : ℕ → BitVec 32) (p : RbfgradParms K) : RbfgradParms K :=
  let final := Transition.sweep (epochStep exp random32) (initSwarm exp p)
  { final.1 with w_k := final.1.gbest, gbest_index := final.2 }

end Swarm

/-- The normalised errors, read at the head of the call. -/
def errorNow (p : RbfgradParms K) : K := (p.e_k.toInt : K) / 6500
def errorLast (p : RbfgradParms K) : K := (p.e_k_1.toInt : K) / 6500
def errorBefore (p : RbfgradParms K) : K := (p.e_k_2.toInt : K) / 6500

def jacobianSum (exp : K → K) (p : RbfgradParms K) : K :=
  Transition.sweep (fun sum (i : Fin UNIT_NUM) =>
    sum + p.w_k[i] * hidden exp p i * (p.c_k[i][0] - p.p_k) / (p.delta_k[i] * p.delta_k[i]))
    p.jacobian

section Control
variable [LinearOrder K]

def clampGain (gain : K) : K := if gain < 0 then 0 else gain

def updateGains (exp : K → K) (p : RbfgradParms K) : RbfgradParms K :=
  let jacobian := jacobianSum exp p
  let e_k := errorNow p
  let e_k_1 := errorLast p
  let e_k_2 := errorBefore p
  { p with
    jacobian := jacobian
    kp_k_1 := p.kp_k
    ki_k_1 := p.ki_k
    kd_k_1 := p.kd_k
    kp_k := clampGain (p.kp_k + p.eta_p * e_k * jacobian * (e_k - e_k_1))
    ki_k := clampGain (p.ki_k + p.eta_i * e_k * jacobian * e_k)
    kd_k := clampGain (p.kd_k + p.eta_d * e_k * jacobian * (e_k - 2 * e_k_1 + e_k_2)) }

def pidOutput (p : RbfgradParms K) : K :=
  p.p_k + p.kp_k * (errorNow p - errorLast p) + p.ki_k * errorNow p +
    p.kd_k * (errorNow p - 2 * errorLast p + errorBefore p)

/-- The two one-sided clamps of `p_k`, upper bound first. -/
def clampProb (p_min p_max p_k : K) : K :=
  let p_k := if p_k > p_max then p_max else p_k
  if p_k < p_min then p_min else p_k

def updateProb (p : RbfgradParms K) : RbfgradParms K :=
  { p with p_k_1 := p.p_k, p_k := clampProb p.p_min p.p_max (pidOutput p) }

def tune (exp : K → K) (random32 : ℕ → BitVec 32) (p : RbfgradParms K) : RbfgradParms K :=
  let p := learn exp random32 (snapshot p)
  if p.gbestval < p.E0 then updateGains exp p else p

def rbfgradMarkProbability (exp : K → K) (random32 : ℕ → BitVec 32) (p : RbfgradParms K) :
    RbfgradParms K :=
  updateProb (tune exp random32 p)

end Control

section Frame

/-- What the learning pass may read but never writes. -/
def frame (p : RbfgradParms K) : Params K × Window K × Control K :=
  (p.toParams, p.toWindow, p.toControl)

/-- The input vector and the hidden units; the call builds the one at its head and has no code
for the others. -/
def layer (p : RbfgradParms K) := (p.SamIn, p.c_k, p.delta_k)

/-- Everything that the learning pass has no code for. -/
def untouched (p : RbfgradParms K) := (frame p, layer p, p.jacobian)

theorem untouched_initEval (exp : K → K) (p : RbfgradParms K) (i : Fin PARTICLE_NUM) :
    untouched (initEval exp p i) = untouched p := rfl

variable [LinearOrder K] (exp : K → K) (random32 : ℕ → BitVec 32) (p : RbfgradParms K)

theorem untouched_evalParticle (j : Fin PARTICLE_NUM) :
    untouched (evalParticle exp p j) = untouched p := by
  unfold evalParticle
  dsimp only
  split <;> rfl

omit [Field K] in
theorem untouched_selectBest : untouched (selectBest p).1 = untouched p := rfl

theorem untouched_move (epoch : ℕ) : untouched (move random32 epoch p) = untouched p := by
  simp only [untouched, frame, layer, move]

theorem untouched_initSwarm : untouched (initSwarm exp p).1 = untouched p :=
  (untouched_selectBest _).trans
    (Transition.sweep_preserves untouched (untouched_initEval exp) { p with pbest := p.pos })

theorem untouched_epochStep (state : RbfgradParms K × Fin PARTICLE_NUM) (epoch : Fin MAX_EPOCH) :
    untouched (epochStep exp random32 state epoch).1 = untouched state.1 :=
  calc
    untouched (epochStep exp random32 state epoch).1
      = untouched (selectBest (Transition.sweep (evalParticle exp) state.1)).1 :=
        untouched_move random32 _ epoch
    _ = untouched (Transition.sweep (evalParticle exp) state.1) := untouched_selectBest _
    _ = untouched state.1 :=
        Transition.sweep_preserves untouched (untouched_evalParticle exp) state.1

theorem untouched_learn : untouched (learn exp random32 p) = untouched p := by
  have epochs := Transition.sweep_preserves (fun state => untouched state.1)
    (untouched_epochStep exp random32) (initSwarm exp p)
  have start := untouched_initSwarm exp p
  unfold learn
  generalize Transition.sweep (epochStep exp random32) (initSwarm exp p) = final at epochs
  exact epochs.trans start

theorem frame_evalParticle (j : Fin PARTICLE_NUM) : frame (evalParticle exp p j) = frame p :=
  congrArg Prod.fst (untouched_evalParticle exp p j)

omit [Field K] in
theorem frame_selectBest : frame (selectBest p).1 = frame p := rfl

theorem frame_move (epoch : ℕ) : frame (move random32 epoch p) = frame p :=
  congrArg Prod.fst (untouched_move random32 p epoch)

theorem frame_epochStep (state : RbfgradParms K × Fin PARTICLE_NUM) (epoch : Fin MAX_EPOCH) :
    frame (epochStep exp random32 state epoch).1 = frame state.1 :=
  congrArg Prod.fst (untouched_epochStep exp random32 state epoch)

/-- The learning pass inside the worker leaves configuration, windows, probability and
gains as the call found them. -/
theorem frame_pass : frame (learn exp random32 (snapshot p)) = frame p :=
  congrArg Prod.fst (untouched_learn exp random32 (snapshot p))

/-- The tuning of the gains comes after the pass and writes none of these. -/
theorem tune_keeps :
    ((tune exp random32 p).toParams, (tune exp random32 p).toWindow, (tune exp random32 p).p_k) =
      (p.toParams, p.toWindow, p.p_k) := by
  have kept := congrArg (fun f => (f.1, f.2.1, f.2.2.p_k)) (frame_pass exp random32 p)
  unfold tune
  dsimp only
  split <;> exact kept

@[simp] theorem tune_toParams : (tune exp random32 p).toParams = p.toParams :=
  congrArg Prod.fst (tune_keeps exp random32 p)

@[simp] theorem tune_toWindow : (tune exp random32 p).toWindow = p.toWindow :=
  congrArg (fun kept => kept.2.1) (tune_keeps exp random32 p)

@[simp] theorem tune_p_k : (tune exp random32 p).p_k = p.p_k :=
  congrArg (fun kept => kept.2.2) (tune_keeps exp random32 p)

@[simp] theorem markProbability_toParams :
    (rbfgradMarkProbability exp random32 p).toParams = p.toParams :=
  tune_toParams exp random32 p

@[simp] theorem markProbability_toWindow :
    (rbfgradMarkProbability exp random32 p).toWindow = p.toWindow :=
  tune_toWindow exp random32 p

theorem layer_markProbability :
    layer (rbfgradMarkProbability exp random32 p) = layer (snapshot p) := by
  have learned := congrArg (fun parts => parts.2.1) (untouched_learn exp random32 (snapshot p))
  unfold rbfgradMarkProbability tune
  generalize learn exp random32 (snapshot p) = q at learned
  dsimp only
  split
  · exact learned
  · exact learned

end Frame

end GapsoRbfPid
