import GapsoRbfPid.ControlRange
import GapsoRbfPid.Jacobian
import GapsoRbfPid.Reconfiguration

/-! The hidden layer of a configured network. A configuration gives every unit the centre zero
and one width, and no later code writes either: the six units are one unit, the network has one
effective weight, and the gradient that tunes the gains has the sign of minus the output. -/

namespace GapsoRbfPid.HiddenLayer
open GapsoRbfPid Library

variable {K Child : Type} [Field K]

instance unitWidth : Nat.AtLeastTwo 40 := ⟨by decide⟩

/-- The network and the error gate as a configuration leaves them. -/
structure Uniform (p : RbfgradParms K) : Prop where
  centres : p.c_k = Vector.replicate _ (Vector.replicate _ 0)
  widths : p.delta_k = Vector.replicate _ 40
  gate : p.E0 = 1 / 1000000

theorem configured_uniform (ctl : TcRbfgradQopt K) (stab : Stab) (random32 : ℕ → BitVec 32)
    (p : RbfgradParms K) : Uniform (configured ctl stab random32 p) := ⟨rfl, rfl, rfl⟩

theorem sampleParms_uniform (cyc_count : ℕ) {q : Qdisc K Child} (uniform : Uniform q.parms) :
    Uniform (sampleParms cyc_count q) := by
  unfold sampleParms
  split
  · exact ⟨uniform.centres, uniform.widths, uniform.gate⟩
  · exact uniform

omit [Field K] in
theorem sampled_length (q : Qdisc K Child) :
    (sampled q).queue_len[(0 : Fin SAM_NUM)] = Int32.ofBitVec q.qlen := by
  simp only [sampled, ShiftRegister.shiftIn, Vectors.getElem_fin, Vector.getElem_ofFn,
    Fin.val_zero, if_true]

section Units
variable {exp : K → K} {p : RbfgradParms K} (uniform : Uniform p)
include uniform

theorem Uniform.distance_eq (i : Fin UNIT_NUM) :
    distance p i = ∑ j : Fin SAM_NUM, p.SamIn[j] ^ 2 := by
  rw [Jacobian.distance_eq_sum]
  apply Finset.sum_congr rfl
  intro j _
  have centre : p.c_k[i][j] = 0 := by
    rw [uniform.centres]
    simp
  rw [centre, sub_zero]

theorem Uniform.width (i : Fin UNIT_NUM) : p.delta_k[i] = 40 := by
  rw [uniform.widths]
  simp

theorem Uniform.hidden_value (i : Fin UNIT_NUM) :
    hidden exp p i = exp (-(∑ j : Fin SAM_NUM, p.SamIn[j] ^ 2) / (2 * 40 * 40)) := by
  rw [hidden, uniform.distance_eq, uniform.width]

theorem Uniform.hidden_eq (i : Fin UNIT_NUM) : hidden exp p i = hidden exp p 0 := by
  rw [uniform.hidden_value, uniform.hidden_value]

/-- The network has one effective weight. -/
theorem Uniform.netOut_eq (w : Vector K UNIT_NUM) :
    netOut exp p w = (∑ i : Fin UNIT_NUM, w[i]) * hidden exp p 0 := by
  rw [netOut_eq_sum, Finset.sum_mul]
  apply Finset.sum_congr rfl
  intro i _
  rw [uniform.hidden_eq]

/-- The sum that the gate releases, once the head of the call has cleared it. -/
theorem Uniform.jacobianSum_eq (cleared : p.jacobian = 0) :
    jacobianSum exp p = -(p.p_k / (40 * 40)) * netOut exp p p.w_k := by
  have loop : jacobianSum exp p = ∑ i : Fin UNIT_NUM,
      p.w_k[i] * hidden exp p i * (p.c_k[i][0] - p.p_k) /
        (p.delta_k[i] * p.delta_k[i]) := by
    rw [jacobianSum, cleared, Fin.sum_univ_def, List.sum_eq_foldl, List.foldl_map]
    rfl
  rw [loop, netOut_eq_sum, Finset.mul_sum]
  apply Finset.sum_congr rfl
  intro i _
  have centre : p.c_k[i][0] = 0 := by
    rw [uniform.centres]
    simp
  rw [centre, uniform.width]
  ring

end Units

section Call
variable [LinearOrder K] (exp : K → K) (random32 : ℕ → BitVec 32) {p : RbfgradParms K}

theorem netOut_after (w : Vector K UNIT_NUM) :
    netOut exp (rbfgradMarkProbability exp random32 p) w = SwarmRecord.output exp p w := by
  have parts := layer_markProbability exp random32 p
  simp only [layer, Prod.mk.injEq] at parts
  obtain ⟨inputs, centres, widths⟩ := parts
  rw [netOut_congr exp inputs centres widths, SwarmRecord.output_eq]

theorem markProbability_uniform (uniform : Uniform p) :
    Uniform (rbfgradMarkProbability exp random32 p) := by
  have parts := layer_markProbability exp random32 p
  simp only [layer, Prod.mk.injEq] at parts
  obtain ⟨-, centres, widths⟩ := parts
  apply Uniform.mk
  · rw [centres]
    exact uniform.centres
  · rw [widths]
    exact uniform.widths
  · rw [markProbability_toParams]
    exact uniform.gate

/-- The gradient that a call uses behind the gate, with the weights it publishes. -/
def tuningSlope (p : RbfgradParms K) : K :=
  -(p.p_k / (40 * 40)) *
    SwarmRecord.output exp p (rbfgradMarkProbability exp random32 p).w_k

/-- A call leaves the gains alone, or passes the gate and takes one clamped gradient step. -/
theorem Uniform.call_cases (uniform : Uniform p) :
    let after := rbfgradMarkProbability exp random32 p
    let slope := tuningSlope exp random32 p
    (¬after.gbestval < after.E0 ∧
      after.kp_k = p.kp_k ∧ after.ki_k = p.ki_k ∧ after.kd_k = p.kd_k) ∨
    (after.gbestval < after.E0 ∧ after.jacobian = slope ∧
      after.kp_k = clampGain (p.kp_k +
        p.eta_p * errorNow p * slope * (errorNow p - errorLast p)) ∧
      after.ki_k = clampGain (p.ki_k + p.eta_i * errorNow p * slope * errorNow p) ∧
      after.kd_k = clampGain (p.kd_k +
        p.eta_d * errorNow p * slope * (errorNow p - 2 * errorLast p + errorBefore p))) := by
  intro after slope
  have kept := frame_pass exp random32 p
  have parts := untouched_learn exp random32 (snapshot p)
  have passed := @tune_of_fit _ _ _ exp random32 p
  have stopped := @tune_of_misfit _ _ _ exp random32 p
  have meaning : slope = -(p.p_k / (40 * 40)) * netOut exp (snapshot p) after.w_k := by
    rw [SwarmRecord.output_eq]
    rfl
  clear_value slope
  have call : after = updateProb (tune exp random32 p) := rfl
  generalize learn exp random32 (snapshot p) = learned at *
  simp only [frame, untouched, layer, Prod.mk.injEq] at kept parts
  obtain ⟨params, window, control⟩ := kept
  obtain ⟨-, ⟨inputs, centres, widths⟩, cleared⟩ := parts
  by_cases gate : learned.gbestval < learned.E0
  · right
    rw [passed gate] at call
    have weights : after.w_k = learned.w_k := congrArg (fun p => p.w_k) call
    have layered : Uniform learned :=
      ⟨centres.trans uniform.centres, widths.trans uniform.widths, by rw [params, uniform.gate]⟩
    have value : jacobianSum exp learned = slope := by
      rw [layered.jacobianSum_eq cleared, netOut_congr exp inputs centres widths, meaning, weights,
        control]
    rw [call]
    simp only [updateProb, updateGains, errorNow, errorLast, errorBefore]
    rw [value, params, window, control]
    exact ⟨params ▸ gate, rfl, rfl, rfl, rfl⟩
  · left
    rw [stopped gate] at call
    rw [call]
    simp only [updateProb]
    rw [control]
    exact ⟨gate, rfl, rfl, rfl⟩

variable [IsStrictOrderedRing K]

/-- Behind the gate the published output is close to the newest sample. -/
theorem Uniform.output_near (uniform : Uniform p)
    (fit : (rbfgradMarkProbability exp random32 p).gbestval <
      (rbfgradMarkProbability exp random32 p).E0) :
    ((p.queue_len[(0 : Fin SAM_NUM)].toInt : K) / 6500 -
      SwarmRecord.output exp p (rbfgradMarkProbability exp random32 p).w_k) ^ 2 < 1 / 500000 := by
  rw [SwarmRecord.published_value, SwarmRecord.error, markProbability_toParams, uniform.gate] at fit
  linarith

end Call

section Runs
variable [LinearOrder K] [FloorRing K]

omit [LinearOrder K] [FloorRing K] in
theorem change_uniform (kernel : Kernel Child) (opt : Options K) (fifoError : Option Errno)
    (random32 : ℕ → BitVec 32) {s : State K Child}
    (uniform : (rbfgradChange kernel opt fifoError random32 s).1 = .ok () ∨ Uniform s.qdisc.parms) :
    Uniform (rbfgradChange kernel opt fifoError random32 s).2.qdisc.parms := by
  rcases change_cases kernel opt fifoError random32 s with ⟨err, same⟩ | ⟨ctl, stab, _, _, same⟩
  · rw [same] at uniform ⊢
    rcases uniform with accepted | uniform
    · exact absurd accepted (by simp)
    · exact uniform
  · rw [same, install_parms]
    exact configured_uniform ctl stab random32 s.qdisc.parms

theorem step_uniform (kernel : Kernel Child) (exp : K → K) (s : State K Child) (op : Op K Child)
    (uniform : Uniform s.qdisc.parms) : Uniform (step kernel exp s op).qdisc.parms := by
  rw [step_parms]
  cases op with
  | enqueue netRandom skb => exact sampleParms_uniform s.globals.cyc_count uniform
  | worker random32 => exact markProbability_uniform exp random32 uniform
  | change opt fifoError random32 =>
    exact change_uniform kernel opt fifoError random32 (.inr uniform)
  | _ => exact uniform

variable [IsStrictOrderedRing K]

/-- In every run after a successful `rbfgrad_init`, reconfigurations included, the hidden units
agree, so that the network sees only the sum of its weights; a call that passes the gate has an
output close to the newest sample and its jacobian is that output times `-p_k / 1600`. -/
theorem one_effective_weight (kernel : Kernel Child) (exp : K → K) (g : Globals K)
    (opt : Options K) (fifoError : Option Errno) (random32 : ℕ → BitVec 32)
    (worker stopper : Task)
    (accepted : (rbfgradInit kernel opt fifoError random32 worker stopper
      ⟨g, .zeroed kernel⟩).1 = .ok ()) (ops : List (Op K Child)) :
    let start := (rbfgradInit kernel opt fifoError random32 worker stopper ⟨g, .zeroed kernel⟩).2
    let p := (Transition.run (step kernel exp) start ops).qdisc.parms
    (∀ i, hidden exp p i = hidden exp p 0) ∧
    (∀ w, netOut exp p w = (∑ i : Fin UNIT_NUM, w[i]) * hidden exp p 0) ∧
    ∀ draws, let after := rbfgradMarkProbability exp draws p
      after.gbestval < after.E0 →
        after.jacobian = -(p.p_k / (40 * 40)) * netOut exp after after.w_k ∧
        ((p.queue_len[(0 : Fin SAM_NUM)].toInt : K) / 6500 - netOut exp after after.w_k) ^ 2 <
          1 / 500000 := by
  intro start p
  have installed : Uniform start.qdisc.parms := change_uniform kernel opt fifoError random32
    (s := ⟨initGlobals g, .zeroed kernel⟩) (.inl accepted)
  have keeps : ∀ (s : State K Child) op, Uniform s.qdisc.parms →
      Uniform (step kernel exp s op).qdisc.parms := step_uniform kernel exp
  have uniform : Uniform p := Transition.run_keeps keeps installed ops
  refine ⟨uniform.hidden_eq, uniform.netOut_eq, ?_⟩
  intro draws after fit
  rw [netOut_after]
  rcases uniform.call_cases exp draws with ⟨misfit, -⟩ | ⟨-, jacobian, -⟩
  · exact absurd fit misfit
  · exact ⟨jacobian, uniform.output_near exp draws fit⟩

end Runs

theorem one_effective_weight_deployed :
    let p := (Transition.run (step ByteFifo.kernel Deployment.decay) Deployment.start
      [.enqueue 5 Deployment.packet, .worker Deployment.silent]).qdisc.parms
    ∀ w, netOut Deployment.decay p w =
      (∑ i : Fin UNIT_NUM, w[i]) * hidden Deployment.decay p 0 := by
  intro p
  have accepted : Deployment.created.1 = .ok () :=
    congrArg Prod.fst (change_accepted ByteFifo.kernel Deployment.options Deployment.stab
      Deployment.silent ⟨initGlobals Deployment.loaded, .zeroed ByteFifo.kernel⟩)
  exact (one_effective_weight ByteFifo.kernel Deployment.decay Deployment.loaded
    Deployment.message none Deployment.silent 0 1 accepted
    [.enqueue 5 Deployment.packet, .worker Deployment.silent]).2.1

section Inputs

/-- The probabilities of a configuration lie in the unit interval. -/
structure UnitBounds (p_min p_init p_max : ℝ) : Prop where
  low : 0 ≤ p_min
  above : p_min ≤ p_init
  below : p_init ≤ p_max
  high : p_max ≤ 1

/-- The windows, the input vector and the probabilities are in the unit range. -/
structure Scaled (p : RbfgradParms ℝ) : Prop where
  uniform : Uniform p
  bounds : 0 ≤ p.p_min ∧ p.p_min ≤ p.p_max ∧ p.p_max ≤ 1
  p_k : 0 ≤ p.p_k ∧ p.p_k ≤ 1
  p_k_1 : 0 ≤ p.p_k_1 ∧ p.p_k_1 ≤ 1
  proba : ∀ j : Fin SAM_NUM, 0 ≤ p.proba[j] ∧ p.proba[j] ≤ 1
  lengths : ∀ j : Fin SAM_NUM, 0 ≤ p.queue_len[j].toInt ∧ p.queue_len[j].toInt ≤ 6500
  inputs : ∀ j : Fin SAM_NUM, 0 ≤ p.SamIn[j] ∧ p.SamIn[j] ≤ 1

theorem configured_scaled (ctl : TcRbfgradQopt ℝ) (stab : Stab) (random32 : ℕ → BitVec 32)
    {p : RbfgradParms ℝ} (unit : UnitBounds ctl.p_min ctl.p_init ctl.p_max)
    (p_k_1 : 0 ≤ p.p_k_1 ∧ p.p_k_1 ≤ 1) : Scaled (configured ctl stab random32 p) where
  uniform := configured_uniform ctl stab random32 p
  bounds := ⟨unit.low, unit.above.trans unit.below, unit.high⟩
  p_k := ⟨unit.low.trans unit.above, unit.below.trans unit.high⟩
  p_k_1 := p_k_1
  proba := by
    intro j
    simp only [configured, rbfgradSetParms, Vectors.getElem_fin, Vector.getElem_replicate]
    exact ⟨unit.low.trans unit.above, unit.below.trans unit.high⟩
  lengths := by simp [configured, rbfgradSetParms]
  inputs := by simp [configured, rbfgradSetParms]

theorem snapshot_scaled {p : RbfgradParms ℝ} (scaled : Scaled p) (j : Fin SAM_NUM) :
    0 ≤ (snapshot p).SamIn[j] ∧ (snapshot p).SamIn[j] ≤ 1 := by
  simp only [snapshot, Vectors.getElem_fin, Vector.getElem_ofFn]
  split_ifs with newest
  · exact scaled.proba j
  · have inside : j.val - SAM_NUM / 2 < SAM_NUM := by omega
    obtain ⟨low, high⟩ := scaled.lengths ⟨j.val - SAM_NUM / 2, inside⟩
    rw [Vectors.getElem_fin] at low high
    have lower : (0 : ℝ) ≤ (p.queue_len[j.val - SAM_NUM / 2].toInt : ℝ) := by exact_mod_cast low
    have upper : (p.queue_len[j.val - SAM_NUM / 2].toInt : ℝ) ≤ 6500 := by exact_mod_cast high
    exact ⟨div_nonneg lower (by norm_num), (div_le_one (by norm_num)).mpr upper⟩

theorem Scaled.call {p : RbfgradParms ℝ} (scaled : Scaled p) (exp : ℝ → ℝ)
    (random32 : ℕ → BitVec 32) : Scaled (rbfgradMarkProbability exp random32 p) := by
  have window := markProbability_toWindow exp random32 p
  have params := markProbability_toParams exp random32 p
  have parts := layer_markProbability exp random32 p
  simp only [layer, Prod.mk.injEq] at parts
  obtain ⟨inputs, -⟩ := parts
  have previous := Reconfiguration.markProbability_p_k_1 exp random32 p
  have tuned := tune_toParams exp random32 p
  have clamped : p.p_min ≤ (rbfgradMarkProbability exp random32 p).p_k ∧
      (rbfgradMarkProbability exp random32 p).p_k ≤ p.p_max := by
    have mem := ControlRange.clampProb_mem scaled.bounds.2.1 (pidOutput (tune exp random32 p))
    rw [← congrArg Params.p_min tuned, ← congrArg Params.p_max tuned] at mem ⊢
    exact mem
  exact
    { uniform := markProbability_uniform exp random32 scaled.uniform
      bounds := by rw [params]; exact scaled.bounds
      p_k := ⟨scaled.bounds.1.trans clamped.1, clamped.2.trans scaled.bounds.2.2⟩
      p_k_1 := by rw [previous]; exact scaled.p_k
      proba := by rw [window]; exact scaled.proba
      lengths := by rw [window]; exact scaled.lengths
      inputs := by rw [inputs]; exact snapshot_scaled scaled }

theorem Scaled.sampled {q : Qdisc ℝ Child} (scaled : Scaled q.parms) (fits : q.qlen.toNat ≤ 6500) :
    Scaled (sampled q) := by
  have length : (Int32.ofBitVec q.qlen).toInt = q.qlen.toNat := CInt.ofBitVec_toInt (by omega)
  have newest : 0 ≤ (Int32.ofBitVec q.qlen).toInt ∧ (Int32.ofBitVec q.qlen).toInt ≤ 6500 := by
    rw [length]
    omega
  exact
    { uniform := ⟨scaled.uniform.centres, scaled.uniform.widths, scaled.uniform.gate⟩
      bounds := scaled.bounds
      p_k := scaled.p_k
      p_k_1 := scaled.p_k_1
      proba := @ShiftRegister.shiftIn_keeps ℝ SAM_NUM (fun probability =>
        0 ≤ probability ∧ probability ≤ 1) _ _ scaled.p_k_1 scaled.proba
      lengths := @ShiftRegister.shiftIn_keeps Int32 SAM_NUM (fun length =>
        0 ≤ length.toInt ∧ length.toInt ≤ 6500) _ _ newest scaled.lengths
      inputs := scaled.inputs }

/-- Changes bring probabilities in the unit interval, and no sample finds more packets than the
scale of the queue lengths. -/
def Ordinary (s : State ℝ Child) : Op ℝ Child → Prop
  | .enqueue _ _ => s.globals.cyc_count + 1 = CYC_MAX → s.qdisc.qlen.toNat ≤ 6500
  | .change opt _ _ => ∀ ctl stab, opt = some (.ok ⟨some ctl, some stab⟩) →
      UnitBounds ctl.p_min ctl.p_init ctl.p_max
  | _ => True

theorem Scaled.step {s : State ℝ Child} (scaled : Scaled s.qdisc.parms) (kernel : Kernel Child)
    (exp : ℝ → ℝ) (op : Op ℝ Child) (ordinary : Ordinary s op) :
    Scaled (step kernel exp s op).qdisc.parms := by
  rw [step_parms]
  cases op with
  | enqueue netRandom skb =>
    dsimp only
    unfold sampleParms
    split_ifs with sampling
    · exact scaled.sampled (ordinary sampling)
    · exact scaled
  | worker random32 => exact scaled.call exp random32
  | change opt fifoError random32 =>
    dsimp only
    rcases change_cases kernel opt fifoError random32 s with ⟨err, same⟩ | ⟨ctl, stab, sent, -, same⟩
    · rw [same]
      exact scaled
    · rw [same, install_parms]
      exact configured_scaled ctl stab random32 (ordinary ctl stab sent) scaled.p_k_1
  | _ => exact scaled

/-- Inputs in the unit range leave the argument of the exponential above `-1 / 320`. -/
theorem Scaled.hidden_near {p : RbfgradParms ℝ} (scaled : Scaled p) :
    |hidden Real.exp p 0 - 1| ≤ 1 / 320 := by
  have squares : ∀ j : Fin SAM_NUM, j ∈ Finset.univ → p.SamIn[j] ^ 2 ≤ 1 := by
    intro j _
    exact pow_le_one₀ (scaled.inputs j).1 (scaled.inputs j).2
  have above : 0 ≤ ∑ j : Fin SAM_NUM, p.SamIn[j] ^ 2 := Finset.sum_nonneg fun j _ => sq_nonneg _
  have below : ∑ j : Fin SAM_NUM, p.SamIn[j] ^ 2 ≤ 10 := by
    calc
      ∑ j : Fin SAM_NUM, p.SamIn[j] ^ 2 ≤ ∑ _j : Fin SAM_NUM, (1 : ℝ) := Finset.sum_le_sum squares
      _ = 10 := by simp
  rw [scaled.uniform.hidden_value]
  generalize ∑ j : Fin SAM_NUM, p.SamIn[j] ^ 2 = total at above below
  have lower := Real.add_one_le_exp (-total / (2 * 40 * 40))
  have upper : Real.exp (-total / (2 * 40 * 40)) ≤ 1 := by
    rw [Real.exp_le_one_iff]
    linarith
  rw [abs_le]
  constructor <;> linarith

/-- Every run after a successful `rbfgrad_init` keeps the unit range. -/
theorem run_scaled (kernel : Kernel Child) (exp : ℝ → ℝ) (g : Globals ℝ)
    (opt : Options ℝ) (fifoError : Option Errno) (random32 : ℕ → BitVec 32)
    (worker stopper : Task)
    (accepted : (rbfgradInit kernel opt fifoError random32 worker stopper
      ⟨g, .zeroed kernel⟩).1 = .ok ())
    (unit : ∀ ctl stab, opt = some (.ok ⟨some ctl, some stab⟩) →
      UnitBounds ctl.p_min ctl.p_init ctl.p_max) (ops : List (Op ℝ Child))
    (ordinary : Transition.Along (step kernel exp) Ordinary
      (rbfgradInit kernel opt fifoError random32 worker stopper ⟨g, .zeroed kernel⟩).2 ops) :
    Scaled (Transition.run (step kernel exp)
      (rbfgradInit kernel opt fifoError random32 worker stopper ⟨g, .zeroed kernel⟩).2 ops).qdisc.parms := by
  set start := (rbfgradInit kernel opt fifoError random32 worker stopper ⟨g, .zeroed kernel⟩).2
  have installed : Scaled start.qdisc.parms := by
    rcases change_cases kernel opt fifoError random32 ⟨initGlobals g, .zeroed kernel⟩ with
      ⟨err, same⟩ | ⟨ctl, stab, sent, -, same⟩
    · have failed : (rbfgradInit kernel opt fifoError random32 worker stopper
          ⟨g, .zeroed kernel⟩).1 = .error err := congrArg Prod.fst same
      rw [failed] at accepted
      exact absurd accepted (by simp)
    · have parms : start.qdisc.parms = configured ctl stab random32 .zeroed :=
        (congrArg (fun out => out.2.qdisc.parms) same).trans (install_parms kernel ctl stab _ _)
      rw [parms]
      exact configured_scaled ctl stab random32 (unit ctl stab sent) ⟨le_rfl, zero_le_one⟩
  have keeps : ∀ (s : State ℝ Child) op, Scaled s.qdisc.parms → Ordinary s op →
      Scaled (step kernel exp s op).qdisc.parms :=
    fun s op scaled met => scaled.step kernel exp op met
  exact Transition.run_invariant_along keeps installed ops ordinary

/-- In every run after a successful `rbfgrad_init`, with probabilities in the unit interval and no
sample above 6500 packets, the network ignores its inputs up to a third of a percent: its output
for any weights is within that of their sum. -/
theorem network_ignores_inputs (kernel : Kernel Child) (g : Globals ℝ)
    (opt : Options ℝ) (fifoError : Option Errno) (random32 : ℕ → BitVec 32)
    (worker stopper : Task)
    (accepted : (rbfgradInit kernel opt fifoError random32 worker stopper
      ⟨g, .zeroed kernel⟩).1 = .ok ())
    (unit : ∀ ctl stab, opt = some (.ok ⟨some ctl, some stab⟩) →
      UnitBounds ctl.p_min ctl.p_init ctl.p_max) (ops : List (Op ℝ Child)) :
    let start := (rbfgradInit kernel opt fifoError random32 worker stopper ⟨g, .zeroed kernel⟩).2
    let p := (Transition.run (step kernel Real.exp) start ops).qdisc.parms
    Transition.Along (step kernel Real.exp) Ordinary start ops →
    ∀ w, |netOut Real.exp p w - ∑ i : Fin UNIT_NUM, w[i]| ≤ |∑ i : Fin UNIT_NUM, w[i]| / 320 := by
  intro start p ordinary w
  have scaled : Scaled p :=
    run_scaled kernel Real.exp g opt fifoError random32 worker stopper accepted unit ops ordinary
  calc
    |netOut Real.exp p w - ∑ i : Fin UNIT_NUM, w[i]|
      = |∑ i : Fin UNIT_NUM, w[i]| * |hidden Real.exp p 0 - 1| := by
        rw [scaled.uniform.netOut_eq, ← abs_mul, mul_sub, mul_one]
    _ ≤ |∑ i : Fin UNIT_NUM, w[i]| * (1 / 320) :=
        mul_le_mul_of_nonneg_left scaled.hidden_near (abs_nonneg _)
    _ = |∑ i : Fin UNIT_NUM, w[i]| / 320 := by ring

/-- The set-up of the tests with an initial probability of one half, reconfigured to zero. -/
theorem network_ignores_inputs_deployed :
    let ops : List (Op ℝ ByteFifo.Child) := [.worker Jacobian.draws, .change
      (some (.ok ⟨some (Jacobian.options 0), some Deployment.stab⟩)) none Jacobian.draws, .dequeue]
    let p := (Transition.run (step ByteFifo.kernel Real.exp) (Jacobian.opened (1 / 2)) ops).qdisc.parms
    ∀ w, |netOut Real.exp p w - ∑ i : Fin UNIT_NUM, w[i]| ≤ |∑ i : Fin UNIT_NUM, w[i]| / 320 := by
  intro ops p
  have unit : ∀ p_init : ℝ, 0 ≤ p_init → p_init ≤ 1 → ∀ ctl stab,
      (some (.ok ⟨some (Jacobian.options p_init), some Deployment.stab⟩) : Options ℝ) =
        some (.ok ⟨some ctl, some stab⟩) → UnitBounds ctl.p_min ctl.p_init ctl.p_max := by
    rintro p_init low high ctl stab ⟨⟩
    exact ⟨le_rfl, low, high, le_rfl⟩
  have accepted := congrArg Prod.fst (change_accepted ByteFifo.kernel (Jacobian.options (1 / 2))
    Deployment.stab Jacobian.draws ⟨initGlobals Jacobian.loaded, .zeroed ByteFifo.kernel⟩)
  exact network_ignores_inputs ByteFifo.kernel Jacobian.loaded
    (some (.ok ⟨some (Jacobian.options (1 / 2)), some Deployment.stab⟩)) none Jacobian.draws 0 1
    accepted (unit (1 / 2) (by norm_num) (by norm_num)) ops
    ⟨trivial, unit 0 le_rfl zero_le_one, trivial, trivial⟩

end Inputs

end GapsoRbfPid.HiddenLayer
