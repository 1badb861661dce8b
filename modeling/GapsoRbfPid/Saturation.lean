import GapsoRbfPid.ControlRange
import GapsoRbfPid.Library.Clamp
import GapsoRbfPid.PidRefinement
import GapsoRbfPid.StepBounds

/-! Several calls of the worker on one sample. The incremental law applies the same step again at
each of them, so the probability walks in equal steps until it is held at a bound. -/

namespace GapsoRbfPid.Saturation
open GapsoRbfPid Library

variable {K Child : Type} [Field K] [LinearOrder K]

omit [Field K] in
theorem clampProb_eq (low high value : K) : clampProb low high value = max low (min value high) := by
  unfold clampProb
  dsimp only
  split_ifs with above below below
  · rw [min_eq_right above.le, max_eq_left below.le]
  · rw [min_eq_right above.le, max_eq_right (not_lt.mp below)]
  · rw [min_eq_left (not_lt.mp above), max_eq_left below.le]
  · rw [min_eq_left (not_lt.mp above), max_eq_right (not_lt.mp below)]

/-- The step of the incremental law on the errors of a record. -/
def pidStep (p : RbfgradParms K) : K :=
  p.kp_k * (errorNow p - errorLast p) + p.ki_k * errorNow p +
    p.kd_k * (errorNow p - 2 * errorLast p + errorBefore p)

omit [LinearOrder K] in
theorem pidOutput_eq (p : RbfgradParms K) : pidOutput p = p.p_k + pidStep p := by
  unfold pidOutput pidStep
  ring

/-- The learning rates or the newest error are zero. -/
def Frozen (p : RbfgradParms K) : Prop := (p.eta_p = 0 ∧ p.eta_i = 0 ∧ p.eta_d = 0) ∨ p.e_k = 0

/-- Without a rate or an error the gradient step is zero, whatever the swarm has found. -/
theorem tune_gains_of_frozen (exp : K → K) (random32 : ℕ → BitVec 32) {p : RbfgradParms K}
    (frozen : Frozen p) (nonneg : 0 ≤ p.kp_k ∧ 0 ≤ p.ki_k ∧ 0 ≤ p.kd_k) :
    (tune exp random32 p).kp_k = p.kp_k ∧ (tune exp random32 p).ki_k = p.ki_k ∧
      (tune exp random32 p).kd_k = p.kd_k := by
  rcases frozen with rates | idle
  · exact PidRefinement.tune_gains exp random32 p rates nonneg
  · have window := congrArg (fun kept => kept.2.1) (frame_pass exp random32 p)
    have control := congrArg (fun kept => kept.2.2) (frame_pass exp random32 p)
    simp only [frame] at window control
    unfold tune
    dsimp only
    split
    · have zero : errorNow (learn exp random32 (snapshot p)) = 0 := by
        rw [errorNow, window, idle]
        simp
      simp only [updateGains]
      rw [zero, control]
      simp only [mul_zero, zero_mul, add_zero]
      exact ⟨PidRefinement.clampGain_of_nonneg nonneg.1,
        PidRefinement.clampGain_of_nonneg nonneg.2.1, PidRefinement.clampGain_of_nonneg nonneg.2.2⟩
    · rw [control]
      exact ⟨rfl, rfl, rfl⟩

/-- A record that a number of calls have made of another one. -/
structure Dwelt (before : RbfgradParms K) (n : ℕ) (p : RbfgradParms K) : Prop where
  params : p.toParams = before.toParams
  window : p.toWindow = before.toWindow
  gains : p.kp_k = before.kp_k ∧ p.ki_k = before.ki_k ∧ p.kd_k = before.kd_k
  p_k : p.p_k = Clamp.accumulate before.p_min before.p_max (pidStep before) n before.p_k

theorem Dwelt.call {before p : RbfgradParms K} {n : ℕ} (dwelt : Dwelt before n p)
    (frozen : Frozen before) (nonneg : 0 ≤ before.kp_k ∧ 0 ≤ before.ki_k ∧ 0 ≤ before.kd_k)
    (exp : K → K) (random32 : ℕ → BitVec 32) :
    Dwelt before (n + 1) (rbfgradMarkProbability exp random32 p) := by
  have still : Frozen p := by
    unfold Frozen
    rw [dwelt.params, dwelt.window]
    exact frozen
  have positive : 0 ≤ p.kp_k ∧ 0 ≤ p.ki_k ∧ 0 ≤ p.kd_k := by
    rw [dwelt.gains.1, dwelt.gains.2.1, dwelt.gains.2.2]
    exact nonneg
  have kept := tune_gains_of_frozen exp random32 still positive
  have params := tune_toParams exp random32 p
  have window := tune_toWindow exp random32 p
  have same : pidStep (tune exp random32 p) = pidStep before := by
    unfold pidStep errorNow errorLast errorBefore
    rw [kept.1, kept.2.1, kept.2.2, window, dwelt.window, dwelt.gains.1, dwelt.gains.2.1,
      dwelt.gains.2.2]
  apply Dwelt.mk
  · rw [markProbability_toParams, dwelt.params]
  · rw [markProbability_toWindow, dwelt.window]
  · exact ⟨kept.1.trans dwelt.gains.1, kept.2.1.trans dwelt.gains.2.1,
      kept.2.2.trans dwelt.gains.2.2⟩
  · calc
      (rbfgradMarkProbability exp random32 p).p_k
        = clampProb before.p_min before.p_max (pidOutput (tune exp random32 p)) := by
          rw [← dwelt.params, ← params]
          rfl
      _ = Clamp.clamp before.p_min before.p_max (p.p_k + pidStep before) := by
          rw [clampProb_eq, pidOutput_eq, same, tune_p_k]
          rfl
      _ = _ := by rw [dwelt.p_k, Clamp.accumulate]

/-- The operations between two samples. -/
def BetweenSamples (s : State K Child) : Op K Child → Prop
  | .enqueue _ _ => s.globals.cyc_count + 1 ≠ CYC_MAX
  | .change _ _ _ => False
  | _ => True

variable [FloorRing K]

theorem Dwelt.step {before : RbfgradParms K} {n : ℕ} {s : State K Child}
    (dwelt : Dwelt before n s.qdisc.parms) (frozen : Frozen before)
    (nonneg : 0 ≤ before.kp_k ∧ 0 ≤ before.ki_k ∧ 0 ≤ before.kd_k) (kernel : Kernel Child)
    (exp : K → K) (op : Op K Child) (between : BetweenSamples s op) :
    Dwelt before (n + StepBounds.calls [op]) (step kernel exp s op).qdisc.parms := by
  rw [step_parms]
  cases op with
  | enqueue netRandom skb =>
    dsimp only
    rw [sampleParms, if_neg between]
    exact dwelt
  | worker random32 => exact dwelt.call frozen nonneg exp random32
  | change opt fifoError random32 => exact between.elim
  | _ => exact dwelt

variable [IsStrictOrderedRing K]

/-- In every run from a configuration with ordered bounds and non-negative gains: as long as no
sample is taken, and with the learning rates or the newest error at zero, `n` calls of the worker
move the probability by `n` times the step of the first and clamp it once; it reaches a bound after
as many calls as the distance takes and then stays there. -/
theorem calls_accumulate (kernel : Kernel Child) (exp : K → K) (s : State K Child)
    (ctl : TcRbfgradQopt K) (stab : Stab) (random32 : ℕ → BitVec 32)
    (above : ctl.p_min ≤ ctl.p_init) (below : ctl.p_init ≤ ctl.p_max)
    (kp : 0 ≤ ctl.kp_k) (ki : 0 ≤ ctl.ki_k) (kd : 0 ≤ ctl.kd_k) (before dwell : List (Op K Child))
    (keeps : ∀ op ∈ before, ControlRange.KeepsConfiguration op) :
    let start := install kernel ctl stab random32 s
    let sampled := Transition.run (step kernel exp) start before
    let p := sampled.qdisc.parms
    let later := (Transition.run (step kernel exp) sampled dwell).qdisc.parms
    let n : K := StepBounds.calls dwell
    Frozen p → Transition.Along (step kernel exp) BetweenSamples sampled dwell →
    later.p_k = max ctl.p_min (min (p.p_k + n * pidStep p) ctl.p_max) ∧
    (ctl.p_max - p.p_k ≤ n * pidStep p → later.p_k = ctl.p_max) ∧
    (n * pidStep p ≤ ctl.p_min - p.p_k → later.p_k = ctl.p_min) := by
  intro start sampled p later n frozen between
  have ordered := above.trans below
  have installed : ControlRange.InRange ctl.p_min ctl.p_max start.qdisc.parms := by
    rw [install_parms]
    exact ControlRange.configured_inRange ctl stab random32 s.qdisc.parms above below kp ki kd
  have range : ControlRange.InRange ctl.p_min ctl.p_max p :=
    ControlRange.run_inRange kernel exp ordered installed before keeps
  have initially : Dwelt p 0 sampled.qdisc.parms := ⟨rfl, rfl, ⟨rfl, rfl, rfl⟩, rfl⟩
  have nonneg : 0 ≤ p.kp_k ∧ 0 ≤ p.ki_k ∧ 0 ≤ p.kd_k := ⟨range.kp, range.ki, range.kd⟩
  have advances : ∀ n (s : State K Child) op, Dwelt p n s.qdisc.parms → BetweenSamples s op →
      Dwelt p (n + StepBounds.calls [op]) (step kernel exp s op).qdisc.parms :=
    fun n s op dwelt met => dwelt.step frozen nonneg kernel exp op met
  have dwelt := Transition.run_counted advances initially dwell between
  rw [← StepBounds.calls_eq_total, Nat.zero_add] at dwelt
  have total : later.p_k = Clamp.clamp ctl.p_min ctl.p_max (p.p_k + n * pidStep p) := by
    rw [dwelt.p_k, range.p_min, range.p_max, Clamp.accumulate_eq range.above range.below]
  refine ⟨total, ?_, ?_⟩
  · intro far
    rw [total, Clamp.clamp_of_high ordered (by linarith)]
  · intro far
    rw [total, Clamp.clamp_of_low ordered (by linarith)]

/-- The set-up without learning rates, after the first sample. -/
def filled : State ℚ ByteFifo.Child :=
  Transition.run (step ByteFifo.kernel Deployment.decay)
    (install ByteFifo.kernel PidRefinement.fixedGains Deployment.stab Deployment.silent
      Deployment.start) (List.replicate 20 (.enqueue 7 Deployment.packet))

theorem calls_accumulate_deployed :
    (Transition.run (step ByteFifo.kernel Deployment.decay) filled [.worker Deployment.silent,
      .enqueue 7 Deployment.packet, .worker Deployment.silent]).qdisc.parms.p_k =
        1 / 2 - 2 * (281 / 6500 * (27 / 1000)) := by
  have frozen : Frozen filled.qdisc.parms := .inl (by decide +kernel)
  have step : pidStep filled.qdisc.parms = -(281 / 6500 * (27 / 1000)) := by decide +kernel
  have p_k : filled.qdisc.parms.p_k = 1 / 2 := by decide +kernel
  have early : filled.globals.cyc_count + 1 ≠ CYC_MAX := by decide +kernel
  have law := calls_accumulate ByteFifo.kernel Deployment.decay Deployment.start
    PidRefinement.fixedGains Deployment.stab Deployment.silent
    (by norm_num [PidRefinement.fixedGains, Deployment.options])
    (by norm_num [PidRefinement.fixedGains, Deployment.options])
    (by norm_num [PidRefinement.fixedGains, Deployment.options])
    (by norm_num [PidRefinement.fixedGains, Deployment.options])
    (by norm_num [PidRefinement.fixedGains, Deployment.options])
    (List.replicate 20 (.enqueue 7 Deployment.packet)) [.worker Deployment.silent,
      .enqueue 7 Deployment.packet, .worker Deployment.silent]
    (by simp [ControlRange.KeepsConfiguration]) frozen ⟨trivial, early, trivial, trivial⟩
  refine law.1.trans ?_
  change max (0 : ℚ) (min (filled.qdisc.parms.p_k + (2 : ℕ) * pidStep filled.qdisc.parms) 1) = _
  rw [p_k, step]
  norm_num

end GapsoRbfPid.Saturation
