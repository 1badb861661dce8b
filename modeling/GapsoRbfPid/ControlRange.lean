import GapsoRbfPid.Deployment
import GapsoRbfPid.Effects

/-! The marking probability and the PID gains stay in their configured ranges through
every run, so the marking decision never converts a probability that is no `int`. -/

namespace GapsoRbfPid.ControlRange
open GapsoRbfPid Library

variable {K Child : Type} [Field K] [LinearOrder K]

def KeepsConfiguration : Op K Child → Prop
  | .change _ _ _ => False
  | .destroy => False
  | _ => True

structure InRange (low high : K) (p : RbfgradParms K) : Prop where
  p_min : p.p_min = low
  p_max : p.p_max = high
  above : low ≤ p.p_k
  below : p.p_k ≤ high
  kp : 0 ≤ p.kp_k
  ki : 0 ≤ p.ki_k
  kd : 0 ≤ p.kd_k

omit [Field K] in
/-- The upper clamp runs first, and the lower one cannot undo it when the bounds are in order. -/
theorem clampProb_mem {low high : K} (ordered : low ≤ high) (value : K) :
    low ≤ clampProb low high value ∧ clampProb low high value ≤ high := by
  unfold clampProb
  dsimp only
  split_ifs with above below below
  · exact ⟨le_rfl, ordered⟩
  · exact ⟨not_lt.mp below, le_rfl⟩
  · exact ⟨le_rfl, ordered⟩
  · exact ⟨not_lt.mp below, not_lt.mp above⟩

theorem clampGain_nonneg (gain : K) : 0 ≤ clampGain gain := by
  unfold clampGain
  split_ifs with negative
  · exact le_rfl
  · exact not_lt.mp negative

/-- Behind the gate the gains are clamped; without it they are not touched. -/
theorem tune_gains_nonneg (exp : K → K) (random32 : ℕ → BitVec 32) (p : RbfgradParms K)
    (kp : 0 ≤ p.kp_k) (ki : 0 ≤ p.ki_k) (kd : 0 ≤ p.kd_k) :
    0 ≤ (tune exp random32 p).kp_k ∧ 0 ≤ (tune exp random32 p).ki_k ∧
      0 ≤ (tune exp random32 p).kd_k := by
  have control := congrArg (fun f => f.2.2) (frame_pass exp random32 p)
  change (learn exp random32 (snapshot p)).toControl = p.toControl at control
  unfold tune
  dsimp only
  split
  · exact ⟨clampGain_nonneg _, clampGain_nonneg _, clampGain_nonneg _⟩
  · rw [control]
    exact ⟨kp, ki, kd⟩

theorem markProbability_inRange (exp : K → K) (random32 : ℕ → BitVec 32) {low high : K}
    (ordered : low ≤ high) {p : RbfgradParms K} (range : InRange low high p) :
    InRange low high (rbfgradMarkProbability exp random32 p) := by
  have params := tune_toParams exp random32 p
  have p_min : (tune exp random32 p).p_min = low := by rw [params, range.p_min]
  have p_max : (tune exp random32 p).p_max = high := by rw [params, range.p_max]
  have gains := tune_gains_nonneg exp random32 p range.kp range.ki range.kd
  have clamped := clampProb_mem ordered (pidOutput (tune exp random32 p))
  rw [← p_min, ← p_max] at clamped
  exact
    { p_min := p_min
      p_max := p_max
      above := p_min ▸ clamped.1
      below := p_max ▸ clamped.2
      kp := gains.1
      ki := gains.2.1
      kd := gains.2.2 }

theorem configured_inRange (ctl : TcRbfgradQopt K) (stab : Stab)
    (random32 : ℕ → BitVec 32) (p : RbfgradParms K) (above : ctl.p_min ≤ ctl.p_init)
    (below : ctl.p_init ≤ ctl.p_max) (kp : 0 ≤ ctl.kp_k) (ki : 0 ≤ ctl.ki_k) (kd : 0 ≤ ctl.kd_k) :
    InRange ctl.p_min ctl.p_max (configured ctl stab random32 p) :=
  ⟨rfl, rfl, above, below, kp, ki, kd⟩

theorem sampleParms_inRange (cyc_count : ℕ) (q : Qdisc K Child) {low high : K}
    (range : InRange low high q.parms) : InRange low high (sampleParms cyc_count q) := by
  constructor <;> simp only [sampleParms_toParams, sampleParms_toControl]
  · exact range.p_min
  · exact range.p_max
  · exact range.above
  · exact range.below
  · exact range.kp
  · exact range.ki
  · exact range.kd

variable [FloorRing K]

theorem step_inRange (kernel : Kernel Child) (exp : K → K) {low high : K} (ordered : low ≤ high)
    (s : State K Child) (op : Op K Child) (range : InRange low high s.qdisc.parms)
    (keeps : KeepsConfiguration op) : InRange low high (step kernel exp s op).qdisc.parms := by
  rw [step_parms]
  cases op with
  | enqueue netRandom skb => exact sampleParms_inRange _ _ range
  | worker random32 => exact markProbability_inRange exp random32 ordered range
  | change opt fifoError random32 => exact keeps.elim
  | destroy => exact keeps.elim
  | _ => exact range

theorem run_inRange (kernel : Kernel Child) (exp : K → K) {low high : K} (ordered : low ≤ high)
    {s : State K Child} (range : InRange low high s.qdisc.parms) (ops : List (Op K Child))
    (keeps : ∀ op ∈ ops, KeepsConfiguration op) :
    InRange low high (Transition.run (step kernel exp) s ops).qdisc.parms :=
  Transition.run_invariant (step_inRange kernel exp ordered) range ops keeps

variable [IsStrictOrderedRing K]

theorem currentP_of_unit {p : RbfgradParms K} (above : 0 ≤ p.p_k) (below : p.p_k ≤ 1) :
    0 ≤ p.p_k * (RAND_MAX : K) ∧ p.p_k * (RAND_MAX : K) ≤ (RAND_MAX : K) ∧
      currentP p = ⌊p.p_k * (RAND_MAX : K)⌋ ∧ 0 ≤ currentP p ∧ currentP p ≤ RAND_MAX := by
  have scale : (0 : K) ≤ (RAND_MAX : K) := by norm_num [RAND_MAX, CInt.intMax]
  have lower : 0 ≤ p.p_k * (RAND_MAX : K) := mul_nonneg above scale
  have upper : p.p_k * (RAND_MAX : K) ≤ (RAND_MAX : K) := mul_le_of_le_one_left scale below
  have converted := CInt.toInt_of_range lower upper
  exact ⟨lower, upper, converted.1, converted.2.1, converted.2.2⟩

/-- From a configuration with `p_min ≤ p_init ≤ p_max` and non-negative gains, every
state of every run that keeps the configuration has the probability between its bounds
and the gains non-negative; with bounds in the unit interval the marking decision
converts a value between 0 and `RAND_MAX`. -/
theorem control_stays_in_range (kernel : Kernel Child) (exp : K → K) (s : State K Child)
    (ctl : TcRbfgradQopt K) (stab : Stab) (random32 : ℕ → BitVec 32)
    (above : ctl.p_min ≤ ctl.p_init) (below : ctl.p_init ≤ ctl.p_max)
    (kp : 0 ≤ ctl.kp_k) (ki : 0 ≤ ctl.ki_k) (kd : 0 ≤ ctl.kd_k)
    (ops : List (Op K Child)) (keeps : ∀ op ∈ ops, KeepsConfiguration op) :
    let start : State K Child :=
      { s with qdisc.parms := configured ctl stab random32 s.qdisc.parms }
    let p := (Transition.run (step kernel exp) start ops).qdisc.parms
    (ctl.p_min ≤ p.p_k ∧ p.p_k ≤ ctl.p_max ∧ 0 ≤ p.kp_k ∧ 0 ≤ p.ki_k ∧ 0 ≤ p.kd_k) ∧
    (0 ≤ ctl.p_min → ctl.p_max ≤ 1 →
      0 ≤ p.p_k * (RAND_MAX : K) ∧ p.p_k * (RAND_MAX : K) ≤ (RAND_MAX : K) ∧
      currentP p = ⌊p.p_k * (RAND_MAX : K)⌋ ∧ 0 ≤ currentP p ∧ currentP p ≤ RAND_MAX) := by
  intro start p
  have installed : InRange ctl.p_min ctl.p_max start.qdisc.parms :=
    configured_inRange ctl stab random32 s.qdisc.parms above below kp ki kd
  have range : InRange ctl.p_min ctl.p_max p :=
    run_inRange kernel exp (above.trans below) installed ops keeps
  refine ⟨⟨range.above, range.below, range.kp, range.ki, range.kd⟩, ?_⟩
  intro unitLow unitHigh
  exact currentP_of_unit (unitLow.trans range.above) (range.below.trans unitHigh)

theorem control_stays_in_range_deployed :
    let start : State ℚ ByteFifo.Child := { Deployment.start with
      qdisc.parms := configured Deployment.options Deployment.stab Deployment.silent
        Deployment.start.qdisc.parms }
    let p := (Transition.run (step ByteFifo.kernel Deployment.decay) start
      [.worker Deployment.silent, .enqueue 5 Deployment.packet, .worker Deployment.silent,
        .dequeue, .drop, .reset]).qdisc.parms
    (0 ≤ p.p_k ∧ p.p_k ≤ 1 ∧ 0 ≤ p.kp_k ∧ 0 ≤ p.ki_k ∧ 0 ≤ p.kd_k) ∧
      0 ≤ currentP p ∧ currentP p ≤ RAND_MAX := by
  have result := control_stays_in_range ByteFifo.kernel Deployment.decay Deployment.start
    Deployment.options Deployment.stab Deployment.silent
    (by norm_num [Deployment.options]) (by norm_num [Deployment.options])
    (by norm_num [Deployment.options]) (by norm_num [Deployment.options])
    (by norm_num [Deployment.options])
    [.worker Deployment.silent, .enqueue 5 Deployment.packet, .worker Deployment.silent,
      .dequeue, .drop, .reset] (by simp [KeepsConfiguration])
  have converted := result.2 (by norm_num [Deployment.options]) (by norm_num [Deployment.options])
  exact ⟨result.1, converted.2.2.2⟩

end GapsoRbfPid.ControlRange
