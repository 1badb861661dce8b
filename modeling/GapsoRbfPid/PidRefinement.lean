import GapsoRbfPid.Deployment
import GapsoRbfPid.Effects
import GapsoRbfPid.Library.Pid

/-! With the learning rates at zero the worker is a PID controller. Its incremental update,
fed by the error history that the enqueue operation shifts, computes the positional law on
all the samples taken since the configuration. -/

namespace GapsoRbfPid.PidRefinement
open GapsoRbfPid Library

variable {K Child : Type} [Field K]

structure Trace where
  -- the sampled queue lengths, newest first
  samples : List (BitVec 32)
  -- calls of `rbfgrad_mark_probability`
  updates : ℕ

def watch (trace : Trace) (s : State K Child) : Op K Child → Trace
  | .enqueue _ _ =>
      { trace with samples := if s.globals.cyc_count + 1 = CYC_MAX then
          s.qdisc.qlen :: trace.samples else trace.samples }
  | .worker _ => { trace with updates := trace.updates + 1 }
  | _ => trace

/-- The normalised errors of a list of samples, with the subtraction that C computes. -/
def differences (q_ref : Int32) (samples : List (BitVec 32)) : List K :=
  samples.map fun length => ((CInt.subInt length q_ref).toInt : K) / 6500

theorem differences_of_fits {q_ref : Int32} {samples : List (BitVec 32)}
    (fits : ∀ length ∈ samples, -2147483648 ≤ length.toNat - q_ref.toInt ∧
      length.toNat - q_ref.toInt ≤ CInt.intMax) :
    (differences q_ref samples : List K) =
      samples.map fun length => ((length.toNat - q_ref.toInt : ℤ) : K) / 6500 := by
  apply List.map_congr_left
  intro length member
  rw [CInt.subInt_eq length q_ref (fits length member).1 (fits length member).2]

/-- The controller follows the positional law, or is one update behind it. -/
structure Follows (ctl : TcRbfgradQopt K) (trace : Trace) (p : RbfgradParms K) : Prop where
  q_ref : p.q_ref = ctl.q_ref
  bounds : p.p_min = ctl.p_min ∧ p.p_max = ctl.p_max
  rates : p.eta_p = 0 ∧ p.eta_i = 0 ∧ p.eta_d = 0
  gains : p.kp_k = ctl.kp_k ∧ p.ki_k = ctl.ki_k ∧ p.kd_k = ctl.kd_k
  now : errorNow p = (differences ctl.q_ref trace.samples).getD 0 0
  last : errorLast p = (differences ctl.q_ref trace.samples).getD 1 0
  before : errorBefore p = (differences ctl.q_ref trace.samples).getD 2 0
  current : trace.samples.length = trace.updates →
    p.p_k = Pid.positional ctl.kp_k ctl.ki_k ctl.kd_k ctl.p_init
      (differences ctl.q_ref trace.samples)
  pending : trace.samples.length = trace.updates + 1 →
    p.p_k = Pid.positional ctl.kp_k ctl.ki_k ctl.kd_k ctl.p_init
      (differences ctl.q_ref trace.samples).tail

theorem configured_follows (ctl : TcRbfgradQopt K) (stab : Stab) (random32 : ℕ → BitVec 32)
    (p : RbfgradParms K) (rates : ctl.eta_p = 0 ∧ ctl.eta_i = 0 ∧ ctl.eta_d = 0) :
    Follows ctl ⟨[], 0⟩ (configured ctl stab random32 p) where
  q_ref := rfl
  bounds := ⟨rfl, rfl⟩
  rates := rates
  gains := ⟨rfl, rfl, rfl⟩
  now := by simp [errorNow, configured, rbfgradSetParms, differences]
  last := by simp [errorLast, configured, rbfgradSetParms, differences]
  before := by simp [errorBefore, configured, rbfgradSetParms, differences]
  current _ := (Pid.positional_nil _ _ _ _).symm
  pending impossible := absurd impossible (by simp)

/-- A sample shifts the errors; the probability waits for the worker. -/
theorem sampled_follows {ctl : TcRbfgradQopt K} {trace : Trace} {q : Qdisc K Child}
    (follows : Follows ctl trace q.parms) (caughtUp : trace.samples.length = trace.updates) :
    Follows ctl ⟨q.qlen :: trace.samples, trace.updates⟩ (sampled q) where
  q_ref := follows.q_ref
  bounds := follows.bounds
  rates := follows.rates
  gains := follows.gains
  now := by
    change ((CInt.subInt q.qlen q.parms.q_ref).toInt : K) / 6500 = _
    rw [follows.q_ref]
    rfl
  last := follows.now
  before := follows.last
  current impossible := by
    change trace.samples.length + 1 = trace.updates at impossible
    omega
  pending _ := follows.current caughtUp

section Update
variable [LinearOrder K]

theorem clampGain_of_nonneg {gain : K} (nonneg : 0 ≤ gain) : clampGain gain = gain :=
  if_neg (not_lt.mpr nonneg)

omit [Field K] in
theorem clampProb_of_bounds {low high p_k : K} (above : low ≤ p_k) (below : p_k ≤ high) :
    clampProb low high p_k = p_k := by
  simp only [clampProb, gt_iff_lt, if_neg (not_lt.mpr below), if_neg (not_lt.mpr above)]

/-- With the learning rates at zero neither the swarm nor the error gate moves a gain. -/
theorem tune_gains (exp : K → K) (random32 : ℕ → BitVec 32) (p : RbfgradParms K)
    (rates : p.eta_p = 0 ∧ p.eta_i = 0 ∧ p.eta_d = 0)
    (nonneg : 0 ≤ p.kp_k ∧ 0 ≤ p.ki_k ∧ 0 ≤ p.kd_k) :
    (tune exp random32 p).kp_k = p.kp_k ∧ (tune exp random32 p).ki_k = p.ki_k ∧
      (tune exp random32 p).kd_k = p.kd_k := by
  have params := congrArg Prod.fst (frame_pass exp random32 p)
  have control := congrArg (fun f => f.2.2) (frame_pass exp random32 p)
  simp only [frame] at params control
  unfold tune
  dsimp only
  split
  · simp only [updateGains]
    rw [params, control, rates.1, rates.2.1, rates.2.2]
    simp only [zero_mul, add_zero]
    exact ⟨clampGain_of_nonneg nonneg.1, clampGain_of_nonneg nonneg.2.1,
      clampGain_of_nonneg nonneg.2.2⟩
  · rw [control]
    exact ⟨rfl, rfl, rfl⟩

theorem pidOutput_tune {ctl : TcRbfgradQopt K} {trace : Trace} {p : RbfgradParms K}
    (exp : K → K) (random32 : ℕ → BitVec 32) (follows : Follows ctl trace p)
    (nonneg : 0 ≤ ctl.kp_k ∧ 0 ≤ ctl.ki_k ∧ 0 ≤ ctl.kd_k) :
    pidOutput (tune exp random32 p) =
      Pid.incremental ctl.kp_k ctl.ki_k ctl.kd_k p.p_k
        ((differences ctl.q_ref trace.samples).getD 0 0)
        ((differences ctl.q_ref trace.samples).getD 1 0)
        ((differences ctl.q_ref trace.samples).getD 2 0) := by
  have kept := tune_gains exp random32 p follows.rates
    (by rw [follows.gains.1, follows.gains.2.1, follows.gains.2.2]; exact nonneg)
  have window := tune_toWindow exp random32 p
  rw [← follows.now, ← follows.last, ← follows.before, ← follows.gains.1, ← follows.gains.2.1,
    ← follows.gains.2.2]
  simp only [pidOutput, Pid.incremental, errorNow, errorLast, errorBefore, window, kept, tune_p_k]

theorem markProbability_follows {ctl : TcRbfgradQopt K} {trace : Trace} {p : RbfgradParms K}
    (exp : K → K) (random32 : ℕ → BitVec 32) (follows : Follows ctl trace p)
    (nonneg : 0 ≤ ctl.kp_k ∧ 0 ≤ ctl.ki_k ∧ 0 ≤ ctl.kd_k)
    (behind : trace.samples.length = trace.updates + 1)
    (above : ctl.p_min ≤ pidOutput (tune exp random32 p))
    (below : pidOutput (tune exp random32 p) ≤ ctl.p_max) :
    Follows ctl { trace with updates := trace.updates + 1 }
      (rbfgradMarkProbability exp random32 p) := by
  have params := markProbability_toParams exp random32 p
  have window := markProbability_toWindow exp random32 p
  have kept := tune_gains exp random32 p follows.rates
    (by rw [follows.gains.1, follows.gains.2.1, follows.gains.2.2]; exact nonneg)
  refine
    { q_ref := by rw [params]; exact follows.q_ref
      bounds := by rw [params]; exact follows.bounds
      rates := by rw [params]; exact follows.rates
      gains := ⟨kept.1.trans follows.gains.1, kept.2.1.trans follows.gains.2.1,
        kept.2.2.trans follows.gains.2.2⟩
      now := by rw [errorNow, window]; exact follows.now
      last := by rw [errorLast, window]; exact follows.last
      before := by rw [errorBefore, window]; exact follows.before
      current := fun _ => ?_
      pending := fun impossible => absurd (behind.symm.trans impossible) (by simp) }
  obtain ⟨newest, older, samples⟩ : ∃ newest older, trace.samples = newest :: older :=
    List.exists_cons_of_length_eq_add_one behind
  have bounds : (tune exp random32 p).p_min = ctl.p_min ∧ (tune exp random32 p).p_max = ctl.p_max := by
    rw [tune_toParams]
    exact follows.bounds
  have output := pidOutput_tune exp random32 follows nonneg
  have previous := follows.pending behind
  calc
    (rbfgradMarkProbability exp random32 p).p_k
      = clampProb ctl.p_min ctl.p_max (pidOutput (tune exp random32 p)) := by
        rw [← bounds.1, ← bounds.2]
        rfl
    _ = pidOutput (tune exp random32 p) := clampProb_of_bounds above below
    _ = _ := by
        rw [output, previous, samples]
        exact (Pid.positional_cons _ _ _ _ _ (differences ctl.q_ref older)).symm

end Update

section Runs
variable [LinearOrder K] [FloorRing K]

/-- One update for each sample, and none of them clamped. -/
def Paced (ctl : TcRbfgradQopt K) (exp : K → K) (state : State K Child × Trace) :
    Op K Child → Prop
  | .enqueue _ _ => state.1.globals.cyc_count + 1 = CYC_MAX →
      state.2.samples.length = state.2.updates
  | .worker random32 => state.2.samples.length = state.2.updates + 1 ∧
      ctl.p_min ≤ pidOutput (tune exp random32 state.1.qdisc.parms) ∧
      pidOutput (tune exp random32 state.1.qdisc.parms) ≤ ctl.p_max
  | .change _ _ _ => False
  | .destroy => False
  | _ => True

theorem step_follows (kernel : Kernel Child) (exp : K → K) {ctl : TcRbfgradQopt K}
    (nonneg : 0 ≤ ctl.kp_k ∧ 0 ≤ ctl.ki_k ∧ 0 ≤ ctl.kd_k) (state : State K Child × Trace)
    (op : Op K Child) (follows : Follows ctl state.2 state.1.qdisc.parms)
    (paced : Paced ctl exp state op) :
    Follows ctl (watch state.2 state.1 op) (step kernel exp state.1 op).qdisc.parms := by
  obtain ⟨s, trace⟩ := state
  rw [step_parms]
  cases op with
  | enqueue netRandom skb =>
    by_cases sampling : s.globals.cyc_count + 1 = CYC_MAX
    · simp only [watch, sampleParms, if_pos sampling]
      exact sampled_follows follows (paced sampling)
    · simp only [watch, sampleParms, if_neg sampling]
      exact follows
  | worker random32 =>
    exact markProbability_follows exp random32 follows nonneg paced.1 paced.2.1 paced.2.2
  | change opt fifoError random32 => exact paced.elim
  | destroy => exact paced.elim
  | _ => exact follows

/-- From any configuration with zero learning rates and non-negative gains, and along any
run with one unclamped update for each sample, the probability is the positional PID law on
the samples. The second conjunct reads the C differences as numbers. -/
theorem incremental_refines_positional (kernel : Kernel Child) (exp : K → K) (s : State K Child)
    (ctl : TcRbfgradQopt K) (stab : Stab) (random32 : ℕ → BitVec 32)
    (rates : ctl.eta_p = 0 ∧ ctl.eta_i = 0 ∧ ctl.eta_d = 0)
    (nonneg : 0 ≤ ctl.kp_k ∧ 0 ≤ ctl.ki_k ∧ 0 ≤ ctl.kd_k) (ops : List (Op K Child)) :
    let start : State K Child × Trace :=
      ({ s with qdisc.parms := configured ctl stab random32 s.qdisc.parms }, ⟨[], 0⟩)
    let watched := Transition.recording (step kernel exp) watch
    let final := Transition.run watched start ops
    let law (d : List K) : K := ctl.p_init + ctl.kp_k * d.getD 0 0 + ctl.ki_k * d.sum +
      ctl.kd_k * (d.getD 0 0 - d.getD 1 0)
    Transition.Along watched (Paced ctl exp) start ops →
    final.2.samples.length = final.2.updates →
    final.1.qdisc.parms.p_k = law (differences ctl.q_ref final.2.samples) ∧
    ((∀ length ∈ final.2.samples, -2147483648 ≤ length.toNat - ctl.q_ref.toInt ∧
        length.toNat - ctl.q_ref.toInt ≤ CInt.intMax) →
      final.1.qdisc.parms.p_k = law (final.2.samples.map fun length =>
        ((length.toNat - ctl.q_ref.toInt : ℤ) : K) / 6500)) := by
  intro start watched final law paced caughtUp
  have initially : Follows ctl start.2 start.1.qdisc.parms :=
    configured_follows ctl stab random32 s.qdisc.parms rates
  have follows : Follows ctl final.2 final.1.qdisc.parms :=
    Transition.run_invariant_along
      (fun state op holds met => step_follows kernel exp nonneg state op holds met)
      initially ops paced
  have exact : final.1.qdisc.parms.p_k = law (differences ctl.q_ref final.2.samples) :=
    follows.current caughtUp
  refine ⟨exact, ?_⟩
  intro fits
  rw [exact, differences_of_fits fits]

end Runs

/-- The test set-up with the learning rates at zero and a probability to start from. -/
def fixedGains : TcRbfgradQopt ℚ :=
  { Deployment.options with p_init := 1 / 2, eta_p := 0, eta_i := 0, eta_d := 0 }

def primed : State ℚ ByteFifo.Child :=
  Transition.run (step ByteFifo.kernel Deployment.decay) Deployment.start
    (List.replicate 19 (.enqueue 7 Deployment.packet))

theorem incremental_refines_positional_deployed :
    let start : State ℚ ByteFifo.Child × Trace :=
      ({ primed with
          qdisc.parms := configured fixedGains Deployment.stab Deployment.silent
            primed.qdisc.parms }, ⟨[], 0⟩)
    let final := Transition.run (Transition.recording (step ByteFifo.kernel Deployment.decay) watch)
      start [.enqueue 7 Deployment.packet, .worker Deployment.silent]
    final.2.samples = [19] ∧ final.1.qdisc.parms.p_k =
      1 / 2 + 1 / 100 * (-281 / 6500) + 7 / 1000 * (-281 / 6500) + 1 / 100 * (-281 / 6500) := by
  intro start final
  have sampling : primed.globals.cyc_count + 1 = CYC_MAX := by decide +kernel
  have length : primed.qdisc.qlen = 19 := by decide +kernel
  have samples : (watch start.2 start.1 (.enqueue 7 Deployment.packet)).samples = [19] := by
    change (if primed.globals.cyc_count + 1 = CYC_MAX then [primed.qdisc.qlen] else []) = [19]
    rw [if_pos sampling, length]
  have nonneg : 0 ≤ fixedGains.kp_k ∧ 0 ≤ fixedGains.ki_k ∧ 0 ≤ fixedGains.kd_k := by
    norm_num [fixedGains, Deployment.options]
  have initially : Follows fixedGains start.2 start.1.qdisc.parms :=
    configured_follows fixedGains Deployment.stab Deployment.silent primed.qdisc.parms
      ⟨rfl, rfl, rfl⟩
  have follows := step_follows ByteFifo.kernel Deployment.decay nonneg start
    (.enqueue 7 Deployment.packet) initially (fun _ => rfl)
  have output := pidOutput_tune Deployment.decay Deployment.silent follows nonneg
  have previous := follows.pending (by rw [samples]; rfl)
  rw [previous, samples] at output
  have value : pidOutput (tune Deployment.decay Deployment.silent
      (step ByteFifo.kernel Deployment.decay start.1 (.enqueue 7 Deployment.packet)).qdisc.parms) =
      1 / 2 + 1 / 100 * (-281 / 6500) + 7 / 1000 * (-281 / 6500) + 1 / 100 * (-281 / 6500) :=
    output.trans (by decide +kernel)
  have paced : Transition.Along (Transition.recording (step ByteFifo.kernel Deployment.decay) watch)
      (Paced fixedGains Deployment.decay) start
      [.enqueue 7 Deployment.packet, .worker Deployment.silent] := by
    refine ⟨fun _ => rfl, ⟨?_, ?_, ?_⟩, trivial⟩
    · exact congrArg List.length samples
    · exact le_of_le_of_eq (by norm_num [fixedGains, Deployment.options]) value.symm
    · exact le_of_eq_of_le value (by norm_num [fixedGains, Deployment.options])
  have law := incremental_refines_positional ByteFifo.kernel Deployment.decay primed fixedGains
    Deployment.stab Deployment.silent ⟨rfl, rfl, rfl⟩ nonneg
    [.enqueue 7 Deployment.packet, .worker Deployment.silent] paced (congrArg List.length samples)
  have sampledOnce : final.2.samples = [19] := samples
  refine ⟨sampledOnce, law.1.trans ?_⟩
  change Pid.positional fixedGains.kp_k fixedGains.ki_k fixedGains.kd_k fixedGains.p_init
    (differences fixedGains.q_ref final.2.samples) = _
  rw [sampledOnce]
  decide +kernel

end GapsoRbfPid.PidRefinement
