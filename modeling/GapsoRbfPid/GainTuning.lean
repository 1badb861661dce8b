import GapsoRbfPid.HiddenLayer
import GapsoRbfPid.StepBounds

/-! The self-tuning of the gains under a configured network. Its gradient is a constant times the
marking probability and the queue, so the integral gain only falls, and no gain moves fast. -/

namespace GapsoRbfPid.GainTuning
open GapsoRbfPid Library HiddenLayer

variable {K Child : Type} [Field K]

section IntegralGain
variable [LinearOrder K]

omit [Field K] in
/-- The lower clamp runs last, so it holds whatever the upper bound is. -/
theorem le_clampProb (low high value : K) : low ≤ clampProb low high value := by
  unfold clampProb
  dsimp only
  split_ifs with above below below
  · exact le_rfl
  · exact not_lt.mp below
  · exact le_rfl
  · exact not_lt.mp below

theorem clampGain_le {gain change : K} [IsStrictOrderedRing K] (nonneg : 0 ≤ gain)
    (falls : change ≤ 0) : clampGain (gain + change) ≤ gain := by
  unfold clampGain
  split_ifs
  · exact nonneg
  · linarith

/-- A controller with the integral gain between zero and a bound, and a newest sample of ten
packets or none at all. -/
structure Falling (top : K) (p : RbfgradParms K) : Prop where
  uniform : Uniform p
  p_min : 0 ≤ p.p_min
  p_k : 0 ≤ p.p_k
  rate : 0 ≤ p.eta_i
  nonneg : 0 ≤ p.ki_k
  below : p.ki_k ≤ top
  busy : p.e_k = 0 ∨ 10 ≤ p.queue_len[(0 : Fin SAM_NUM)].toInt

variable [IsStrictOrderedRing K] {top : K} {p : RbfgradParms K} (exp : K → K)
  (random32 : ℕ → BitVec 32)

/-- Behind the gate ten packets force a positive output. -/
theorem slope_nonpos (uniform : Uniform p) (nonneg : 0 ≤ p.p_k)
    (busy : 10 ≤ p.queue_len[(0 : Fin SAM_NUM)].toInt)
    (fit : (rbfgradMarkProbability exp random32 p).gbestval <
      (rbfgradMarkProbability exp random32 p).E0) : tuningSlope exp random32 p ≤ 0 := by
  have near := uniform.output_near exp random32 fit
  have length : (10 : K) ≤ (p.queue_len[(0 : Fin SAM_NUM)].toInt : K) := by exact_mod_cast busy
  have share : (10 : K) / 6500 ≤ (p.queue_len[(0 : Fin SAM_NUM)].toInt : K) / 6500 :=
    div_le_div_of_nonneg_right length (by norm_num)
  have output : 0 ≤ SwarmRecord.output exp p (rbfgradMarkProbability exp random32 p).w_k := by
    by_contra negative
    have gap : (10 : K) / 6500 ≤ (p.queue_len[(0 : Fin SAM_NUM)].toInt : K) / 6500 -
        SwarmRecord.output exp p (rbfgradMarkProbability exp random32 p).w_k := by
      linarith [not_le.mp negative]
    have square := pow_le_pow_left₀ (by norm_num) gap 2
    linarith
  unfold tuningSlope
  rw [neg_mul]
  exact neg_nonpos.mpr (mul_nonneg (div_nonneg nonneg (by norm_num)) output)

/-- The step of the integral gain never goes up. -/
theorem Falling.gain (falling : Falling top p) :
    0 ≤ (rbfgradMarkProbability exp random32 p).ki_k ∧
      (rbfgradMarkProbability exp random32 p).ki_k ≤ p.ki_k := by
  rcases falling.uniform.call_cases exp random32 with ⟨-, -, same, -⟩ | ⟨fit, -, -, tuned, -⟩
  · rw [same]
    exact ⟨falling.nonneg, le_rfl⟩
  · have falls : p.eta_i * errorNow p * tuningSlope exp random32 p * errorNow p ≤ 0 := by
      rcases falling.busy with idle | busy
      · have zero : errorNow p = 0 := by
          rw [errorNow, idle]
          simp
        rw [zero, mul_zero]
      · have descent := slope_nonpos exp random32 falling.uniform falling.p_k busy fit
        have square := mul_nonneg falling.rate (mul_self_nonneg (errorNow p))
        have product := mul_nonpos_of_nonneg_of_nonpos square descent
        linarith
    rw [tuned]
    exact ⟨ControlRange.clampGain_nonneg _, clampGain_le falling.nonneg falls⟩

omit [IsStrictOrderedRing K] in
theorem p_min_le_markProbability : p.p_min ≤ (rbfgradMarkProbability exp random32 p).p_k := by
  calc
    p.p_min = (tune exp random32 p).p_min := (congrArg Params.p_min (tune_toParams exp random32 p)).symm
    _ ≤ _ := le_clampProb _ (tune exp random32 p).p_max (pidOutput (tune exp random32 p))

theorem Falling.call (falling : Falling top p) :
    Falling top (rbfgradMarkProbability exp random32 p) := by
  have window := markProbability_toWindow exp random32 p
  have params := markProbability_toParams exp random32 p
  have gain := falling.gain exp random32
  exact
    { uniform := markProbability_uniform exp random32 falling.uniform
      p_min := by rw [params]; exact falling.p_min
      p_k := falling.p_min.trans (p_min_le_markProbability exp random32)
      rate := by rw [params]; exact falling.rate
      nonneg := gain.1
      below := gain.2.trans falling.below
      busy := by rw [window]; exact falling.busy }

omit [IsStrictOrderedRing K] in
theorem Falling.sampled {q : Qdisc K Child} (falling : Falling top q.parms)
    (busy : 10 ≤ (Int32.ofBitVec q.qlen).toInt) : Falling top (sampled q) where
  uniform := ⟨falling.uniform.centres, falling.uniform.widths, falling.uniform.gate⟩
  p_min := falling.p_min
  p_k := falling.p_k
  rate := falling.rate
  nonneg := falling.nonneg
  below := falling.below
  busy := by
    right
    rw [sampled_length]
    exact busy

variable [FloorRing K]

/-- The configuration stays, and every sample finds ten packets or more. -/
def Busy (s : State K Child) : Op K Child → Prop
  | .enqueue _ _ => s.globals.cyc_count + 1 = CYC_MAX → 10 ≤ (Int32.ofBitVec s.qdisc.qlen).toInt
  | .change _ _ _ => False
  | _ => True

instance (s : State K Child) (op : Op K Child) : Decidable (Busy s op) :=
  match op with
  | .enqueue _ _ => inferInstanceAs (Decidable (_ → _))
  | .change _ _ _ => inferInstanceAs (Decidable False)
  | .dequeue | .drop | .reset | .graft _ | .dump _ | .dumpStats | .worker _ | .destroy =>
      inferInstanceAs (Decidable True)

theorem Falling.step {s : State K Child} (falling : Falling top s.qdisc.parms)
    (kernel : Kernel Child) (op : Op K Child) (busy : Busy s op) :
    Falling top (step kernel exp s op).qdisc.parms := by
  rw [step_parms]
  cases op with
  | enqueue netRandom skb =>
    dsimp only
    unfold sampleParms
    split_ifs with sampling
    · exact falling.sampled (busy sampling)
    · exact falling
  | worker random32 => exact falling.call exp random32
  | change opt fifoError random32 => exact busy.elim
  | _ => exact falling

/-- From any accepted configuration with non-negative probabilities, integral gain and rate, and
while every sample finds ten packets or more, the self-tuning only ever lowers the integral gain. -/
theorem integral_gain_never_rises (kernel : Kernel Child) (exp : K → K) (s : State K Child)
    (ctl : TcRbfgradQopt K) (stab : Stab) (random32 : ℕ → BitVec 32) (p_min : 0 ≤ ctl.p_min)
    (p_init : 0 ≤ ctl.p_init) (ki : 0 ≤ ctl.ki_k) (rate : 0 ≤ ctl.eta_i)
    (before after : List (Op K Child)) :
    let start := install kernel ctl stab random32 s
    let earlier := Transition.run (step kernel exp) start before
    let later := Transition.run (step kernel exp) start (before ++ after)
    Transition.Along (step kernel exp) Busy start (before ++ after) →
    0 ≤ later.qdisc.parms.ki_k ∧ later.qdisc.parms.ki_k ≤ earlier.qdisc.parms.ki_k ∧
      earlier.qdisc.parms.ki_k ≤ ctl.ki_k := by
  intro start earlier later along
  have keeps : ∀ top : K, ∀ (s : State K Child) op, Falling top s.qdisc.parms → Busy s op →
      Falling top (step kernel exp s op).qdisc.parms :=
    fun _ _ op falling busy => falling.step exp kernel op busy
  have installed : Falling ctl.ki_k start.qdisc.parms := by
    rw [install_parms]
    exact ⟨configured_uniform ctl stab random32 s.qdisc.parms, p_min, p_init, rate, ki, le_rfl,
      .inl rfl⟩
  obtain ⟨first, second⟩ := Transition.along_append.mp along
  have reached : Falling ctl.ki_k earlier.qdisc.parms :=
    Transition.run_invariant_along (keeps ctl.ki_k) installed before first
  have capped : Falling earlier.qdisc.parms.ki_k earlier.qdisc.parms :=
    { reached with below := le_rfl }
  have final : Falling earlier.qdisc.parms.ki_k later.qdisc.parms := by
    change Falling _ (Transition.run _ start (before ++ after)).qdisc.parms
    rw [Transition.run_append]
    exact Transition.run_invariant_along (keeps earlier.qdisc.parms.ki_k) capped after second
  exact ⟨final.nonneg, final.below, reached.below⟩

end IntegralGain

/-- The queue of the set-up filled up to the sample. -/
def filling : List (Op ℚ ByteFifo.Child) := List.replicate 20 (.enqueue 7 Deployment.packet)

theorem integral_gain_never_rises_deployed :
    let start := install ByteFifo.kernel Deployment.options Deployment.stab Deployment.silent
      Deployment.start
    let run := Transition.run (step ByteFifo.kernel Deployment.decay) start
    (run (filling ++ [.worker Deployment.silent])).qdisc.parms.ki_k ≤
      (run filling).qdisc.parms.ki_k := by
  have busy : Transition.Along (step ByteFifo.kernel Deployment.decay) Busy
      (install ByteFifo.kernel Deployment.options Deployment.stab Deployment.silent
        Deployment.start) filling := by decide +kernel
  exact (integral_gain_never_rises ByteFifo.kernel Deployment.decay Deployment.start
    Deployment.options Deployment.stab Deployment.silent (by norm_num [Deployment.options])
    (by norm_num [Deployment.options]) (by norm_num [Deployment.options])
    (by norm_num [Deployment.options]) filling [.worker Deployment.silent]
    (Transition.along_append.mpr ⟨busy, trivial, trivial⟩)).2.1

section Drift
variable [LinearOrder K] [IsStrictOrderedRing K]

/-- The clamp at zero moves no gain further than its step. -/
theorem clampGain_near {gain change : K} (nonneg : 0 ≤ gain) :
    |clampGain (gain + change) - gain| ≤ |change| := by
  unfold clampGain
  split_ifs with negative
  · rw [zero_sub, abs_neg, abs_of_nonneg nonneg]
    exact le_trans (by linarith) (neg_le_abs change)
  · rw [add_sub_cancel_left]

/-- One gradient step of a gain, and the bound on all the steps so far. -/
theorem clampGain_drifts {origin gain rate error slope difference reach : K} {n : ℕ}
    (nonneg : 0 ≤ gain) (learning : 0 ≤ rate) (small : |error| ≤ 1) (flat : |slope| ≤ 1 / 1500)
    (bounded : |difference| ≤ reach) (near : |gain - origin| ≤ n * (rate * (reach / 1500))) :
    |clampGain (gain + rate * error * slope * difference) - origin| ≤
      (n + 1 : ℕ) * (rate * (reach / 1500)) := by
  have size : |rate * error * slope * difference| ≤ rate * (reach / 1500) := by
    calc
      |rate * error * slope * difference| = rate * |error| * |slope| * |difference| := by
        rw [abs_mul, abs_mul, abs_mul, abs_of_nonneg learning]
      _ ≤ rate * 1 * (1 / 1500) * reach := by gcongr
      _ = rate * (reach / 1500) := by ring
  have moved := (clampGain_near nonneg).trans size
  have through := abs_sub_le (clampGain (gain + rate * error * slope * difference)) gain origin
  push_cast
  linarith

theorem slope_small {p : RbfgradParms K} (exp : K → K) (random32 : ℕ → BitVec 32)
    (uniform : Uniform p) (above : 0 ≤ p.p_k) (below : p.p_k ≤ 1)
    (low : 0 ≤ p.queue_len[(0 : Fin SAM_NUM)].toInt)
    (high : p.queue_len[(0 : Fin SAM_NUM)].toInt ≤ 6500)
    (fit : (rbfgradMarkProbability exp random32 p).gbestval <
      (rbfgradMarkProbability exp random32 p).E0) : |tuningSlope exp random32 p| ≤ 1 / 1500 := by
  have near := uniform.output_near exp random32 fit
  have lower : (0 : K) ≤ (p.queue_len[(0 : Fin SAM_NUM)].toInt : K) := by exact_mod_cast low
  have upper : (p.queue_len[(0 : Fin SAM_NUM)].toInt : K) ≤ 6500 := by exact_mod_cast high
  have share : (p.queue_len[(0 : Fin SAM_NUM)].toInt : K) / 6500 ≤ 1 := by linarith
  have positive : (0 : K) ≤ (p.queue_len[(0 : Fin SAM_NUM)].toInt : K) / 6500 := by linarith
  have gap := abs_lt_of_sq_lt_sq (near.trans_le (by norm_num : (1 : K) / 500000 ≤ (1 / 700) ^ 2))
    (by norm_num)
  have output : |SwarmRecord.output exp p (rbfgradMarkProbability exp random32 p).w_k| ≤
      701 / 700 := by
    rw [abs_lt] at gap
    rw [abs_le]
    constructor
    · linarith
    · linarith
  calc
    |tuningSlope exp random32 p| = p.p_k / (40 * 40) *
        |SwarmRecord.output exp p (rbfgradMarkProbability exp random32 p).w_k| := by
      rw [tuningSlope, abs_mul, abs_neg, abs_of_nonneg (div_nonneg above (by norm_num))]
    _ ≤ 1 / (40 * 40) * (701 / 700) := by gcongr
    _ ≤ 1 / 1500 := by norm_num

/-- A controller whose gains are within a number of steps of their configuration. -/
structure Drifted (ctl : TcRbfgradQopt K) (n : ℕ) (p : RbfgradParms K) : Prop where
  uniform : Uniform p
  range : ControlRange.InRange ctl.p_min ctl.p_max p
  q_ref : p.q_ref = ctl.q_ref
  rates : p.eta_p = ctl.eta_p ∧ p.eta_i = ctl.eta_i ∧ p.eta_d = ctl.eta_d
  length : 0 ≤ p.queue_len[(0 : Fin SAM_NUM)].toInt ∧ p.queue_len[(0 : Fin SAM_NUM)].toInt ≤ 6500
  errors : |errorNow p| ≤ 1 ∧ |errorLast p| ≤ 1 ∧ |errorBefore p| ≤ 1
  kp : |p.kp_k - ctl.kp_k| ≤ n * (ctl.eta_p * (2 / 1500))
  ki : |p.ki_k - ctl.ki_k| ≤ n * (ctl.eta_i * (1 / 1500))
  kd : |p.kd_k - ctl.kd_k| ≤ n * (ctl.eta_d * (4 / 1500))

/-- What the bounds below assume of a configuration. -/
structure Normal (ctl : TcRbfgradQopt K) : Prop where
  p_min : 0 ≤ ctl.p_min
  above : ctl.p_min ≤ ctl.p_init
  below : ctl.p_init ≤ ctl.p_max
  p_max : ctl.p_max ≤ 1
  gains : 0 ≤ ctl.kp_k ∧ 0 ≤ ctl.ki_k ∧ 0 ≤ ctl.kd_k
  rates : 0 ≤ ctl.eta_p ∧ 0 ≤ ctl.eta_i ∧ 0 ≤ ctl.eta_d
  q_ref : 0 ≤ ctl.q_ref.toInt ∧ ctl.q_ref.toInt ≤ 6500

theorem abs_two_sub_le {now last before : K} (first : |now| ≤ 1) (second : |last| ≤ 1)
    (third : |before| ≤ 1) : |now - last| ≤ 2 ∧ |now - 2 * last + before| ≤ 4 := by
  rw [abs_le] at first second third
  constructor
  · rw [abs_le]
    constructor <;> linarith
  · rw [abs_le]
    constructor <;> linarith

theorem Drifted.call {ctl : TcRbfgradQopt K} {n : ℕ} {p : RbfgradParms K}
    (drifted : Drifted ctl n p) (normal : Normal ctl) (exp : K → K) (random32 : ℕ → BitVec 32) :
    Drifted ctl (n + 1) (rbfgradMarkProbability exp random32 p) := by
  have window := markProbability_toWindow exp random32 p
  have params := markProbability_toParams exp random32 p
  have range := ControlRange.markProbability_inRange exp random32
    (normal.above.trans normal.below) drifted.range
  obtain ⟨now, last, before⟩ := drifted.errors
  obtain ⟨first, second⟩ := abs_two_sub_le now last before
  have idle : ∀ {origin gain rate reach : K}, 0 ≤ rate → 0 ≤ reach →
      |gain - origin| ≤ n * (rate * (reach / 1500)) →
      |gain - origin| ≤ (n + 1 : ℕ) * (rate * (reach / 1500)) := by
    intro origin gain rate reach learning positive near
    have step : 0 ≤ rate * (reach / 1500) := mul_nonneg learning (by linarith)
    push_cast
    linarith
  obtain ⟨etaP, etaI, etaD⟩ := normal.rates
  have gains : |(rbfgradMarkProbability exp random32 p).kp_k - ctl.kp_k| ≤
        (n + 1 : ℕ) * (ctl.eta_p * (2 / 1500)) ∧
      |(rbfgradMarkProbability exp random32 p).ki_k - ctl.ki_k| ≤
        (n + 1 : ℕ) * (ctl.eta_i * (1 / 1500)) ∧
      |(rbfgradMarkProbability exp random32 p).kd_k - ctl.kd_k| ≤
        (n + 1 : ℕ) * (ctl.eta_d * (4 / 1500)) := by
    rcases drifted.uniform.call_cases exp random32 with ⟨-, kp, ki, kd⟩ | ⟨fit, -, kp, ki, kd⟩
    · rw [kp, ki, kd]
      exact ⟨idle etaP zero_le_two drifted.kp, idle etaI zero_le_one drifted.ki,
        idle etaD zero_le_four drifted.kd⟩
    · have flat := slope_small exp random32 drifted.uniform
        (normal.p_min.trans drifted.range.above) (drifted.range.below.trans normal.p_max)
        drifted.length.1 drifted.length.2 fit
      rw [kp, ki, kd, drifted.rates.1, drifted.rates.2.1, drifted.rates.2.2]
      exact ⟨clampGain_drifts drifted.range.kp etaP now flat first drifted.kp,
        clampGain_drifts drifted.range.ki etaI now flat now drifted.ki,
        clampGain_drifts drifted.range.kd etaD now flat second drifted.kd⟩
  exact
    { uniform := markProbability_uniform exp random32 drifted.uniform
      range := range
      q_ref := by rw [params]; exact drifted.q_ref
      rates := by rw [params]; exact drifted.rates
      length := by rw [window]; exact drifted.length
      errors := by
        simp only [errorNow, errorLast, errorBefore, window]
        exact drifted.errors
      kp := gains.1
      ki := gains.2.1
      kd := gains.2.2 }

theorem Drifted.sampled {ctl : TcRbfgradQopt K} {n : ℕ} {q : Qdisc K Child}
    (drifted : Drifted ctl n q.parms) (normal : Normal ctl) (fits : q.qlen.toNat ≤ 6500) :
    Drifted ctl n (sampled q) := by
  obtain ⟨low, high⟩ := normal.q_ref
  have length : (Int32.ofBitVec q.qlen).toInt = q.qlen.toNat := CInt.ofBitVec_toInt (by omega)
  have error : (CInt.subInt q.qlen ctl.q_ref).toInt = q.qlen.toNat - ctl.q_ref.toInt :=
    CInt.subInt_eq q.qlen ctl.q_ref (by omega) (by rw [CInt.intMax]; omega)
  have now : |errorNow (GapsoRbfPid.sampled q)| ≤ 1 := by
    change |((CInt.subInt q.qlen q.parms.q_ref).toInt : K) / 6500| ≤ 1
    have lower : (-6500 : ℤ) ≤ q.qlen.toNat - ctl.q_ref.toInt := by omega
    have upper : (q.qlen.toNat - ctl.q_ref.toInt : ℤ) ≤ 6500 := by omega
    rw [drifted.q_ref, error, abs_le]
    constructor
    · rw [le_div_iff₀ (by norm_num)]
      exact_mod_cast lower
    · rw [div_le_one (by norm_num)]
      exact_mod_cast upper
  exact
    { uniform := ⟨drifted.uniform.centres, drifted.uniform.widths, drifted.uniform.gate⟩
      range := ⟨drifted.range.p_min, drifted.range.p_max, drifted.range.above,
        drifted.range.below, drifted.range.kp, drifted.range.ki, drifted.range.kd⟩
      q_ref := drifted.q_ref
      rates := drifted.rates
      length := by
        rw [sampled_length, length]
        omega
      errors := ⟨now, drifted.errors.1, drifted.errors.2.1⟩
      kp := drifted.kp
      ki := drifted.ki
      kd := drifted.kd }

variable [FloorRing K]

/-- The configuration stays, and no sample finds more packets than the scale of the errors. -/
def Moderate (s : State K Child) : Op K Child → Prop
  | .enqueue _ _ => s.globals.cyc_count + 1 = CYC_MAX → s.qdisc.qlen.toNat ≤ 6500
  | .change _ _ _ => False
  | _ => True

instance (s : State K Child) (op : Op K Child) : Decidable (Moderate s op) :=
  match op with
  | .enqueue _ _ => inferInstanceAs (Decidable (_ → _))
  | .change _ _ _ => inferInstanceAs (Decidable False)
  | .dequeue | .drop | .reset | .graft _ | .dump _ | .dumpStats | .worker _ | .destroy =>
      inferInstanceAs (Decidable True)

theorem Drifted.step {ctl : TcRbfgradQopt K} {n : ℕ} {s : State K Child}
    (drifted : Drifted ctl n s.qdisc.parms) (normal : Normal ctl) (kernel : Kernel Child)
    (exp : K → K) (op : Op K Child) (moderate : Moderate s op) :
    Drifted ctl (n + StepBounds.calls [op]) (step kernel exp s op).qdisc.parms := by
  rw [step_parms]
  cases op with
  | enqueue netRandom skb =>
    dsimp only
    unfold sampleParms
    split_ifs with sampling
    · exact drifted.sampled normal (moderate sampling)
    · exact drifted
  | worker random32 => exact drifted.call normal exp random32
  | change opt fifoError random32 => exact moderate.elim
  | _ => exact drifted

/-- From any accepted configuration with probabilities in the unit interval, and while no sample
finds more than 6500 packets, each call of the worker moves the gains by less than the learning
rate over 375, 750 and 1500. -/
theorem gains_drift_slowly (kernel : Kernel Child) (exp : K → K) (s : State K Child)
    (ctl : TcRbfgradQopt K) (stab : Stab) (random32 : ℕ → BitVec 32) (normal : Normal ctl)
    (ops : List (Op K Child)) :
    let start := install kernel ctl stab random32 s
    let p := (Transition.run (step kernel exp) start ops).qdisc.parms
    let n : K := StepBounds.calls ops
    Transition.Along (step kernel exp) Moderate start ops →
    |p.kp_k - ctl.kp_k| ≤ n * ctl.eta_p / 750 ∧ |p.ki_k - ctl.ki_k| ≤ n * ctl.eta_i / 1500 ∧
      |p.kd_k - ctl.kd_k| ≤ n * ctl.eta_d / 375 := by
  intro start p n moderate
  have installed : Drifted ctl 0 start.qdisc.parms := by
    rw [install_parms]
    exact
      { uniform := configured_uniform ctl stab random32 s.qdisc.parms
        range := ControlRange.configured_inRange ctl stab random32 s.qdisc.parms normal.above
          normal.below normal.gains.1 normal.gains.2.1 normal.gains.2.2
        q_ref := rfl
        rates := ⟨rfl, rfl, rfl⟩
        length := by simp [configured, rbfgradSetParms]
        errors := by simp [errorNow, errorLast, errorBefore, configured, rbfgradSetParms]
        kp := by simp [configured, rbfgradSetParms]
        ki := by simp [configured, rbfgradSetParms]
        kd := by simp [configured, rbfgradSetParms] }
  have keeps : ∀ n (s : State K Child) op, Drifted ctl n s.qdisc.parms → Moderate s op →
      Drifted ctl (n + StepBounds.calls [op]) (step kernel exp s op).qdisc.parms :=
    fun n s op drifted met => drifted.step normal kernel exp op met
  have drifted := Transition.run_counted keeps installed ops moderate
  rw [← StepBounds.calls_eq_total, Nat.zero_add] at drifted
  refine ⟨drifted.kp.trans (le_of_eq ?_), drifted.ki.trans (le_of_eq ?_),
    drifted.kd.trans (le_of_eq ?_)⟩
  · ring
  · ring
  · ring

end Drift

theorem normal_deployed : Normal Deployment.options where
  p_min := by norm_num [Deployment.options]
  above := by norm_num [Deployment.options]
  below := by norm_num [Deployment.options]
  p_max := by norm_num [Deployment.options]
  gains := by norm_num [Deployment.options]
  rates := by norm_num [Deployment.options]
  q_ref := by decide

theorem gains_drift_slowly_deployed :
    let start := install ByteFifo.kernel Deployment.options Deployment.stab Deployment.silent
      Deployment.start
    let p := (Transition.run (step ByteFifo.kernel Deployment.decay) start
      (filling ++ [.worker Deployment.silent, .worker Deployment.silent])).qdisc.parms
    |p.kp_k - 1 / 100| ≤ 2 * (7 / 100) / 750 ∧ |p.ki_k - 7 / 1000| ≤ 2 * (7 / 100) / 1500 := by
  have moderate : Transition.Along (step ByteFifo.kernel Deployment.decay) Moderate
      (install ByteFifo.kernel Deployment.options Deployment.stab Deployment.silent
        Deployment.start) filling := by decide +kernel
  have along : Transition.Along (step ByteFifo.kernel Deployment.decay) Moderate
      (install ByteFifo.kernel Deployment.options Deployment.stab Deployment.silent
        Deployment.start) (filling ++ [.worker Deployment.silent, .worker Deployment.silent]) :=
    Transition.along_append.mpr ⟨moderate, trivial, trivial, trivial⟩
  have bounds := gains_drift_slowly ByteFifo.kernel Deployment.decay Deployment.start
    Deployment.options Deployment.stab Deployment.silent normal_deployed
    (filling ++ [.worker Deployment.silent, .worker Deployment.silent]) along
  have counted : StepBounds.calls
      (filling ++ [.worker Deployment.silent, .worker Deployment.silent]) = 2 := by decide
  rw [counted] at bounds
  exact ⟨bounds.1, bounds.2.1⟩

end GapsoRbfPid.GainTuning
