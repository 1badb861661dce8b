import GapsoRbfPid.Library.RadialBasis
import GapsoRbfPid.Sampling
import GapsoRbfPid.SwarmRecord

/-! The gradient that tunes the gains, over the reals. The loop that sums it up takes the marking
probability where the derivative of the network has its first input. -/

namespace GapsoRbfPid.Jacobian
open GapsoRbfPid Library Sampling

variable {Child : Type}

section Network

/-- The network that `get_rbf_SSE` evaluates, with the published weights. -/
def network (p : RbfgradParms ℝ) : RadialBasis.Network (Fin SAM_NUM) (Fin UNIT_NUM) where
  weight i := p.w_k[i]
  width i := p.delta_k[i]
  centre i j := p.c_k[i][j]

def input (p : RbfgradParms ℝ) : Fin SAM_NUM → ℝ := fun j => p.SamIn[j]

/-- The jacobian is the partial derivative of the network by its first input. -/
def IsDerivative (p : RbfgradParms ℝ) : Prop :=
  HasDerivAt (fun x₀ => (network p).output (Function.update (input p) 0 x₀)) p.jacobian (input p 0)

theorem distance_eq_sum {K : Type} [Field K] (p : RbfgradParms K) (i : Fin UNIT_NUM) :
    distance p i = ∑ j : Fin SAM_NUM, (p.SamIn[j] - p.c_k[i][j]) ^ 2 := by
  simp only [sq]
  rw [Fin.sum_univ_def, List.sum_eq_foldl, List.foldl_map]
  rfl

theorem hidden_eq_unit (p : RbfgradParms ℝ) (i : Fin UNIT_NUM) :
    hidden Real.exp p i = RadialBasis.unit ((network p).width i) ((network p).centre i) (input p) := by
  unfold hidden RadialBasis.unit
  rw [distance_eq_sum, mul_assoc, ← sq]
  rfl

theorem netOut_eq_output (p : RbfgradParms ℝ) :
    netOut Real.exp p p.w_k = (network p).output (input p) := by
  rw [netOut_eq_sum]
  simp only [hidden_eq_unit]
  rfl

/-- The sum starts from the jacobian that the head of the call has cleared. -/
theorem jacobianSum_eq {p : RbfgradParms ℝ} (cleared : p.jacobian = 0) :
    jacobianSum Real.exp p = (network p).slopeAt (input p) 0 p.p_k := by
  have loop : jacobianSum Real.exp p = ∑ i : Fin UNIT_NUM, p.w_k[i] * hidden Real.exp p i *
      (p.c_k[i][0] - p.p_k) / (p.delta_k[i] * p.delta_k[i]) := by
    rw [jacobianSum, cleared, Fin.sum_univ_def, List.sum_eq_foldl, List.foldl_map]
    rfl
  rw [loop]
  unfold RadialBasis.Network.slopeAt
  apply Finset.sum_congr rfl
  intro i _
  rw [hidden_eq_unit, ← sq]
  rfl

end Network

section Call
variable (p : RbfgradParms ℝ) (random32 : ℕ → BitVec 32)

/-- The first input of a call is the newest probability of the window. -/
theorem input_markProbability :
    input (rbfgradMarkProbability Real.exp random32 p) 0 = p.proba[0] := by
  have built : (rbfgradMarkProbability Real.exp random32 p).SamIn = (snapshot p).SamIn :=
    congrArg Prod.fst (layer_markProbability Real.exp random32 p)
  rw [input, built]
  simp [snapshot]

/-- The jacobian of a call that passes the gate. -/
theorem jacobian_of_fit (fit : (rbfgradMarkProbability Real.exp random32 p).gbestval <
    (rbfgradMarkProbability Real.exp random32 p).E0) :
    (rbfgradMarkProbability Real.exp random32 p).jacobian =
      (network (rbfgradMarkProbability Real.exp random32 p)).slopeAt
        (input (rbfgradMarkProbability Real.exp random32 p)) 0 p.p_k := by
  have cleared := congrArg (fun parts => parts.2.2) (untouched_learn Real.exp random32 (snapshot p))
  have control := congrArg (fun parts => parts.2.2.p_k) (frame_pass Real.exp random32 p)
  have passed := @tune_of_fit _ _ _ Real.exp random32 p
  have stopped := @tune_of_misfit _ _ _ Real.exp random32 p
  rw [rbfgradMarkProbability] at fit ⊢
  generalize learn Real.exp random32 (snapshot p) = learned at *
  by_cases gate : learned.gbestval < learned.E0
  · rw [passed gate]
    change jacobianSum Real.exp learned = (network learned).slopeAt (input learned) 0 p.p_k
    rw [jacobianSum_eq cleared]
    exact congrArg _ control
  · rw [stopped gate] at fit
    exact absurd fit gate

/-- The jacobian of such a call is the derivative exactly when the probability is the first
input, or the scaled output vanishes. -/
theorem isDerivative_iff (fit : (rbfgradMarkProbability Real.exp random32 p).gbestval <
    (rbfgradMarkProbability Real.exp random32 p).E0) :
    let after := rbfgradMarkProbability Real.exp random32 p
    IsDerivative after ↔ p.p_k = p.proba[0] ∨ (network after).scaled (input after) = 0 := by
  intro after
  have jacobian := jacobian_of_fit p random32 fit
  have first := input_markProbability p random32
  rw [IsDerivative, jacobian, ← first]
  exact RadialBasis.hasDerivAt_slopeAt_iff (network after) (input after) 0 p.p_k

/-- With units of one width and ten packets or more in the sample, a call that passes the gate is
never balanced: its error is too small for an output of zero. -/
theorem scaled_ne_zero {width : ℝ} (uniform : p.delta_k = Vector.replicate _ width)
    (positive : width ≠ 0) (gate : p.E0 = 1 / 1000000) (filled : 10 ≤ p.queue_len[0].toInt)
    (fit : (rbfgradMarkProbability Real.exp random32 p).gbestval <
      (rbfgradMarkProbability Real.exp random32 p).E0) :
    (network (rbfgradMarkProbability Real.exp random32 p)).scaled
      (input (rbfgradMarkProbability Real.exp random32 p)) ≠ 0 := by
  have parts := layer_markProbability Real.exp random32 p
  simp only [layer, Prod.mk.injEq] at parts
  obtain ⟨inputs, centres, widths⟩ := parts
  have value := SwarmRecord.published_value Real.exp p random32
  have params := markProbability_toParams Real.exp random32 p
  rw [params, gate, value, SwarmRecord.error_newest] at fit
  have output := SwarmRecord.output_eq Real.exp p (rbfgradMarkProbability Real.exp random32 p).w_k
  rw [← netOut_congr Real.exp inputs centres widths, netOut_eq_output] at output
  generalize rbfgradMarkProbability Real.exp random32 p = after at *
  have same : ∀ i, (network after).width i = width := by
    intro i
    change after.delta_k[i] = width
    rw [widths, snapshot, uniform, Vectors.getElem_fin, Vector.getElem_replicate]
  rw [RadialBasis.scaled_eq (network after) (input after) same, output]
  intro balanced
  rcases div_eq_zero_iff.mp balanced with zero | zero
  · rw [zero, sub_zero] at fit
    have length : (10 : ℝ) ≤ p.queue_len[0].toInt := by exact_mod_cast filled
    have share : (10 : ℝ) / 6500 ≤ p.queue_len[0].toInt / 6500 :=
      div_le_div_of_nonneg_right length (by norm_num)
    have square := pow_le_pow_left₀ (by norm_num) share 2
    linarith
  · exact positive (pow_eq_zero_iff two_ne_zero |>.mp zero)

end Call

section Runs

abbrev Recorded (Child : Type) := State ℝ Child × History ℝ

/-- The probability that the newest sample noted; before the first sample, the initial one. -/
def noted (state : Recorded Child) : ℝ :=
  (state.2.samples.map Sample.p_k_1).getD 0 state.1.qdisc.parms.p_init

/-- The worker calls when the probability is what the newest sample noted. -/
def Current (state : Recorded Child) : Op ℝ Child → Prop
  | .worker _ => state.1.qdisc.parms.p_k = noted state
  | _ => True

/-- A call that passes the gate, with widths that are not zero, does what is stated. -/
def Gated (claim : RbfgradParms ℝ → Prop) (state : Recorded Child) : Op ℝ Child → Prop
  | .worker random32 =>
      let after := rbfgradMarkProbability Real.exp random32 state.1.qdisc.parms
      after.gbestval < after.E0 → (∀ i : Fin UNIT_NUM, after.delta_k[i] ≠ 0) → claim after
  | _ => True

/-- The call leaves the partial derivative as the jacobian. -/
def Differentiates (state : Recorded Child) : Op ℝ Child → Prop := Gated IsDerivative state

/-- The probability is the noted one, or the units are so balanced that it does not matter. -/
def Unharmed (state : Recorded Child) : Op ℝ Child → Prop :=
  Gated (fun after => state.1.qdisc.parms.p_k = noted state ∨
    (network after).scaled (input after) = 0) state

theorem newest_noted {state : Recorded Child} (tracks : Tracks state.2 state.1) :
    state.1.qdisc.parms.proba[0] = noted state := tracks.proba_get 0

theorem differentiates_iff {state : Recorded Child} (tracks : Tracks state.2 state.1)
    (op : Op ℝ Child) : Differentiates state op ↔ Unharmed state op := by
  cases op with
  | worker random32 =>
    apply forall_congr'
    intro fit
    apply forall_congr'
    intro _
    rw [← newest_noted tracks]
    exact isDerivative_iff state.1.qdisc.parms random32 fit
  | _ => exact Iff.rfl

theorem unharmed_of_current (state : Recorded Child) (op : Op ℝ Child) (current : Current state op) :
    Unharmed state op := by
  cases op with
  | worker random32 => exact fun _ _ => .inl current
  | _ => trivial

/-- In a run from `rbfgrad_init` the calls that pass the gate leave the partial derivative as the
jacobian exactly when each of them finds the probability that the newest sample noted or a
balanced network; so they all do in a run whose calls all find the noted probability. -/
theorem jacobian_along_iff (kernel : Kernel Child) (g : Globals ℝ) (opt : Options ℝ)
    (fifoError : Option Errno) (random32 : ℕ → BitVec 32) (worker stopper : Task)
    (ops : List (Op ℝ Child)) :
    let start := (rbfgradInit kernel opt fifoError random32 worker stopper ⟨g, .zeroed kernel⟩).2
    let noting := Transition.recording (step kernel Real.exp) (record kernel)
    (Transition.Along noting Differentiates (start, ⟨0, []⟩) ops ↔
      Transition.Along noting Unharmed (start, ⟨0, []⟩) ops) ∧
    (Transition.Along noting Current (start, ⟨0, []⟩) ops →
      Transition.Along noting Differentiates (start, ⟨0, []⟩) ops) := by
  intro start noting
  let tracked : Recorded Child → Prop := fun state => Tracks state.2 state.1
  have begins : tracked (start, ⟨0, []⟩) :=
    init_tracks kernel opt fifoError random32 worker stopper g
  have keeps : ∀ state op, tracked state → Unharmed state op → tracked (noting state op) :=
    fun state op tracks _ => step_tracks kernel Real.exp state op tracks
  have exact : Transition.Along noting Differentiates (start, ⟨0, []⟩) ops ↔
      Transition.Along noting Unharmed (start, ⟨0, []⟩) ops :=
    Transition.along_iff_along keeps (fun state op tracks => differentiates_iff tracks op) begins ops
  refine ⟨exact, ?_⟩
  intro current
  exact exact.mpr (Transition.along_mono unharmed_of_current ops current)

end Runs

section Deployed

/-- The options of `test/test` with an initial probability. -/
noncomputable def options (p_init : ℝ) : TcRbfgradQopt ℝ where
  q_ref := 300
  p_init := p_init
  p_min := 0
  p_max := 1
  kp_k := 1 / 100
  ki_k := 7 / 1000
  kd_k := 1 / 100
  eta_p := 7 / 100
  eta_i := 7 / 100
  eta_d := 7 / 100
  n := 1
  m := 5
  alpha := 1 / 10
  eta := 6 / 100
  sampl_period := 10
  Scell_log := 0
  limit := 10240000
  flags := 1

def loaded : Globals ℝ where
  cyc_count := 0
  array_element_rbfgrad := 0
  queue_show_base_rbfgrad := fun _ => ⟨0, 0, .dontMark, 0, 0, 0, 0, 0, 0, 0, 0, 0⟩
  prob_number := 0
  pkg_number := 0
  tsk_prob := none
  tsk_stop_prob := none
  fpu := 0

/-- The first weight is drawn near 19/6500 and the others at zero. -/
def draws (call : ℕ) : BitVec 32 := if call = 0 then 1076880455 else 2 ^ 30

noncomputable def opened (p_init : ℝ) : State ℝ ByteFifo.Child :=
  (rbfgradInit ByteFifo.kernel (some (.ok ⟨some (options p_init), some Deployment.stab⟩)) none
    draws 0 1 ⟨loaded, .zeroed ByteFifo.kernel⟩).2

/-- A packet whose draw is above every probability. -/
def arrival : Op ℝ ByteFifo.Child := .enqueue 0x7FFFFFFF Deployment.packet

theorem action_largest (p : RbfgradParms ℝ) : rbfgradAction p 0x7FFFFFFF = .dontMark := by
  have mark := action_mark_iff p 0x7FFFFFFF
  have bound : currentP p ≤ CInt.intMax := CInt.toInt_le _
  have draw : CInt.absInt 0x7FFFFFFF = CInt.intMax := by decide
  cases decision : rbfgradAction p 0x7FFFFFFF with
  | dontMark => rfl
  | probMark =>
    have below := mark.mp decision
    rw [draw] at below
    exact absurd below (not_lt.mpr bound)

/-- What an unmarked packet does to the queue. -/
def accept (before : BitVec 32 × BitVec 8 × ByteFifo.Child) : BitVec 32 × BitVec 8 × ByteFifo.Child :=
  let answer := ByteFifo.kernel.enqueue Deployment.packet before.2.2
  (if answer.1 = .success then before.1 + 1 else before.1, before.2.1, answer.2)

theorem arrival_queue (s : State ℝ ByteFifo.Child) :
    queue (step ByteFifo.kernel Real.exp s arrival).qdisc = accept (queue s.qdisc) := by
  have offered := offerChild_queue ByteFifo.kernel Deployment.packet s.qdisc
  simp only [step, arrival, enqueue_qdisc, action_largest, dispatch]
  exact offered

theorem opened_queue (p_init : ℝ) : queue (opened p_init).qdisc =
    (0, 1, ByteFifo.kernel.fifoCreateDflt 10240000) := by
  have positive : (0 : BitVec 32) < 10240000 := by decide
  simp only [opened, rbfgradInit, change_accepted, install, if_pos positive, queue, replaceChild,
    subQlen, Qdisc.zeroed, options, Prod.mk.injEq, and_true]
  decide

/-- Up to the last packet of a cycle nothing happens but that the queue fills up. -/
theorem arrivals_fill (p_init : ℝ) {count : ℕ} (early : count < CYC_MAX) :
    let s := Transition.run (step ByteFifo.kernel Real.exp) (opened p_init)
      (List.replicate count arrival)
    s.globals.cyc_count = count ∧ s.qdisc.parms = (opened p_init).qdisc.parms ∧
      queue s.qdisc = accept^[count] (queue (opened p_init).qdisc) := by
  induction count with
  | zero => exact ⟨rfl, rfl, rfl⟩
  | succ count ih =>
    have inside : count + 1 ≠ CYC_MAX := Nat.ne_of_lt early
    obtain ⟨cycle, parms, filled⟩ := ih (Nat.lt_of_succ_lt early)
    rw [List.replicate_succ', Transition.run_append, Transition.run_cons, Transition.run_nil]
    generalize Transition.run (step ByteFifo.kernel Real.exp) (opened p_init)
      (List.replicate count arrival) = s at *
    have nextCount := step_cyc_count ByteFifo.kernel Real.exp s arrival
    have nextParms := step_parms ByteFifo.kernel Real.exp s arrival
    have nextQueue := arrival_queue s
    simp only [arrival, nextCycle, sampleParms, cycle, if_neg inside] at nextCount nextParms
    refine ⟨nextCount, nextParms.trans parms, nextQueue.trans ?_⟩
    rw [filled, Function.iterate_succ_apply']

/-- One cycle of packets, the last of which takes a sample. -/
def burst : List (Op ℝ ByteFifo.Child) := List.replicate CYC_MAX arrival

noncomputable def primed (p_init : ℝ) : State ℝ ByteFifo.Child :=
  Transition.run (step ByteFifo.kernel Real.exp) (opened p_init) burst

theorem primed_parms (p_init : ℝ) : (primed p_init).qdisc.parms =
    sampled { (opened p_init).qdisc with qlen := 19 } := by
  obtain ⟨cycle, parms, filled⟩ := arrivals_fill p_init (show 19 < CYC_MAX by decide)
  have split : burst = List.replicate 19 arrival ++ [arrival] := rfl
  rw [primed, split, Transition.run_append, Transition.run_cons, Transition.run_nil, step_parms]
  generalize Transition.run (step ByteFifo.kernel Real.exp) (opened p_init)
    (List.replicate 19 arrival) = s at *
  have length : s.qdisc.qlen = 19 := by
    have first : (queue s.qdisc).1 = 19 := by
      rw [filled, opened_queue]
      decide +kernel
    exact first
  simp only [arrival, sampleParms, cycle, if_true, sampled, parms, length]

/-- What a call finds after the sample. -/
structure Primed (p_init : ℝ) (p : RbfgradParms ℝ) : Prop where
  probability : p.p_k = p_init
  newest : p.proba[0] = 0
  queue : p.queue_len[0].toInt = 19
  gate : p.E0 = 1 / 1000000
  centres : p.c_k = Vector.replicate _ (Vector.replicate _ 0)
  widths : p.delta_k = Vector.replicate _ 40

theorem primed_holds (p_init : ℝ) : Primed p_init (primed p_init).qdisc.parms := by
  rw [primed_parms]
  refine ⟨rfl, ?_, ?_, rfl, rfl, rfl⟩
  · simp only [sampled, ShiftRegister.shiftIn, Vector.getElem_ofFn, if_true]
    rfl
  · simp only [sampled, ShiftRegister.shiftIn, Vector.getElem_ofFn, if_true]
    rfl

/-- The particle that starts from the drawn weights. -/
theorem primed_weights (p_init : ℝ) (i : Fin UNIT_NUM) :
    (primed p_init).qdisc.parms.pos[0][i] = if i = 0 then 6277262 / 2147483648 else 0 := by
  have drawn : (primed p_init).qdisc.parms.pos[0][i] = randMyInt (-1) 1 (draws (2 * i)) := by
    rw [primed_parms]
    change (Vector.ofFn fun i : Fin UNIT_NUM => (randMyInt (-1) 1 (draws (2 * i)) : ℝ))[i] = _
    rw [Vectors.getElem_fin, Vector.getElem_ofFn]
  rw [drawn, randMyInt]
  by_cases first : i = 0
  · have product : (BitVec.ofInt 32 (1 - -1) * draws (2 * i)).toNat = 2153760910 := by
      rw [first]
      decide
    rw [product, if_pos first]
    norm_num
  · have product : (BitVec.ofInt 32 (1 - -1) * draws (2 * i)).toNat = 2147483648 := by
      have later : ¬2 * i.val = 0 := by
        intro zero
        apply first
        apply Fin.ext
        change i.val = 0
        omega
      rw [draws, if_neg later]
      decide
    rw [product, if_neg first]
    norm_num

/-- The inputs of the call are probabilities and short queues. -/
theorem primed_input {p_init : ℝ} (low : 0 ≤ p_init) (high : p_init ≤ 1) (j : Fin SAM_NUM) :
    0 ≤ (snapshot (primed p_init).qdisc.parms).SamIn[j] ∧
      (snapshot (primed p_init).qdisc.parms).SamIn[j] ≤ 1 := by
  have probabilities : (primed p_init).qdisc.parms.proba =
      ShiftRegister.shiftIn 0 (Vector.replicate _ p_init) := by
    rw [primed_parms]
    rfl
  have lengths : (primed p_init).qdisc.parms.queue_len =
      ShiftRegister.shiftIn 19 (Vector.replicate _ 0) := by
    rw [primed_parms]
    rfl
  have longest : (19 : Int32).toInt = 19 := by decide
  have shortest : (0 : Int32).toInt = 0 := by decide
  simp only [snapshot, probabilities, lengths, ShiftRegister.shiftIn, Vectors.getElem_fin,
    Vector.getElem_ofFn, Vector.getElem_replicate]
  split_ifs
  · exact ⟨le_refl 0, zero_le_one⟩
  · exact ⟨low, high⟩
  · rw [longest]
    norm_num
  · rw [shortest]
    norm_num

theorem primed_distance {p_init : ℝ} (low : 0 ≤ p_init) (high : p_init ≤ 1) (i : Fin UNIT_NUM) :
    distance (snapshot (primed p_init).qdisc.parms) i ≤ 10 := by
  have centres : (snapshot (primed p_init).qdisc.parms).c_k =
      Vector.replicate _ (Vector.replicate _ 0) := (primed_holds p_init).centres
  have small : ∀ j ∈ (Finset.univ : Finset (Fin SAM_NUM)), ((snapshot (primed p_init).qdisc.parms).SamIn[j] -
      (snapshot (primed p_init).qdisc.parms).c_k[i][j]) ^ 2 ≤ 1 := by
    intro j _
    obtain ⟨above, below⟩ := primed_input low high j
    simp only [centres, Vectors.getElem_fin, Vector.getElem_replicate, sub_zero]
    exact pow_le_one₀ above below
  rw [distance_eq_sum]
  exact (Finset.sum_le_card_nsmul _ _ 1 small).trans (by norm_num)

/-- The first unit is almost one. -/
theorem primed_hidden {p_init : ℝ} (low : 0 ≤ p_init) (high : p_init ≤ 1) (i : Fin UNIT_NUM) :
    319 / 320 ≤ hidden Real.exp (snapshot (primed p_init).qdisc.parms) i ∧
      hidden Real.exp (snapshot (primed p_init).qdisc.parms) i ≤ 1 := by
  have widths : (snapshot (primed p_init).qdisc.parms).delta_k = Vector.replicate _ 40 :=
    (primed_holds p_init).widths
  have bound := primed_distance low high i
  have nonneg : 0 ≤ distance (snapshot (primed p_init).qdisc.parms) i := by
    rw [distance_eq_sum]
    exact Finset.sum_nonneg fun j _ => sq_nonneg _
  simp only [hidden, widths, Vectors.getElem_fin, Vector.getElem_replicate]
  generalize distance (snapshot (primed p_init).qdisc.parms) i = d at *
  constructor
  · have tangent := Real.add_one_le_exp (-d / (2 * 40 * 40))
    linarith
  · apply Real.exp_le_one_iff.mpr
    linarith

theorem primed_error {p_init : ℝ} (low : 0 ≤ p_init) (high : p_init ≤ 1) :
    SwarmRecord.error Real.exp (primed p_init).qdisc.parms (primed p_init).qdisc.parms.pos[0] <
      1 / 1000000 := by
  have queue : (primed p_init).qdisc.parms.queue_len[0].toInt = 19 := (primed_holds p_init).queue
  obtain ⟨above, below⟩ := primed_hidden low high 0
  have output : SwarmRecord.output Real.exp (primed p_init).qdisc.parms
      (primed p_init).qdisc.parms.pos[0] =
        6277262 / 2147483648 * hidden Real.exp (snapshot (primed p_init).qdisc.parms) 0 := by
    simp only [SwarmRecord.output, primed_weights, ite_mul, zero_mul]
    rw [Finset.sum_ite_eq' Finset.univ 0, if_pos (Finset.mem_univ 0)]
  rw [SwarmRecord.error_newest, output, queue]
  generalize hidden Real.exp (snapshot (primed p_init).qdisc.parms) 0 = unit at *
  have least : -(1 / 10000) ≤ ((19 : ℤ) : ℝ) / 6500 - 6277262 / 2147483648 * unit := by
    norm_num
    linarith
  have most : ((19 : ℤ) : ℝ) / 6500 - 6277262 / 2147483648 * unit ≤ 1 / 10000 := by
    norm_num
    linarith
  have square := sq_le_sq' least most
  linarith

/-- The sampled call passes the gate. -/
theorem primed_fit {p_init : ℝ} (low : 0 ≤ p_init) (high : p_init ≤ 1) :
    (rbfgradMarkProbability Real.exp draws (primed p_init).qdisc.parms).gbestval <
      (rbfgradMarkProbability Real.exp draws (primed p_init).qdisc.parms).E0 := by
  have small := primed_error low high
  have value := (SwarmRecord.markProbability_record Real.exp (primed p_init).qdisc.parms draws).2.2.1
  have covered := SwarmRecord.gbestval_le_held Real.exp (primed p_init).qdisc.parms draws
    ⟨0, .inl rfl⟩
  have gate := (primed_holds p_init).gate
  rw [markProbability_toParams, gate, value]
  exact lt_of_le_of_lt covered small

theorem primed_widths (p_init : ℝ) (i : Fin UNIT_NUM) :
    (rbfgradMarkProbability Real.exp draws (primed p_init).qdisc.parms).delta_k[i] ≠ 0 := by
  have widths : (rbfgradMarkProbability Real.exp draws (primed p_init).qdisc.parms).delta_k =
      (primed p_init).qdisc.parms.delta_k :=
    congrArg (fun parts => parts.2.2) (layer_markProbability Real.exp draws _)
  rw [widths, (primed_holds p_init).widths, Vectors.getElem_fin, Vector.getElem_replicate]
  norm_num

theorem recorded_burst (p_init : ℝ) :
    (Transition.run (Transition.recording (step ByteFifo.kernel Real.exp)
      (record ByteFifo.kernel)) (opened p_init, ⟨0, []⟩) burst).1 = primed p_init :=
  Transition.run_recording_fst (step ByteFifo.kernel Real.exp) (record ByteFifo.kernel)
    (opened p_init, ⟨0, []⟩) burst

/-- Nothing has been noted yet but the zero of a fresh record. -/
theorem burst_noted (p_init : ℝ) :
    noted (Transition.run (Transition.recording (step ByteFifo.kernel Real.exp)
      (record ByteFifo.kernel)) (opened p_init, ⟨0, []⟩) burst) = 0 := by
  have begins : Tracks ⟨0, []⟩ (opened p_init) :=
    init_tracks ByteFifo.kernel (some (.ok ⟨some (options p_init), some Deployment.stab⟩)) none
      draws 0 1 loaded
  have tracks := run_tracks ByteFifo.kernel Real.exp begins burst
  have state := recorded_burst p_init
  generalize Transition.run (Transition.recording (step ByteFifo.kernel Real.exp)
    (record ByteFifo.kernel)) (opened p_init, ⟨0, []⟩) burst = after at *
  rw [← newest_noted tracks, state]
  exact (primed_holds p_init).newest

/-- With the initial probability of the test set-up the first sampled call is right. -/
theorem jacobian_along_iff_deployed :
    let after := rbfgradMarkProbability Real.exp draws (primed 0).qdisc.parms
    after.gbestval < after.E0 ∧ IsDerivative after := by
  intro after
  have fit : after.gbestval < after.E0 := primed_fit (le_refl 0) zero_le_one
  refine ⟨fit, ?_⟩
  have law := jacobian_along_iff ByteFifo.kernel loaded
    (some (.ok ⟨some (options 0), some Deployment.stab⟩)) none draws 0 1 (burst ++ [.worker draws])
  have first : Transition.Along (Transition.recording (step ByteFifo.kernel Real.exp)
      (record ByteFifo.kernel)) Current (opened 0, ⟨0, []⟩) burst := by
    simp only [burst, List.replicate, Transition.Along, arrival, Current, and_self]
  have now : Current (Transition.run (Transition.recording (step ByteFifo.kernel Real.exp)
      (record ByteFifo.kernel)) (opened 0, ⟨0, []⟩) burst) (.worker draws) := by
    rw [Current, burst_noted, recorded_burst]
    exact (primed_holds 0).probability
  have right := (Transition.along_append.mp
    (law.2 (Transition.along_append.mpr ⟨first, now, trivial⟩))).2.1
  change Differentiates (Transition.run _ (opened 0, _) burst) _ at right
  rw [Differentiates, Gated, recorded_burst] at right
  exact right fit (primed_widths 0)

/-- With an initial probability of one half the first sample notes the zero of the fresh record,
and the first sampled call leaves a jacobian that is not the derivative. -/
theorem jacobian_of_stale_probability :
    let after := rbfgradMarkProbability Real.exp draws (primed (1 / 2)).qdisc.parms
    after.gbestval < after.E0 ∧ (∀ i : Fin UNIT_NUM, after.delta_k[i] ≠ 0) ∧
      ¬IsDerivative after := by
  intro after
  have fit : after.gbestval < after.E0 := primed_fit (by norm_num) (by norm_num)
  obtain ⟨probability, newest, queue, gate, -, widths⟩ := primed_holds (1 / 2)
  refine ⟨fit, primed_widths (1 / 2), ?_⟩
  intro right
  rcases (isDerivative_iff _ draws fit).mp right with same | balanced
  · rw [probability, newest] at same
    norm_num at same
  · exact scaled_ne_zero _ draws widths (by norm_num) gate (by rw [queue]; decide) fit balanced

end Deployed

end GapsoRbfPid.Jacobian
