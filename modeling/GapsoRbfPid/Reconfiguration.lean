import GapsoRbfPid.QueueLength
import GapsoRbfPid.Swarm

/-! What a configuration request leaves of the earlier one. `rbfgrad_set_parms` writes
almost every member of the controller record; the few it does not write are the history. -/

namespace GapsoRbfPid.Reconfiguration
open GapsoRbfPid Library

variable {K Child : Type}

/-- The members of the controller record that no configuration writes. -/
structure History (K : Type) where
  p_k_1 : K
  kp_k_1 : K
  ki_k_1 : K
  kd_k_1 : K
  jacobian : K
  pbest : Vector (Vector K UNIT_NUM) PARTICLE_NUM
  pbestval : Vector K PARTICLE_NUM
  gbest : Vector K UNIT_NUM

def history (p : RbfgradParms K) : History K :=
  ⟨p.p_k_1, p.kp_k_1, p.ki_k_1, p.kd_k_1, p.jacobian, p.pbest, p.pbestval, p.gbest⟩

def withHistory (h : History K) (p : RbfgradParms K) : RbfgradParms K :=
  { p with
    p_k_1 := h.p_k_1
    kp_k_1 := h.kp_k_1
    ki_k_1 := h.ki_k_1
    kd_k_1 := h.kd_k_1
    jacobian := h.jacobian
    pbest := h.pbest
    pbestval := h.pbestval
    gbest := h.gbest }

/-- The part of the history that the learning pass passes on. -/
def withLast (h : History K) (p : RbfgradParms K) : RbfgradParms K :=
  { p with
    p_k_1 := h.p_k_1
    kp_k_1 := h.kp_k_1
    ki_k_1 := h.ki_k_1
    kd_k_1 := h.kd_k_1 }

section Learning
variable [Field K]

theorem configured_forgets (ctl : TcRbfgradQopt K) (stab : Stab) (random32 : ℕ → BitVec 32)
    (p q : RbfgradParms K) :
    configured ctl stab random32 q = withHistory (history q) (configured ctl stab random32 p) := rfl

section Evaluation
variable (exp : K → K) (h : History K) (p : RbfgradParms K)

theorem netOut_withLast : netOut exp (withLast h p) = netOut exp p := netOut_congr exp rfl rfl rfl

theorem getRbfSSE_withLast (which : Fin PARTICLE_NUM) :
    getRbfSSE exp (withLast h p) which =
      ((getRbfSSE exp p which).1, withLast h (getRbfSSE exp p which).2) := by
  simp only [getRbfSSE, netOut_withLast]
  generalize netOut exp p = network
  rfl

theorem initEval_withLast (i : Fin PARTICLE_NUM) :
    initEval exp (withLast h p) i = withLast h (initEval exp p i) := by
  simp only [initEval, getRbfSSE_withLast]
  generalize getRbfSSE exp p i = scored
  rfl

end Evaluation

variable [LinearOrder K] (exp : K → K) (random32 : ℕ → BitVec 32) (h : History K)
  (p : RbfgradParms K)

theorem evalParticle_withLast (j : Fin PARTICLE_NUM) :
    evalParticle exp (withLast h p) j = withLast h (evalParticle exp p j) := by
  have compared : (withLast h p).pbestval[j] > (getRbfSSE exp (withLast h p) j).1 ↔
      p.pbestval[j] > (getRbfSSE exp p j).1 := by
    rw [getRbfSSE_withLast]
    exact Iff.rfl
  by_cases better : p.pbestval[j] > (getRbfSSE exp p j).1
  · rw [evalParticle_of_better better, evalParticle_of_better (compared.mpr better),
      getRbfSSE_withLast]
    generalize getRbfSSE exp p j = scored
    rfl
  · rw [evalParticle_of_not_better better, evalParticle_of_not_better (mt compared.mp better),
      getRbfSSE_withLast]

omit [Field K] in
theorem selectBest_withLast :
    selectBest (withLast h p) = (withLast h (selectBest p).1, (selectBest p).2) := by
  have least : leastIndex (withLast h p).pbestval = leastIndex p.pbestval := rfl
  rw [selectBest_eq, selectBest_eq, least]
  generalize leastIndex p.pbestval = least
  rfl

theorem move_withLast (epoch : ℕ) :
    move random32 epoch (withLast h p) = withLast h (move random32 epoch p) := rfl

theorem epochStep_withLast (state : RbfgradParms K × Fin PARTICLE_NUM) (epoch : Fin MAX_EPOCH) :
    epochStep exp random32 (withLast h state.1, state.2) epoch =
      (withLast h (epochStep exp random32 state epoch).1, (epochStep exp random32 state epoch).2) := by
  have evaluations := Transition.sweep_map (withLast h) (evalParticle_withLast exp h) state.1
  simp only [epochStep, evaluations, selectBest_withLast, move_withLast]

theorem initSwarm_withLast :
    initSwarm exp (withLast h p) = (withLast h (initSwarm exp p).1, (initSwarm exp p).2) := by
  have evaluations := Transition.sweep_map (withLast h) (initEval_withLast exp h)
    { p with pbest := p.pos }
  have positions : { withLast h p with pbest := (withLast h p).pos } =
      withLast h { p with pbest := p.pos } := rfl
  simp only [initSwarm, positions, evaluations, selectBest_withLast]

theorem learn_withLast :
    learn exp random32 (withLast h p) = withLast h (learn exp random32 p) := by
  have epochs := Transition.sweep_map
    (fun state : RbfgradParms K × Fin PARTICLE_NUM => (withLast h state.1, state.2))
    (epochStep_withLast exp random32 h) (initSwarm exp p)
  simp only [learn, initSwarm_withLast, epochs]
  generalize Transition.sweep (epochStep exp random32) (initSwarm exp p) = final
  rfl

/-- The swarm is started afresh: its earlier best positions are overwritten. -/
theorem initSwarm_forgets :
    initSwarm exp { p with pbest := h.pbest, pbestval := h.pbestval, gbest := h.gbest } =
      initSwarm exp p := by
  have network : netOut exp { p with pbest := p.pos, pbestval := h.pbestval, gbest := h.gbest } =
      netOut exp { p with pbest := p.pos } := netOut_congr exp rfl rfl rfl
  simp only [initSwarm, sweep_initEval, evaluated, squaredError, network]
  generalize netOut exp { p with pbest := p.pos } = network
  rfl

theorem pass_forgets :
    learn exp random32 (snapshot (withHistory h p)) =
      withLast h (learn exp random32 (snapshot p)) := by
  have started : learn exp random32 { snapshot p with
      pbest := h.pbest
      pbestval := h.pbestval
      gbest := h.gbest } = learn exp random32 (snapshot p) := by
    simp only [learn, initSwarm_forgets]
  have split : snapshot (withHistory h p) = withLast h { snapshot p with
      pbest := h.pbest
      pbestval := h.pbestval
      gbest := h.gbest } := rfl
  rw [split, learn_withLast, started]

omit [LinearOrder K] in
theorem jacobianSum_withLast : jacobianSum exp (withLast h p) = jacobianSum exp p := rfl

/-- The worker makes the last probability equal; only the last gains may keep a difference. -/
theorem markProbability_forgets :
    ∃ later : History K, later.p_k_1 = (rbfgradMarkProbability exp random32 p).p_k_1 ∧
      rbfgradMarkProbability exp random32 (withHistory h p) =
        withHistory later (rbfgradMarkProbability exp random32 p) := by
  have pass := pass_forgets exp random32 h p
  have compared : (learn exp random32 (snapshot (withHistory h p))).gbestval <
      (learn exp random32 (snapshot (withHistory h p))).E0 ↔
      (learn exp random32 (snapshot p)).gbestval < (learn exp random32 (snapshot p)).E0 := by
    rw [pass]
    exact Iff.rfl
  by_cases fit : (learn exp random32 (snapshot p)).gbestval < (learn exp random32 (snapshot p)).E0
  · rw [rbfgradMarkProbability, rbfgradMarkProbability, tune_of_fit fit,
      tune_of_fit (compared.mpr fit), pass]
    generalize learn exp random32 (snapshot p) = learned
    refine ⟨history (updateProb (updateGains exp learned)), rfl, ?_⟩
    simp only [updateGains, jacobianSum_withLast]
    generalize jacobianSum exp learned = jacobian
    rfl
  · rw [rbfgradMarkProbability, rbfgradMarkProbability, tune_of_misfit fit,
      tune_of_misfit (mt compared.mp fit), pass]
    generalize learn exp random32 (snapshot p) = learned
    exact ⟨{ history (updateProb learned) with
      kp_k_1 := h.kp_k_1
      ki_k_1 := h.ki_k_1
      kd_k_1 := h.kd_k_1 }, rfl, rfl⟩

theorem markProbability_p_k_1 : (rbfgradMarkProbability exp random32 p).p_k_1 = p.p_k :=
  tune_p_k exp random32 p

end Learning

/-- Two qdiscs that differ only in the history and in counters nobody reads. -/
structure Alike (q q' : Qdisc K Child) : Prop where
  queue : queue q' = queue q
  parms : ∃ h, q'.parms = withHistory h q.parms

theorem sampled_alike {q q' : Qdisc K Child} (alike : Alike q q')
    (last : q'.parms.p_k_1 = q.parms.p_k_1) : ∃ h, sampled q' = withHistory h (sampled q) := by
  obtain ⟨h, parms⟩ := alike.parms
  have qlen := (queue_members alike.queue).1
  refine ⟨h, ?_⟩
  rw [parms] at last
  simp only [sampled, parms, qlen]
  simp only [withHistory] at last ⊢
  rw [last]

section Runs
variable [Field K] [LinearOrder K] [FloorRing K]

/-- What a run shows of a step: the decision, and the windows and the probability after it. -/
structure Observation (K : Type) where
  decision : Option Action
  proba : Vector K SAM_NUM
  queue_len : Vector Int32 SAM_NUM
  p_k : K

def observe (kernel : Kernel Child) (exp : K → K) (s : State K Child) (op : Op K Child) :
    Observation K where
  decision :=
    match op with
    | .enqueue netRandom _ => some (rbfgradAction s.qdisc.parms netRandom)
    | _ => none
  proba := (step kernel exp s op).qdisc.parms.proba
  queue_len := (step kernel exp s op).qdisc.parms.queue_len
  p_k := (step kernel exp s op).qdisc.parms.p_k

def observations (kernel : Kernel Child) (exp : K → K) :
    State K Child → List (Op K Child) → List (Observation K)
  | _, [] => []
  | s, op :: ops => observe kernel exp s op :: observations kernel exp (step kernel exp s op) ops

/-- The operations of a run after the configuration. -/
def Later : Op K Child → Prop
  | .enqueue _ _ => True
  | .dequeue => True
  | .worker _ => True
  | _ => False

/-- An enqueue operation takes a sample in both states or in neither, and one that does finds
the same last probability, which it enters into the window. -/
def SamplesAlike (pair : State K Child × State K Child) : Op K Child → Prop
  | .enqueue _ _ =>
      (pair.1.globals.cyc_count + 1 = CYC_MAX ↔ pair.2.globals.cyc_count + 1 = CYC_MAX) ∧
      (pair.1.globals.cyc_count + 1 = CYC_MAX →
        pair.2.qdisc.parms.p_k_1 = pair.1.qdisc.parms.p_k_1)
  | _ => True

def stepBoth (kernel : Kernel Child) (exp : K → K) (pair : State K Child × State K Child)
    (op : Op K Child) : State K Child × State K Child :=
  (step kernel exp pair.1 op, step kernel exp pair.2 op)

theorem action_alike {q q' : Qdisc K Child} (alike : Alike q q') (netRandom : BitVec 32) :
    rbfgradAction q'.parms netRandom = rbfgradAction q.parms netRandom := by
  obtain ⟨h, parms⟩ := alike.parms
  rw [parms]
  rfl

theorem step_alike (kernel : Kernel Child) (exp : K → K) {s s' : State K Child} {op : Op K Child}
    (later : Later op) (alike : Alike s.qdisc s'.qdisc) (samples : SamplesAlike (s, s') op) :
    Alike (step kernel exp s op).qdisc (step kernel exp s' op).qdisc := by
  cases op with
  | enqueue netRandom skb =>
    have action := action_alike alike netRandom
    refine ⟨?_, ?_⟩
    · simp only [step, enqueue_qdisc, action]
      exact dispatch_queue kernel _ skb alike.queue
    · rw [step_parms, step_parms]
      by_cases sampling : s.globals.cyc_count + 1 = CYC_MAX
      · simp only [sampleParms, if_pos sampling, if_pos (samples.1.mp sampling)]
        exact sampled_alike alike (samples.2 sampling)
      · simp only [sampleParms, if_neg sampling, if_neg (mt samples.1.mpr sampling)]
        exact alike.parms
  | dequeue =>
    refine ⟨dequeue_queue kernel alike.queue, ?_⟩
    rw [step_parms, step_parms]
    exact alike.parms
  | worker random32 =>
    refine ⟨alike.queue, ?_⟩
    obtain ⟨h, parms⟩ := alike.parms
    obtain ⟨after, _, same⟩ := markProbability_forgets exp random32 h s.qdisc.parms
    refine ⟨after, ?_⟩
    rw [step_parms, step_parms, parms]
    exact same
  | _ => exact later.elim

theorem observe_alike (kernel : Kernel Child) (exp : K → K) {s s' : State K Child}
    {op : Op K Child} (later : Later op) (alike : Alike s.qdisc s'.qdisc)
    (samples : SamplesAlike (s, s') op) : observe kernel exp s' op = observe kernel exp s op := by
  obtain ⟨h, after⟩ := (step_alike kernel exp later alike samples).parms
  cases op with
  | enqueue netRandom skb =>
    simp only [observe, action_alike alike, after]
    rfl
  | dequeue =>
    simp only [observe, after]
    rfl
  | worker random32 =>
    simp only [observe, after]
    rfl
  | _ => exact later.elim

/-- Two alike states show the same as long as their samples are alike. -/
theorem observations_alike (kernel : Kernel Child) (exp : K → K) {s s' : State K Child}
    (alike : Alike s.qdisc s'.qdisc) (ops : List (Op K Child)) (later : ∀ op ∈ ops, Later op)
    (samples : Transition.Along (stepBoth kernel exp) SamplesAlike (s, s') ops) :
    observations kernel exp s' ops = observations kernel exp s ops := by
  induction ops generalizing s s' with
  | nil => rfl
  | cons op ops ih =>
    have first := later op List.mem_cons_self
    have rest := ih (step_alike kernel exp first alike samples.1)
      (fun op member => later op (List.mem_cons_of_mem _ member)) samples.2
    rw [observations, observations, observe_alike kernel exp first alike samples.1, rest]

/-- With the same sampling counter, a sample that is not alike shows in the window. -/
theorem samples_of_observations (kernel : Kernel Child) (exp : K → K) {s s' : State K Child}
    (alike : Alike s.qdisc s'.qdisc) (cycle : s'.globals.cyc_count = s.globals.cyc_count)
    (ops : List (Op K Child)) (later : ∀ op ∈ ops, Later op)
    (same : observations kernel exp s' ops = observations kernel exp s ops) :
    Transition.Along (stepBoth kernel exp) SamplesAlike (s, s') ops := by
  induction ops generalizing s s' with
  | nil => trivial
  | cons op ops ih =>
    have first := later op List.mem_cons_self
    obtain ⟨shown, shownLater⟩ := List.cons.inj same
    have samples : SamplesAlike (s, s') op := by
      cases op with
      | enqueue netRandom skb =>
        refine ⟨by rw [cycle], ?_⟩
        intro sampling
        have also : s'.globals.cyc_count + 1 = CYC_MAX := by
          rw [cycle]
          exact sampling
        have entered : (sampled s'.qdisc).proba = (sampled s.qdisc).proba := by
          have shift := congrArg Observation.proba shown
          simp only [observe, step_parms, sampleParms, if_pos sampling, if_pos also] at shift
          exact shift
        have newest := congrArg (fun window => window[0]) entered
        exact newest
      | _ => trivial
    have counters : (step kernel exp s' op).globals.cyc_count =
        (step kernel exp s op).globals.cyc_count := by
      rw [step_cyc_count, step_cyc_count, cycle]
    exact ⟨samples, ih (step_alike kernel exp first alike samples) counters
      (fun op member => later op (List.mem_cons_of_mem _ member)) shownLater⟩

def Reachable (kernel : Kernel Child) (exp : K → K) (s : State K Child) : Prop :=
  ∃ g opt fifoError random32 worker stopper ops,
    (∀ op ∈ ops, QueueLength.EmptyGraft kernel op) ∧
    s = Transition.run (step kernel exp)
      (rbfgradInit kernel opt fifoError random32 worker stopper ⟨g, .zeroed kernel⟩).2 ops

theorem Reachable.agree {kernel : Kernel Child} (laws : kernel.CountsPackets) {exp : K → K}
    {s : State K Child} (reachable : Reachable kernel exp s) :
    QueueLength.Agree kernel s.qdisc := by
  obtain ⟨g, opt, fifoError, random32, worker, stopper, ops, allowed, rfl⟩ := reachable
  exact Transition.run_invariant (QueueLength.step_agree laws exp)
    (QueueLength.init_agree laws opt fifoError random32 worker stopper g) ops allowed

omit [LinearOrder K] [FloorRing K] in
/-- The new child is empty and the scheduler's own count agrees with it, so nothing of the
queue is left. -/
theorem install_alike {kernel : Kernel Child} (ctl : TcRbfgradQopt K) (stab : Stab)
    (random32 : ℕ → BitVec 32) (positive : 0 < ctl.limit) {s s' : State K Child}
    (agree : QueueLength.Agree kernel s.qdisc) (agree' : QueueLength.Agree kernel s'.qdisc) :
    Alike (install kernel ctl stab random32 s).qdisc (install kernel ctl stab random32 s').qdisc := by
  have emptied : ∀ s : State K Child, QueueLength.Agree kernel s.qdisc →
      queue (install kernel ctl stab random32 s).qdisc =
        (0, ctl.flags.setWidth 8, kernel.fifoCreateDflt ctl.limit) := by
    intro s agree
    simp only [install, if_pos positive, replaceChild, subQlen, queue, agree.qlen, BitVec.sub_self]
    rfl
  refine ⟨by rw [emptied s agree, emptied s' agree'], history s'.qdisc.parms, ?_⟩
  rw [install_parms, install_parms]
  exact configured_forgets ctl stab random32 s.qdisc.parms s'.qdisc.parms

omit [LinearOrder K] [FloorRing K] in
theorem install_cyc_count (kernel : Kernel Child) (ctl : TcRbfgradQopt K) (stab : Stab)
    (random32 : ℕ → BitVec 32) (s : State K Child) :
    (install kernel ctl stab random32 s).globals.cyc_count = s.globals.cyc_count := rfl

omit [LinearOrder K] [FloorRing K] in
theorem install_p_k_1 (kernel : Kernel Child) (ctl : TcRbfgradQopt K) (stab : Stab)
    (random32 : ℕ → BitVec 32) (s : State K Child) :
    (install kernel ctl stab random32 s).qdisc.parms.p_k_1 = s.qdisc.parms.p_k_1 := by
  rw [install_parms]
  rfl

/-- After the same accepted options, two reachable states show the same run when their samples
are alike; with the same sampling counter only then. -/
theorem change_forgets_history (kernel : Kernel Child) (laws : kernel.CountsPackets) (exp : K → K)
    {s s' : State K Child} (reachable : Reachable kernel exp s) (reachable' : Reachable kernel exp s')
    (ctl : TcRbfgradQopt K) (stab : Stab) (random32 : ℕ → BitVec 32) (positive : 0 < ctl.limit)
    (ops : List (Op K Child)) (later : ∀ op ∈ ops, Later op) :
    let after := fun s : State K Child =>
      (rbfgradChange kernel (some (.ok ⟨some ctl, some stab⟩)) none random32 s).2
    (Transition.Along (stepBoth kernel exp) SamplesAlike (after s, after s') ops →
      observations kernel exp (after s') ops = observations kernel exp (after s) ops) ∧
    (s'.globals.cyc_count = s.globals.cyc_count →
      observations kernel exp (after s') ops = observations kernel exp (after s) ops →
      Transition.Along (stepBoth kernel exp) SamplesAlike (after s, after s') ops) := by
  intro after
  have alike : Alike (after s).qdisc (after s').qdisc := by
    simp only [after, change_accepted]
    exact install_alike ctl stab random32 positive (reachable.agree laws) (reachable'.agree laws)
  refine ⟨observations_alike kernel exp alike ops later, ?_⟩
  intro cycle same
  have counters : (after s').globals.cyc_count = (after s).globals.cyc_count := by
    simp only [after, change_cyc_count, cycle]
  exact samples_of_observations kernel exp alike counters ops later same

/-- Enqueue operations that do not complete a cycle leave the controller record alone. -/
theorem run_quiet (kernel : Kernel Child) (exp : K → K) (netRandom : BitVec 32) (skb : SkBuff)
    (n : ℕ) (s : State K Child) (few : s.globals.cyc_count + n < CYC_MAX) :
    let after := Transition.run (step kernel exp) s (List.replicate n (.enqueue netRandom skb))
    after.qdisc.parms = s.qdisc.parms ∧ after.globals.cyc_count = s.globals.cyc_count + n := by
  induction n generalizing s with
  | zero => exact ⟨rfl, rfl⟩
  | succ n ih =>
    have quiet : s.globals.cyc_count + 1 ≠ CYC_MAX := by omega
    have parms : (step kernel exp s (.enqueue netRandom skb)).qdisc.parms = s.qdisc.parms := by
      rw [step_parms]
      exact if_neg quiet
    have cycle : (step kernel exp s (.enqueue netRandom skb)).globals.cyc_count =
        s.globals.cyc_count + 1 := by
      rw [step_cyc_count]
      exact if_neg quiet
    obtain ⟨laterParms, laterCycle⟩ := ih (step kernel exp s (.enqueue netRandom skb))
      (by rw [cycle]; omega)
    rw [List.replicate_succ, Transition.run_cons]
    refine ⟨laterParms.trans parms, laterCycle.trans ?_⟩
    rw [cycle]
    omega

end Runs

section Deployed
open Deployment

def arrival : Op ℚ ByteFifo.Child := .enqueue 7 packet

def reconfigured (s : State ℚ ByteFifo.Child) : State ℚ ByteFifo.Child :=
  (rbfgradChange ByteFifo.kernel message none silent s).2

def ran (ops : List (Op ℚ ByteFifo.Child)) : State ℚ ByteFifo.Child :=
  Transition.run (step ByteFifo.kernel decay) start ops

theorem ran_reachable (ops : List (Op ℚ ByteFifo.Child))
    (allowed : ∀ op ∈ ops, QueueLength.EmptyGraft ByteFifo.kernel op) :
    Reachable ByteFifo.kernel decay (ran ops) :=
  ⟨loaded, message, none, silent, 0, 1, ops, allowed, rfl⟩

/-- The counters differ, but the run is too short for a sample. -/
theorem change_forgets_history_deployed :
    observations ByteFifo.kernel decay (reconfigured (ran [arrival])) [.worker silent, arrival] =
      observations ByteFifo.kernel decay (reconfigured (ran [])) [.worker silent, arrival] := by
  have forgets := change_forgets_history ByteFifo.kernel ByteFifo.counts_packets decay
    (ran_reachable [] (by simp)) (ran_reachable [arrival] (by simp [arrival, QueueLength.EmptyGraft]))
    options stab silent (by decide) [.worker silent, arrival] (by simp [arrival, Later])
  apply forgets.1
  refine ⟨trivial, ⟨?_, ?_⟩, trivial⟩
  · decide +kernel
  · intro full
    exact absurd full (by decide +kernel)

/-- The options of the test command with another initial probability. -/
def half : Options ℚ := some (.ok ⟨some { options with p_init := 1 / 2 }, some stab⟩)

/-- A worker turn under the earlier options, and the packets up to the next sample. -/
def tuned : List (Op ℚ ByteFifo.Child) :=
  [.change half none silent, .worker silent] ++ List.replicate 19 arrival

theorem ran_arrivals : (ran (List.replicate 19 arrival)).qdisc.parms.p_k_1 = 0 ∧
    (ran (List.replicate 19 arrival)).globals.cyc_count = 19 := by
  obtain ⟨parms, cycle⟩ := run_quiet ByteFifo.kernel decay 7 packet 19 start (by decide +kernel)
  refine ⟨?_, cycle⟩
  rw [ran, arrival, parms]
  rfl

theorem ran_tuned : (ran tuned).qdisc.parms.p_k_1 = 1 / 2 ∧ (ran tuned).globals.cyc_count = 19 := by
  have first : (ran [.change half none silent]).qdisc.parms.p_k = 1 / 2 := rfl
  have second : ran [.change half none silent, .worker silent] =
      step ByteFifo.kernel decay (ran [.change half none silent]) (.worker silent) := rfl
  have counter : (ran [.change half none silent, .worker silent]).globals.cyc_count = 0 := by
    rw [second, step_cyc_count]
    rfl
  obtain ⟨parms, cycle⟩ := run_quiet ByteFifo.kernel decay 7 packet 19
    (ran [.change half none silent, .worker silent]) (by rw [counter]; decide)
  have split : ran tuned = Transition.run (step ByteFifo.kernel decay)
      (ran [.change half none silent, .worker silent]) (List.replicate 19 arrival) :=
    Transition.run_append (step ByteFifo.kernel decay) start _ _
  rw [counter] at cycle
  rw [split, arrival]
  refine ⟨?_, cycle⟩
  rw [parms, second, step_parms]
  exact (markProbability_p_k_1 decay silent _).trans first

theorem reconfigured_eq (s : State ℚ ByteFifo.Child) :
    reconfigured s = install ByteFifo.kernel options stab silent s :=
  congrArg Prod.snd (change_accepted ByteFifo.kernel options stab silent s)

/-- Two leaks: the last probability of the earlier configuration enters the window with the
first sample, and the sampling counter goes on from where it stood. -/
theorem change_leaks_history :
    (∀ ops ∈ [tuned, List.replicate 19 arrival, [arrival], []],
      Reachable ByteFifo.kernel decay (ran ops)) ∧
    observations ByteFifo.kernel decay (reconfigured (ran tuned)) [arrival] ≠
      observations ByteFifo.kernel decay (reconfigured (ran (List.replicate 19 arrival))) [arrival] ∧
    observations ByteFifo.kernel decay (reconfigured (ran [arrival])) (List.replicate 19 arrival) ≠
      observations ByteFifo.kernel decay (reconfigured (ran [])) (List.replicate 19 arrival) := by
  have reached : ∀ ops ∈ [tuned, List.replicate 19 arrival, [arrival], []],
      Reachable ByteFifo.kernel decay (ran ops) := by
    intro ops member
    apply ran_reachable
    simp only [List.mem_cons, List.not_mem_nil, or_false] at member
    rcases member with rfl | rfl | rfl | rfl <;> simp [tuned, arrival, QueueLength.EmptyGraft]
  refine ⟨reached, ?_, ?_⟩
  · intro same
    have alike := install_alike options stab silent (by decide)
      ((reached (List.replicate 19 arrival) (by simp)).agree ByteFifo.counts_packets)
      ((reached tuned (by simp)).agree ByteFifo.counts_packets)
    have counters : (install ByteFifo.kernel options stab silent (ran tuned)).globals.cyc_count =
        (install ByteFifo.kernel options stab silent
          (ran (List.replicate 19 arrival))).globals.cyc_count := by
      rw [install_cyc_count, install_cyc_count, ran_tuned.2, ran_arrivals.2]
    rw [reconfigured_eq, reconfigured_eq] at same
    have samples := (samples_of_observations ByteFifo.kernel decay alike counters [arrival]
      (by simp [arrival, Later]) same).1.2
    rw [install_cyc_count, ran_arrivals.2] at samples
    have entered := samples rfl
    rw [install_p_k_1, install_p_k_1, ran_tuned.1, ran_arrivals.1] at entered
    exact absurd entered (by norm_num)
  · intro same
    have windows := congrArg (List.map Observation.queue_len) same
    revert windows
    decide +kernel

end Deployed

/-- The options as the dump shows them. -/
def dumped [Field K] (ctl : TcRbfgradQopt K) : TcRbfgradQopt K :=
  { ctl with
    p_init := 0
    p_min := 0
    Scell_log := 0
    flags := 0 }

theorem dumped_eq_iff [Field K] (ctl : TcRbfgradQopt K) :
    dumped ctl = ctl ↔ ctl.p_init = 0 ∧ ctl.p_min = 0 ∧ ctl.Scell_log = 0 ∧ ctl.flags = 0 := by
  constructor
  · intro same
    exact ⟨(congrArg TcRbfgradQopt.p_init same).symm, (congrArg TcRbfgradQopt.p_min same).symm,
      (congrArg TcRbfgradQopt.Scell_log same).symm, (congrArg TcRbfgradQopt.flags same).symm⟩
  · rintro ⟨p_init, p_min, Scell_log, flags⟩
    cases ctl
    dsimp only at p_init p_min Scell_log flags
    subst p_init p_min Scell_log flags
    rfl

theorem dump_installed [Field K] (kernel : Kernel Child) (ctl : TcRbfgradQopt K) (stab : Stab)
    (random32 : ℕ → BitVec 32) (s : State K Child) :
    (rbfgradDump kernel true (install kernel ctl stab random32 s).qdisc).1 = .ok (dumped ctl) := by
  have limit : (install kernel ctl stab random32 s).qdisc.limit = ctl.limit := by
    unfold install
    dsimp only
    split <;> rfl
  simp only [rbfgradDump, install_parms, limit, if_true]
  rfl

/-- The dump after an accepted change: four members come back as zero whatever was set. -/
theorem dump_after_change_iff [Field K] (kernel : Kernel Child) (ctl : TcRbfgradQopt K) (stab : Stab)
    (fifoError : Option Errno) (random32 : ℕ → BitVec 32) (s : State K Child)
    (accepted : (rbfgradChange kernel (some (.ok ⟨some ctl, some stab⟩)) fifoError random32 s).1 =
      .ok ()) :
    (rbfgradDump kernel true
      (rbfgradChange kernel (some (.ok ⟨some ctl, some stab⟩)) fifoError random32 s).2.qdisc).1 =
        .ok ctl ↔
      ctl.p_init = 0 ∧ ctl.p_min = 0 ∧ ctl.Scell_log = 0 ∧ ctl.flags = 0 := by
  rcases change_cases kernel (some (.ok ⟨some ctl, some stab⟩)) fifoError random32 s with
    ⟨err, failed⟩ | ⟨ctl', stab', message, _, installed⟩
  · rw [failed] at accepted
    exact absurd accepted (by simp)
  · obtain ⟨rfl, rfl⟩ : ctl = ctl' ∧ stab = stab' := by simpa using message
    rw [installed, dump_installed, Except.ok.injEq, dumped_eq_iff]

def plain : TcRbfgradQopt ℚ := { Deployment.options with flags := 0 }

theorem dump_after_change_plain :
    (rbfgradDump ByteFifo.kernel true (rbfgradChange ByteFifo.kernel
      (some (.ok ⟨some plain, some Deployment.stab⟩)) none Deployment.silent
      Deployment.start).2.qdisc).1 = .ok plain :=
  (dump_after_change_iff ByteFifo.kernel plain Deployment.stab none Deployment.silent
    Deployment.start (by rw [change_accepted])).mpr (by decide)

/-- The options of the test command set the flag `ecn`, which the dump does not show. -/
theorem dump_loses_flags :
    (rbfgradChange ByteFifo.kernel Deployment.message none Deployment.silent Deployment.start).1 =
      .ok () ∧ Deployment.options.flags = 1 ∧
    (rbfgradDump ByteFifo.kernel true (rbfgradChange ByteFifo.kernel Deployment.message none
      Deployment.silent Deployment.start).2.qdisc).1 ≠ .ok Deployment.options := by
  rw [Deployment.message, change_accepted]
  refine ⟨rfl, rfl, ?_⟩
  rw [dump_installed, ne_eq, Except.ok.injEq]
  intro same
  exact absurd (congrArg TcRbfgradQopt.flags same) (by decide)

end GapsoRbfPid.Reconfiguration
