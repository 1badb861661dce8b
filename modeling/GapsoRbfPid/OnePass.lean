import GapsoRbfPid.Deployment
import GapsoRbfPid.Effects
import GapsoRbfPid.Swarm

/-! One learning pass while packets keep arriving. The input vector of the pass is a snapshot,
but `get_rbf_SSE` reads its target from the live window, so an enqueue operation that takes a
sample between two evaluations moves the target. -/

namespace GapsoRbfPid.OnePass
open GapsoRbfPid Library

variable {K Child : Type}

/-- A packet that arrives during the pass, with the draw of its marking decision. -/
abbrev Packet := BitVec 32 × SkBuff

/-- The pass under way: `index` is the local variable of the source. -/
structure Pass (K Child : Type) where
  state : State K Child
  index : Fin PARTICLE_NUM
  -- not in the source: the target of each evaluation so far
  targets : List K
  -- not in the source: where packets between two evaluations took samples, the last of them
  entered : List Int32

def Pass.parms (pass : Pass K Child) : RbfgradParms K := pass.state.qdisc.parms

def Pass.withParms (pass : Pass K Child) (p : RbfgradParms K) : Pass K Child :=
  { pass with state.qdisc.parms := p }

section Definitions
variable [Field K] [LinearOrder K] [FloorRing K]

def enqueue (kernel : Kernel Child) (s : State K Child) (packet : Packet) : State K Child :=
  (rbfgradEnqueue kernel packet.1 packet.2 s).2

/-- The queue length that an enqueue operation enters into the window, if it takes a sample. -/
def lastSample (last : Option Int32) (s : State K Child) (_ : Packet) : Option Int32 :=
  if s.globals.cyc_count + 1 = CYC_MAX then some (.ofBitVec s.qdisc.qlen) else last

/-- The packets that arrive before an evaluation, and the last sample they take. -/
def arrive (kernel : Kernel Child) (s : State K Child) (packets : List Packet) :
    State K Child × Option Int32 :=
  Transition.run (Transition.recording (enqueue kernel) lastSample) (s, none) packets

/-- The packets before an evaluation, and the target the evaluation will then read. -/
def await (kernel : Kernel Child) (packets : List Packet) (pass : Pass K Child) : Pass K Child :=
  let arrived := arrive kernel pass.state packets
  { pass with
    state := arrived.1
    targets := pass.targets ++ [liveTarget arrived.1.qdisc.parms]
    entered := pass.entered ++ arrived.2.toList }

def initEvalAmid (kernel : Kernel Child) (exp : K → K) (arrivals : ℕ → List Packet)
    (pass : Pass K Child) (i : Fin PARTICLE_NUM) : Pass K Child :=
  let pass := await kernel (arrivals i) pass
  pass.withParms (initEval exp pass.parms i)

def evalParticleAmid (kernel : Kernel Child) (exp : K → K) (arrivals : ℕ → List Packet) (epoch : ℕ)
    (pass : Pass K Child) (j : Fin PARTICLE_NUM) : Pass K Child :=
  let pass := await kernel (arrivals ((epoch + 1) * PARTICLE_NUM + j)) pass
  pass.withParms (evalParticle exp pass.parms j)

def selectBestOf (pass : Pass K Child) : Pass K Child :=
  let best := selectBest pass.parms
  { pass.withParms best.1 with index := best.2 }

def epochAmid (kernel : Kernel Child) (exp : K → K) (random32 : ℕ → BitVec 32)
    (arrivals : ℕ → List Packet) (pass : Pass K Child) (epoch : Fin MAX_EPOCH) : Pass K Child :=
  let pass := selectBestOf (Transition.sweep (evalParticleAmid kernel exp arrivals epoch) pass)
  pass.withParms (move random32 epoch pass.parms)

/-- The head of the pass: the snapshot, and the positions as first best positions. -/
def opening (s : State K Child) : Pass K Child where
  state := { s with qdisc.parms := { snapshot s.qdisc.parms with pbest := s.qdisc.parms.pos } }
  index := 0
  targets := []
  entered := []

/-- The weights found become the weights of the network. -/
def finish (pass : Pass K Child) : Pass K Child :=
  pass.withParms { pass.parms with w_k := pass.parms.gbest, gbest_index := pass.index }

/-- The learning pass of one `rbfgrad_mark_probability`. `arrivals n` are the packets that
arrive between the evaluation before the `n`-th one and the `n`-th one. -/
def learnAmid (kernel : Kernel Child) (exp : K → K) (random32 : ℕ → BitVec 32)
    (arrivals : ℕ → List Packet) (s : State K Child) : Pass K Child :=
  finish (Transition.sweep (epochAmid kernel exp random32 arrivals)
    (selectBestOf (Transition.sweep (initEvalAmid kernel exp arrivals) (opening s))))

/-- The packets of the first `n` gaps without the worker: the scheduler they leave, and the last
sample of each gap that took one. -/
def unattended (kernel : Kernel Child) (arrivals : ℕ → List Packet) (s : State K Child) :
    ℕ → State K Child × List Int32
  | 0 => (s, [])
  | n + 1 =>
      let before := unattended kernel arrivals s n
      let arrived := arrive kernel before.1 (arrivals n)
      (arrived.1, before.2 ++ arrived.2.toList)

end Definitions

/-- What an evaluation reads besides the swarm. -/
def reads (p : RbfgradParms K) :=
  (p.SamIn, p.c_k, p.delta_k, p.queue_len)

/-- What the choice of the best position leaves for the end of the pass. -/
def bests (p : RbfgradParms K) :=
  (p.pbest, p.pbestval, p.gbest, p.gbestval)

section Moves
variable [Field K] [LinearOrder K] (random32 : ℕ → BitVec 32) (epoch : ℕ) (p : RbfgradParms K)

end Moves

section Arrivals
variable [Field K] [LinearOrder K] [FloorRing K]

theorem enqueue_parms (kernel : Kernel Child) (s : State K Child) (packet : Packet) :
    (enqueue kernel s packet).qdisc.parms = sampleParms s.globals.cyc_count s.qdisc :=
  congrArg Qdisc.parms (enqueue_qdisc kernel packet.1 packet.2 s)

/-- The window's newest length is the last one sampled. -/
structure Arrived (s : State K Child) (arrived : State K Child × Option Int32) : Prop where
  network : arrived.1.qdisc.parms.toNetwork = s.qdisc.parms.toNetwork
  swarm : arrived.1.qdisc.parms.toSwarm = s.qdisc.parms.toSwarm
  newest : arrived.1.qdisc.parms.queue_len[0] = arrived.2.getD s.qdisc.parms.queue_len[0]

theorem arrive_spec (kernel : Kernel Child) (s : State K Child) (packets : List Packet) :
    Arrived s (arrive kernel s packets) := by
  apply Transition.run_keeps
  · rintro ⟨now, last⟩ packet ⟨network, swarm, newest⟩
    dsimp only at network swarm newest
    simp only [Transition.recording, lastSample]
    by_cases full : now.globals.cyc_count + 1 = CYC_MAX
    · have parms : (enqueue kernel now packet).qdisc.parms = sampled now.qdisc := by
        rw [enqueue_parms]
        exact if_pos full
      rw [if_pos full]
      refine ⟨?_, ?_, ?_⟩
      · rw [parms]
        exact network
      · rw [parms]
        exact swarm
      · rw [parms]
        rfl
    · have parms : (enqueue kernel now packet).qdisc.parms = now.qdisc.parms := by
        rw [enqueue_parms]
        exact if_neg full
      rw [if_neg full]
      refine ⟨?_, ?_, ?_⟩
      · rw [parms]
        exact network
      · rw [parms]
        exact swarm
      · rw [parms]
        exact newest
  · exact ⟨rfl, rfl, rfl⟩

end Arrivals

section Traffic
variable [Field K] [LinearOrder K] [FloorRing K]

/-- What the traffic depends on: the learning pass writes none of it. -/
structure SameTraffic (s s' : State K Child) : Prop where
  cycle : s'.globals.cyc_count = s.globals.cyc_count
  queue : queue s'.qdisc = queue s.qdisc
  p_k : s'.qdisc.parms.p_k = s.qdisc.parms.p_k

/-- The pass after `n` evaluations has seen the traffic that there would be without it. -/
structure Follows (kernel : Kernel Child) (arrivals : ℕ → List Packet) (s : State K Child) (n : ℕ)
    (pass : Pass K Child) : Prop where
  traffic : SameTraffic (unattended kernel arrivals s n).1 pass.state
  entered : pass.entered = (unattended kernel arrivals s n).2
  evaluations : pass.targets.length = n

variable {kernel : Kernel Child} {arrivals : ℕ → List Packet} {s : State K Child} {n : ℕ}
  {pass : Pass K Child}

theorem Follows.withParms (follows : Follows kernel arrivals s n pass) {after : RbfgradParms K}
    (same : frame after = frame pass.parms) : Follows kernel arrivals s n (pass.withParms after) := by
  have control : after.toControl = pass.parms.toControl := congrArg (fun f => f.2.2) same
  have p_k : after.p_k = pass.parms.p_k := congrArg Control.p_k control
  exact ⟨⟨follows.traffic.cycle, follows.traffic.queue, p_k.trans follows.traffic.p_k⟩,
    follows.entered, follows.evaluations⟩

end Traffic

section Invariant
variable [Field K]

def target (q : Int32) : K := (q.toInt : K) / 6500

/-- The samples that evaluations saw were all of the length `q0`. -/
def Steady (q0 : Int32) (pass : Pass K Child) : Prop := ∀ q ∈ pass.entered, q = q0

def OneTarget (q0 : Int32) (pass : Pass K Child) : Prop := ∀ t ∈ pass.targets, t = target q0

/-- The network is that of the snapshot, and its targets follow the samples. -/
structure Sound (p : RbfgradParms K) (q0 : Int32) (pass : Pass K Child) : Prop where
  input : pass.parms.SamIn = p.SamIn
  centres : pass.parms.c_k = p.c_k
  widths : pass.parms.delta_k = p.delta_k
  steady : OneTarget q0 pass → Steady q0 pass
  newest : Steady q0 pass → pass.parms.queue_len[0] = q0
  oneTarget : Steady q0 pass → OneTarget q0 pass

/-- The best values found so far are errors against the one target. -/
def Scored (exp : K → K) (p : RbfgradParms K) (q0 : Int32) (reached : ℕ) (pass : Pass K Child) :
    Prop :=
  Steady q0 pass → ∀ j : Fin PARTICLE_NUM, j.val < reached →
    pass.parms.pbestval[j] = squaredError exp p (target q0) pass.parms.pbest[j]

def Best (exp : K → K) (p : RbfgradParms K) (q0 : Int32) (pass : Pass K Child) : Prop :=
  Steady q0 pass → pass.parms.gbestval = squaredError exp p (target q0) pass.parms.gbest

variable {p : RbfgradParms K} {q0 : Int32}

theorem Sound.withParms {pass : Pass K Child} (sound : Sound p q0 pass) {after : RbfgradParms K}
    (same : reads after = reads pass.parms) : Sound p q0 (pass.withParms after) := by
  obtain ⟨input, centres, widths, window⟩ : after.SamIn = pass.parms.SamIn ∧
      after.c_k = pass.parms.c_k ∧ after.delta_k = pass.parms.delta_k ∧
      after.queue_len = pass.parms.queue_len := by
    simpa only [reads, Prod.mk.injEq] using same
  refine ⟨input.trans sound.input, centres.trans sound.centres, widths.trans sound.widths,
    sound.steady, ?_, sound.oneTarget⟩
  intro steady
  have newest := sound.newest steady
  change after.queue_len[0] = q0
  rw [window]
  exact newest

theorem Sound.error_eq {pass : Pass K Child} (sound : Sound p q0 pass) (exp : K → K) (t : K)
    (w : Vector K UNIT_NUM) :
    squaredError exp pass.parms t w = squaredError exp p t w := by
  simp only [squaredError, netOut_congr exp sound.input sound.centres sound.widths]

variable [LinearOrder K] [FloorRing K]

/-- The later loops: all best values are errors against the one target. -/
structure Kept (exp : K → K) (p : RbfgradParms K) (q0 : Int32) (pass : Pass K Child) : Prop where
  sound : Sound p q0 pass
  scored : Scored exp p q0 PARTICLE_NUM pass

/-- The end of an epoch: the best position has been chosen too. -/
structure Settled (exp : K → K) (p : RbfgradParms K) (q0 : Int32) (pass : Pass K Child) :
    Prop where
  kept : Kept exp p q0 pass
  best : Best exp p q0 pass

omit [LinearOrder K] [FloorRing K] in
/-- Moving the particles and taking over the weights touches none of the best values. -/
theorem Settled.withParms {exp : K → K} {pass : Pass K Child} (settled : Settled exp p q0 pass)
    {after : RbfgradParms K} (same : reads after = reads pass.parms)
    (values : bests after = bests pass.parms) : Settled exp p q0 (pass.withParms after) := by
  obtain ⟨pbest, pbestval, gbest, gbestval⟩ : after.pbest = pass.parms.pbest ∧
      after.pbestval = pass.parms.pbestval ∧ after.gbest = pass.parms.gbest ∧
      after.gbestval = pass.parms.gbestval := by
    simpa only [bests, Prod.mk.injEq] using values
  refine ⟨⟨settled.kept.sound.withParms same, ?_⟩, ?_⟩
  · intro steady j below
    have scored := settled.kept.scored steady j below
    change after.pbestval[j] = squaredError exp p (target q0) after.pbest[j]
    rw [pbestval, pbest]
    exact scored
  · intro steady
    have best := settled.best steady
    change after.gbestval = squaredError exp p (target q0) after.gbest
    rw [gbestval, gbest]
    exact best

end Invariant

section Traces
variable [Field K] [LinearOrder K] [FloorRing K] (kernel : Kernel Child) (s : State K Child)

def quiet : ℕ → List Packet := fun _ => []

end Traces

section Deployed
open Deployment

/-- The scheduler of the test one packet before its first sample. -/
def waiting : State ℚ ByteFifo.Child :=
  Transition.run (enqueue ByteFifo.kernel) start (List.replicate 19 (7, packet))

/-- A packet between the first two evaluations. -/
def early : ℕ → List Packet := fun n => if n = 1 then [(7, packet)] else []

end Deployed

section Quiet
variable [Field K] [LinearOrder K] [FloorRing K]

/-- The part of the pass that the worker's own model has. -/
def Pass.own (pass : Pass K Child) : RbfgradParms K × Fin PARTICLE_NUM := (pass.parms, pass.index)

theorem initEval_quiet (kernel : Kernel Child) (exp : K → K) (pass : Pass K Child)
    (i : Fin PARTICLE_NUM) :
    initEval exp pass.parms i = (initEvalAmid kernel exp quiet pass i).parms := rfl

theorem evalParticle_quiet (kernel : Kernel Child) (exp : K → K) (epoch : ℕ) (pass : Pass K Child)
    (j : Fin PARTICLE_NUM) :
    evalParticle exp pass.parms j = (evalParticleAmid kernel exp quiet epoch pass j).parms := rfl

omit [Field K] [FloorRing K] in
theorem selectBest_quiet (pass : Pass K Child) : selectBest pass.parms = (selectBestOf pass).own := by
  rw [selectBestOf]
  generalize selectBest pass.parms = best
  rfl

theorem epochStep_quiet (kernel : Kernel Child) (exp : K → K) (random32 : ℕ → BitVec 32)
    (pass : Pass K Child) (epoch : Fin MAX_EPOCH) :
    epochStep exp random32 pass.own epoch = (epochAmid kernel exp random32 quiet pass epoch).own := by
  have evaluations := Transition.sweep_map Pass.parms (evalParticle_quiet kernel exp epoch) pass
  have chosen := selectBest_quiet
    (Transition.sweep (evalParticleAmid kernel exp quiet epoch) pass)
  rw [← evaluations] at chosen
  change (move random32 epoch (selectBest (Transition.sweep (evalParticle exp) pass.parms)).1,
    (selectBest (Transition.sweep (evalParticle exp) pass.parms)).2) = _
  rw [chosen]
  rfl

/-- Without arrivals the pass is the learning pass of the worker. -/
theorem learnAmid_quiet (kernel : Kernel Child) (exp : K → K) (random32 : ℕ → BitVec 32)
    (s : State K Child) :
    (learnAmid kernel exp random32 quiet s).parms =
      learn exp random32 (snapshot s.qdisc.parms) := by
  have evaluations := Transition.sweep_map Pass.parms (initEval_quiet kernel exp) (opening s)
  have chosen := selectBest_quiet (Transition.sweep (initEvalAmid kernel exp quiet) (opening s))
  rw [← evaluations] at chosen
  have start : initSwarm exp (snapshot s.qdisc.parms) =
      (selectBestOf (Transition.sweep (initEvalAmid kernel exp quiet) (opening s))).own := chosen
  have epochs := Transition.sweep_map Pass.own (epochStep_quiet kernel exp random32)
    (selectBestOf (Transition.sweep (initEvalAmid kernel exp quiet) (opening s)))
  rw [← start] at epochs
  rw [learn, epochs, learnAmid]
  generalize Transition.sweep (epochAmid kernel exp random32 quiet)
    (selectBestOf (Transition.sweep (initEvalAmid kernel exp quiet) (opening s))) = final
  rfl

end Quiet

end GapsoRbfPid.OnePass
