import GapsoRbfPid.OnePass
import GapsoRbfPid.SwarmRecord
import Mathlib.Algebra.Order.Group.Abs

/-! How far the particles can get. An epoch moves a particle by its clamped velocity, and every
best position is one that a particle has held. -/

namespace GapsoRbfPid.StepBounds
open GapsoRbfPid Library

variable {K Child : Type} [Field K] [LinearOrder K]

section Definitions

/-- Two weight vectors differ by at most `reach` in every coordinate. -/
def Near (reach : K) (x y : Vector K UNIT_NUM) : Prop :=
  ∀ k : Fin UNIT_NUM, |x[k] - y[k]| ≤ reach

abbrev Positions (K : Type) := Vector (Vector K UNIT_NUM) PARTICLE_NUM

/-- Every particle is near its home. -/
structure Around (home : Positions K) (mv reach : K) (p : RbfgradParms K) : Prop where
  limit : p.mv = mv
  pos : ∀ j : Fin PARTICLE_NUM, Near reach p.pos[j] home[j]

/-- The best position of every particle is near its home too. -/
structure Tethered (home : Positions K) (mv reach : K) (p : RbfgradParms K) : Prop extends
    Around home mv reach p where
  pbest : ∀ j : Fin PARTICLE_NUM, Near reach p.pbest[j] home[j]

/-- After an epoch the velocities are clamped and the best position is that of some particle. -/
structure Bounded (home : Positions K) (mv reach : K) (p : RbfgradParms K) : Prop extends
    Tethered home mv reach p where
  vel : ∀ (j : Fin PARTICLE_NUM) (k : Fin UNIT_NUM), |p.vel[j][k]| ≤ mv
  gbest : ∃ j : Fin PARTICLE_NUM, Near reach p.gbest home[j]

end Definitions

section Steps
variable [IsStrictOrderedRing K] {home : Positions K} {mv reach : K}

omit [IsStrictOrderedRing K] in
theorem Near.widen {further : K} {x y : Vector K UNIT_NUM} (near : Near reach x y)
    (wider : reach ≤ further) : Near further x y :=
  fun k => (near k).trans wider

theorem Near.shift {x x' y : Vector K UNIT_NUM} (near : Near reach x y)
    (moved : Near mv x' x) : Near (reach + mv) x' y := by
  intro k
  calc
    |x'[k] - y[k]| ≤ |x'[k] - x[k]| + |x[k] - y[k]| := abs_sub_le x'[k] x[k] y[k]
    _ ≤ mv + reach := add_le_add (moved k) (near k)
    _ = reach + mv := add_comm mv reach

theorem clampVelocity_abs_le (positive : 0 ≤ mv) (v : K) : |clampVelocity mv v| ≤ mv := by
  have opposite : -mv ≤ mv := neg_le_self positive
  rw [abs_le]
  unfold clampVelocity
  dsimp only
  split_ifs with above below below
  · exact ⟨le_refl _, opposite⟩
  · exact ⟨opposite, le_refl _⟩
  · exact ⟨le_refl _, opposite⟩
  · exact ⟨not_lt.mp below, not_lt.mp above⟩

omit [IsStrictOrderedRing K] in
/-- An evaluation may replace the best position of its particle by the current one. -/
theorem Tethered.evalParticle {p : RbfgradParms K} (tethered : Tethered home mv reach p)
    (exp : K → K) (j : Fin PARTICLE_NUM) : Tethered home mv reach (evalParticle exp p j) := by
  by_cases better : p.pbestval[j] > (getRbfSSE exp p j).1
  · rw [evalParticle_of_better better]
    refine ⟨⟨tethered.limit, tethered.pos⟩, ?_⟩
    intro other
    change Near reach (p.pbest.set j p.pos[j])[other] home[other]
    rw [Vectors.getElem_fin, Vector.getElem_set]
    by_cases same : j.val = other.val
    · rw [if_pos same]
      have here : j = other := Fin.ext same
      exact here ▸ tethered.pos j
    · rw [if_neg same]
      exact tethered.pbest other
  · rw [evalParticle_of_not_better better]
    exact ⟨⟨tethered.limit, tethered.pos⟩, tethered.pbest⟩

omit [IsStrictOrderedRing K] in
theorem Tethered.initEval {p : RbfgradParms K} (tethered : Tethered home mv reach p) (exp : K → K)
    (i : Fin PARTICLE_NUM) : Tethered home mv reach (initEval exp p i) :=
  ⟨⟨tethered.limit, tethered.pos⟩, tethered.pbest⟩

omit [IsStrictOrderedRing K] in
theorem Tethered.selectBest {p : RbfgradParms K} (tethered : Tethered home mv reach p) :
    Tethered home mv reach (selectBest p).1 ∧
      ∃ j : Fin PARTICLE_NUM, Near reach (selectBest p).1.gbest home[j] := by
  rw [selectBest_eq]
  exact ⟨⟨⟨tethered.limit, tethered.pos⟩, tethered.pbest⟩, _, tethered.pbest _⟩

/-- The moves of an epoch, after the choice of the best position. -/
theorem Tethered.move {q : RbfgradParms K} (tethered : Tethered home mv reach q)
    (leader : ∃ j : Fin PARTICLE_NUM, Near reach q.gbest home[j]) (positive : 0 ≤ mv)
    (random32 : ℕ → BitVec 32) (epoch : ℕ) :
    Bounded home mv (reach + mv) (move random32 epoch q) := by
  have wider : reach ≤ reach + mv := le_add_of_nonneg_right positive
  obtain ⟨leader, near⟩ := leader
  obtain ⟨pbest, -, gbest, -, -, -⟩ := SwarmRecord.move_record random32 epoch q
  have slow : ∀ (j : Fin PARTICLE_NUM) (k : Fin UNIT_NUM),
      |(GapsoRbfPid.move random32 epoch q).vel[j][k]| ≤ mv := by
    intro j k
    rw [move_vel, velocity, tethered.limit]
    exact clampVelocity_abs_le positive _
  have moved : ∀ j : Fin PARTICLE_NUM,
      Near mv (GapsoRbfPid.move random32 epoch q).pos[j] q.pos[j] := by
    intro j k
    rw [move_pos, add_sub_cancel_left]
    exact slow j k
  have params : (GapsoRbfPid.move random32 epoch q).mv = mv := by
    have framed := frame_move random32 q epoch
    simp only [frame, Prod.mk.injEq] at framed
    rw [framed.1]
    exact tethered.limit
  generalize GapsoRbfPid.move random32 epoch q = after at *
  refine ⟨⟨⟨params, fun j => (tethered.pos j).shift (moved j)⟩, ?_⟩, slow, leader, ?_⟩
  · intro j
    simp only [pbest]
    exact (tethered.pbest j).widen wider
  · rw [gbest]
    exact near.widen wider

end Steps

section Epochs
variable [IsStrictOrderedRing K] {home : Positions K} {mv reach : K}

/-- How far the particles can be at the start of an epoch, and what the epochs before have
established. -/
structure Reached (home : Positions K) (mv reach : K) (epoch : ℕ) (p : RbfgradParms K) : Prop where
  tethered : Tethered home mv (reach + epoch * mv) p
  bounded : 0 < epoch → Bounded home mv (reach + epoch * mv) p

omit [IsStrictOrderedRing K] in
theorem reached_zero {p : RbfgradParms K} (tethered : Tethered home mv reach p) :
    Reached home mv reach 0 p := by
  have start : reach + ((0 : ℕ) : K) * mv = reach := by rw [Nat.cast_zero, zero_mul, add_zero]
  refine ⟨?_, fun later => absurd later (Nat.lt_irrefl 0)⟩
  rw [start]
  exact tethered

/-- One epoch, from where its evaluations have left the swarm. -/
theorem reached_succ (positive : 0 ≤ mv) (random32 : ℕ → BitVec 32) {epoch : ℕ}
    {p : RbfgradParms K} (evaluated : Tethered home mv (reach + epoch * mv) p) :
    Reached home mv reach (epoch + 1) (move random32 epoch (selectBest p).1) := by
  have bounded := evaluated.selectBest.1.move evaluated.selectBest.2 positive random32 epoch
  have further : reach + epoch * mv + mv = reach + ((epoch + 1 : ℕ) : K) * mv := by
    push_cast
    ring
  rw [further] at bounded
  exact ⟨bounded.toTethered, fun _ => bounded⟩

/-- The learning pass, when no packet interrupts it. -/
theorem epochs_bounded (positive : 0 ≤ mv) (exp : K → K) (random32 : ℕ → BitVec 32)
    {p : RbfgradParms K} (around : Around home mv reach p) :
    Bounded home mv (reach + MAX_EPOCH * mv)
      (SwarmRecord.beforeEpoch exp p random32 MAX_EPOCH).1 := by
  let kept : K → RbfgradParms K → Prop := fun reach => Tethered home mv reach
  let reached : ℕ → RbfgradParms K × Fin PARTICLE_NUM → Prop := fun epoch state =>
    Reached home mv reach epoch state.1
  have init : ∀ q i, kept reach q → kept reach (initEval exp q i) :=
    fun q i before => before.initEval exp i
  have compare : ∀ further q j, kept further q → kept further (evalParticle exp q j) :=
    fun further q j before => before.evalParticle exp j
  have opened : kept reach { snapshot p with pbest := (snapshot p).pos } :=
    ⟨⟨around.limit, around.pos⟩, around.pos⟩
  have evaluated : kept reach
      (Transition.sweep (initEval exp) { snapshot p with pbest := (snapshot p).pos }) :=
    Transition.sweep_keeps init opened
  have start : reached 0 (initSwarm exp (snapshot p)) := reached_zero evaluated.selectBest.1
  have keeps : ∀ state (epoch : Fin MAX_EPOCH), reached epoch state →
      reached (epoch + 1) (epochStep exp random32 state epoch) := by
    intro state epoch before
    have compared : kept (reach + epoch * mv) (Transition.sweep (evalParticle exp) state.1) :=
      Transition.sweep_keeps (compare _) before.tethered
    exact reached_succ positive random32 compared
  have ends : reached MAX_EPOCH (Transition.sweep (epochStep exp random32)
      (initSwarm exp (snapshot p))) :=
    Transition.sweep_invariant keeps start
  rw [SwarmRecord.beforeEpoch, Transition.turns_all]
  exact ends.bounded (by decide)

end Epochs

section Arrivals
variable [FloorRing K] {home : Positions K} {mv reach : K}

theorem arrive_toParams (kernel : Kernel Child) (s : State K Child)
    (packets : List OnePass.Packet) :
    (OnePass.arrive kernel s packets).1.qdisc.parms.toParams = s.qdisc.parms.toParams := by
  let view : State K Child × Option Int32 → Params K := fun state => state.1.qdisc.parms.toParams
  have frame : ∀ state packet, view (Transition.recording (OnePass.enqueue kernel)
      OnePass.lastSample state packet) = view state := by
    intro state packet
    change (OnePass.enqueue kernel state.1 packet).qdisc.parms.toParams = _
    rw [OnePass.enqueue_parms, sampleParms_toParams]
  exact Transition.run_preserves view frame (s, none) packets

/-- Packets before an evaluation touch neither the particles nor their limit. -/
theorem await_tethered (kernel : Kernel Child) (packets : List OnePass.Packet)
    {pass : OnePass.Pass K Child} (tethered : Tethered home mv reach pass.parms) :
    Tethered home mv reach (OnePass.await kernel packets pass).parms := by
  have params : (OnePass.await kernel packets pass).parms.toParams = pass.parms.toParams :=
    arrive_toParams kernel pass.state packets
  have swarm : (OnePass.await kernel packets pass).parms.toSwarm = pass.parms.toSwarm :=
    (OnePass.arrive_spec kernel pass.state packets).swarm
  generalize (OnePass.await kernel packets pass).parms = after at params swarm
  apply Tethered.mk
  · apply Around.mk
    · rw [params]
      exact tethered.limit
    · rw [swarm]
      exact tethered.pos
  · rw [swarm]
    exact tethered.pbest

variable [IsStrictOrderedRing K]

/-- The learning pass, whatever packets arrive between its evaluations. -/
theorem learnAmid_bounded (positive : 0 ≤ mv) (kernel : Kernel Child) (exp : K → K)
    (random32 : ℕ → BitVec 32) (arrivals : ℕ → List OnePass.Packet) {s : State K Child}
    (around : Around home mv reach s.qdisc.parms) :
    Bounded home mv (reach + MAX_EPOCH * mv)
      (OnePass.learnAmid kernel exp random32 arrivals s).parms := by
  let kept : K → OnePass.Pass K Child → Prop := fun reach pass => Tethered home mv reach pass.parms
  let reached : ℕ → OnePass.Pass K Child → Prop := fun epoch pass =>
    Reached home mv reach epoch pass.parms
  have init : ∀ pass i, kept reach pass →
      kept reach (OnePass.initEvalAmid kernel exp arrivals pass i) :=
    fun pass i before => (await_tethered kernel _ before).initEval exp i
  have compare : ∀ further epoch pass j, kept further pass →
      kept further (OnePass.evalParticleAmid kernel exp arrivals epoch pass j) :=
    fun further epoch pass j before => (await_tethered kernel _ before).evalParticle exp j
  have opened : kept reach (OnePass.opening s) := ⟨⟨around.limit, around.pos⟩, around.pos⟩
  have evaluated : kept reach
      (Transition.sweep (OnePass.initEvalAmid kernel exp arrivals) (OnePass.opening s)) :=
    Transition.sweep_keeps init opened
  have start : reached 0 (OnePass.selectBestOf
      (Transition.sweep (OnePass.initEvalAmid kernel exp arrivals) (OnePass.opening s))) :=
    reached_zero evaluated.selectBest.1
  have keeps : ∀ pass (epoch : Fin MAX_EPOCH), reached epoch pass →
      reached (epoch + 1) (OnePass.epochAmid kernel exp random32 arrivals pass epoch) := by
    intro pass epoch before
    have compared : kept (reach + epoch * mv)
        (Transition.sweep (OnePass.evalParticleAmid kernel exp arrivals epoch) pass) :=
      Transition.sweep_keeps (compare _ epoch) before.tethered
    exact reached_succ positive random32 compared
  have ends : reached MAX_EPOCH (Transition.sweep
      (OnePass.epochAmid kernel exp random32 arrivals) (OnePass.selectBestOf
        (Transition.sweep (OnePass.initEvalAmid kernel exp arrivals) (OnePass.opening s)))) :=
    Transition.sweep_invariant keeps start
  have last := ends.bounded (by decide)
  unfold OnePass.learnAmid
  generalize Transition.sweep (OnePass.epochAmid kernel exp random32 arrivals) _ = pass at last
  exact ⟨⟨⟨last.limit, last.pos⟩, last.pbest⟩, last.vel, last.gbest⟩

end Arrivals

section Calls
variable [IsStrictOrderedRing K] {home : Positions K} {mv reach : K}

/-- One call, and the weights it publishes. -/
theorem markProbability_bounded (positive : 0 ≤ mv) (exp : K → K) (random32 : ℕ → BitVec 32)
    {p : RbfgradParms K} (around : Around home mv reach p) :
    Bounded home mv (reach + MAX_EPOCH * mv) (rbfgradMarkProbability exp random32 p) ∧
      (rbfgradMarkProbability exp random32 p).w_k =
        (rbfgradMarkProbability exp random32 p).gbest := by
  have last := epochs_bounded positive exp random32 around
  have params := markProbability_toParams exp random32 p
  obtain ⟨swarm, weights, -⟩ := SwarmRecord.markProbability_swarm exp p random32
  generalize SwarmRecord.beforeEpoch exp p random32 MAX_EPOCH = reached at *
  generalize rbfgradMarkProbability exp random32 p = after at *
  refine ⟨⟨⟨⟨?_, ?_⟩, ?_⟩, ?_, ?_⟩, ?_⟩
  · rw [params]
    exact around.limit
  · rw [swarm]
    exact last.pos
  · rw [swarm]
    exact last.pbest
  · rw [swarm]
    exact last.vel
  · rw [swarm]
    exact last.gbest
  · rw [weights, swarm]

end Calls

section Runs
variable [FloorRing K]

/-- The operations of a run that leave the particles to the worker. -/
def KeepsSwarm : Op K Child → Prop
  | .change _ _ _ => False
  | _ => True

/-- The calls of `rbfgrad_mark_probability` in a run. -/
def calls : List (Op K Child) → ℕ
  | [] => 0
  | .worker _ :: rest => calls rest + 1
  | _ :: rest => calls rest

omit [Field K] [LinearOrder K] [FloorRing K] in
theorem calls_cons (op : Op K Child) (rest : List (Op K Child)) :
    calls (op :: rest) = calls [op] + calls rest := by
  cases op <;> simp only [calls, zero_add, Nat.add_comm]

omit [Field K] [LinearOrder K] [FloorRing K] in
theorem calls_eq_total (ops : List (Op K Child)) :
    calls ops = Transition.total (fun op => calls [op]) ops := by
  induction ops with
  | nil => rfl
  | cons op rest ih => rw [calls_cons, ih, Transition.total]

/-- Where the weights can be after a number of calls. -/
structure Roamed (home : Positions K) (mv : K) (n : ℕ) (p : RbfgradParms K) : Prop where
  around : Around home mv (n * MAX_EPOCH * mv) p
  bounded : 0 < n → Bounded home mv (n * MAX_EPOCH * mv) p ∧ p.w_k = p.gbest

variable [IsStrictOrderedRing K] {home : Positions K} {mv : K}

omit [FloorRing K] in
theorem Roamed.call {n : ℕ} {p : RbfgradParms K} (roamed : Roamed home mv n p) (positive : 0 ≤ mv)
    (exp : K → K) (random32 : ℕ → BitVec 32) :
    Roamed home mv (n + 1) (rbfgradMarkProbability exp random32 p) := by
  have next := markProbability_bounded positive exp random32 roamed.around
  have further : (n : K) * MAX_EPOCH * mv + MAX_EPOCH * mv = ((n + 1 : ℕ) : K) * MAX_EPOCH * mv := by
    push_cast
    ring
  rw [further] at next
  exact ⟨next.1.toAround, fun _ => next⟩

omit [FloorRing K] [IsStrictOrderedRing K] in
/-- The sampling of the queue touches none of the weights. -/
theorem Roamed.sampled {n : ℕ} {q : Qdisc K Child} (roamed : Roamed home mv n q.parms)
    (cyc_count : ℕ) : Roamed home mv n (sampleParms cyc_count q) := by
  unfold sampleParms
  split
  · refine ⟨⟨roamed.around.limit, roamed.around.pos⟩, ?_⟩
    intro later
    obtain ⟨bounded, weights⟩ := roamed.bounded later
    exact ⟨⟨⟨⟨bounded.limit, bounded.pos⟩, bounded.pbest⟩, bounded.vel, bounded.gbest⟩, weights⟩
  · exact roamed

theorem Roamed.after {n : ℕ} {s : State K Child} (roamed : Roamed home mv n s.qdisc.parms)
    (positive : 0 ≤ mv) (kernel : Kernel Child) (exp : K → K) (op : Op K Child)
    (keeps : KeepsSwarm op) :
    Roamed home mv (n + calls [op]) (step kernel exp s op).qdisc.parms := by
  rw [step_parms]
  cases op with
  | enqueue netRandom skb => exact roamed.sampled s.globals.cyc_count
  | worker random32 => exact roamed.call positive exp random32
  | change opt fifoError random32 => exact absurd keeps id
  | _ => exact roamed

theorem Roamed.run {n : ℕ} {s : State K Child} (roamed : Roamed home mv n s.qdisc.parms)
    (positive : 0 ≤ mv) (kernel : Kernel Child) (exp : K → K) (ops : List (Op K Child))
    (keeps : ∀ op ∈ ops, KeepsSwarm op) :
    Roamed home mv (n + calls ops) (Transition.run (step kernel exp) s ops).qdisc.parms := by
  induction ops generalizing n s with
  | nil => exact roamed
  | cons op rest ih =>
    have first := roamed.after positive kernel exp op (keeps op List.mem_cons_self)
    have later := ih first (fun other member => keeps other (List.mem_cons_of_mem op member))
    rw [calls_cons, ← Nat.add_assoc]
    exact later

/-- One call clamps every velocity and moves no particle by more than `MAX_EPOCH` clamped steps,
also when packets arrive during it; so after a number of calls every weight is near the position
that some particle started from. -/
theorem particles_stay_near (kernel : Kernel Child) (exp : K → K) (s : State K Child)
    (positive : 0 ≤ s.qdisc.parms.mv) :
    let before := s.qdisc.parms
    (∀ random32 (j : Fin PARTICLE_NUM) (k : Fin UNIT_NUM),
      let after := rbfgradMarkProbability exp random32 before
      |after.vel[j][k]| ≤ before.mv ∧
        |after.pos[j][k] - before.pos[j][k]| ≤ MAX_EPOCH * before.mv) ∧
    (∀ random32 arrivals (j : Fin PARTICLE_NUM) (k : Fin UNIT_NUM),
      let after := (OnePass.learnAmid kernel exp random32 arrivals s).parms
      |after.vel[j][k]| ≤ before.mv ∧
        |after.pos[j][k] - before.pos[j][k]| ≤ MAX_EPOCH * before.mv) ∧
    ∀ ops : List (Op K Child), (∀ op ∈ ops, KeepsSwarm op) →
      let later := (Transition.run (step kernel exp) s ops).qdisc.parms
      let reach : K := calls ops * MAX_EPOCH * before.mv
      (∀ (j : Fin PARTICLE_NUM) (k : Fin UNIT_NUM),
        |later.pos[j][k] - before.pos[j][k]| ≤ reach) ∧
      (0 < calls ops →
        (∀ (j : Fin PARTICLE_NUM) (k : Fin UNIT_NUM),
          |later.pbest[j][k] - before.pos[j][k]| ≤ reach) ∧
        ∃ j : Fin PARTICLE_NUM, ∀ k : Fin UNIT_NUM,
          |later.gbest[k] - before.pos[j][k]| ≤ reach ∧
            |later.w_k[k] - before.pos[j][k]| ≤ reach) := by
  intro before
  have still : ∀ j : Fin PARTICLE_NUM, Near 0 before.pos[j] before.pos[j] := by
    intro j k
    rw [sub_self, abs_zero]
  have around : Around before.pos before.mv 0 before := ⟨rfl, still⟩
  refine ⟨?_, ?_, ?_⟩
  · intro random32 j k after
    have bounded := (markProbability_bounded positive exp random32 around).1
    rw [zero_add] at bounded
    exact ⟨bounded.vel j k, bounded.pos j k⟩
  · intro random32 arrivals j k after
    have bounded := learnAmid_bounded positive kernel exp random32 arrivals around
    rw [zero_add] at bounded
    exact ⟨bounded.vel j k, bounded.pos j k⟩
  · intro ops keeps later reach
    have start : Roamed before.pos before.mv 0 before := by
      refine ⟨?_, fun some => absurd some (Nat.lt_irrefl 0)⟩
      rw [Nat.cast_zero, zero_mul, zero_mul]
      exact around
    have roamed := start.run positive kernel exp ops keeps
    rw [Nat.zero_add] at roamed
    refine ⟨fun j k => roamed.around.pos j k, ?_⟩
    intro some
    obtain ⟨bounded, weights⟩ := roamed.bounded some
    obtain ⟨leader, near⟩ := bounded.gbest
    refine ⟨fun j k => bounded.pbest j k, leader, ?_⟩
    intro k
    exact ⟨near k, weights ▸ near k⟩

theorem particles_stay_near_deployed :
    let before := Deployment.start.qdisc.parms
    let ops : List (Op ℚ ByteFifo.Child) :=
      [.worker Deployment.silent, .enqueue 5 Deployment.packet, .worker Deployment.silent]
    let later := (Transition.run (step ByteFifo.kernel Deployment.decay) Deployment.start ops).qdisc.parms
    ∀ (j : Fin PARTICLE_NUM) (k : Fin UNIT_NUM),
      |later.pos[j][k] - before.pos[j][k]| ≤ calls ops * MAX_EPOCH * before.mv := by
  intro before ops later
  have positive : 0 ≤ Deployment.start.qdisc.parms.mv := by decide +kernel
  have bounds := particles_stay_near ByteFifo.kernel Deployment.decay Deployment.start positive
  exact (bounds.2.2 ops (by simp [ops, KeepsSwarm])).1

end Runs

end GapsoRbfPid.StepBounds
