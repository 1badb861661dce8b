import GapsoRbfPid.Learning
import GapsoRbfPid.Library.Argmin
import GapsoRbfPid.WorkQueue

/-! `pso_learn` of `include/pso.h`. Two loops over the particles inside an epoch share the loop
variable `i` of the epochs and leave the number of particles in it, so all epochs work at one
index, which is not the number of any of them but by chance. -/

namespace GapsoRbfPid.PsoLoop
open GapsoRbfPid Library Pso

/-- A use of one of the two arrays that have an element for each epoch. -/
inductive Subscript where
  | tr (index : ℕ)
  | iwt (index : ℕ)
  deriving DecidableEq, Repr

def Subscript.index : Subscript → ℕ
  | .tr index => index
  | .iwt index => index

/-- An epoch as the stopping test sees it: the index it has worked at, and the two values that
it compares. -/
structure Epoch (K : Type) where
  i : ℕ
  compared : K
  gbestval : K

/-- The variables of the function. `tr` and `iwt` are all that lies behind the two pointers.
The last three fields are not in the source: whether the loop was left by its `break`, the
epochs so far and the subscripts so far. -/
structure State (K : Type) (SamNum UnitNum ParticleNum : ℕ) where
  queue : WorkQueue.State K SamNum UnitNum ParticleNum
  pbestval : Vector K ParticleNum
  pbest : Vector (Vector K UnitNum) ParticleNum
  gbestval : K
  gbest : Vector K UnitNum
  tr : ℕ → K
  iwt : ℕ → K
  te : ℕ
  cnt2 : Int32
  i : ℕ
  broken : Bool
  epochs : List (Epoch K)
  subscripts : List Subscript

variable {K : Type} [Field K] [LinearOrder K] {SamNum UnitNum ParticleNum : ℕ}

/-- The loop variable after `for(i=0; i<n; i++)`. -/
def counted (n : ℕ) : ℕ := Transition.sweep (fun i (_ : Fin n) => i + 1) 0

/-- The works are queued and the wait returns when those of `order` have run. -/
def queueAndWait (exp : K → K) (stack : Fin ParticleNum → K) (order : List (Fin ParticleNum))
    (state : State K SamNum UnitNum ParticleNum) : State K SamNum UnitNum ParticleNum :=
  { state with
    queue := Transition.run (WorkQueue.callback exp stack)
      (WorkQueue.queued state.queue.p state.queue.SSE) order
    i := counted ParticleNum }

def evalParticle (state : State K SamNum UnitNum ParticleNum) (j : Fin ParticleNum) :
    State K SamNum UnitNum ParticleNum :=
  if state.pbestval[j] > state.queue.SSE[j] then
    { state with
      pbestval := state.pbestval.set j state.queue.SSE[j] j.isLt
      pbest := state.pbest.set j state.queue.p.pos[j] j.isLt }
  else state

def selectBest [NeZero ParticleNum] (state : State K SamNum UnitNum ParticleNum) :
    State K SamNum UnitNum ParticleNum :=
  let least := Argmin.scan state.pbestval 0
  { state with gbestval := least.1, gbest := state.pbest[least.2] }

/-- The weight of an epoch, in the arithmetic of `int`. -/
def inertiaWeight (p : Pso K SamNum UnitNum ParticleNum) (i : ℕ) : K :=
  if (i : ℤ) < p.iwe.toInt then
    (((p.iw2 - p.iw1) / (p.iwe - 1) * .ofNat i + p.iw1).toInt : K)
  else (p.iw2.toInt : K)

/-- `tr[i+1]`, `te` and `iwt[i]`, and then the loop over `pbest`. -/
def keepTrack (state : State K SamNum UnitNum ParticleNum) : State K SamNum UnitNum ParticleNum :=
  { state with
    tr := Function.update state.tr (state.i + 1) state.gbestval
    te := state.i
    iwt := Function.update state.iwt state.i (inertiaWeight state.queue.p state.i)
    subscripts := state.subscripts ++ [.tr (state.i + 1), .iwt state.i]
    i := counted ParticleNum }

def velocity (random32 : ℕ → BitVec 32) (state : State K SamNum UnitNum ParticleNum)
    (j : Fin ParticleNum) (k : Fin UnitNum) : K :=
  let p := state.queue.p
  let call := 2 * ((state.epochs.length * ParticleNum + j) * UnitNum + k)
  clampVelocity (p.mv.toInt : K) (state.iwt state.i * p.vel[j][k] +
    (p.ac1.toInt : K) * rannum (random32 call) * (state.pbest[j][k] - p.pos[j][k]) +
    (p.ac2.toInt : K) * rannum (random32 (call + 1)) * (state.gbest[k] - p.pos[j][k]))

def move (random32 : ℕ → BitVec 32) (state : State K SamNum UnitNum ParticleNum) :
    State K SamNum UnitNum ParticleNum :=
  let vel : Vector (Vector K UnitNum) ParticleNum :=
    Vector.ofFn fun j => Vector.ofFn fun k => velocity random32 state j k
  { state with
    queue.p.vel := vel
    queue.p.pos := Vector.ofFn fun j => Vector.ofFn fun k => state.queue.p.pos[j][k] + vel[j][k]
    subscripts := state.subscripts ++ [.iwt state.i] }

/-- The stopping test, and the increment of the loop variable unless it breaks. `abs` is the
macro of the kernel. -/
def stopTest (abs : K → K) (state : State K SamNum UnitNum ParticleNum) :
    State K SamNum UnitNum ParticleNum :=
  let tmp1 := abs (state.tr state.i - state.gbestval)
  let state : State K SamNum UnitNum ParticleNum := { state with
    epochs := state.epochs ++ [⟨state.i, state.tr state.i, state.gbestval⟩]
    subscripts := state.subscripts ++ [.tr state.i] }
  if tmp1 > state.queue.p.ergrd then { state with cnt2 := 0, i := state.i + 1 }
  else if ((state.cnt2 + 1).toInt : K) ≥ state.queue.p.ergrdep then
    { state with cnt2 := state.cnt2 + 1, broken := true }
  else { state with cnt2 := state.cnt2 + 1, i := state.i + 1 }

section Loop
variable [NeZero ParticleNum] (exp abs : K → K) (random32 : ℕ → BitVec 32)
  (stack : Fin ParticleNum → K)

/-- The part before the main loop. What `entry` holds apart from the record is what the
variables and the allocated memory hold before they are written. -/
def start (order : List (Fin ParticleNum)) (entry : State K SamNum UnitNum ParticleNum) :
    State K SamNum UnitNum ParticleNum :=
  let ready := queueAndWait exp stack order { entry with pbest := entry.queue.p.pos }
  let chosen := selectBest { ready with pbestval := ready.queue.SSE }
  { chosen with
    tr := Function.update chosen.tr 0 chosen.gbestval
    subscripts := [.tr 0]
    i := 0
    broken := false
    epochs := [] }

/-- The body of the main loop. -/
def epoch (order : List (Fin ParticleNum)) (state : State K SamNum UnitNum ParticleNum) :
    State K SamNum UnitNum ParticleNum :=
  let measured := queueAndWait exp stack order state
  let chosen := selectBest (Transition.sweep evalParticle measured)
  stopTest abs (move random32 (keepTrack chosen))

/-- The loop has ended, by its `break` or at its head. -/
def Finished (MaxEpoch : ℤ) (state : State K SamNum UnitNum ParticleNum) : Prop :=
  state.broken = true ∨ MaxEpoch ≤ state.i

omit [Field K] [LinearOrder K] [NeZero ParticleNum] in
instance (MaxEpoch : ℤ) (state : State K SamNum UnitNum ParticleNum) :
    Decidable (Finished MaxEpoch state) := inferInstanceAs (Decidable (_ ∨ _))

/-- The main loop after so many turns. `orders turn` are the works that run before the wait of
that turn returns. -/
def loop (MaxEpoch : ℤ) (orders : ℕ → List (Fin ParticleNum))
    (first : State K SamNum UnitNum ParticleNum) : ℕ → State K SamNum UnitNum ParticleNum
  | 0 => first
  | turn + 1 =>
      let state := loop MaxEpoch orders first turn
      if Finished MaxEpoch state then state else epoch exp abs random32 stack (orders turn) state

variable [FloorRing K] (orders : ℕ → List (Fin ParticleNum))
  (entry : State K SamNum UnitNum ParticleNum)

/-- The main loop of `pso_learn` turn by turn. The first order is that of the works before the
loop. -/
def states : ℕ → State K SamNum UnitNum ParticleNum :=
  loop exp abs random32 stack (maxEpoch entry.queue.p) (fun turn => orders (turn + 1))
    (start exp stack (orders 0) entry)

/-- `pso_learn`, if so many turns end its loop. -/
def psoLearn (turns : ℕ) : Option (Pso K SamNum UnitNum ParticleNum) :=
  let final := states exp abs random32 stack orders entry turns
  if Finished (maxEpoch entry.queue.p) final then
    some { final.queue.p with W := final.gbest }
  else none

end Loop

/-- The value of `gbestval` that the epoch before left, or the search before the loop. -/
def recorded (first : K) (epochs : List (Epoch K)) : ℕ → Option K
  | 0 => some first
  | number + 1 => epochs[number]?.map Epoch.gbestval

/-- What the loop is to do, for the states that it reaches turn by turn. -/
structure Proper (MaxEpoch : ℤ) (states : ℕ → State K SamNum UnitNum ParticleNum) : Prop where
  ends : Finished MaxEpoch (states MaxEpoch.toNat)
  index : ∀ turns number (epoch : Epoch K), (states turns).epochs[number]? = some epoch →
    epoch.i = number
  compares : ∀ turns number (epoch : Epoch K), (states turns).epochs[number]? = some epoch →
    some epoch.compared = recorded (states 0).gbestval (states turns).epochs number
  inside : ∀ turns, ∀ subscript ∈ (states turns).subscripts, (subscript.index : ℤ) < MaxEpoch

section Step

theorem counted_eq (n : ℕ) : counted n = n := by
  let reached : ℕ → ℕ → Prop := fun turns i => i = turns
  have keeps : ∀ i (index : Fin n), reached index i → reached (index + 1) (i + 1) := by
    intro i index at_
    show i + 1 = index.val + 1
    rw [show i = index.val from at_]
  have first : reached 0 0 := rfl
  exact Transition.sweep_invariant keeps first

/-- What the search for the best particle neither reads nor writes. -/
def track (state : State K SamNum UnitNum ParticleNum) :=
  (state.queue, state.tr, state.i, state.broken, state.epochs, state.subscripts)

omit [Field K] in
theorem track_evalParticle (state : State K SamNum UnitNum ParticleNum) (j : Fin ParticleNum) :
    track (evalParticle state j) = track state := by
  unfold evalParticle
  split
  · rfl
  · rfl

variable [NeZero ParticleNum] {exp abs : K → K} {random32 : ℕ → BitVec 32}
  {stack : Fin ParticleNum → K} {order : List (Fin ParticleNum)}
  {state after : State K SamNum UnitNum ParticleNum}

/-- All that an epoch does with the loop variable. The number of particles is its only index. -/
structure Step (abs : K → K) (state after : State K SamNum UnitNum ParticleNum) : Prop where
  tr : after.tr = Function.update state.tr (ParticleNum + 1) after.gbestval
  epochs : after.epochs =
    state.epochs ++ [⟨ParticleNum, state.tr ParticleNum, after.gbestval⟩]
  subscripts : after.subscripts = state.subscripts ++
    [.tr (ParticleNum + 1), .iwt ParticleNum, .iwt ParticleNum, .tr ParticleNum]
  ergrd : after.queue.p.ergrd = state.queue.p.ergrd
  outcome : (after.broken = state.broken ∧ after.i = ParticleNum + 1) ∨
    (after.broken = true ∧ abs (state.tr ParticleNum - after.gbestval) ≤ after.queue.p.ergrd)

omit [NeZero ParticleNum] in
theorem stopTest_frame (abs : K → K) (state : State K SamNum UnitNum ParticleNum) :
    ((stopTest abs state).tr, (stopTest abs state).gbestval, (stopTest abs state).pbestval,
      (stopTest abs state).queue, (stopTest abs state).epochs, (stopTest abs state).subscripts) =
      (state.tr, state.gbestval, state.pbestval, state.queue,
        state.epochs ++ [⟨state.i, state.tr state.i, state.gbestval⟩],
        state.subscripts ++ [.tr state.i]) := by
  unfold stopTest
  dsimp only
  split
  · rfl
  · split
    · rfl
    · rfl

omit [NeZero ParticleNum] in
theorem stopTest_outcome (abs : K → K) (state : State K SamNum UnitNum ParticleNum) :
    ((stopTest abs state).broken = state.broken ∧ (stopTest abs state).i = state.i + 1) ∨
      ((stopTest abs state).broken = true ∧
        abs (state.tr state.i - state.gbestval) ≤ state.queue.p.ergrd) := by
  unfold stopTest
  dsimp only
  split
  · exact .inl ⟨rfl, rfl⟩
  · rename_i near
    split
    · exact .inr ⟨rfl, not_lt.mp near⟩
    · exact .inl ⟨rfl, rfl⟩

omit [NeZero ParticleNum] in
theorem stopTest_step (index : state.i = ParticleNum) :
    Step abs state (stopTest abs (move random32 (keepTrack state))) := by
  have left : (move random32 (keepTrack state)).i = ParticleNum := counted_eq ParticleNum
  have tr : (move random32 (keepTrack state)).tr =
      Function.update state.tr (ParticleNum + 1) state.gbestval := by
    show Function.update state.tr (state.i + 1) state.gbestval = _
    rw [index]
  have read : (move random32 (keepTrack state)).tr ParticleNum = state.tr ParticleNum := by
    rw [tr]
    exact Function.update_of_ne (Nat.ne_of_lt (Nat.lt_succ_self ParticleNum)) _ _
  have subscripts : (move random32 (keepTrack state)).subscripts = state.subscripts ++
      [.tr (ParticleNum + 1), .iwt ParticleNum, .iwt ParticleNum] := by
    show state.subscripts ++ [.tr (state.i + 1), .iwt state.i] ++ [.iwt (counted ParticleNum)] = _
    rw [index, counted_eq, List.append_assoc]
    rfl
  have frame := stopTest_frame abs (move random32 (keepTrack state))
  have outcome := stopTest_outcome abs (move random32 (keepTrack state))
  simp only [Prod.mk.injEq] at frame
  rw [left, read] at outcome frame
  obtain ⟨sameTr, sameVal, _, sameQueue, epochs, used⟩ := frame
  have value : (stopTest abs (move random32 (keepTrack state))).gbestval = state.gbestval := sameVal
  constructor
  · rw [sameTr, tr, value]
  · rw [epochs, value]
    rfl
  · rw [used, subscripts, List.append_assoc]
    rfl
  · rw [sameQueue]
    rfl
  · rw [value, sameQueue]
    exact outcome

theorem epoch_step (state : State K SamNum UnitNum ParticleNum) :
    Step abs state (epoch exp abs random32 stack order state) := by
  let measured := queueAndWait exp stack order state
  let chosen := selectBest (Transition.sweep evalParticle measured)
  have same : track chosen = track measured :=
    Transition.sweep_preserves track track_evalParticle measured
  simp only [track, Prod.mk.injEq] at same
  obtain ⟨queue, tr, index, broken, epochs, subscripts⟩ := same
  obtain ⟨_, _, _, works⟩ :=
    WorkQueue.run_frame exp stack (WorkQueue.queued state.queue.p state.queue.SSE) order
  have ergrd : chosen.queue.p.ergrd = state.queue.p.ergrd := by
    rw [queue]
    exact (congrArg Pso.ergrd works).trans rfl
  have step : Step abs chosen (stopTest abs (move random32 (keepTrack chosen))) :=
    stopTest_step (index.trans (counted_eq ParticleNum))
  constructor
  · exact step.tr.trans (by rw [tr]; rfl)
  · exact step.epochs.trans (by rw [epochs, tr]; rfl)
  · exact step.subscripts.trans (by rw [subscripts]; rfl)
  · exact step.ergrd.trans ergrd
  · have outcome := step.outcome
    rw [broken, tr] at outcome
    exact outcome

theorem epoch_index (state : State K SamNum UnitNum ParticleNum) :
    (epoch exp abs random32 stack order state).broken = true ∨
      (epoch exp abs random32 stack order state).i = ParticleNum + 1 := by
  have step : Step abs state (epoch exp abs random32 stack order state) := epoch_step state
  rcases step.outcome with next | broken
  · exact .inr next.2
  · exact .inl broken.1

/-- `gbestval` is the least of the particles' best errors. -/
def Best (state : State K SamNum UnitNum ParticleNum) : Prop :=
  state.gbestval = (Argmin.scan state.pbestval 0).1

/-- Only the comparison with the new errors changes the best errors, and the search follows it. -/
theorem epoch_values (state : State K SamNum UnitNum ParticleNum) :
    (epoch exp abs random32 stack order state).pbestval =
        (Transition.sweep evalParticle (queueAndWait exp stack order state)).pbestval ∧
      (epoch exp abs random32 stack order state).gbestval = (Argmin.scan
        (Transition.sweep evalParticle (queueAndWait exp stack order state)).pbestval 0).1 := by
  have frame := stopTest_frame abs (move random32 (keepTrack (selectBest
    (Transition.sweep evalParticle (queueAndWait exp stack order state)))))
  simp only [Prod.mk.injEq] at frame
  exact ⟨frame.2.2.1, frame.2.1⟩

theorem epoch_best (state : State K SamNum UnitNum ParticleNum) :
    Best (epoch exp abs random32 stack order state) := by
  unfold Best
  rw [(epoch_values state).1, (epoch_values state).2]

omit [Field K] [NeZero ParticleNum] in
theorem evalParticle_le (j k : Fin ParticleNum) :
    (evalParticle state j).pbestval[k] ≤ state.pbestval[k] := by
  unfold evalParticle
  split
  · rename_i smaller
    by_cases same : j = k
    · subst same
      show (state.pbestval.set j state.queue.SSE[j])[j] ≤ _
      rw [Transition.set_self]
      exact smaller.le
    · exact (Transition.set_of_ne state.pbestval same _).le
  · exact le_rfl

theorem epoch_le (state : State K SamNum UnitNum ParticleNum) (k : Fin ParticleNum) :
    (epoch exp abs random32 stack order state).pbestval[k] ≤ state.pbestval[k] := by
  let lower : State K SamNum UnitNum ParticleNum → Prop := fun later =>
    later.pbestval[k] ≤ state.pbestval[k]
  have keeps : ∀ later j, lower later → lower (evalParticle later j) := fun later j below =>
    (evalParticle_le j k).trans below
  have first : lower (queueAndWait exp stack order state) := le_rfl
  rw [(epoch_values state).1]
  exact Transition.sweep_keeps keeps first

/-- The best error never rises from one epoch to the next. -/
theorem epoch_falls {state : State K SamNum UnitNum ParticleNum} (best : Best state) :
    (epoch exp abs random32 stack order state).gbestval ≤ state.gbestval := by
  let particle := (Argmin.scan state.pbestval 0).2
  calc
    (epoch exp abs random32 stack order state).gbestval
      = (Argmin.scan (epoch exp abs random32 stack order state).pbestval 0).1 := epoch_best state
    _ ≤ (epoch exp abs random32 stack order state).pbestval[particle] :=
        Argmin.scan_le _ 0 particle
    _ ≤ state.pbestval[particle] := epoch_le state particle
    _ = (Argmin.scan state.pbestval 0).1 := (Argmin.scan_attained state.pbestval 0).symm
    _ = state.gbestval := best.symm

/-- Where the loop can be, compared with where it starts. -/
structure Reached (first state : State K SamNum UnitNum ParticleNum) : Prop where
  tr : ∀ index, index ≠ ParticleNum + 1 → state.tr index = first.tr index
  epochs : ∀ epoch ∈ state.epochs, epoch.i = ParticleNum ∧ epoch.compared = first.tr ParticleNum
  subscripts : ∀ subscript ∈ state.subscripts,
    subscript.index = 0 ∨ subscript.index = ParticleNum ∨ subscript.index = ParticleNum + 1
  ergrd : state.queue.p.ergrd = first.queue.p.ergrd

omit [Field K] [LinearOrder K] [NeZero ParticleNum] in
theorem Reached.refl {first : State K SamNum UnitNum ParticleNum} (epochs : first.epochs = [])
    (subscripts : first.subscripts = [.tr 0]) : Reached first first where
  tr _ _ := rfl
  epochs epoch inside := by
    rw [epochs] at inside
    exact absurd inside List.not_mem_nil
  subscripts subscript inside := by
    rw [subscripts, List.mem_singleton] at inside
    exact .inl (congrArg Subscript.index inside)
  ergrd := rfl

omit [NeZero ParticleNum] in
theorem Reached.step {first : State K SamNum UnitNum ParticleNum} (reached : Reached first state)
    (step : Step abs state after) : Reached first after where
  tr index other := by
    rw [step.tr, Function.update_of_ne other]
    exact reached.tr index other
  epochs epoch inside := by
    rw [step.epochs, List.mem_append, List.mem_singleton] at inside
    rcases inside with earlier | rfl
    · exact reached.epochs epoch earlier
    · exact ⟨rfl, reached.tr ParticleNum (Nat.ne_of_lt (Nat.lt_succ_self ParticleNum))⟩
  subscripts subscript inside := by
    rw [step.subscripts, List.mem_append] at inside
    rcases inside with earlier | now
    · exact reached.subscripts subscript earlier
    · right
      simp only [List.mem_cons, List.not_mem_nil, or_false] at now
      rcases now with rfl | rfl | rfl | rfl
      · exact .inr rfl
      · exact .inl rfl
      · exact .inl rfl
      · exact .inl rfl
  ergrd := step.ergrd.trans reached.ergrd

end Step

section Runs
variable [NeZero ParticleNum] (exp abs : K → K) (random32 : ℕ → BitVec 32)
  (stack : Fin ParticleNum → K)

section Turns
variable {MaxEpoch : ℤ} (orders : ℕ → List (Fin ParticleNum))
  {first : State K SamNum UnitNum ParticleNum}

theorem loop_reached (start : Reached first first) (turns : ℕ) :
    Reached first (loop exp abs random32 stack MaxEpoch orders first turns) := by
  induction turns with
  | zero => exact start
  | succ turns ih =>
    unfold loop
    dsimp only
    split
    · exact ih
    · exact ih.step (epoch_step _)

theorem loop_succ {turns : ℕ}
    (runs : ¬ Finished MaxEpoch (loop exp abs random32 stack MaxEpoch orders first turns)) :
    loop exp abs random32 stack MaxEpoch orders first (turns + 1) =
      epoch exp abs random32 stack (orders turns)
        (loop exp abs random32 stack MaxEpoch orders first turns) := by
  conv_lhs => unfold loop
  exact if_neg runs

theorem loop_finished {turns : ℕ}
    (ended : Finished MaxEpoch (loop exp abs random32 stack MaxEpoch orders first turns))
    (more : ℕ) :
    loop exp abs random32 stack MaxEpoch orders first (turns + more) =
      loop exp abs random32 stack MaxEpoch orders first turns := by
  induction more with
  | zero => rfl
  | succ more ih =>
    rw [← Nat.add_assoc]
    conv_lhs => unfold loop
    rw [ih]
    exact if_pos ended

/-- From the first turn on the loop variable stands past the number of particles. -/
theorem loop_index (fresh : ¬ Finished MaxEpoch first) (turns : ℕ) :
    (loop exp abs random32 stack MaxEpoch orders first (turns + 1)).broken = true ∨
      (loop exp abs random32 stack MaxEpoch orders first (turns + 1)).i = ParticleNum + 1 := by
  induction turns with
  | zero =>
    rw [loop_succ exp abs random32 stack orders fresh]
    exact epoch_index first
  | succ turns ih =>
    by_cases ended : Finished MaxEpoch
        (loop exp abs random32 stack MaxEpoch orders first (turns + 1))
    · rw [loop_finished exp abs random32 stack orders ended 1]
      exact ih
    · rw [loop_succ exp abs random32 stack orders ended]
      exact epoch_index _

end Turns

section Learn
variable [FloorRing K] (orders : ℕ → List (Fin ParticleNum))
  (entry : State K SamNum UnitNum ParticleNum)

theorem states_reached (turns : ℕ) :
    Reached (start exp stack (orders 0) entry)
      (states exp abs random32 stack orders entry turns) :=
  loop_reached exp abs random32 stack _ (.refl rfl rfl) turns

omit [FloorRing K] in
/-- Nothing has written this element when the loop starts. -/
theorem start_tr : (start exp stack (orders 0) entry).tr ParticleNum = entry.tr ParticleNum :=
  Function.update_of_ne (NeZero.ne ParticleNum) _ _

omit [FloorRing K] in
theorem start_ergrd :
    (start exp stack (orders 0) entry).queue.p.ergrd = entry.queue.p.ergrd := by
  obtain ⟨_, _, _, works⟩ := WorkQueue.run_frame exp stack
    (WorkQueue.queued entry.queue.p entry.queue.SSE) (orders 0)
  exact (congrArg Pso.ergrd works).trans rfl

theorem start_runs (positive : 1 ≤ maxEpoch entry.queue.p) :
    ¬ Finished (maxEpoch entry.queue.p) (start exp stack (orders 0) entry) := by
  intro ended
  rcases ended with broken | passed
  · exact Bool.false_ne_true broken
  · have first : maxEpoch entry.queue.p ≤ ((0 : ℕ) : ℤ) := passed
    omega

/-- All epochs work at the index `ParticleNum`, and compare with an element of `tr` that the
function never writes. -/
theorem states_epochs (turns : ℕ) :
    ∀ epoch ∈ (states exp abs random32 stack orders entry turns).epochs,
      epoch.i = ParticleNum ∧ epoch.compared = entry.tr ParticleNum := by
  intro epoch inside
  rw [← start_tr exp stack orders entry]
  exact (states_reached exp abs random32 stack orders entry turns).epochs epoch inside

theorem states_succ {turns : ℕ} (runs : ¬ Finished (maxEpoch entry.queue.p)
      (states exp abs random32 stack orders entry turns)) :
    states exp abs random32 stack orders entry (turns + 1) =
      epoch exp abs random32 stack (orders (turns + 1))
        (states exp abs random32 stack orders entry turns) :=
  loop_succ exp abs random32 stack _ runs

theorem states_step {turns : ℕ} (runs : ¬ Finished (maxEpoch entry.queue.p)
      (states exp abs random32 stack orders entry turns)) :
    Step abs (states exp abs random32 stack orders entry turns)
      (states exp abs random32 stack orders entry (turns + 1)) := by
  rw [states_succ exp abs random32 stack orders entry runs]
  exact epoch_step _

theorem states_one (positive : 1 ≤ maxEpoch entry.queue.p) :
    Step abs (start exp stack (orders 0) entry) (states exp abs random32 stack orders entry 1) := by
  have fresh : ¬ Finished (maxEpoch entry.queue.p)
      (states exp abs random32 stack orders entry 0) := start_runs exp stack orders entry positive
  exact states_step exp abs random32 stack orders entry fresh

theorem states_index (positive : 1 ≤ maxEpoch entry.queue.p) (turns : ℕ) :
    (states exp abs random32 stack orders entry (turns + 1)).broken = true ∨
      (states exp abs random32 stack orders entry (turns + 1)).i = ParticleNum + 1 :=
  loop_index exp abs random32 stack _ (start_runs exp stack orders entry positive) turns

/-- With no more epochs than particles and one, there is exactly one turn. -/
theorem states_few (positive : 1 ≤ maxEpoch entry.queue.p)
    (few : maxEpoch entry.queue.p ≤ ParticleNum + 1) (more : ℕ) :
    Finished (maxEpoch entry.queue.p) (states exp abs random32 stack orders entry 1) ∧
      states exp abs random32 stack orders entry (1 + more) =
        states exp abs random32 stack orders entry 1 := by
  have ended : Finished (maxEpoch entry.queue.p) (states exp abs random32 stack orders entry 1) := by
    rcases states_index exp abs random32 stack orders entry positive 0 with broken | index
    · exact .inl broken
    · right
      rw [index]
      exact few
  exact ⟨ended, loop_finished exp abs random32 stack _ ended more⟩

/-- With more epochs only the `break` ends the loop. -/
theorem finished_many (many : ParticleNum + 1 < maxEpoch entry.queue.p) (turns : ℕ) :
    Finished (maxEpoch entry.queue.p) (states exp abs random32 stack orders entry turns) ↔
      (states exp abs random32 stack orders entry turns).broken = true := by
  have positive : 1 ≤ maxEpoch entry.queue.p := by omega
  constructor
  · intro ended
    cases turns with
    | zero => exact absurd ended (start_runs exp stack orders entry positive)
    | succ turns =>
      rcases states_index exp abs random32 stack orders entry positive turns with broken | index
      · exact broken
      · apply ended.resolve_right
        rw [index]
        omega
  · exact .inl

/-- The subscripts stay inside the two arrays exactly if these have more than one element more
than there are particles. -/
theorem inside_iff (positive : 1 ≤ maxEpoch entry.queue.p) :
    (∀ turns, ∀ subscript ∈ (states exp abs random32 stack orders entry turns).subscripts,
      (subscript.index : ℤ) < maxEpoch entry.queue.p) ↔
      ParticleNum + 1 < maxEpoch entry.queue.p := by
  constructor
  · intro inside
    apply inside 1 (.tr (ParticleNum + 1))
    rw [(states_one exp abs random32 stack orders entry positive).subscripts]
    exact List.mem_append_right _ List.mem_cons_self
  · intro many turns subscript used
    have reached := states_reached exp abs random32 stack orders entry turns
    rcases reached.subscripts subscript used with zero | particles | next
    · omega
    · omega
    · omega

theorem states_falls (turns : ℕ) :
    Best (states exp abs random32 stack orders entry turns) ∧
      (states exp abs random32 stack orders entry (turns + 1)).gbestval ≤
        (states exp abs random32 stack orders entry turns).gbestval := by
  have best : Best (states exp abs random32 stack orders entry turns) := by
    induction turns with
    | zero => exact rfl
    | succ turns ih =>
      unfold states loop
      dsimp only
      split
      · exact ih
      · exact epoch_best _
  refine ⟨best, ?_⟩
  by_cases ended : Finished (maxEpoch entry.queue.p)
      (states exp abs random32 stack orders entry turns)
  · rw [show states exp abs random32 stack orders entry (turns + 1) =
      states exp abs random32 stack orders entry turns from
        loop_finished exp abs random32 stack _ ended 1]
  · rw [states_succ exp abs random32 stack orders entry ended]
    exact epoch_falls best

/-- Without an early stop the loop never ends. -/
theorem runs_forever (many : ParticleNum + 1 < maxEpoch entry.queue.p)
    (distance : ∀ x, 0 ≤ abs x) (never : entry.queue.p.ergrd < 0) (turns : ℕ) :
    ¬ Finished (maxEpoch entry.queue.p) (states exp abs random32 stack orders entry turns) := by
  rw [finished_many exp abs random32 stack orders entry many]
  induction turns with
  | zero => exact Bool.false_ne_true
  | succ turns ih =>
    have runs := (finished_many exp abs random32 stack orders entry many turns).not.mpr ih
    rcases (states_step exp abs random32 stack orders entry runs).outcome with on | stopped
    · rw [on.1]
      exact ih
    · have ergrd := (states_reached exp abs random32 stack orders entry (turns + 1)).ergrd
      rw [start_ergrd] at ergrd
      have far := (distance _).trans stopped.2
      rw [ergrd] at far
      exact absurd far (not_le.mpr never)

theorem psoLearn_few (positive : 1 ≤ maxEpoch entry.queue.p)
    (few : maxEpoch entry.queue.p ≤ ParticleNum + 1) (more : ℕ) :
    psoLearn exp abs random32 stack orders entry (1 + more) =
      some { (states exp abs random32 stack orders entry 1).queue.p with
        W := (states exp abs random32 stack orders entry 1).gbest } := by
  obtain ⟨ended, same⟩ := states_few exp abs random32 stack orders entry positive few more
  unfold psoLearn
  dsimp only
  rw [same]
  exact if_pos ended

theorem psoLearn_never (many : ParticleNum + 1 < maxEpoch entry.queue.p)
    (distance : ∀ x, 0 ≤ abs x) (never : entry.queue.p.ergrd < 0) (turns : ℕ) :
    psoLearn exp abs random32 stack orders entry turns = none :=
  if_neg (runs_forever exp abs random32 stack orders entry many distance never turns)

/-- The loop meets its purpose on no input: its first epoch works at `ParticleNum`. -/
theorem states_improper (positive : 1 ≤ maxEpoch entry.queue.p) :
    ¬ Proper (maxEpoch entry.queue.p) (states exp abs random32 stack orders entry) := by
  intro proper
  have first := (states_one exp abs random32 stack orders entry positive).epochs
  have index : ParticleNum = 0 :=
    proper.index 1 0 _ (by rw [first]; rfl)
  exact NeZero.ne ParticleNum index

end Learn

end Runs

/-- An entry of `pso_learn` with `ParticleNum` particles and the given number of epochs. -/
def entry (ParticleNum : ℕ) (MaxEpoch : ℚ) : State ℚ 1 1 ParticleNum where
  queue := ⟨{ WorkQueue.sample ParticleNum (1 / 2) with MaxEpoch := MaxEpoch },
    Vector.replicate _ 0, 0⟩
  pbestval := Vector.replicate _ 0
  pbest := Vector.replicate _ (Vector.replicate _ 0)
  gbestval := 0
  gbest := Vector.replicate _ 0
  tr := fun _ => 0
  iwt := fun _ => 0
  te := 0
  cnt2 := 0
  i := 0
  broken := false
  epochs := []
  subscripts := []

theorem states_improper_hundred :
    ¬ Proper (maxEpoch (entry 10 100).queue.p)
      (states Deployment.decay id Deployment.silent (fun _ => 0) (fun _ => List.finRange 10)
        (entry 10 100)) :=
  states_improper Deployment.decay id Deployment.silent (fun _ => 0) (fun _ => List.finRange 10)
    (entry 10 100) (by decide +kernel)

/-- Ten particles and ten epochs: the first epoch works at index 10. -/
theorem states_ten :
    ¬ Proper 10 (states Deployment.decay id Deployment.silent (fun _ => 0)
      (fun _ => List.finRange 10) (entry 10 10)) := by
  intro proper
  have seen : ((states Deployment.decay id Deployment.silent (fun _ => 0)
      (fun _ => List.finRange 10) (entry 10 10) 1).epochs.map Epoch.i)[0]? = some 10 := by
    decide +kernel
  rw [List.getElem?_map] at seen
  obtain ⟨epoch, first, index⟩ := Option.map_eq_some_iff.mp seen
  have number := proper.index 1 0 epoch first
  omega

end GapsoRbfPid.PsoLoop
