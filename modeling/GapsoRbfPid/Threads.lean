import GapsoRbfPid.Deployment
import GapsoRbfPid.Instances

/-! The lives of the qdiscs and of the two threads that each `rbfgrad_init` starts. The
worker holds a raw pointer to its qdisc, the stopper stops whatever `tsk_prob` names when
its time has come, and `rbfgrad_destroy` stops neither. -/

namespace GapsoRbfPid.Threads
open GapsoRbfPid Library

variable {K Child : Type}

/-- The life of a qdisc; the kernel discards one whose `rbfgrad_init` failed. -/
inductive Life where
  | unborn
  | alive
  | rejected
  | destroyed
  deriving DecidableEq, Repr

/-- A thread in `rbfgrad_thread_func`, with the pointer it was started with. -/
structure Worker where
  sch : ℕ
  running : Bool
  deriving DecidableEq, Repr

/-- A thread in `rbfgrad_stop_prob_thread_func`, with the milliseconds it has slept. -/
structure Stopper where
  slept : ℕ
  finished : Bool
  deriving DecidableEq, Repr

structure System (K Child : Type) where
  instances : Instances ℕ K Child
  life : ℕ → Life
  workers : Task → Option Worker
  stoppers : Task → Option Stopper
  nextTask : Task

inductive Event (K Child : Type) where
  | init (sch : ℕ) (opt : Options K) (fifoError : Option Errno) (random32 : ℕ → BitVec 32)
  | call (sch : ℕ) (op : Op K Child)
  | destroy (sch : ℕ)
  | work (task : Task) (random32 : ℕ → BitVec 32)
  | pass (milliseconds : ℕ)
  | stop (task : Task)

def kernelCalls : Op K Child → Bool
  | .worker _ => false
  | .destroy => false
  | _ => true

/-- `kthread_stop`: the thread has left its loop when the call returns. -/
def kthreadStop (workers : Task → Option Worker) : Option Task → Task → Option Worker
  | none => workers
  | some task =>
      Function.update workers task ((workers task).map fun worker => { worker with running := false })

def loaded [Field K] (kernel : Kernel Child) (g : Globals K) : System K Child where
  instances := .loaded kernel g
  life _ := .unborn
  workers _ := none
  stoppers _ := none
  nextTask := 0

section Steps
variable [Field K] [LinearOrder K] [FloorRing K]

def started (kernel : Kernel Child) (exp : K → K) (sys : System K Child) (sch : ℕ)
    (opt : Options K) (fifoError : Option Errno) (random32 : ℕ → BitVec 32) : System K Child :=
  let s : State K Child := ⟨sys.instances.globals, sys.instances.qdiscs sch⟩
  let worker := sys.nextTask
  let stopper := sys.nextTask + 1
  { instances := callOn kernel exp sys.instances (sch, .init opt fifoError random32 worker stopper)
    life := Function.update sys.life sch
      (match (rbfgradInit kernel opt fifoError random32 worker stopper s).1 with
      | .ok _ => .alive
      | .error _ => .rejected)
    workers := Function.update sys.workers worker (some ⟨sch, true⟩)
    stoppers := Function.update sys.stoppers stopper (some ⟨0, false⟩)
    nextTask := sys.nextTask + 2 }

/-- One event. An event that is not enabled leaves the system as it is. -/
def next (kernel : Kernel Child) (exp : K → K) (sys : System K Child) :
    Event K Child → System K Child
  | .init sch opt fifoError random32 =>
      if sys.life sch = .unborn then started kernel exp sys sch opt fifoError random32 else sys
  | .call sch op =>
      if sys.life sch = .alive ∧ kernelCalls op then
        { sys with instances := callOn kernel exp sys.instances (sch, .op op) }
      else sys
  | .destroy sch =>
      if sys.life sch = .alive then
        { sys with
          instances := callOn kernel exp sys.instances (sch, .op .destroy)
          life := Function.update sys.life sch .destroyed }
      else sys
  | .work task random32 =>
      match sys.workers task with
      | some ⟨sch, true⟩ =>
          { sys with instances := callOn kernel exp sys.instances (sch, .op (.worker random32)) }
      | _ => sys
  | .pass milliseconds =>
      { sys with stoppers := fun task => (sys.stoppers task).map fun stopper =>
          { stopper with slept := stopper.slept + milliseconds } }
  | .stop task =>
      match sys.stoppers task with
      | some ⟨slept, false⟩ =>
          if PROB_TIME ≤ slept then
            { sys with
              workers := kthreadStop sys.workers sys.instances.globals.tsk_prob
              stoppers := Function.update sys.stoppers task (some ⟨slept, true⟩) }
          else sys
      | _ => sys

theorem kthreadStop_running {workers : Task → Option Worker} {target : Option Task} {task : Task}
    {sch : ℕ} (running : kthreadStop workers target task = some ⟨sch, true⟩) :
    workers task = some ⟨sch, true⟩ := by
  cases target with
  | none => exact running
  | some stopped =>
    by_cases same : task = stopped
    · subst same
      simp only [kthreadStop, Function.update_self] at running
      cases found : workers task with
      | none => simp [found] at running
      | some worker => simp [found] at running
    · simpa only [kthreadStop, Function.update_of_ne same] using running

/-- A worker runs because it ran before, or because it was just started on an unborn qdisc. -/
theorem next_running (kernel : Kernel Child) (exp : K → K) (sys : System K Child)
    (event : Event K Child) {task : Task} {sch : ℕ}
    (running : (next kernel exp sys event).workers task = some ⟨sch, true⟩) :
    sys.workers task = some ⟨sch, true⟩ ∨ (sys.life sch = .unborn ∧
      ∃ opt fifoError random32, event = .init sch opt fifoError random32) := by
  cases event with
  | init born opt fifoError random32 =>
    simp only [next] at running
    split at running
    next unborn =>
      by_cases new : task = sys.nextTask
      · subst new
        simp only [started, Function.update_self, Option.some.injEq, Worker.mk.injEq,
          and_true] at running
        subst running
        exact .inr ⟨unborn, opt, fifoError, random32, rfl⟩
      · exact .inl (by simpa only [started, Function.update_of_ne new] using running)
    · exact .inl running
  | call target op =>
    simp only [next] at running
    split at running <;> exact .inl running
  | destroy target =>
    simp only [next] at running
    split at running <;> exact .inl running
  | work worker random32 =>
    simp only [next] at running
    split at running <;> exact .inl running
  | pass milliseconds => exact .inl running
  | stop stopper =>
    simp only [next] at running
    split at running
    · split at running
      · exact .inl (kthreadStop_running running)
      · exact .inl running
    · exact .inl running

/-- A qdisc is destroyed because it was before, or because that just happened. -/
theorem next_destroyed (kernel : Kernel Child) (exp : K → K) (sys : System K Child)
    (event : Event K Child) {sch : ℕ} (ended : (next kernel exp sys event).life sch = .destroyed) :
    sys.life sch = .destroyed ∨ (sys.life sch = .alive ∧ event = .destroy sch) := by
  cases event with
  | init born opt fifoError random32 =>
    simp only [next] at ended
    split at ended
    · by_cases same : sch = born
      · subst same
        simp only [started, Function.update_self] at ended
        split at ended <;> exact absurd ended (by decide)
      · exact .inl (by simpa only [started, Function.update_of_ne same] using ended)
    · exact .inl ended
  | call target op =>
    simp only [next] at ended
    split at ended <;> exact .inl ended
  | destroy target =>
    simp only [next] at ended
    split at ended
    next alive =>
      by_cases same : sch = target
      · subst same
        exact .inr ⟨alive, rfl⟩
      · exact .inl (by simpa only [Function.update_of_ne same] using ended)
    · exact .inl ended
  | work worker random32 =>
    simp only [next] at ended
    split at ended <;> exact .inl ended
  | pass milliseconds => exact .inl ended
  | stop stopper =>
    simp only [next] at ended
    split at ended
    · split at ended <;> exact .inl ended
    · exact .inl ended

/-- A worker step on a qdisc whose `rbfgrad_destroy` has returned. -/
def UsesDestroyed (sys : System K Child) : Event K Child → Prop
  | .work task _ => ∃ sch, sys.workers task = some ⟨sch, true⟩ ∧ sys.life sch = .destroyed
  | _ => False

/-- A qdisc is destroyed only when no running worker points to it. -/
def StoppedFirst (sys : System K Child) : Event K Child → Prop
  | .destroy sch => sys.life sch = .alive → ∀ task, sys.workers task ≠ some ⟨sch, true⟩
  | _ => True

def Safe (sys : System K Child) : Prop :=
  ∀ task random32, ¬UsesDestroyed sys (.work task random32)

/-- One event keeps the workers off the destroyed qdiscs exactly when it does not destroy a
qdisc under a running worker. -/
theorem next_safe_iff (kernel : Kernel Child) (exp : K → K) (sys : System K Child)
    (event : Event K Child) (safe : Safe sys) :
    Safe (next kernel exp sys event) ↔ StoppedFirst sys event := by
  constructor
  · intro kept
    cases event with
    | destroy sch =>
      intro alive task running
      apply kept task (fun _ => 0)
      refine ⟨sch, ?_, ?_⟩
      · simp only [next, if_pos alive]
        exact running
      · simp only [next, if_pos alive, Function.update_self]
    | _ => trivial
  · rintro stopped task random32 ⟨sch, running, ended⟩
    obtain before | ⟨unborn, opt, fifoError, draws, rfl⟩ := next_running kernel exp sys event running
    · obtain already | ⟨alive, rfl⟩ := next_destroyed kernel exp sys event ended
      · exact safe task random32 ⟨sch, before, already⟩
      · exact stopped alive task before
    · obtain already | ⟨_, different⟩ := next_destroyed kernel exp sys _ ended
      · exact absurd (unborn.symm.trans already) (by decide)
      · exact absurd different (by simp)

/-- At no point of a run can a worker step be taken on a destroyed qdisc exactly when every
qdisc was destroyed after its worker had stopped; and then no step of the run is one. -/
theorem worker_lifetime_iff (kernel : Kernel Child) (exp : K → K) (g : Globals K)
    (events : List (Event K Child)) :
    ((∀ before after, events = before ++ after → ∀ task random32,
        ¬UsesDestroyed (Transition.run (next kernel exp) (loaded kernel g) before)
          (.work task random32)) ↔
      Transition.Along (next kernel exp) StoppedFirst (loaded kernel g) events) ∧
    (Transition.Along (next kernel exp) StoppedFirst (loaded kernel g) events →
      Transition.Along (next kernel exp) (fun sys event => ¬UsesDestroyed sys event)
        (loaded kernel g) events) := by
  have initially : Safe (loaded kernel g : System K Child) := by
    rintro task random32 ⟨sch, running, _⟩
    exact absurd running (by simp [loaded])
  constructor
  · have anything : Transition.Along (next kernel exp) (fun _ _ => True) (loaded kernel g) events :=
      (Transition.along_iff_forall _ _).mpr fun _ _ => trivial
    exact (Transition.always_iff_prefixes initially events).symm.trans
      (Transition.always_iff_along
        (fun sys event safe _ => next_safe_iff kernel exp sys event safe) initially events anything)
  · apply Transition.along_of_invariant (fun sys event safe stopped =>
      (next_safe_iff kernel exp sys event safe).mpr stopped) _ initially events
    intro sys event safe
    cases event with
    | work task random32 => exact safe task random32
    | _ => exact fun impossible => impossible

end Steps

section Deployed

theorem worker_lifetime_iff_deployed :
    Transition.Along (next ByteFifo.kernel Deployment.decay)
      (fun sys event => ¬UsesDestroyed sys event) (loaded ByteFifo.kernel Deployment.loaded)
      [.init 0 Deployment.message none Deployment.silent, .work 0 Deployment.silent, .pass 55000,
        .stop 1, .destroy 0, .work 0 Deployment.silent] := by
  have stopped : StoppedFirst (Transition.run (next ByteFifo.kernel Deployment.decay)
      (loaded ByteFifo.kernel Deployment.loaded)
      [.init 0 Deployment.message none Deployment.silent, .work 0 Deployment.silent, .pass 55000,
        .stop 1]) (.destroy 0) := by
    intro _ task running
    cases task with
    | zero => exact absurd running (by decide +kernel)
    | succ task =>
      change (none : Option Worker) = some ⟨0, true⟩ at running
      exact absurd running (by decide)
  exact (worker_lifetime_iff ByteFifo.kernel Deployment.decay Deployment.loaded _).2
    ⟨trivial, trivial, trivial, trivial, stopped, trivial, trivial⟩

/-- Deleting the qdisc right after it was created leaves its worker running. -/
theorem worker_outlives_qdisc :
    ¬Transition.Along (next ByteFifo.kernel Deployment.decay)
      (fun sys event => ¬UsesDestroyed sys event) (loaded ByteFifo.kernel Deployment.loaded)
      [.init 0 Deployment.message none Deployment.silent, .destroy 0,
        .work 0 Deployment.silent] := by
  intro safe
  exact safe.2.2.1 ⟨0, rfl, rfl⟩

end Deployed

end GapsoRbfPid.Threads
