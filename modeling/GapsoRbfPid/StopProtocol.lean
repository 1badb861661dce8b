import GapsoRbfPid.Threads

/-! Who stops whom. Each `rbfgrad_init` starts a worker and a stopper and overwrites the one
global `tsk_prob`; a stopper whose time has come stops the worker named there, which is its own
exactly as long as no later `rbfgrad_init` has run. -/

namespace GapsoRbfPid.StopProtocol
open GapsoRbfPid Library Threads

variable {K Child : Type}

/-- The stopper is about to call `kthread_stop`. -/
def Issues (sys : System K Child) (task : Task) : Prop :=
  ∃ slept, sys.stoppers task = some ⟨slept, false⟩ ∧ PROB_TIME ≤ slept

/-- A `kthread_stop` goes to the worker that was started with the stopper, and that worker has
not been stopped before. The worker of a stopper is the thread started just before it. -/
def StopsOwn (sys : System K Child) : Event K Child → Prop
  | .stop task => Issues sys task →
      sys.instances.globals.tsk_prob = some (task - 1) ∧
      ∃ sch, sys.workers (task - 1) = some ⟨sch, true⟩
  | _ => True

/-- A stopper acts before the next `rbfgrad_init`: its own threads are the last ones started. -/
def ActsInTime (sys : System K Child) : Event K Child → Prop
  | .stop task => Issues sys task → task + 1 = sys.nextTask
  | _ => True

def AllFinished (sys : System K Child) : Prop :=
  ∀ task stopper, sys.stoppers task = some stopper → stopper.finished = true

def AllStopped (sys : System K Child) : Prop :=
  ∀ task worker, sys.workers task = some worker → worker.running = false

/-- Threads come in pairs, the worker of a pair runs until its stopper has finished, and the
global names the worker of the last pair. -/
structure Paired (sys : System K Child) : Prop where
  first : sys.stoppers 0 = none
  pairs : ∀ task, (sys.workers task).map Worker.running =
    (sys.stoppers (task + 1)).map fun stopper => !stopper.finished
  fresh : ∀ task, sys.nextTask ≤ task → sys.stoppers task = none
  named : sys.nextTask ≠ 0 →
    2 ≤ sys.nextTask ∧ sys.instances.globals.tsk_prob = some (sys.nextTask - 2)

/-- An event that starts no thread and stops none keeps the pairs. -/
theorem Paired.congr {sys after : System K Child} (paired : Paired sys)
    (workers : after.workers = sys.workers) (stoppers : after.stoppers = sys.stoppers)
    (nextTask : after.nextTask = sys.nextTask)
    (named : after.instances.globals.tsk_prob = sys.instances.globals.tsk_prob) : Paired after := by
  refine ⟨?_, ?_, ?_, ?_⟩
  · rw [stoppers]
    exact paired.first
  · rw [workers, stoppers]
    exact paired.pairs
  · rw [nextTask, stoppers]
    exact paired.fresh
  · rw [nextTask, named]
    exact paired.named

theorem Paired.stopper_ne_zero {sys : System K Child} (paired : Paired sys) {task : Task}
    {stopper : Stopper} (waiting : sys.stoppers task = some stopper) : task ≠ 0 := by
  rintro rfl
  rw [paired.first] at waiting
  exact absurd waiting (by simp)

/-- A stopper that acts in time stops its own worker, which is still running. -/
theorem stop_in_time {sys : System K Child} (paired : Paired sys) {task : Task}
    (issues : Issues sys task) :
    task + 1 = sys.nextTask ↔
      sys.instances.globals.tsk_prob = some (task - 1) ∧
      ∃ sch, sys.workers (task - 1) = some ⟨sch, true⟩ := by
  obtain ⟨slept, waiting, _⟩ := issues
  have known : task < sys.nextTask := by
    by_contra beyond
    rw [paired.fresh task (Nat.le_of_not_lt beyond)] at waiting
    exact absurd waiting (by simp)
  obtain ⟨worker, rfl⟩ := Nat.exists_eq_succ_of_ne_zero (paired.stopper_ne_zero waiting)
  obtain ⟨two, named⟩ := paired.named (Nat.ne_of_gt (Nat.lt_of_le_of_lt (Nat.zero_le _) known))
  obtain ⟨older, last⟩ := Nat.exists_eq_add_of_le two
  have running : ∃ sch, sys.workers worker = some ⟨sch, true⟩ := by
    have pair := paired.pairs worker
    rw [waiting] at pair
    obtain ⟨⟨sch, flag⟩, found, on⟩ := Option.map_eq_some_iff.mp pair
    dsimp only at on
    exact ⟨sch, by rw [found, on]; rfl⟩
  have target : sys.instances.globals.tsk_prob = some older := by
    rw [named, last, Nat.add_sub_cancel_left]
  change worker + 1 + 1 = sys.nextTask ↔ sys.instances.globals.tsk_prob = some worker ∧ _
  rw [last, target, Option.some.injEq]
  constructor
  · intro same
    exact ⟨by omega, running⟩
  · rintro ⟨same, _⟩
    omega

/-- The stop itself keeps the pairs: worker and stopper of one pair end together. -/
theorem stop_paired {sys : System K Child} (paired : Paired sys) {worker slept : ℕ}
    (waiting : sys.stoppers (worker + 1) = some ⟨slept, false⟩) (last : worker + 2 = sys.nextTask) :
    Paired { sys with
      workers := kthreadStop sys.workers (some worker)
      stoppers := Function.update sys.stoppers (worker + 1) (some ⟨slept, true⟩) } := by
  refine ⟨?_, ?_, ?_, paired.named⟩
  · dsimp only
    rw [Function.update_of_ne (Nat.succ_ne_zero _).symm]
    exact paired.first
  · intro task
    have pair := paired.pairs task
    by_cases same : task = worker
    · subst same
      rw [waiting] at pair
      obtain ⟨own, found, _⟩ := Option.map_eq_some_iff.mp pair
      simp only [kthreadStop, Function.update_self, found, Option.map_some, Bool.not_true]
    · have other : task + 1 ≠ worker + 1 := fun equal => same (Nat.succ.inj equal)
      simp only [kthreadStop, Function.update_of_ne same, Function.update_of_ne other]
      exact pair
  · intro task beyond
    have later : worker + 2 ≤ task := by
      rw [last]
      exact beyond
    dsimp only
    rw [Function.update_of_ne (Nat.ne_of_gt later)]
    exact paired.fresh task beyond

theorem loaded_paired [Field K] (kernel : Kernel Child) (g : Globals K) :
    Paired (loaded kernel g : System K Child) :=
  ⟨rfl, fun _ => rfl, fun _ _ => rfl, fun some => absurd rfl some⟩

section Runs
variable [Field K] [LinearOrder K] [FloorRing K]

theorem step_tsk_prob (kernel : Kernel Child) (exp : K → K) (s : State K Child) (op : Op K Child) :
    (step kernel exp s op).globals.tsk_prob = s.globals.tsk_prob := by
  cases op with
  | enqueue netRandom skb =>
    simp only [step, rbfgradEnqueue, sampleBlock]
    split <;> rfl
  | change opt fifoError random32 =>
    rcases change_cases kernel opt fifoError random32 s with ⟨err, same⟩ | ⟨ctl, stab, _, _, same⟩
    · simp only [step, same]
    · simp only [step, same]
      rfl
  | _ => rfl

theorem started_paired (kernel : Kernel Child) (exp : K → K) (sys : System K Child) (sch : ℕ)
    (opt : Options K) (fifoError : Option Errno) (random32 : ℕ → BitVec 32) (paired : Paired sys) :
    Paired (started kernel exp sys sch opt fifoError random32) := by
  refine ⟨?_, ?_, ?_, ?_⟩
  · simp only [started]
    rw [Function.update_of_ne (Nat.succ_ne_zero _).symm]
    exact paired.first
  · intro task
    by_cases new : task = sys.nextTask
    · subst new
      simp only [started, Function.update_self, Option.map_some, Bool.not_false]
    · have other : task + 1 ≠ sys.nextTask + 1 := fun same => new (Nat.succ.inj same)
      simp only [started, Function.update_of_ne new, Function.update_of_ne other]
      exact paired.pairs task
  · intro task beyond
    simp only [started] at beyond ⊢
    rw [Function.update_of_ne (Nat.ne_of_gt beyond)]
    exact paired.fresh task (Nat.le_trans (Nat.le_add_right _ 2) beyond)
  · intro _
    exact ⟨Nat.le_add_left 2 sys.nextTask, rfl⟩

theorem next_paired (kernel : Kernel Child) (exp : K → K) (sys : System K Child)
    (event : Event K Child) (paired : Paired sys) (inTime : ActsInTime sys event) :
    Paired (next kernel exp sys event) := by
  cases event with
  | init sch opt fifoError random32 =>
    simp only [next]
    split
    · exact started_paired kernel exp sys sch opt fifoError random32 paired
    · exact paired
  | call sch op =>
    simp only [next]
    split
    · exact paired.congr rfl rfl rfl (step_tsk_prob kernel exp _ op)
    · exact paired
  | destroy sch =>
    simp only [next]
    split
    · exact paired.congr rfl rfl rfl rfl
    · exact paired
  | work task random32 =>
    simp only [next]
    split
    · exact paired.congr rfl rfl rfl rfl
    · exact paired
  | pass milliseconds =>
    refine ⟨?_, ?_, ?_, paired.named⟩
    · simp only [next, paired.first, Option.map_none]
    · intro task
      simp only [next, Option.map_map]
      exact paired.pairs task
    · intro task beyond
      simp only [next, paired.fresh task beyond, Option.map_none]
  | stop task =>
    simp only [next]
    split
    next slept waiting =>
      split
      next ready =>
        have last := inTime ⟨slept, waiting, ready⟩
        obtain ⟨target, _⟩ := (stop_in_time paired ⟨slept, waiting, ready⟩).mp last
        obtain ⟨worker, rfl⟩ := Nat.exists_eq_succ_of_ne_zero (paired.stopper_ne_zero waiting)
        rw [target]
        exact stop_paired paired waiting last
      · exact paired
    · exact paired

/-- Every `kthread_stop` of a run goes to the stopper's own, still running worker, and once all
stoppers have finished all workers are stopped, exactly when every stopper acts before the next
`rbfgrad_init`. -/
theorem stop_protocol_iff (kernel : Kernel Child) (exp : K → K) (g : Globals K)
    (events : List (Event K Child)) :
    (Transition.Along (next kernel exp) StopsOwn (loaded kernel g) events ∧
      (AllFinished (Transition.run (next kernel exp) (loaded kernel g) events) →
        AllStopped (Transition.run (next kernel exp) (loaded kernel g) events))) ↔
    Transition.Along (next kernel exp) ActsInTime (loaded kernel g) events := by
  have agree : ∀ (sys : System K Child) event, Paired sys →
      (StopsOwn sys event ↔ ActsInTime sys event) := by
    intro sys event paired
    cases event with
    | stop task => exact forall_congr' fun issues => (stop_in_time paired issues).symm
    | _ => exact Iff.rfl
  have exact_iff := Transition.along_iff_along (next_paired kernel exp) agree
    (loaded_paired kernel g) events
  rw [exact_iff]
  refine ⟨fun both => both.1, fun inTime => ⟨inTime, ?_⟩⟩
  intro finished task worker found
  have paired := Transition.run_invariant_along (next_paired kernel exp) (loaded_paired kernel g)
    events inTime
  have pair := paired.pairs task
  rw [found, Option.map_some] at pair
  obtain ⟨stopper, waits, off⟩ := Option.map_eq_some_iff.mp pair.symm
  rw [← off, finished (task + 1) stopper waits]
  rfl

end Runs

section Deployed

def begun : System ℚ ByteFifo.Child := loaded ByteFifo.kernel Deployment.loaded

def twoInstances : List (Event ℚ ByteFifo.Child) :=
  [.init 0 Deployment.message none Deployment.silent,
    .init 1 Deployment.message none Deployment.silent, .pass 55000, .stop 1, .stop 3]

/-- Two qdiscs created within the stopping time: both stoppers stop the second worker, and the
first one runs on after both have finished. -/
theorem second_worker_stopped_twice :
    ¬(Transition.Along (next ByteFifo.kernel Deployment.decay) StopsOwn begun twoInstances ∧
      (AllFinished (Transition.run (next ByteFifo.kernel Deployment.decay) begun twoInstances) →
        AllStopped (Transition.run (next ByteFifo.kernel Deployment.decay) begun twoInstances))) ∧
    (Transition.run (next ByteFifo.kernel Deployment.decay) begun twoInstances).workers 0 =
      some ⟨0, true⟩ ∧
    [1, 3].map (Transition.run (next ByteFifo.kernel Deployment.decay) begun twoInstances).stoppers =
      [some ⟨55000, true⟩, some ⟨55000, true⟩] := by
  refine ⟨?_, by decide +kernel, by decide +kernel⟩
  rintro ⟨own, _⟩
  have target := (own.2.2.2.1 ⟨55000, rfl, by decide⟩).1
  exact absurd target (by decide +kernel)

end Deployed

end GapsoRbfPid.StopProtocol
