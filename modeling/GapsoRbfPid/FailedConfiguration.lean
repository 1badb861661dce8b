import GapsoRbfPid.Threads
import Mathlib.Algebra.Order.Ring.Defs

/-! What a failed configuration leaves behind. `rbfgrad_change` fails before it has written
anything. `rbfgrad_init` goes on after the failure: it starts both threads, and the worker
evaluates a network that was never set. -/

namespace GapsoRbfPid.FailedConfiguration
open GapsoRbfPid Library Threads

variable {K Child : Type}

section Change
variable [Field K]

/-- The message carries both attributes, and the child it asks for can be created. -/
def Accepted (opt : Options K) (fifoError : Option Errno) : Prop :=
  ∃ ctl stab, opt = some (.ok ⟨some ctl, some stab⟩) ∧ (0 < ctl.limit → fifoError = none)

/-- A request fails for its message or for its child, whatever the qdisc holds. -/
theorem change_ok_iff (kernel : Kernel Child) (opt : Options K) (fifoError : Option Errno)
    (random32 : ℕ → BitVec 32) (s : State K Child) :
    (rbfgradChange kernel opt fifoError random32 s).1 = .ok () ↔ Accepted opt fifoError := by
  constructor
  · intro succeeded
    rcases change_cases kernel opt fifoError random32 s with
      ⟨err, failed⟩ | ⟨ctl, stab, message, created, _⟩
    · rw [failed] at succeeded
      cases succeeded
    · exact ⟨ctl, stab, message, created⟩
  · rintro ⟨ctl, stab, rfl, created⟩
    by_cases positive : 0 < ctl.limit
    · rw [created positive, change_accepted]
    · simp only [rbfgradChange, if_neg positive]

theorem change_error_unchanged (kernel : Kernel Child) (opt : Options K) (fifoError : Option Errno)
    (random32 : ℕ → BitVec 32) (s : State K Child) {err : Errno}
    (failed : (rbfgradChange kernel opt fifoError random32 s).1 = .error err) :
    (rbfgradChange kernel opt fifoError random32 s).2 = s := by
  rcases change_cases kernel opt fifoError random32 s with
    ⟨_, unchanged⟩ | ⟨ctl, stab, _, _, installed⟩
  · rw [unchanged]
  · rw [installed] at failed
    cases failed

end Change

section Widths
variable [Field K]

/-- Every hidden unit has been given a width. -/
def Widths (p : RbfgradParms K) : Prop := ∀ i : Fin UNIT_NUM, p.delta_k[i] ≠ 0

theorem configured_widths [CharZero K] (ctl : TcRbfgradQopt K) (stab : Stab)
    (random32 : ℕ → BitVec 32) (p : RbfgradParms K) : Widths (configured ctl stab random32 p) := by
  intro i
  simp only [configured, rbfgradSetParms, Vectors.getElem_fin, Vector.getElem_replicate]
  exact OfNat.ofNat_ne_zero 40

theorem change_widths [CharZero K] (kernel : Kernel Child) (opt : Options K)
    (fifoError : Option Errno) (random32 : ℕ → BitVec 32) {s : State K Child}
    (set : Widths s.qdisc.parms) :
    Widths (rbfgradChange kernel opt fifoError random32 s).2.qdisc.parms := by
  rcases change_cases kernel opt fifoError random32 s with
    ⟨_, unchanged⟩ | ⟨ctl, stab, _, _, installed⟩
  · rw [unchanged]
    exact set
  · rw [installed, install_parms]
    exact configured_widths ctl stab random32 s.qdisc.parms

theorem sampleParms_widths (cyc_count : ℕ) {q : Qdisc K Child} (set : Widths q.parms) :
    Widths (sampleParms cyc_count q) := by
  unfold sampleParms
  split
  · exact set
  · exact set

variable [LinearOrder K]

theorem markProbability_widths (exp : K → K) (random32 : ℕ → BitVec 32) {p : RbfgradParms K}
    (set : Widths p) : Widths (rbfgradMarkProbability exp random32 p) := by
  have widths : (rbfgradMarkProbability exp random32 p).delta_k = p.delta_k :=
    congrArg (fun parts => parts.2.2) (layer_markProbability exp random32 p)
  intro i
  rw [widths]
  exact set i

variable [FloorRing K] [CharZero K]

/-- No operation takes the widths away again. -/
theorem step_widths (kernel : Kernel Child) (exp : K → K) {s : State K Child} (op : Op K Child)
    (set : Widths s.qdisc.parms) : Widths (step kernel exp s op).qdisc.parms := by
  rw [step_parms]
  cases op with
  | enqueue netRandom skb => exact sampleParms_widths s.globals.cyc_count set
  | worker random32 => exact markProbability_widths exp random32 set
  | change opt fifoError random32 => exact change_widths kernel opt fifoError random32 set
  | _ => exact set

end Widths

section Init
variable [Field K]

theorem init_result (kernel : Kernel Child) (opt : Options K) (fifoError : Option Errno)
    (random32 : ℕ → BitVec 32) (worker stopper : Task) (s : State K Child) :
    (rbfgradInit kernel opt fifoError random32 worker stopper s).1 = .ok () ↔
      Accepted opt fifoError :=
  change_ok_iff kernel opt fifoError random32 _

theorem init_fpu (kernel : Kernel Child) (opt : Options K) (fifoError : Option Errno)
    (random32 : ℕ → BitVec 32) (worker stopper : Task) (s : State K Child) :
    (rbfgradInit kernel opt fifoError random32 worker stopper s).2.globals.fpu =
      s.globals.fpu + 1 := by
  unfold rbfgradInit
  rcases change_cases kernel opt fifoError random32
    { globals := initGlobals s.globals, qdisc := { s.qdisc with qdisc := kernel.noopQdisc } } with
    ⟨_, same⟩ | ⟨ctl, stab, _, _, same⟩
  · rw [same]
    rfl
  · rw [same]
    rfl

theorem init_widths [CharZero K] (kernel : Kernel Child) {opt : Options K} {fifoError : Option Errno}
    (accepted : Accepted opt fifoError) (random32 : ℕ → BitVec 32) (worker stopper : Task)
    (s : State K Child) :
    Widths (rbfgradInit kernel opt fifoError random32 worker stopper s).2.qdisc.parms := by
  have succeeded := (init_result kernel opt fifoError random32 worker stopper s).mpr accepted
  unfold rbfgradInit at succeeded ⊢
  rcases change_cases kernel opt fifoError random32
    { globals := initGlobals s.globals, qdisc := { s.qdisc with qdisc := kernel.noopQdisc } } with
    ⟨_, same⟩ | ⟨ctl, stab, _, _, same⟩
  · rw [same] at succeeded
    cases succeeded
  · rw [same]
    dsimp only
    rw [install_parms]
    exact configured_widths ctl stab random32 _

end Init

section System
variable [Field K] [LinearOrder K] [FloorRing K]

/-- A worker step that evaluates a network of which a width was never set. -/
def DividesByZero (sys : System K Child) : Event K Child → Prop
  | .work task _ => ∃ sch, sys.workers task = some ⟨sch, true⟩ ∧
      ¬Widths (sys.instances.qdiscs sch).parms
  | _ => False

/-- A failed `rbfgrad_init` has started no thread and closed what it opened. -/
def FailsCleanly (kernel : Kernel Child) (exp : K → K) (sys : System K Child)
    (event : Event K Child) : Prop :=
  match event with
  | .init sch _ _ _ => sys.life sch = .unborn → (next kernel exp sys event).life sch = .rejected →
      (next kernel exp sys event).workers = sys.workers ∧
      (next kernel exp sys event).stoppers = sys.stoppers ∧
      (next kernel exp sys event).instances.globals.fpu = sys.instances.globals.fpu
  | _ => True

/-- A qdisc is created with a message that is accepted. -/
def InitAccepted (sys : System K Child) : Event K Child → Prop
  | .init sch opt fifoError _ => sys.life sch = .unborn → Accepted opt fifoError
  | _ => True

theorem next_life (kernel : Kernel Child) (exp : K → K) {sys : System K Child} {sch : ℕ}
    (unborn : sys.life sch = .unborn) (opt : Options K) (fifoError : Option Errno)
    (random32 : ℕ → BitVec 32) :
    (next kernel exp sys (.init sch opt fifoError random32)).life sch = .rejected ↔
      ¬Accepted opt fifoError := by
  rw [← init_result kernel opt fifoError random32 sys.nextTask (sys.nextTask + 1)
    ⟨sys.instances.globals, sys.instances.qdiscs sch⟩]
  simp only [next, if_pos unborn, started, Function.update_self]
  generalize (rbfgradInit kernel opt fifoError random32 sys.nextTask (sys.nextTask + 1)
    ⟨sys.instances.globals, sys.instances.qdiscs sch⟩).1 = result
  cases result with
  | error err => simp
  | ok done => simp

/-- A failed creation is never clean: its `kernel_fpu_begin` stays open. -/
theorem failsCleanly_iff (kernel : Kernel Child) (exp : K → K) (sys : System K Child)
    (event : Event K Child) : FailsCleanly kernel exp sys event ↔ InitAccepted sys event := by
  cases event with
  | init sch opt fifoError random32 =>
    constructor
    · intro clean unborn
      by_contra refused
      have open_section := (clean unborn ((next_life kernel exp unborn opt fifoError random32).mpr
        refused)).2.2
      simp only [next, if_pos unborn, started, callOn, applyCall, init_fpu] at open_section
      omega
    · intro accepted unborn rejected
      exact absurd (accepted unborn)
        ((next_life kernel exp unborn opt fifoError random32).mp rejected)
  | _ => exact Iff.rfl

/-- The workers that run have a network to evaluate. -/
def AllSet (sys : System K Child) : Prop :=
  ∀ task sch, sys.workers task = some ⟨sch, true⟩ → Widths (sys.instances.qdiscs sch).parms

variable [CharZero K]

omit [CharZero K] in
/-- A call on one qdisc, when it leaves that one set. -/
theorem callOn_set (kernel : Kernel Child) (exp : K → K) {all : Instances ℕ K Child} {sch : ℕ}
    {call : Call K Child} {other : ℕ}
    (here : other = sch →
      Widths (applyCall kernel exp ⟨all.globals, all.qdiscs sch⟩ call).qdisc.parms)
    (there : other ≠ sch → Widths (all.qdiscs other).parms) :
    Widths ((callOn kernel exp all (sch, call)).qdiscs other).parms := by
  by_cases same : other = sch
  · subst same
    simp only [callOn, Function.update_self]
    exact here rfl
  · simp only [callOn, Function.update_of_ne same]
    exact there same

/-- An event keeps the running workers on networks that are set, when it creates no qdisc with
a message that is refused. -/
theorem next_allSet (kernel : Kernel Child) (exp : K → K) (sys : System K Child)
    (event : Event K Child) (set : AllSet sys) (accepted : InitAccepted sys event) :
    AllSet (next kernel exp sys event) := by
  have operates : ∀ sch op other, Widths (sys.instances.qdiscs other).parms →
      Widths ((callOn kernel exp sys.instances (sch, .op op)).qdiscs other).parms := by
    intro sch op other before
    apply callOn_set kernel exp
    · rintro rfl
      exact step_widths kernel exp op before
    · exact fun _ => before
  intro task sch running
  rcases next_running kernel exp sys event running with before | ⟨unborn, opt, fifoError, draws, rfl⟩
  · have standing := set task sch before
    cases event with
    | init born opt fifoError random32 =>
      simp only [next] at running ⊢
      split at running
      next unborn =>
        rw [if_pos unborn]
        apply callOn_set kernel exp
        · exact fun _ => init_widths kernel (accepted unborn) random32 _ _ _
        · exact fun _ => standing
      next born =>
        rw [if_neg born]
        exact standing
    | call target op =>
      simp only [next]
      split
      · exact operates target op sch standing
      · exact standing
    | destroy target =>
      simp only [next]
      split
      · exact operates target .destroy sch standing
      · exact standing
    | work worker random32 =>
      simp only [next]
      split
      · exact operates _ (.worker random32) sch standing
      · exact standing
    | pass milliseconds => exact standing
    | stop stopper =>
      simp only [next]
      split
      · split
        · exact standing
        · exact standing
      · exact standing
  · simp only [next, if_pos unborn]
    apply callOn_set kernel exp
    · exact fun _ => init_widths kernel (accepted unborn) draws _ _ _
    · exact fun different => absurd rfl different

/-- A failed `rbfgrad_change` leaves everything as it was. The creations of a run fail cleanly,
and no worker step on a network that was never set is ever enabled, exactly when every creation
has a message with both attributes and gets its child; and then none is taken. -/
theorem failed_configuration_iff (kernel : Kernel Child) (exp : K → K) (g : Globals K)
    (events : List (Event K Child)) :
    (∀ (opt : Options K) fifoError random32 (s : State K Child) err,
      (rbfgradChange kernel opt fifoError random32 s).1 = .error err →
        (rbfgradChange kernel opt fifoError random32 s).2 = s) ∧
    ((Transition.Along (next kernel exp) (FailsCleanly kernel exp) (loaded kernel g) events ∧
        ∀ before after, events = before ++ after → ∀ task random32,
          ¬DividesByZero (Transition.run (next kernel exp) (loaded kernel g) before)
            (.work task random32)) ↔
      Transition.Along (next kernel exp) InitAccepted (loaded kernel g) events) ∧
    (Transition.Along (next kernel exp) InitAccepted (loaded kernel g) events →
      Transition.Along (next kernel exp) (fun sys event => ¬DividesByZero sys event)
        (loaded kernel g) events) := by
  have initially : AllSet (loaded kernel g : System K Child) := by
    intro task sch running
    exact absurd running (by simp [loaded])
  have never : ∀ sys : System K Child, AllSet sys → ∀ event, ¬DividesByZero sys event := by
    intro sys set event
    cases event with
    | work task random32 =>
      rintro ⟨sch, running, unset⟩
      exact unset (set task sch running)
    | _ => exact id
  have clean : Transition.Along (next kernel exp) (FailsCleanly kernel exp) (loaded kernel g) events ↔
      Transition.Along (next kernel exp) InitAccepted (loaded kernel g) events := by
    have same : FailsCleanly kernel exp = (InitAccepted : System K Child → Event K Child → Prop) := by
      funext sys event
      exact propext (failsCleanly_iff kernel exp sys event)
    rw [same]
  refine ⟨?_, ?_, ?_⟩
  · intro opt fifoError random32 s err failed
    exact change_error_unchanged kernel opt fifoError random32 s failed
  · rw [clean]
    constructor
    · exact fun both => both.1
    · intro accepted
      refine ⟨accepted, ?_⟩
      rintro before after rfl task random32
      have reached : AllSet (Transition.run (next kernel exp) (loaded kernel g) before) :=
        Transition.run_invariant_along (next_allSet kernel exp) initially before
          (Transition.along_append.mp accepted).1
      exact never _ reached _
  · exact Transition.along_of_invariant (next_allSet kernel exp)
      (fun sys event set => never sys set event) initially events

end System

section Deployed

theorem failed_configuration_iff_deployed :
    rbfgradChange ByteFifo.kernel none none Deployment.silent Deployment.start =
        (.error EINVAL, Deployment.start) ∧
      Transition.Along (next ByteFifo.kernel Deployment.decay)
        (fun sys event => ¬DividesByZero sys event) (loaded ByteFifo.kernel Deployment.loaded)
        [.init 0 Deployment.message none Deployment.silent, .call 0 (.change none none Deployment.silent),
          .work 0 Deployment.silent] := by
  have law := failed_configuration_iff ByteFifo.kernel Deployment.decay Deployment.loaded
    [.init 0 Deployment.message none Deployment.silent,
      .call 0 (.change none none Deployment.silent), .work 0 Deployment.silent]
  have accepted : Accepted Deployment.message none :=
    ⟨Deployment.options, Deployment.stab, rfl, fun _ => rfl⟩
  have unchanged := law.1 none none Deployment.silent Deployment.start EINVAL rfl
  exact ⟨Prod.ext rfl unchanged, law.2.2 ⟨fun _ => accepted, trivial, trivial, trivial⟩⟩

/-- Without a message the creation fails, and its worker then divides by a width of zero. -/
theorem failed_init_leaves_worker :
    let before := loaded ByteFifo.kernel Deployment.loaded
    let event : Event ℚ ByteFifo.Child := .init 0 none none Deployment.silent
    let after := next ByteFifo.kernel Deployment.decay before event
    (rbfgradInit ByteFifo.kernel none none Deployment.silent 0 1
        (⟨Deployment.loaded, .zeroed ByteFifo.kernel⟩ : State ℚ ByteFifo.Child)).1 =
        .error EINVAL ∧
      after.workers 0 = some ⟨0, true⟩ ∧ after.instances.globals.fpu = 1 ∧
      ¬FailsCleanly ByteFifo.kernel Deployment.decay before event ∧
      DividesByZero after (.work 0 Deployment.silent) := by
  intro before event after
  refine ⟨rfl, rfl, rfl, ?_, ?_⟩
  · intro clean
    have closed := (clean rfl rfl).2.2
    exact absurd closed (by decide)
  · refine ⟨0, rfl, ?_⟩
    intro set
    exact set 0 rfl

end Deployed

end GapsoRbfPid.FailedConfiguration
