import GapsoRbfPid.Deployment
import GapsoRbfPid.Instances

/-! Whether one qdisc of the module can tell that another one is in use. It can, through the
sampling counter, unless its own packets fall on the same phase of that counter as they
would alone. -/

namespace GapsoRbfPid.Isolation
open GapsoRbfPid Library

variable {ι K Child : Type}

/-- Enqueue operations on any qdisc since the last `rbfgrad_init` on any of them, and
enqueue operations on one qdisc since its own. -/
structure Phase where
  shared : ℕ
  own : ℕ

def phase [DecidableEq ι] (who : ι) (counts : Phase) (_ : Instances ι K Child) :
    ι × Call K Child → Phase
  | (id, .init _ _ _ _ _) => ⟨0, if id = who then 0 else counts.own⟩
  | (id, .op (.enqueue _ _)) =>
      ⟨counts.shared + 1, if id = who then counts.own + 1 else counts.own⟩
  | _ => counts

def isEnqueue : Call K Child → Bool
  | .op (.enqueue _ _) => true
  | _ => false

/-- The qdisc is sampled where it would be sampled alone. -/
def InPhase (who : ι) (state : Instances ι K Child × Phase) (event : ι × Call K Child) : Prop :=
  event.1 = who → isEnqueue event.2 →
    (CYC_MAX ∣ state.2.shared + 1 ↔ CYC_MAX ∣ state.2.own + 1)

instance [DecidableEq ι] (who : ι) (state : Instances ι K Child × Phase)
    (event : ι × Call K Child) : Decidable (InPhase who state event) :=
  inferInstanceAs (Decidable (_ → _ → _))

/-- What one qdisc shows of an interleaved run, against the run of its own calls. -/
structure Related (who : ι) (state : Instances ι K Child × Phase) (alone : Instances ι K Child) :
    Prop where
  qdisc : state.1.qdiscs who = alone.qdiscs who
  shared : state.1.globals.cyc_count = state.2.shared % CYC_MAX
  own : alone.globals.cyc_count = state.2.own % CYC_MAX

section Steps
variable [Field K] [LinearOrder K] [FloorRing K] [DecidableEq ι]

theorem callOn_shared (kernel : Kernel Child) (exp : K → K) (who : ι)
    (state : Instances ι K Child × Phase) (event : ι × Call K Child)
    (shared : state.1.globals.cyc_count = state.2.shared % CYC_MAX) :
    (callOn kernel exp state.1 event).globals.cyc_count =
      (phase who state.2 state.1 event).shared % CYC_MAX := by
  obtain ⟨id, event⟩ := event
  cases event with
  | init opt fifoError random32 worker stopper =>
    exact init_cyc_count kernel opt fifoError random32 worker stopper _
  | op op =>
    have cycle := step_cyc_count kernel exp ⟨state.1.globals, state.1.qdiscs id⟩ op
    cases op with
    | enqueue netRandom skb =>
      refine cycle.trans ?_
      change nextCycle state.1.globals.cyc_count = _
      rw [shared, nextCycle_eq]
      rfl
    | _ => exact cycle.trans shared

theorem callOn_other (kernel : Kernel Child) (exp : K → K) {who : ι}
    (state : Instances ι K Child × Phase) (alone : Instances ι K Child)
    (event : ι × Call K Child) (related : Related who state alone) (other : event.1 ≠ who) :
    Related who (callOn kernel exp state.1 event, phase who state.2 state.1 event) alone where
  qdisc := (Function.update_of_ne other.symm _ _).trans related.qdisc
  shared := callOn_shared kernel exp who state event related.shared
  own := by
    obtain ⟨id, event⟩ := event
    have kept : (phase who state.2 state.1 (id, event)).own = state.2.own := by
      cases event with
      | init opt fifoError random32 worker stopper => exact if_neg other
      | op op =>
        cases op with
        | enqueue netRandom skb => exact if_neg other
        | _ => rfl
    rw [kept]
    exact related.own

/-- A call of its own in phase does to the qdisc what it does alone. -/
theorem callOn_own (kernel : Kernel Child) (exp : K → K) {who : ι}
    (state : Instances ι K Child × Phase) (alone : Instances ι K Child) (call : Call K Child)
    (related : Related who state alone) (inPhase : InPhase who state (who, call)) :
    Related who (callOn kernel exp state.1 (who, call), phase who state.2 state.1 (who, call))
      (callOn kernel exp alone (who, call)) where
  qdisc := by
    have congruent := applyCall_qdisc_congr kernel exp state.1.globals alone.globals
      (alone.qdiscs who) call (by
        intro netRandom skb enqueues
        subst enqueues
        rw [related.shared, related.own, full_cycle_iff, full_cycle_iff]
        exact inPhase rfl rfl)
    rw [← related.qdisc] at congruent
    simp only [callOn, Function.update_self, ← related.qdisc]
    exact congruent
  shared := callOn_shared kernel exp who state (who, call) related.shared
  own := by
    -- alone, the shared counter is the qdisc's own
    have cycle := callOn_shared kernel exp who (alone, ⟨state.2.own, state.2.own⟩) (who, call)
      related.own
    refine cycle.trans (congrArg (· % CYC_MAX) ?_)
    cases call with
    | init opt fifoError random32 worker stopper => exact (if_pos rfl).symm
    | op op =>
      cases op with
      | enqueue netRandom skb => exact (if_pos rfl).symm
      | _ => rfl

/-- In every interleaving in which the packets of a qdisc meet the sampling counter in the
phase they would meet it alone, its controller is what its own calls alone make of it. -/
theorem controller_isolated (kernel : Kernel Child) (exp : K → K) (g : Globals K) (who : ι)
    (events : List (ι × Call K Child))
    (inPhase : Transition.Along (Transition.recording (callOn kernel exp) (phase who)) (InPhase who)
      (Instances.loaded kernel g, ⟨0, 0⟩) events) :
    ((Transition.run (callOn kernel exp) (Instances.loaded kernel g) events).qdiscs who).parms =
      ((Transition.run (callOn kernel exp) (Instances.loaded kernel g)
        (events.filter fun event => event.1 = who)).qdiscs who).parms := by
  have initially : Related who (Instances.loaded kernel g, (⟨0, 0⟩ : Phase))
      (Instances.loaded kernel g) := ⟨rfl, rfl, rfl⟩
  have related := Transition.run_filter_related
    (fun state alone event holds met own => by
      obtain ⟨id, call⟩ := event
      obtain rfl : id = who := of_decide_eq_true own
      exact callOn_own kernel exp state alone call holds met)
    (fun state alone event holds other =>
      callOn_other kernel exp state alone event holds (of_decide_eq_false other))
    initially events inPhase
  rw [← Transition.run_recording_fst (callOn kernel exp) (phase who) (_, ⟨0, 0⟩)]
  exact congrArg Qdisc.parms related.qdisc

end Steps

section Deployed

/-- Both instances of the test set-up are created; the second is the one that is watched. -/
def bothCreated : List (Fin 2 × Call ℚ ByteFifo.Child) :=
  [(0, .init Deployment.message none Deployment.silent 0 1),
    (1, .init Deployment.message none Deployment.silent 2 3)]

def enqueueOn (id : Fin 2) : Fin 2 × Call ℚ ByteFifo.Child :=
  (id, .op (.enqueue 7 Deployment.packet))

theorem controller_isolated_deployed :
    let events := bothCreated ++ List.replicate 20 (enqueueOn 0) ++ List.replicate 20 (enqueueOn 1)
    let final := Transition.run (callOn ByteFifo.kernel Deployment.decay)
      (Instances.loaded ByteFifo.kernel Deployment.loaded) events
    let alone := Transition.run (callOn ByteFifo.kernel Deployment.decay)
      (Instances.loaded ByteFifo.kernel Deployment.loaded)
      (events.filter fun event => event.1 = 1)
    (final.qdiscs 1).parms = (alone.qdiscs 1).parms ∧ (alone.qdiscs 1).parms.e_k = -281 := by
  intro events final alone
  refine ⟨?_, by decide +kernel⟩
  exact controller_isolated ByteFifo.kernel Deployment.decay Deployment.loaded 1 events
    (by decide +kernel)

/-- One packet on the first interface makes the second one sample a packet early. -/
theorem controller_not_isolated :
    let events := bothCreated ++ enqueueOn 0 :: List.replicate 19 (enqueueOn 1)
    let final := Transition.run (callOn ByteFifo.kernel Deployment.decay)
      (Instances.loaded ByteFifo.kernel Deployment.loaded) events
    let alone := Transition.run (callOn ByteFifo.kernel Deployment.decay)
      (Instances.loaded ByteFifo.kernel Deployment.loaded)
      (events.filter fun event => event.1 = 1)
    (final.qdiscs 1).parms.e_k = -282 ∧ (alone.qdiscs 1).parms.e_k = 0 ∧
      (final.qdiscs 1).parms ≠ (alone.qdiscs 1).parms := by
  intro events final alone
  have early : (final.qdiscs 1).parms.e_k = -282 := by decide +kernel
  have unsampled : (alone.qdiscs 1).parms.e_k = 0 := by decide +kernel
  refine ⟨early, unsampled, ?_⟩
  intro same
  rw [same, unsampled] at early
  exact absurd early (by decide)

end Deployed

end GapsoRbfPid.Isolation
