import GapsoRbfPid.Deployment
import GapsoRbfPid.Effects

/-! The marking decision at probability zero. The absolute value of the draw is never
below zero except for the one word whose absolute value wraps to itself. -/

namespace GapsoRbfPid.Marking
open GapsoRbfPid Library

variable {K Child : Type}

def markCounters (q : Qdisc K Child) : BitVec 32 × BitVec 32 × BitVec 32 :=
  (q.stats.prob_mark, q.stats.prob_drop, q.overlimits)

/-- The draw of an enqueue operation is not the word with only the top bit set. -/
def SafeDraw : Op K Child → Prop
  | .enqueue netRandom _ => netRandom ≠ BitVec.intMin 32
  | _ => True

theorem offerChild_markCounters (kernel : Kernel Child) (skb : SkBuff) (q : Qdisc K Child) :
    markCounters (offerChild kernel skb q).2 = markCounters q := by
  unfold offerChild
  dsimp only
  split
  · rfl
  · split <;> rfl

theorem dispatch_probMark_overlimits (kernel : Kernel Child) (skb : SkBuff) (q : Qdisc K Child) :
    (dispatch kernel .probMark skb q).2.overlimits = q.overlimits + 1 := by
  simp only [dispatch]
  split
  · rfl
  next marked _ =>
    exact congrArg (fun counters => counters.2.2) (offerChild_markCounters kernel marked
      { q with overlimits := q.overlimits + 1, stats.prob_mark := q.stats.prob_mark + 1 })

theorem dispatch_markCounters_iff (kernel : Kernel Child) (action : Action) (skb : SkBuff)
    (q : Qdisc K Child) :
    markCounters (dispatch kernel action skb q).2 = markCounters q ↔ action = .dontMark := by
  cases action with
  | dontMark => exact ⟨fun _ => rfl, fun _ => offerChild_markCounters kernel skb q⟩
  | probMark =>
    refine ⟨fun same => ?_, fun wrong => (nomatch wrong)⟩
    have unchanged := congrArg (fun counters => counters.2.2) same
    change (dispatch kernel .probMark skb q).2.overlimits = q.overlimits at unchanged
    rw [dispatch_probMark_overlimits] at unchanged
    bv_omega

theorem dequeue_markCounters (kernel : Kernel Child) (q : Qdisc K Child) :
    markCounters (rbfgradDequeue kernel q).2 = markCounters q := by
  unfold rbfgradDequeue
  dsimp only
  split <;> rfl

theorem drop_markCounters (kernel : Kernel Child) (q : Qdisc K Child) :
    markCounters (rbfgradDrop kernel q).2 = markCounters q := by
  unfold rbfgradDrop
  dsimp only
  split
  · split <;> rfl
  · rfl

theorem change_markCounters [Field K] (kernel : Kernel Child) (opt : Options K)
    (fifoError : Option Errno) (random32 : ℕ → BitVec 32) (s : State K Child) :
    markCounters (rbfgradChange kernel opt fifoError random32 s).2.qdisc =
      markCounters s.qdisc := by
  obtain ⟨flags, limit, parms, same⟩ := change_qdisc kernel opt fifoError random32 s
  rw [same]
  split <;> rfl

variable [Field K] [LinearOrder K] [FloorRing K] [IsStrictOrderedRing K]

theorem currentP_of_zero {p : RbfgradParms K} (zero : p.p_k = 0) : currentP p = 0 := by
  unfold currentP
  rw [zero, zero_mul, CInt.toInt_zero]

/-- At probability zero a draw is left unmarked exactly when its absolute value does not wrap. -/
theorem action_zero_iff {p : RbfgradParms K} (zero : p.p_k = 0) (netRandom : BitVec 32) :
    rbfgradAction p netRandom = .dontMark ↔ netRandom ≠ BitVec.intMin 32 := by
  have mark := action_mark_iff p netRandom
  rw [currentP_of_zero zero] at mark
  rw [← CInt.absInt_nonneg_iff]
  cases decision : rbfgradAction p netRandom with
  | dontMark =>
    have above : ¬CInt.absInt netRandom < 0 := fun below => by
      have marked := mark.mpr below
      rw [decision] at marked
      cases marked
    exact ⟨fun _ => not_lt.mp above, fun _ => rfl⟩
  | probMark =>
    have below := mark.mp decision
    exact ⟨fun wrong => (nomatch wrong), fun above => absurd below (not_lt.mpr above)⟩

def ZeroAtEnqueue (s : State K Child) : Op K Child → Prop
  | .enqueue _ _ => s.qdisc.parms.p_k = 0
  | _ => True

omit [IsStrictOrderedRing K] in
theorem step_markCounters_of_other (kernel : Kernel Child) (exp : K → K) (s : State K Child)
    (op : Op K Child) (other : ∀ netRandom skb, op ≠ .enqueue netRandom skb) :
    markCounters (step kernel exp s op).qdisc = markCounters s.qdisc := by
  cases op with
  | enqueue netRandom skb => exact absurd rfl (other netRandom skb)
  | dequeue => exact dequeue_markCounters kernel s.qdisc
  | drop => exact drop_markCounters kernel s.qdisc
  | change opt fifoError random32 => exact change_markCounters kernel opt fifoError random32 s
  | _ => rfl

theorem step_markCounters_iff (kernel : Kernel Child) (exp : K → K)
    (counters : BitVec 32 × BitVec 32 × BitVec 32) (s : State K Child) (op : Op K Child)
    (before : markCounters s.qdisc = counters) (zero : ZeroAtEnqueue s op) :
    markCounters (step kernel exp s op).qdisc = counters ↔ SafeDraw op := by
  subst before
  by_cases arrives : ∃ netRandom skb, op = .enqueue netRandom skb
  · obtain ⟨netRandom, skb, rfl⟩ := arrives
    have decided := dispatch_markCounters_iff kernel (rbfgradAction s.qdisc.parms netRandom) skb s.qdisc
    rw [action_zero_iff zero] at decided
    simp only [step, enqueue_qdisc]
    exact decided
  · have other : ∀ netRandom skb, op ≠ .enqueue netRandom skb :=
      fun netRandom skb same => arrives ⟨netRandom, skb, same⟩
    have safe : SafeDraw op := by
      cases op with
      | enqueue netRandom skb => exact absurd rfl (other netRandom skb)
      | _ => trivial
    exact iff_of_true (step_markCounters_of_other kernel exp s op other) safe

/-- At probability zero the decision is not to mark exactly for the draws other than the
wrapping one; so a run in which the probability is zero at every packet leaves
`prob_mark`, `prob_drop` and `overlimits` alone after every operation exactly when none of
its packets draws that word. -/
theorem no_mark_at_zero_iff (kernel : Kernel Child) (exp : K → K) (s : State K Child)
    (ops : List (Op K Child)) (zero : Transition.Along (step kernel exp) ZeroAtEnqueue s ops) :
    (∀ p : RbfgradParms K, p.p_k = 0 → ∀ netRandom : BitVec 32,
      (rbfgradAction p netRandom = .dontMark ↔ netRandom ≠ BitVec.intMin 32)) ∧
    (Transition.Always (step kernel exp)
        (fun later => markCounters later.qdisc = markCounters s.qdisc) s ops ↔
      ∀ op ∈ ops, SafeDraw op) := by
  refine ⟨fun p still netRandom => action_zero_iff still netRandom, ?_⟩
  rw [← Transition.along_iff_forall s ops]
  exact Transition.always_iff_along
    (step_markCounters_iff kernel exp (markCounters s.qdisc)) rfl ops zero

omit [Field K] [LinearOrder K] [FloorRing K] [IsStrictOrderedRing K]

/-- In the deployed configuration the probability is zero, and the draw `2^31` still marks
a packet. -/
theorem marks_at_zero :
    Deployment.start.qdisc.parms.p_k = 0 ∧
    rbfgradAction Deployment.start.qdisc.parms 0x80000000#32 = .probMark ∧
    markCounters (step ByteFifo.kernel Deployment.decay Deployment.start
      (.enqueue 0x80000000#32 Deployment.packet)).qdisc = (1, 0, 1) := by
  decide +kernel

theorem no_mark_at_zero_iff_deployed :
    Transition.Always (step ByteFifo.kernel Deployment.decay)
        (fun later => markCounters later.qdisc = markCounters Deployment.start.qdisc)
        Deployment.start [.enqueue 7 Deployment.packet, .dequeue] ↔
      ∀ op ∈ ([.enqueue 7 Deployment.packet, .dequeue] : List (Op ℚ ByteFifo.Child)),
        SafeDraw op :=
  (no_mark_at_zero_iff ByteFifo.kernel Deployment.decay Deployment.start
    [.enqueue 7 Deployment.packet, .dequeue] ⟨rfl, trivial, trivial⟩).2

end GapsoRbfPid.Marking
