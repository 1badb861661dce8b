import GapsoRbfPid.Deployment
import GapsoRbfPid.Effects

/-! The byte counter `sch->qstats.backlog` against the bytes the child holds. Enqueue,
dequeue, drop, reset and dump keep them equal; `rbfgrad_change` and `rbfgrad_graft` throw
a child away without correcting the counter. -/

namespace GapsoRbfPid.Backlog
open GapsoRbfPid Library

variable {K Child : Type}

def Balanced (held : Child → List SkBuff) (s : State K Child) : Prop :=
  s.qdisc.backlog.toNat = bytes (held s.qdisc.qdisc)

def EmptyGraft (held : Child → List SkBuff) : Op K Child → Prop
  | .graft (some new) => held new = []
  | .destroy => False
  | _ => True

/-- Whenever the child is about to be exchanged it holds no bytes. -/
def EmptyAtExchange (held : Child → List SkBuff) (s : State K Child) : Op K Child → Prop
  | .graft _ => bytes (held s.qdisc.qdisc) = 0
  | .change opt fifoError _ => exchangesChild opt fifoError → bytes (held s.qdisc.qdisc) = 0
  | _ => True

variable {kernel : Kernel Child} {held : Child → List SkBuff}

theorem toNat_add_of_exact {counter length total : BitVec 32} {before : ℕ}
    (balanced : counter.toNat = before) (after : total.toNat = length.toNat + before) :
    (counter + length).toNat = length.toNat + before := by
  bv_omega

theorem toNat_sub_of_exact {counter length : BitVec 32} {after : ℕ}
    (balanced : counter.toNat = length.toNat + after) : (counter - length).toNat = after := by
  bv_omega

theorem offerChild_balanced (laws : kernel.CountsBytes held) (skb : SkBuff) (q : Qdisc K Child)
    (balanced : q.backlog.toNat = bytes (held q.qdisc)) :
    (offerChild kernel skb q).2.backlog.toNat =
      bytes (held (offerChild kernel skb q).2.qdisc) := by
  unfold offerChild
  dsimp only
  split_ifs with success counted
  · have held_bytes := bytes_perm (laws.enqueue_success skb q.qdisc success)
    rw [bytes_cons] at held_bytes
    rw [held_bytes]
    exact toNat_add_of_exact balanced ((laws.backlog_exact _).trans held_bytes)
  · exact balanced.trans (bytes_perm (laws.enqueue_refused skb q.qdisc success)).symm
  · exact balanced.trans (bytes_perm (laws.enqueue_refused skb q.qdisc success)).symm

theorem dispatch_balanced (laws : kernel.CountsBytes held) (action : Action) (skb : SkBuff)
    (q : Qdisc K Child) (balanced : q.backlog.toNat = bytes (held q.qdisc)) :
    (dispatch kernel action skb q).2.backlog.toNat =
      bytes (held (dispatch kernel action skb q).2.qdisc) := by
  cases action with
  | dontMark => exact offerChild_balanced laws skb q balanced
  | probMark =>
    simp only [dispatch]
    split
    · exact balanced
    · exact offerChild_balanced laws _ _ balanced

theorem dequeue_balanced (laws : kernel.CountsBytes held) (q : Qdisc K Child)
    (balanced : q.backlog.toNat = bytes (held q.qdisc)) :
    (rbfgradDequeue kernel q).2.backlog.toNat =
      bytes (held (rbfgradDequeue kernel q).2.qdisc) := by
  unfold rbfgradDequeue
  dsimp only
  split
  next skb taken =>
    have before := bytes_perm (laws.dequeue_some q.qdisc skb taken)
    rw [bytes_cons] at before
    exact toNat_sub_of_exact (balanced.trans before)
  next empty => exact balanced.trans (bytes_perm (laws.dequeue_none q.qdisc empty)).symm

theorem drop_balanced (laws : kernel.CountsBytes held) (q : Qdisc K Child)
    (balanced : q.backlog.toNat = bytes (held q.qdisc)) :
    (rbfgradDrop kernel q).2.backlog.toNat = bytes (held (rbfgradDrop kernel q).2.qdisc) := by
  unfold rbfgradDrop
  dsimp only
  split_ifs with able positive
  · obtain ⟨skb, length, perm⟩ := laws.drop_positive q.qdisc positive
    have before := bytes_perm perm
    rw [bytes_cons, length] at before
    exact toNat_sub_of_exact (balanced.trans before)
  · have zero : (kernel.drop q.qdisc).1 = 0 := by bv_omega
    exact balanced.trans (bytes_perm (laws.drop_zero q.qdisc zero)).symm
  · exact balanced

/-- Exchanging the child for an empty one leaves the old counter, so the two agree
afterwards exactly when there was nothing to give up. -/
theorem replaceChild_balanced_iff {q : Qdisc K Child} {child : Child}
    (balanced : q.backlog.toNat = bytes (held q.qdisc)) (empty : held child = []) :
    (replaceChild kernel child q).backlog.toNat = bytes (held (replaceChild kernel child q).qdisc) ↔
      bytes (held q.qdisc) = 0 := by
  change q.backlog.toNat = bytes (held child) ↔ _
  rw [empty, balanced]
  exact Iff.rfl

theorem change_balanced_iff [Field K] (laws : kernel.CountsBytes held) (opt : Options K)
    (fifoError : Option Errno) (random32 : ℕ → BitVec 32) (s : State K Child)
    (balanced : Balanced held s) :
    Balanced held (rbfgradChange kernel opt fifoError random32 s).2 ↔
      (exchangesChild opt fifoError → bytes (held s.qdisc.qdisc) = 0) := by
  obtain ⟨flags, limit, parms, same⟩ := change_qdisc kernel opt fifoError random32 s
  unfold Balanced
  rw [same]
  by_cases exchange : exchangesChild opt fifoError = true
  · have replaced : (replaceChild kernel (kernel.fifoCreateDflt limit) s.qdisc).backlog.toNat =
        bytes (held (replaceChild kernel (kernel.fifoCreateDflt limit) s.qdisc).qdisc) ↔
        bytes (held s.qdisc.qdisc) = 0 :=
      replaceChild_balanced_iff balanced (laws.fifo_empty limit)
    rw [if_pos exchange]
    exact ⟨fun after _ => replaced.mp after, fun zero => replaced.mpr (zero exchange)⟩
  · rw [if_neg exchange]
    exact ⟨fun _ wrong => absurd wrong exchange, fun _ => balanced⟩

theorem init_balanced [Field K] (laws : kernel.CountsBytes held) (opt : Options K)
    (fifoError : Option Errno) (random32 : ℕ → BitVec 32) (worker stopper : Task) (g : Globals K) :
    Balanced held (rbfgradInit kernel opt fifoError random32 worker stopper
      ⟨g, .zeroed kernel⟩).2 := by
  have empty : bytes (held kernel.noopQdisc) = 0 := by
    rw [laws.noop_empty]
    rfl
  exact (change_balanced_iff laws opt fifoError random32 ⟨_, .zeroed kernel⟩ empty.symm).mpr
    (fun _ => empty)

section Runs
variable [Field K] [LinearOrder K] [FloorRing K]

theorem step_balanced_iff (laws : kernel.CountsBytes held) (exp : K → K) (s : State K Child)
    (op : Op K Child) (balanced : Balanced held s) (allowed : EmptyGraft held op) :
    Balanced held (step kernel exp s op) ↔ EmptyAtExchange held s op := by
  cases op with
  | enqueue netRandom skb =>
    simp only [EmptyAtExchange, iff_true, Balanced, step, enqueue_qdisc]
    exact dispatch_balanced laws _ skb s.qdisc balanced
  | dequeue => exact iff_true_intro (dequeue_balanced laws s.qdisc balanced)
  | drop => exact iff_true_intro (drop_balanced laws s.qdisc balanced)
  | reset =>
    refine iff_true_intro ?_
    change 0 = bytes (held (kernel.reset s.qdisc.qdisc))
    rw [laws.reset_empty]
    rfl
  | change opt fifoError random32 => exact change_balanced_iff laws opt fifoError random32 s balanced
  | graft new =>
    cases new with
    | none => exact replaceChild_balanced_iff balanced laws.noop_empty
    | some child => exact replaceChild_balanced_iff balanced allowed
  | dump room => exact iff_true_intro (laws.backlog_exact s.qdisc.qdisc)
  | dumpStats => exact iff_true_intro balanced
  | worker random32 => exact iff_true_intro balanced
  | destroy => exact allowed.elim

/-- After `rbfgrad_init`, the backlog is the child's bytes after every operation of a run
exactly when no successful change with a positive limit and no graft of the run finds
bytes in the child. -/
theorem backlog_agrees_iff (laws : kernel.CountsBytes held) (exp : K → K) (g : Globals K)
    (opt : Options K) (fifoError : Option Errno) (random32 : ℕ → BitVec 32)
    (worker stopper : Task) (ops : List (Op K Child)) (allowed : ∀ op ∈ ops, EmptyGraft held op) :
    let start := (rbfgradInit kernel opt fifoError random32 worker stopper ⟨g, .zeroed kernel⟩).2
    (Balanced held start ∧ Transition.Always (step kernel exp) (Balanced held) start ops) ↔
      Transition.Along (step kernel exp) (EmptyAtExchange held) start ops := by
  intro start
  have initial : Balanced held start :=
    init_balanced laws opt fifoError random32 worker stopper g
  rw [and_iff_right initial]
  exact Transition.always_iff_along (step_balanced_iff laws exp) initial ops
    ((Transition.along_iff_forall start ops).mpr allowed)

end Runs

/-- One packet arrives, then the same options are installed again. -/
def staleRun : List (Op ℚ ByteFifo.Child) :=
  [.enqueue 7 Deployment.packet, .change Deployment.message none Deployment.silent]

/-- The reconfiguration leaves the 1500 bytes of the discarded packet in the counter. -/
theorem backlog_stale_after_change :
    let final := (Transition.run (step ByteFifo.kernel Deployment.decay) Deployment.start
      staleRun).qdisc
    Deployment.created.1 = .ok () ∧ final.backlog = 1500 ∧ final.qdisc.held = [] ∧
    ¬Transition.Always (step ByteFifo.kernel Deployment.decay) (Balanced ByteFifo.Child.held)
      Deployment.start staleRun := by
  intro final
  have stale : final.backlog = 1500 ∧ final.qdisc.held = [] := by decide +kernel
  refine ⟨rfl, stale.1, stale.2, fun always => ?_⟩
  have balanced : final.backlog.toNat = bytes final.qdisc.held := always.2.1
  rw [stale.1, stale.2] at balanced
  exact absurd balanced (by decide)

theorem backlog_agrees_iff_deployed :
    (Balanced ByteFifo.Child.held Deployment.start ∧
      Transition.Always (step ByteFifo.kernel Deployment.decay) (Balanced ByteFifo.Child.held)
        Deployment.start [.enqueue 7 Deployment.packet, .dequeue, .graft none]) ↔
    Transition.Along (step ByteFifo.kernel Deployment.decay)
      (EmptyAtExchange ByteFifo.Child.held) Deployment.start
      [.enqueue 7 Deployment.packet, .dequeue, .graft none] :=
  backlog_agrees_iff ByteFifo.counts_bytes Deployment.decay Deployment.loaded
    Deployment.message none Deployment.silent 0 1 _ (by simp [EmptyGraft])

end GapsoRbfPid.Backlog
