import GapsoRbfPid.Deployment
import GapsoRbfPid.Effects

/-! The scheduler's own packet count agrees with the child's through every run, and no
decrement ever takes more than is there. -/

namespace GapsoRbfPid.QueueLength
open GapsoRbfPid Library

variable {K Child : Type}

def EmptyGraft (kernel : Kernel Child) : Op K Child → Prop
  | .graft (some new) => kernel.qlen new = 0
  | .destroy => False
  | _ => True

structure Agree (kernel : Kernel Child) (q : Qdisc K Child) : Prop where
  qlen : q.qlen = kernel.qlen q.qdisc
  sound : q.underflow = false

theorem eq_add_one {before after : BitVec 32} (more : after.toNat = before.toNat + 1) :
    after = before + 1 := by
  bv_omega

theorem sub_one_eq {before after : BitVec 32} (fewer : before.toNat = after.toNat + 1) :
    before - 1 = after ∧ ¬before < 1 := by
  constructor <;> bv_omega

theorem subQlen_agree {kernel : Kernel Child} {q : Qdisc K Child} {n : BitVec 32} {child : Child}
    (sound : q.underflow = false) (enough : ¬q.qlen < n)
    (remaining : q.qlen - n = kernel.qlen child) :
    Agree kernel { subQlen n q with qdisc := child } where
  qlen := remaining
  sound := by simp [subQlen, sound, enough]

theorem offerChild_agree {kernel : Kernel Child} (laws : kernel.CountsPackets) (skb : SkBuff)
    {q : Qdisc K Child} (agree : Agree kernel q) : Agree kernel (offerChild kernel skb q).2 := by
  unfold offerChild
  dsimp only
  split_ifs with success counted
  · refine ⟨?_, agree.sound⟩
    change q.qlen + 1 = kernel.qlen (kernel.enqueue skb q.qdisc).2
    rw [eq_add_one (laws.enqueue_success skb q.qdisc success), agree.qlen]
  · exact ⟨agree.qlen.trans (laws.enqueue_refused skb q.qdisc success).symm, agree.sound⟩
  · exact ⟨agree.qlen.trans (laws.enqueue_refused skb q.qdisc success).symm, agree.sound⟩

theorem dispatch_agree {kernel : Kernel Child} (laws : kernel.CountsPackets) (action : Action)
    (skb : SkBuff) {q : Qdisc K Child} (agree : Agree kernel q) :
    Agree kernel (dispatch kernel action skb q).2 := by
  cases action with
  | dontMark => exact offerChild_agree laws skb agree
  | probMark =>
    simp only [dispatch]
    split
    · exact ⟨agree.qlen, agree.sound⟩
    · exact offerChild_agree laws _ ⟨agree.qlen, agree.sound⟩

theorem dequeue_agree {kernel : Kernel Child} (laws : kernel.CountsPackets)
    {q : Qdisc K Child} (agree : Agree kernel q) : Agree kernel (rbfgradDequeue kernel q).2 := by
  unfold rbfgradDequeue
  dsimp only
  split
  next skb taken =>
    obtain ⟨remaining, enough⟩ := sub_one_eq (laws.dequeue_some q.qdisc (by simp [taken]))
    rw [← agree.qlen] at remaining enough
    exact subQlen_agree agree.sound enough remaining
  next empty => exact ⟨agree.qlen.trans (laws.dequeue_none q.qdisc empty).symm, agree.sound⟩

theorem drop_agree {kernel : Kernel Child} (laws : kernel.CountsPackets)
    {q : Qdisc K Child} (agree : Agree kernel q) : Agree kernel (rbfgradDrop kernel q).2 := by
  unfold rbfgradDrop
  dsimp only
  split_ifs with able positive
  · obtain ⟨remaining, enough⟩ := sub_one_eq (laws.drop_positive q.qdisc positive)
    rw [← agree.qlen] at remaining enough
    exact subQlen_agree agree.sound enough remaining
  · have zero : (kernel.drop q.qdisc).1 = 0 := by bv_omega
    exact ⟨agree.qlen.trans (laws.drop_zero q.qdisc zero).symm, agree.sound⟩
  · exact agree

/-- Exchanging the child for an empty one gives up exactly the packets it held. -/
theorem replaceChild_agree {kernel : Kernel Child} {q : Qdisc K Child} {child : Child}
    (agree : Agree kernel q) (empty : kernel.qlen child = 0) :
    Agree kernel (replaceChild kernel child q) := by
  apply subQlen_agree agree.sound
  · rw [agree.qlen]
    exact BitVec.lt_irrefl _
  · rw [agree.qlen, empty, BitVec.sub_self]
    rfl

theorem change_agree [Field K] {kernel : Kernel Child} (laws : kernel.CountsPackets)
    (opt : Options K) (fifoError : Option Errno) (random32 : ℕ → BitVec 32) {s : State K Child}
    (agree : Agree kernel s.qdisc) :
    Agree kernel (rbfgradChange kernel opt fifoError random32 s).2.qdisc := by
  obtain ⟨flags, limit, parms, same⟩ := change_qdisc kernel opt fifoError random32 s
  rw [same]
  split
  · have replaced := replaceChild_agree agree (laws.fifo_empty limit)
    exact ⟨replaced.qlen, replaced.sound⟩
  · exact ⟨agree.qlen, agree.sound⟩

theorem init_agree [Field K] {kernel : Kernel Child} (laws : kernel.CountsPackets)
    (opt : Options K) (fifoError : Option Errno) (random32 : ℕ → BitVec 32) (worker stopper : Task)
    (g : Globals K) :
    Agree kernel (rbfgradInit kernel opt fifoError random32 worker stopper
      ⟨g, .zeroed kernel⟩).2.qdisc :=
  change_agree laws opt fifoError random32 ⟨laws.noop_empty.symm, rfl⟩

section Runs
variable [Field K] [LinearOrder K] [FloorRing K]

theorem step_agree {kernel : Kernel Child} (laws : kernel.CountsPackets) (exp : K → K)
    (s : State K Child) (op : Op K Child) (agree : Agree kernel s.qdisc)
    (allowed : EmptyGraft kernel op) : Agree kernel (step kernel exp s op).qdisc := by
  cases op with
  | enqueue netRandom skb =>
    have dispatched := dispatch_agree laws (rbfgradAction s.qdisc.parms netRandom) skb agree
    simp only [step, enqueue_qdisc]
    exact ⟨dispatched.qlen, dispatched.sound⟩
  | dequeue => exact dequeue_agree laws agree
  | drop => exact drop_agree laws agree
  | reset => exact ⟨(laws.reset_empty s.qdisc.qdisc).symm, agree.sound⟩
  | change opt fifoError random32 => exact change_agree laws opt fifoError random32 agree
  | graft new =>
    cases new with
    | none => exact replaceChild_agree agree laws.noop_empty
    | some child => exact replaceChild_agree agree allowed
  | dump room => exact ⟨agree.qlen, agree.sound⟩
  | dumpStats => exact agree
  | worker random32 => exact ⟨agree.qlen, agree.sound⟩
  | destroy => exact allowed.elim

/-- After `rbfgrad_init` and any run of operations, `sch->q.qlen` is the child's
`q.qlen`, and no decrement on the way took more than was there. -/
theorem qlen_agrees (kernel : Kernel Child) (laws : kernel.CountsPackets) (exp : K → K)
    (g : Globals K) (opt : Options K) (fifoError : Option Errno) (random32 : ℕ → BitVec 32)
    (worker stopper : Task) (ops : List (Op K Child))
    (allowed : ∀ op ∈ ops, EmptyGraft kernel op) :
    let start := (rbfgradInit kernel opt fifoError random32 worker stopper ⟨g, .zeroed kernel⟩).2
    let q := (Transition.run (step kernel exp) start ops).qdisc
    q.qlen = kernel.qlen q.qdisc ∧ q.underflow = false := by
  intro start q
  have agree : Agree kernel q := Transition.run_invariant (step_agree laws exp)
    (init_agree laws opt fifoError random32 worker stopper g) ops allowed
  exact ⟨agree.qlen, agree.sound⟩

end Runs

theorem qlen_agrees_deployed :
    let q := (Transition.run (step ByteFifo.kernel Deployment.decay) Deployment.start
      [.enqueue 7 Deployment.packet, .worker Deployment.silent, .enqueue 9 Deployment.packet,
        .dequeue, .change Deployment.message none Deployment.silent, .graft none, .drop, .reset,
        .dump true]).qdisc
    q.qlen = ByteFifo.kernel.qlen q.qdisc ∧ q.underflow = false :=
  qlen_agrees ByteFifo.kernel ByteFifo.counts_packets Deployment.decay Deployment.loaded
    Deployment.message none Deployment.silent 0 1 _ (by simp [EmptyGraft])

end GapsoRbfPid.QueueLength
