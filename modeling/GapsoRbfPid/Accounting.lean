import GapsoRbfPid.QueueLength

/-! Packet and drop accounting. The scheduler's counters are 32 bits wide, so every
identity holds modulo `2^32`; the packets themselves are counted in a ledger that is
written from what the operations return. -/

namespace GapsoRbfPid.Accounting
open GapsoRbfPid Library QueueLength

variable {K Child : Type}

structure Ledger where
  -- calls of the enqueue operation
  arrivals : ℕ
  -- enqueue operations that returned `NET_XMIT_SUCCESS`
  accepted : ℕ
  -- packets returned by the dequeue operation
  delivered : ℕ
  -- packets thrown away by a reset, a change or a graft
  discarded : ℕ

def Ledger.opened : Ledger := ⟨0, 0, 0, 0⟩

def Ledger.arrive (ledger : Ledger) (verdict : NetXmit) : Ledger :=
  { ledger with
    arrivals := ledger.arrivals + 1
    accepted := if verdict = .success then ledger.accepted + 1 else ledger.accepted }

def Ledger.deliver (ledger : Ledger) (skb : Option SkBuff) : Ledger :=
  { ledger with
    delivered := if skb.isSome then ledger.delivered + 1 else ledger.delivered }

def Ledger.discard (ledger : Ledger) (packets : BitVec 32) : Ledger :=
  { ledger with discarded := ledger.discarded + packets.toNat }

/-- The entry an operation makes, from its answer and the child it finds. -/
def record [Field K] [LinearOrder K] [FloorRing K] (kernel : Kernel Child) (ledger : Ledger)
    (s : State K Child) : Op K Child → Ledger
  | .enqueue netRandom skb => ledger.arrive (rbfgradEnqueue kernel netRandom skb s).1
  | .dequeue => ledger.deliver (rbfgradDequeue kernel s.qdisc).1
  | .reset => ledger.discard (kernel.qlen s.qdisc.qdisc)
  | .graft _ => ledger.discard (kernel.qlen s.qdisc.qdisc)
  | .change opt fifoError _ =>
      if exchangesChild opt fifoError then ledger.discard (kernel.qlen s.qdisc.qdisc) else ledger
  | _ => ledger

structure Accounts (kernel : Kernel Child) (q : Qdisc K Child) (ledger : Ledger) : Prop where
  agree : Agree kernel q
  overlimits : q.overlimits = q.stats.prob_drop + q.stats.prob_mark
  drops : q.drops = q.stats.prob_drop + q.stats.pdrop + q.stats.other
  arrivals : BitVec.ofNat 32 ledger.arrivals =
    q.stats.prob_drop + q.stats.pdrop + BitVec.ofNat 32 ledger.accepted
  accepted : BitVec.ofNat 32 ledger.accepted = BitVec.ofNat 32 ledger.delivered +
    q.stats.other + BitVec.ofNat 32 ledger.discarded + q.qlen
  unforced : q.stats.forced_drop = 0 ∧ q.stats.forced_mark = 0

theorem ofNat_succ (count : ℕ) : BitVec.ofNat 32 (count + 1) = BitVec.ofNat 32 count + 1 :=
  BitVec.ofNat_add count 1

/-- No operation looks at the controller to keep the accounts. -/
theorem Accounts.withConfiguration {kernel : Kernel Child} {q : Qdisc K Child} {ledger : Ledger}
    (accounts : Accounts kernel q ledger) (flags : BitVec 8) (limit : BitVec 32)
    (parms : RbfgradParms K) :
    Accounts kernel { q with flags := flags, limit := limit, parms := parms } ledger :=
  ⟨⟨accounts.agree.qlen, accounts.agree.sound⟩, accounts.overlimits, accounts.drops,
    accounts.arrivals, accounts.accepted, accounts.unforced⟩

theorem mark_accounts {kernel : Kernel Child} {q : Qdisc K Child} {ledger : Ledger}
    (accounts : Accounts kernel q ledger) :
    Accounts kernel { q with
      overlimits := q.overlimits + 1
      stats.prob_mark := q.stats.prob_mark + 1 } ledger where
  agree := ⟨accounts.agree.qlen, accounts.agree.sound⟩
  overlimits := by
    have before := accounts.overlimits
    dsimp only
    rw [before]
    ac_rfl
  drops := accounts.drops
  arrivals := accounts.arrivals
  accepted := accounts.accepted
  unforced := accounts.unforced

theorem congestionDrop_accounts {kernel : Kernel Child} {q : Qdisc K Child} {ledger : Ledger}
    (accounts : Accounts kernel q ledger) :
    Accounts kernel (congestionDrop { q with overlimits := q.overlimits + 1 }).2
      (ledger.arrive .cn) where
  agree := ⟨accounts.agree.qlen, accounts.agree.sound⟩
  overlimits := by
    simp only [congestionDrop, accounts.overlimits]
    ac_rfl
  drops := by
    simp only [congestionDrop, accounts.drops]
    ac_rfl
  arrivals := by
    simp only [congestionDrop, Ledger.arrive, reduceCtorEq, if_false, ofNat_succ,
      accounts.arrivals]
    ac_rfl
  accepted := accounts.accepted
  unforced := accounts.unforced

/-- The child takes the packet or refuses it; either way the arrival is accounted for. -/
theorem offerChild_accounts {kernel : Kernel Child} (laws : kernel.CountsPackets)
    (unstolen : ∀ skb child, (kernel.enqueue skb child).1 ≠ .stolen) (skb : SkBuff)
    {q : Qdisc K Child} {ledger : Ledger} (accounts : Accounts kernel q ledger) :
    Accounts kernel (offerChild kernel skb q).2
      (ledger.arrive (offerChild kernel skb q).1) := by
  have agree := offerChild_agree laws skb accounts.agree
  have counted : netXmitDropCount (kernel.enqueue skb q.qdisc).1 = true := by
    have never := unstolen skb q.qdisc
    cases verdict : (kernel.enqueue skb q.qdisc).1 with
    | stolen => exact absurd verdict never
    | _ => rfl
  by_cases success : (kernel.enqueue skb q.qdisc).1 = .success
  · simp only [offerChild, success, if_true] at agree ⊢
    refine ⟨agree, accounts.overlimits, accounts.drops, ?_, ?_, accounts.unforced⟩
    · simp only [Ledger.arrive, if_true, ofNat_succ, accounts.arrivals]
      ac_rfl
    · simp only [Ledger.arrive, if_true, ofNat_succ, accounts.accepted]
      ac_rfl
  · simp only [offerChild, success, if_false, counted, if_true] at agree ⊢
    refine ⟨agree, accounts.overlimits, ?_, ?_, ?_, accounts.unforced⟩
    · simp only [accounts.drops]
      ac_rfl
    · simp only [Ledger.arrive, success, if_false, ofNat_succ, accounts.arrivals]
      ac_rfl
    · simp only [Ledger.arrive, success, if_false, accounts.accepted]

theorem dispatch_accounts {kernel : Kernel Child} (laws : kernel.CountsPackets)
    (unstolen : ∀ skb child, (kernel.enqueue skb child).1 ≠ .stolen) (action : Action)
    (skb : SkBuff) {q : Qdisc K Child} {ledger : Ledger} (accounts : Accounts kernel q ledger) :
    Accounts kernel (dispatch kernel action skb q).2
      (ledger.arrive (dispatch kernel action skb q).1) := by
  cases action with
  | dontMark => exact offerChild_accounts laws unstolen skb accounts
  | probMark =>
    simp only [dispatch]
    split
    · exact congestionDrop_accounts accounts
    · exact offerChild_accounts laws unstolen _ (mark_accounts accounts)

theorem dequeue_accounts {kernel : Kernel Child} (laws : kernel.CountsPackets)
    {q : Qdisc K Child} {ledger : Ledger} (accounts : Accounts kernel q ledger) :
    Accounts kernel (rbfgradDequeue kernel q).2 (ledger.deliver (rbfgradDequeue kernel q).1) := by
  have agree := dequeue_agree laws accounts.agree
  cases taken : (kernel.dequeue q.qdisc).1 with
  | none =>
    simp only [rbfgradDequeue, taken] at agree ⊢
    exact ⟨agree, accounts.overlimits, accounts.drops, accounts.arrivals, accounts.accepted,
      accounts.unforced⟩
  | some skb =>
    simp only [rbfgradDequeue, taken] at agree ⊢
    refine ⟨agree, accounts.overlimits, accounts.drops, accounts.arrivals, ?_, accounts.unforced⟩
    simp only [Ledger.deliver, Option.isSome_some, if_true, ofNat_succ, subQlen,
      accounts.accepted]
    bv_omega

theorem drop_accounts {kernel : Kernel Child} (laws : kernel.CountsPackets)
    {q : Qdisc K Child} {ledger : Ledger} (accounts : Accounts kernel q ledger) :
    Accounts kernel (rbfgradDrop kernel q).2 ledger := by
  have agree := drop_agree laws accounts.agree
  by_cases able : kernel.hasDrop q.qdisc = true
  · by_cases positive : 0 < (kernel.drop q.qdisc).1
    · simp only [rbfgradDrop, able, if_true, positive] at agree ⊢
      refine ⟨agree, accounts.overlimits, ?_, accounts.arrivals, ?_, accounts.unforced⟩
      · simp only [subQlen, accounts.drops]
        ac_rfl
      · simp only [subQlen, accounts.accepted]
        bv_omega
    · simp only [rbfgradDrop, able, if_true, positive, if_false] at agree ⊢
      exact ⟨agree, accounts.overlimits, accounts.drops, accounts.arrivals, accounts.accepted,
        accounts.unforced⟩
  · simp only [rbfgradDrop, able, if_false, Bool.false_eq_true] at agree ⊢
    exact accounts

/-- Giving up the child's packets moves them from the queue to the discards. -/
theorem discard_accounts {kernel : Kernel Child} {q after : Qdisc K Child} {ledger : Ledger}
    (accounts : Accounts kernel q ledger) (agree : Agree kernel after)
    (overlimits : after.overlimits = q.overlimits) (drops : after.drops = q.drops)
    (stats : after.stats = q.stats) (empty : after.qlen = 0) :
    Accounts kernel after (ledger.discard (kernel.qlen q.qdisc)) where
  agree := agree
  overlimits := by rw [overlimits, stats, accounts.overlimits]
  drops := by rw [drops, stats, accounts.drops]
  arrivals := by rw [stats]; exact accounts.arrivals
  accepted := by
    have before := accounts.accepted
    rw [accounts.agree.qlen] at before
    simp only [Ledger.discard, BitVec.ofNat_add, BitVec.ofNat_toNat, BitVec.setWidth_eq, stats,
      empty, before]
    bv_omega
  unforced := by rw [stats]; exact accounts.unforced

theorem replaceChild_accounts {kernel : Kernel Child} {q : Qdisc K Child} {ledger : Ledger}
    {child : Child} (accounts : Accounts kernel q ledger) (empty : kernel.qlen child = 0) :
    Accounts kernel (replaceChild kernel child q) (ledger.discard (kernel.qlen q.qdisc)) := by
  have agree := replaceChild_agree accounts.agree empty
  exact discard_accounts accounts agree rfl rfl rfl (agree.qlen.trans empty)

theorem change_accounts [Field K] {kernel : Kernel Child} (laws : kernel.CountsPackets)
    (opt : Options K) (fifoError : Option Errno) (random32 : ℕ → BitVec 32) (s : State K Child)
    {ledger : Ledger} (accounts : Accounts kernel s.qdisc ledger) :
    Accounts kernel (rbfgradChange kernel opt fifoError random32 s).2.qdisc
      (if exchangesChild opt fifoError then ledger.discard (kernel.qlen s.qdisc.qdisc)
        else ledger) := by
  obtain ⟨flags, limit, parms, same⟩ := change_qdisc kernel opt fifoError random32 s
  rw [same]
  split
  · exact (replaceChild_accounts accounts (laws.fifo_empty limit)).withConfiguration flags limit parms
  · exact accounts.withConfiguration flags limit parms

theorem init_accounts [Field K] {kernel : Kernel Child} (laws : kernel.CountsPackets)
    (opt : Options K) (fifoError : Option Errno) (random32 : ℕ → BitVec 32) (worker stopper : Task)
    (g : Globals K) :
    Accounts kernel (rbfgradInit kernel opt fifoError random32 worker stopper
      ⟨g, .zeroed kernel⟩).2.qdisc .opened := by
  have zeroed : Accounts kernel (.zeroed kernel : Qdisc K Child) .opened :=
    ⟨⟨laws.noop_empty.symm, rfl⟩, rfl, rfl, rfl, rfl, rfl, rfl⟩
  have changed := change_accounts laws opt fifoError random32
    ⟨initGlobals g, .zeroed kernel⟩ zeroed
  have nothing : (if exchangesChild opt fifoError then
      Ledger.opened.discard (kernel.qlen (.zeroed kernel : Qdisc K Child).qdisc)
      else .opened) = .opened := by
    split
    · simp [Ledger.discard, Qdisc.zeroed, laws.noop_empty, Ledger.opened]
    · rfl
  rw [nothing] at changed
  exact changed

section Runs
variable [Field K] [LinearOrder K] [FloorRing K]

theorem step_accounts {kernel : Kernel Child} (laws : kernel.CountsPackets)
    (unstolen : ∀ skb child, (kernel.enqueue skb child).1 ≠ .stolen) (exp : K → K)
    (state : State K Child × Ledger) (op : Op K Child)
    (accounts : Accounts kernel state.1.qdisc state.2) (allowed : EmptyGraft kernel op) :
    Accounts kernel (step kernel exp state.1 op).qdisc (record kernel state.2 state.1 op) := by
  obtain ⟨s, ledger⟩ := state
  cases op with
  | enqueue netRandom skb =>
    have dispatched := dispatch_accounts laws unstolen (rbfgradAction s.qdisc.parms netRandom) skb accounts
    simp only [step, record, enqueue_qdisc, enqueue_verdict]
    exact dispatched.withConfiguration _ _ _
  | dequeue => exact dequeue_accounts laws accounts
  | drop => exact drop_accounts laws accounts
  | reset =>
    have agree := step_agree laws exp s .reset accounts.agree trivial
    exact discard_accounts accounts agree rfl rfl rfl rfl
  | change opt fifoError random32 => exact change_accounts laws opt fifoError random32 s accounts
  | graft new =>
    cases new with
    | none => exact replaceChild_accounts accounts laws.noop_empty
    | some child => exact replaceChild_accounts accounts allowed
  | dump room =>
    exact ⟨⟨accounts.agree.qlen, accounts.agree.sound⟩, accounts.overlimits, accounts.drops,
      accounts.arrivals, accounts.accepted, accounts.unforced⟩
  | dumpStats => exact accounts
  | worker random32 => exact accounts.withConfiguration _ _ _
  | destroy => exact allowed.elim

/-- After `rbfgrad_init` and any run, modulo `2^32`: limits are drops and marks; drops are
congestion drops, tail drops and `drop` calls; arrivals are congestion drops, tail drops
and accepted packets; accepted packets are delivered, dropped, discarded or still queued;
and the statistics report early drops and marks that add up to the limits. -/
theorem accounts_balance (kernel : Kernel Child) (laws : kernel.CountsPackets)
    (unstolen : ∀ skb child, (kernel.enqueue skb child).1 ≠ .stolen) (exp : K → K)
    (g : Globals K) (opt : Options K) (fifoError : Option Errno) (random32 : ℕ → BitVec 32)
    (worker stopper : Task) (ops : List (Op K Child))
    (allowed : ∀ op ∈ ops, EmptyGraft kernel op) :
    let start := (rbfgradInit kernel opt fifoError random32 worker stopper ⟨g, .zeroed kernel⟩).2
    let final := Transition.run (Transition.recording (step kernel exp) (record kernel))
      (start, Ledger.opened) ops
    let q := final.1.qdisc
    let ledger := final.2
    q.overlimits = q.stats.prob_drop + q.stats.prob_mark ∧
    q.drops = q.stats.prob_drop + q.stats.pdrop + q.stats.other ∧
    BitVec.ofNat 32 ledger.arrivals =
      q.stats.prob_drop + q.stats.pdrop + BitVec.ofNat 32 ledger.accepted ∧
    BitVec.ofNat 32 ledger.accepted = BitVec.ofNat 32 ledger.delivered + q.stats.other +
      BitVec.ofNat 32 ledger.discarded + q.qlen ∧
    (rbfgradDumpStats q).early + (rbfgradDumpStats q).marked = q.overlimits := by
  intro start final q ledger
  have accounts : Accounts kernel q ledger :=
    Transition.run_invariant (fun state op holds met => step_accounts laws unstolen exp state op holds met)
      (init_accounts laws opt fifoError random32 worker stopper g) ops allowed
  refine ⟨accounts.overlimits, accounts.drops, accounts.arrivals, accounts.accepted, ?_⟩
  simp only [rbfgradDumpStats, accounts.unforced.1, accounts.unforced.2, accounts.overlimits]
  bv_omega

end Runs

theorem accounts_balance_deployed :
    let final := Transition.run
      (Transition.recording (step ByteFifo.kernel Deployment.decay) (record ByteFifo.kernel))
      (Deployment.start, Ledger.opened)
      [.enqueue 7 Deployment.packet, .enqueue 0x80000000#32 Deployment.packet, .dequeue,
        .worker Deployment.silent, .change Deployment.message none Deployment.silent, .drop,
        .graft none, .enqueue 3 Deployment.packet, .dumpStats]
    let q := final.1.qdisc
    let ledger := final.2
    q.overlimits = q.stats.prob_drop + q.stats.prob_mark ∧
    q.drops = q.stats.prob_drop + q.stats.pdrop + q.stats.other ∧
    BitVec.ofNat 32 ledger.arrivals =
      q.stats.prob_drop + q.stats.pdrop + BitVec.ofNat 32 ledger.accepted ∧
    BitVec.ofNat 32 ledger.accepted = BitVec.ofNat 32 ledger.delivered + q.stats.other +
      BitVec.ofNat 32 ledger.discarded + q.qlen ∧
    (rbfgradDumpStats q).early + (rbfgradDumpStats q).marked = q.overlimits :=
  accounts_balance ByteFifo.kernel ByteFifo.counts_packets ByteFifo.enqueue_never_stolen
    Deployment.decay Deployment.loaded Deployment.message none Deployment.silent 0 1 _
    (by simp [EmptyGraft])

end GapsoRbfPid.Accounting
