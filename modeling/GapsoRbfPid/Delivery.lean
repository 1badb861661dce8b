import GapsoRbfPid.Backlog
import GapsoRbfPid.Library.LossyChannel
import GapsoRbfPid.PidRefinement

/-! What becomes of the packets. The scheduler and its child are a channel that may lose packets
and may set their congestion mark, but that neither invents, repeats nor reorders them. -/

namespace GapsoRbfPid.Delivery
open GapsoRbfPid Library LossyChannel

variable {K Child : Type}

/-- What the scheduler relies on for the order: a child that hands out its packets in the order it
took them, and a marking function that touches only the mark of a capable packet. -/
structure Ordered (kernel : Kernel Child) (held : Child → List SkBuff) : Prop where
  enqueue_success : ∀ skb child, (kernel.enqueue skb child).1 = .success →
    held (kernel.enqueue skb child).2 = held child ++ [skb]
  enqueue_refused : ∀ skb child, (kernel.enqueue skb child).1 ≠ .success →
    (held (kernel.enqueue skb child).2).Sublist (held child)
  dequeue_some : ∀ child skb, (kernel.dequeue child).1 = some skb →
    held child = skb :: held (kernel.dequeue child).2
  dequeue_none : ∀ child, (kernel.dequeue child).1 = none →
    (held (kernel.dequeue child).2).Sublist (held child)
  drop : ∀ child, (held (kernel.drop child).2).Sublist (held child)
  reset_empty : ∀ child, held (kernel.reset child) = []
  noop_empty : held kernel.noopQdisc = []
  fifo_empty : ∀ limit, held (kernel.fifoCreateDflt limit) = []
  marked : ∀ skb got, kernel.inetEcnSetCe skb = some got →
    skb.ecn ≠ .notEct ∧ got = { skb with ecn := .ce }

/-- A packet arrives as it was sent, or with its mark set when marking is in use. -/
def Arrives (marking : Prop) (got sent : SkBuff) : Prop :=
  got = sent ∨ marking ∧ sent.ecn ≠ .notEct ∧ got = { sent with ecn := .ce }

structure Traffic where
  offered : List SkBuff
  delivered : List SkBuff

/-- The packets handed to the enqueue operation and those that the dequeue operation returned. -/
def watch (kernel : Kernel Child) (traffic : Traffic) (s : State K Child) : Op K Child → Traffic
  | .enqueue _ skb => { traffic with offered := traffic.offered ++ [skb] }
  | .dequeue =>
      { traffic with
        delivered := traffic.delivered ++ (rbfgradDequeue kernel s.qdisc).1.toList }
  | _ => traffic

def channel (held : Child → List SkBuff) (state : State K Child × Traffic) : Channel SkBuff where
  offered := state.2.offered
  held := held state.1.qdisc.qdisc
  delivered := state.2.delivered

section Child
variable {kernel : Kernel Child} {held : Child → List SkBuff}

theorem offerChild_held (laws : Ordered kernel held) (skb : SkBuff) (q : Qdisc K Child) :
    held (offerChild kernel skb q).2.qdisc = held q.qdisc ++ [skb] ∨
      (held (offerChild kernel skb q).2.qdisc).Sublist (held q.qdisc) := by
  have child := congrArg (fun parts => parts.2.2) (offerChild_queue kernel skb q)
  change (offerChild kernel skb q).2.qdisc = (kernel.enqueue skb q.qdisc).2 at child
  rw [child]
  by_cases success : (kernel.enqueue skb q.qdisc).1 = .success
  · exact .inl (laws.enqueue_success skb q.qdisc success)
  · exact .inr (laws.enqueue_refused skb q.qdisc success)

/-- The tail of the enqueue operation hands the packet on, marked or not, or loses it. -/
theorem dispatch_held (laws : Ordered kernel held) {marking : Prop} (action : Action)
    (skb : SkBuff) (q : Qdisc K Child) (used : rbfgradUseEcn q = true → marking) :
    (∃ got, Arrives marking got skb ∧
      held (dispatch kernel action skb q).2.qdisc = held q.qdisc ++ [got]) ∨
    (held (dispatch kernel action skb q).2.qdisc).Sublist (held q.qdisc) := by
  cases action with
  | dontMark =>
    rcases offerChild_held laws skb q with taken | lost
    · exact .inl ⟨skb, .inl rfl, taken⟩
    · exact .inr lost
  | probMark =>
    simp only [dispatch]
    cases mark : ecnMark kernel skb { q with overlimits := q.overlimits + 1 } with
    | none => exact .inr (List.Sublist.refl (held q.qdisc))
    | some got =>
      have capable : Arrives marking got skb := by
        unfold ecnMark at mark
        split_ifs at mark with ecn
        · exact .inr ⟨used ecn, laws.marked skb got mark⟩
      rcases offerChild_held laws got { q with
        overlimits := q.overlimits + 1, stats.prob_mark := q.stats.prob_mark + 1 } with taken | lost
      · exact .inl ⟨got, capable, taken⟩
      · exact .inr lost

theorem dequeue_held (laws : Ordered kernel held) (q : Qdisc K Child) :
    (∃ skb, (rbfgradDequeue kernel q).1 = some skb ∧
      held q.qdisc = skb :: held (rbfgradDequeue kernel q).2.qdisc) ∨
    ((rbfgradDequeue kernel q).1 = none ∧
      (held (rbfgradDequeue kernel q).2.qdisc).Sublist (held q.qdisc)) := by
  unfold rbfgradDequeue
  dsimp only
  cases taken : (kernel.dequeue q.qdisc).1 with
  | none => exact .inr ⟨rfl, laws.dequeue_none q.qdisc taken⟩
  | some skb => exact .inl ⟨skb, rfl, laws.dequeue_some q.qdisc skb taken⟩

theorem drop_held (laws : Ordered kernel held) (q : Qdisc K Child) :
    (held (rbfgradDrop kernel q).2.qdisc).Sublist (held q.qdisc) := by
  unfold rbfgradDrop
  dsimp only
  split_ifs
  · exact laws.drop q.qdisc
  · exact laws.drop q.qdisc
  · exact List.Sublist.refl (held q.qdisc)

theorem change_held [Field K] (laws : Ordered kernel held) (opt : Options K)
    (fifoError : Option Errno) (random32 : ℕ → BitVec 32) (s : State K Child) :
    (held (rbfgradChange kernel opt fifoError random32 s).2.qdisc.qdisc).Sublist
      (held s.qdisc.qdisc) := by
  obtain ⟨flags, limit, parms, same⟩ := change_qdisc kernel opt fifoError random32 s
  rw [same]
  by_cases exchange : exchangesChild opt fifoError = true
  · rw [if_pos exchange]
    change (held (kernel.fifoCreateDflt limit)).Sublist _
    rw [laws.fifo_empty]
    exact List.nil_sublist _
  · rw [if_neg exchange]

end Child

section Runs
variable [Field K]

/-- The configurations of a run turn marking on only where it is allowed. -/
def MarksOnly (marking : Prop) (opt : Options K) : Prop :=
  ∀ ctl stab, opt = some (.ok ⟨some ctl, some stab⟩) →
    ctl.flags.setWidth 8 &&& TC_RBFGRAD_ECN ≠ 0 → marking

def ChangeMarksOnly (marking : Prop) : Op K Child → Prop
  | .change opt _ _ => MarksOnly marking opt
  | _ => True

/-- The flags of the qdisc respect it as well. -/
def FlagsMarkOnly (marking : Prop) (q : Qdisc K Child) : Prop :=
  q.flags &&& TC_RBFGRAD_ECN ≠ 0 → marking

omit [Field K] in
theorem FlagsMarkOnly.used {marking : Prop} {q : Qdisc K Child} (only : FlagsMarkOnly marking q)
    (ecn : rbfgradUseEcn q = true) : marking := by
  apply only
  simpa only [rbfgradUseEcn, bne_iff_ne] using ecn

omit [Field K] in
theorem FlagsMarkOnly.congr {marking : Prop} {q q' : Qdisc K Child}
    (only : FlagsMarkOnly marking q) (same : settings q' = settings q) :
    FlagsMarkOnly marking q' := by
  have flags : q'.flags = q.flags := congrArg Prod.fst same
  unfold FlagsMarkOnly
  rw [flags]
  exact only

theorem change_marksOnly {marking : Prop} {kernel : Kernel Child} {opt : Options K}
    {fifoError : Option Errno} {random32 : ℕ → BitVec 32} {s : State K Child}
    (only : FlagsMarkOnly marking s.qdisc) (sent : MarksOnly marking opt) :
    FlagsMarkOnly marking (rbfgradChange kernel opt fifoError random32 s).2.qdisc := by
  rcases change_cases kernel opt fifoError random32 s with ⟨err, same⟩ | ⟨ctl, stab, opened, -, same⟩
  · rw [same]
    exact only
  · have flags := congrArg Prod.fst (install_settings kernel ctl stab random32 s)
    change (install kernel ctl stab random32 s).qdisc.flags = ctl.flags.setWidth 8 at flags
    rw [same]
    unfold FlagsMarkOnly
    rw [flags]
    exact sent ctl stab opened

variable [LinearOrder K] [FloorRing K] {kernel : Kernel Child} {held : Child → List SkBuff}

theorem step_marksOnly {marking : Prop} (exp : K → K) {s : State K Child} {op : Op K Child}
    (only : FlagsMarkOnly marking s.qdisc) (change : ChangeMarksOnly marking op) :
    FlagsMarkOnly marking (step kernel exp s op).qdisc := by
  have same := step_settings kernel exp s op
  cases op with
  | change opt fifoError random32 => exact change_marksOnly only change
  | _ => exact only.congr same

/-- Every operation is a move of the channel. -/
theorem step_move (laws : Ordered kernel held) {marking : Prop} (exp : K → K)
    (state : State K Child × Traffic) (op : Op K Child)
    (only : FlagsMarkOnly marking state.1.qdisc) (allowed : Backlog.EmptyGraft held op) :
    Move (Arrives marking) (channel held state)
      (channel held (step kernel exp state.1 op, watch kernel state.2 state.1 op)) := by
  obtain ⟨s, traffic⟩ := state
  cases op with
  | enqueue netRandom skb =>
    have child := congrArg Qdisc.qdisc (enqueue_qdisc kernel netRandom skb s)
    simp only [channel, watch, step, child]
    rcases dispatch_held laws (rbfgradAction s.qdisc.parms netRandom) skb s.qdisc only.used with
      ⟨got, arrives, taken⟩ | lost
    · rw [taken]
      exact .carry (channel held (s, traffic)) skb got arrives
    · exact .lose (channel held (s, traffic)) [skb] _ lost
  | dequeue =>
    rcases dequeue_held laws s.qdisc with ⟨skb, taken, first⟩ | ⟨empty, fewer⟩
    · simp only [channel, watch, step, taken, Option.toList_some]
      exact .deliver (channel held (s, traffic)) skb _ first
    · simp only [channel, watch, step, empty, Option.toList_none, List.append_nil]
      exact .loses fewer
  | drop => exact .loses (drop_held laws s.qdisc)
  | reset =>
    apply Move.loses
    change (held (kernel.reset s.qdisc.qdisc)).Sublist _
    rw [laws.reset_empty]
    exact List.nil_sublist _
  | change opt fifoError random32 => exact .loses (change_held laws opt fifoError random32 s)
  | graft new =>
    apply Move.loses
    cases new with
    | none =>
      change (held kernel.noopQdisc).Sublist _
      rw [laws.noop_empty]
      exact List.nil_sublist _
    | some child =>
      change (held child).Sublist _
      rw [allowed]
      exact List.nil_sublist _
  | dump room => exact .loses (List.Sublist.refl _)
  | dumpStats => exact .loses (List.Sublist.refl _)
  | worker random32 => exact .loses (List.Sublist.refl _)
  | destroy => exact allowed.elim

theorem run_inOrder (laws : Ordered kernel held) {marking : Prop} (exp : K → K)
    {state : State K Child × Traffic} (only : FlagsMarkOnly marking state.1.qdisc)
    (ordered : InOrder (Arrives marking) (channel held state)) (ops : List (Op K Child))
    (allowed : ∀ op ∈ ops, Backlog.EmptyGraft held op ∧ ChangeMarksOnly marking op) :
    InOrder (Arrives marking) (channel held
      (Transition.run (Transition.recording (step kernel exp) (watch kernel)) state ops)) := by
  have keeps : ∀ (state : State K Child × Traffic) op,
      InOrder (Arrives marking) (channel held state) ∧ FlagsMarkOnly marking state.1.qdisc →
      Backlog.EmptyGraft held op ∧ ChangeMarksOnly marking op →
      InOrder (Arrives marking) (channel held
        (Transition.recording (step kernel exp) (watch kernel) state op)) ∧
      FlagsMarkOnly marking
        (Transition.recording (step kernel exp) (watch kernel) state op).1.qdisc := by
    rintro state op ⟨ordered, only⟩ ⟨empty, marks⟩
    exact ⟨(step_move laws exp state op only empty).inOrder ordered,
      step_marksOnly exp only marks⟩
  exact (Transition.run_invariant keeps ⟨ordered, only⟩ ops allowed).1

/-- In every run after `rbfgrad_init` over a child that keeps its order, with every grafted child
empty, what has been dequeued and what is held is a part of the offered packets in their order,
each with its mark untouched or set; it is a part of them unchanged when no configuration has the
flag for marking. -/
theorem delivers_in_order (laws : Ordered kernel held) (exp : K → K) (g : Globals K)
    (opt : Options K) (fifoError : Option Errno) (random32 : ℕ → BitVec 32)
    (worker stopper : Task) (ops : List (Op K Child))
    (grafts : ∀ op ∈ ops, Backlog.EmptyGraft held op) :
    let start := (rbfgradInit kernel opt fifoError random32 worker stopper ⟨g, .zeroed kernel⟩).2
    let final := Transition.run (Transition.recording (step kernel exp) (watch kernel))
      (start, ⟨[], []⟩) ops
    let content := final.2.delivered ++ held final.1.qdisc.qdisc
    List.SublistForall₂ (Arrives True) content final.2.offered ∧
    (MarksOnly False opt → (∀ op ∈ ops, ChangeMarksOnly False op) →
      content.Sublist final.2.offered) := by
  intro start final content
  have zeroed : ∀ marking, FlagsMarkOnly marking (Qdisc.zeroed kernel : Qdisc K Child) :=
    fun _ set => absurd (by decide : (0 : BitVec 8) &&& TC_RBFGRAD_ECN = 0) set
  have opened : ∀ marking, MarksOnly marking opt → FlagsMarkOnly marking start.qdisc :=
    fun marking sent => change_marksOnly (s := ⟨initGlobals g, .zeroed kernel⟩)
      (zeroed marking) sent
  have empty : (held start.qdisc.qdisc).Sublist [] := by
    have fewer := change_held laws opt fifoError random32 ⟨initGlobals g, .zeroed kernel⟩
    rw [← laws.noop_empty]
    exact fewer
  have begins : ∀ marking, InOrder (Arrives marking) (channel held (start, ⟨[], []⟩)) := by
    intro marking
    exact (@Move.loses _ _ ⟨[], [], []⟩ _ empty).inOrder inOrder_empty
  refine ⟨?_, ?_⟩
  · apply run_inOrder laws exp (opened True fun _ _ _ _ => trivial) (begins True)
    intro op member
    refine ⟨grafts op member, ?_⟩
    cases op with
    | change opt fifoError random32 => exact fun _ _ _ _ => trivial
    | _ => trivial
  · intro unmarked changes
    have ordered := run_inOrder laws exp (opened False unmarked) (begins False) ops
      fun op member => ⟨grafts op member, changes op member⟩
    apply ordered.sublist
    rintro got sent (same | ⟨impossible, -⟩)
    · exact same
    · exact impossible.elim

end Runs

section Fifo
open ByteFifo

theorem fifo_enqueue_success (skb : SkBuff) (child : ByteFifo.Child)
    (success : (ByteFifo.enqueue skb child).1 = .success) :
    (ByteFifo.enqueue skb child).2.held = child.held ++ [skb] := by
  cases child with
  | noop => simp [ByteFifo.enqueue] at success
  | fifo queue =>
    by_cases room : queue.accepts skb
    · simp only [ByteFifo.enqueue, dif_pos room, Child.held, Fifo.push]
    · simp [ByteFifo.enqueue, dif_neg room] at success

theorem fifo_drop (child : ByteFifo.Child) : (ByteFifo.drop child).2.held.Sublist child.held := by
  cases child with
  | noop => exact List.Sublist.refl _
  | fifo queue => exact List.dropLast_sublist queue.packets

theorem fifo_ordered : Ordered ByteFifo.kernel ByteFifo.Child.held where
  enqueue_success := fifo_enqueue_success
  enqueue_refused skb child refused := by
    have same : (ByteFifo.kernel.enqueue skb child).2 = child :=
      held_enqueue_refused skb child refused
    rw [same]
  dequeue_some := held_dequeue_some
  dequeue_none child none := by
    have same : (ByteFifo.kernel.dequeue child).2.held = child.held := held_dequeue_none child none
    rw [same]
  drop := fifo_drop
  reset_empty := held_reset
  noop_empty := rfl
  fifo_empty _ := rfl
  marked skb got mark := by
    change ByteFifo.inetEcnSetCe skb = some got at mark
    unfold ByteFifo.inetEcnSetCe at mark
    split at mark
    · cases mark
    next capable => exact ⟨capable, (Option.some.inj mark).symm⟩

end Fifo

/-- A capable packet, marked with probability one half, and the one behind it. -/
theorem delivers_in_order_deployed :
    let final := Transition.run (Transition.recording (step ByteFifo.kernel Deployment.decay)
      (watch ByteFifo.kernel)) (Deployment.start, ⟨[], []⟩)
      [.enqueue 7 Deployment.packet, .change (some (.ok ⟨some PidRefinement.fixedGains,
        some Deployment.stab⟩)) none Deployment.silent, .enqueue 7 ⟨40, .ect⟩,
        .enqueue 0x7FFFFFFF ⟨60, .ect⟩, .dequeue, .reset, .graft none]
    final.2.delivered = [⟨40, .ce⟩] ∧
      List.SublistForall₂ (Arrives True) [⟨40, .ce⟩] final.2.offered := by
  intro final
  have law := delivers_in_order fifo_ordered Deployment.decay Deployment.loaded Deployment.message
    none Deployment.silent 0 1 [.enqueue 7 Deployment.packet, .change (some (.ok
      ⟨some PidRefinement.fixedGains, some Deployment.stab⟩)) none Deployment.silent,
      .enqueue 7 ⟨40, .ect⟩, .enqueue 0x7FFFFFFF ⟨60, .ect⟩, .dequeue, .reset, .graft none]
    (by simp [Backlog.EmptyGraft])
  have delivered : final.2.delivered = [⟨40, .ce⟩] := by decide +kernel
  have empty : final.1.qdisc.qdisc.held = [] := by decide +kernel
  have content : final.2.delivered ++ final.1.qdisc.qdisc.held = [⟨40, .ce⟩] := by
    rw [delivered, empty]
    rfl
  refine ⟨delivered, ?_⟩
  rw [← content]
  exact law.1

section Lossless

/-- The counters of lost packets that an enqueue operation can raise. -/
def losses (q : Qdisc K Child) : BitVec 32 × BitVec 32 × BitVec 32 :=
  (q.drops, q.stats.prob_drop, q.stats.pdrop)

/-- A capable packet is offered to the child whatever the marking decision is. -/
theorem dispatch_capable (action : Action) {skb : SkBuff} (capable : skb.ecn ≠ .notEct)
    {q : Qdisc K ByteFifo.Child} (used : rbfgradUseEcn q = true) :
    ∃ got q', Arrives True got skb ∧ got.len = skb.len ∧ q'.qdisc = q.qdisc ∧ losses q' = losses q ∧
      dispatch ByteFifo.kernel action skb q = offerChild ByteFifo.kernel got q' := by
  cases action with
  | dontMark => exact ⟨skb, q, .inl rfl, rfl, rfl, rfl, rfl⟩
  | probMark =>
    have set : ByteFifo.kernel.inetEcnSetCe skb = some { skb with ecn := .ce } := by
      change ByteFifo.inetEcnSetCe skb = _
      unfold ByteFifo.inetEcnSetCe
      split
      next bare => exact absurd bare capable
      · rfl
    have still : rbfgradUseEcn { q with overlimits := q.overlimits + 1 } = true := used
    have mark : ecnMark ByteFifo.kernel skb { q with overlimits := q.overlimits + 1 } =
        some { skb with ecn := .ce } := by
      rw [ecnMark, if_pos still, set]
    refine ⟨{ skb with ecn := .ce }, { q with
      overlimits := q.overlimits + 1, stats.prob_mark := q.stats.prob_mark + 1 },
      .inr ⟨trivial, capable, rfl⟩, rfl, rfl, rfl, ?_⟩
    simp only [dispatch, mark]

theorem offerChild_losses {kernel : Kernel Child} {skb : SkBuff} {q : Qdisc K Child}
    (success : (kernel.enqueue skb q.qdisc).1 = .success) :
    losses (offerChild kernel skb q).2 = losses q := by
  simp only [offerChild, success, if_true]
  rfl

theorem offerChild_fifo {skb : SkBuff} {q : Qdisc K ByteFifo.Child} {queue : ByteFifo.Fifo}
    (child : q.qdisc = .fifo queue) (room : queue.accepts skb) :
    (offerChild ByteFifo.kernel skb q).2.qdisc = .fifo (queue.push skb room) ∧
      losses (offerChild ByteFifo.kernel skb q).2 = losses q := by
  have answer : ByteFifo.kernel.enqueue skb q.qdisc = (.success, .fifo (queue.push skb room)) := by
    rw [child]
    exact dif_pos room
  have taken := congrArg (fun parts => parts.2.2) (offerChild_queue ByteFifo.kernel skb q)
  change (offerChild ByteFifo.kernel skb q).2.qdisc = (ByteFifo.kernel.enqueue skb q.qdisc).2 at taken
  rw [answer] at taken
  exact ⟨taken, offerChild_losses (congrArg Prod.fst answer)⟩

theorem dequeue_parts (kernel : Kernel Child) (q : Qdisc K Child) :
    (rbfgradDequeue kernel q).1 = (kernel.dequeue q.qdisc).1 ∧
      (rbfgradDequeue kernel q).2.qdisc = (kernel.dequeue q.qdisc).2 ∧
      losses (rbfgradDequeue kernel q).2 = losses q := by
  unfold rbfgradDequeue
  dsimp only
  cases (kernel.dequeue q.qdisc).1 with
  | none => exact ⟨rfl, rfl, rfl⟩
  | some skb => exact ⟨rfl, rfl, rfl⟩

/-- A marking scheduler over its byte FIFO that has not lost a packet. -/
structure Clear (limit : BitVec 32) (state : State K ByteFifo.Child × Traffic) : Prop where
  child : ∃ queue : ByteFifo.Fifo, state.1.qdisc.qdisc = .fifo queue ∧ queue.limit = limit
  marks : rbfgradUseEcn state.1.qdisc = true
  losses : losses state.1.qdisc = (0, 0, 0)
  whole : Lossless (Arrives True) (channel ByteFifo.Child.held state)

/-- Capable packets that the limit has room for, and operations that remove none. -/
def Fits (limit : BitVec 32) (s : State K ByteFifo.Child) : Op K ByteFifo.Child → Prop
  | .enqueue _ skb => skb.ecn ≠ .notEct ∧ 0 < skb.len.toNat ∧
      skb.len.toNat + bytes s.qdisc.qdisc.held ≤ limit.toNat
  | .drop | .reset | .change _ _ _ | .graft _ | .destroy => False
  | _ => True

instance (limit : BitVec 32) (s : State K ByteFifo.Child) (op : Op K ByteFifo.Child) :
    Decidable (Fits limit s op) :=
  match op with
  | .enqueue _ _ => inferInstanceAs (Decidable (_ ∧ _))
  | .drop | .reset | .change _ _ _ | .graft _ | .destroy => inferInstanceAs (Decidable False)
  | .dequeue | .dump _ | .dumpStats | .worker _ => inferInstanceAs (Decidable True)

variable [Field K] [LinearOrder K] [FloorRing K]

theorem Clear.step {limit : BitVec 32} {s : State K ByteFifo.Child} {traffic : Traffic}
    (clear : Clear limit (s, traffic)) (exp : K → K) (op : Op K ByteFifo.Child)
    (fits : Fits limit s op) :
    Clear limit (step ByteFifo.kernel exp s op, watch ByteFifo.kernel traffic s op) := by
  obtain ⟨queue, child, limited⟩ := clear.child
  have marks : ∀ {q : Qdisc K ByteFifo.Child}, settings q = settings s.qdisc →
      rbfgradUseEcn q = true := by
    intro q same
    have flags : q.flags = s.qdisc.flags := congrArg Prod.fst same
    rw [rbfgradUseEcn, flags]
    exact clear.marks
  have kept := step_settings ByteFifo.kernel exp s op
  cases op with
  | enqueue netRandom skb =>
    obtain ⟨capable, positive, room⟩ := fits
    obtain ⟨got, q', arrives, length, held, same, offered⟩ :=
      dispatch_capable (rbfgradAction s.qdisc.parms netRandom) capable clear.marks
    have accepted : queue.accepts got := by
      refine ⟨by rw [length]; exact positive, ?_⟩
      rw [bytes_cons, length, limited]
      rw [child] at room
      exact room
    obtain ⟨taken, unlost⟩ := offerChild_fifo (held.trans child) accepted
    have after := enqueue_qdisc ByteFifo.kernel netRandom skb s
    rw [offered] at after
    have pushed : (GapsoRbfPid.step ByteFifo.kernel exp s (.enqueue netRandom skb)).qdisc.qdisc =
        .fifo (queue.push got accepted) := (congrArg Qdisc.qdisc after).trans taken
    refine ⟨⟨_, pushed, limited⟩, marks kept, ?_, ?_⟩
    · calc
        Delivery.losses (rbfgradEnqueue ByteFifo.kernel netRandom skb s).2.qdisc
          = Delivery.losses (offerChild ByteFifo.kernel got q').2 := by
            rw [after]
            rfl
        _ = Delivery.losses q' := unlost
        _ = Delivery.losses s.qdisc := same
        _ = (0, 0, 0) := clear.losses
    · have carried := clear.whole.carry arrives
      unfold channel
      rw [pushed]
      unfold channel at carried
      rw [child] at carried
      exact carried
  | dequeue =>
    obtain ⟨answer, left, unlost⟩ := dequeue_parts ByteFifo.kernel s.qdisc
    have shorter : (GapsoRbfPid.step ByteFifo.kernel exp s .dequeue).qdisc.qdisc =
        .fifo (queue.keep queue.packets.tail (List.tail_sublist _)) := by
      refine left.trans ?_
      rw [child]
      rfl
    refine ⟨⟨_, shorter, limited⟩, marks kept, unlost.trans clear.losses, ?_⟩
    simp only [channel, watch, answer]
    change Lossless (Arrives True) ⟨traffic.offered, (rbfgradDequeue ByteFifo.kernel s.qdisc).2.qdisc.held,
      traffic.delivered ++ (ByteFifo.dequeue s.qdisc.qdisc).1.toList⟩
    rw [left]
    cases taken : (ByteFifo.dequeue s.qdisc.qdisc).1 with
    | none =>
      have same : (ByteFifo.kernel.dequeue s.qdisc.qdisc).2.held = s.qdisc.qdisc.held :=
        ByteFifo.held_dequeue_none s.qdisc.qdisc taken
      rw [same, Option.toList_none, List.append_nil]
      exact clear.whole
    | some skb => exact clear.whole.deliver (ByteFifo.held_dequeue_some s.qdisc.qdisc skb taken)
  | dump room => exact ⟨⟨queue, child, limited⟩, marks kept, clear.losses, clear.whole⟩
  | dumpStats => exact clear
  | worker random32 => exact ⟨⟨queue, child, limited⟩, marks kept, clear.losses, clear.whole⟩
  | drop => exact fits.elim
  | reset => exact fits.elim
  | change opt fifoError random32 => exact fits.elim
  | graft new => exact fits.elim
  | destroy => exact fits.elim

end Lossless

end GapsoRbfPid.Delivery
