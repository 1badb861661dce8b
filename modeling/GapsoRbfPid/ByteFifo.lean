import GapsoRbfPid.Qdisc

/-! The two children the scheduler installs itself: `noop_qdisc` and the byte FIFO of
`fifo_create_dflt`. They meet both law structures, so results stated for a lawful
kernel apply to them. -/

namespace GapsoRbfPid.ByteFifo
open GapsoRbfPid

/-- A byte FIFO, with the bounds that keep its counters exact. -/
structure Fifo where
  packets : List SkBuff
  limit : BitVec 32
  fits : bytes packets ≤ limit.toNat
  filled : ∀ skb ∈ packets, 0 < skb.len.toNat

inductive Child where
  | noop
  | fifo (queue : Fifo)

def Child.held : Child → List SkBuff
  | .noop => []
  | .fifo queue => queue.packets

theorem bytes_sublist {part whole : List SkBuff} (sublist : part.Sublist whole) :
    bytes part ≤ bytes whole := by
  induction sublist with
  | slnil => exact le_rfl
  | cons skb _ ih =>
    rw [bytes_cons]
    omega
  | cons_cons skb _ ih =>
    rw [bytes_cons, bytes_cons]
    omega

/-- The next packet is accepted while the bytes stay within the limit. A packet without
bytes, which no device hands over, is refused. -/
def Fifo.accepts (queue : Fifo) (skb : SkBuff) : Prop :=
  0 < skb.len.toNat ∧ bytes (skb :: queue.packets) ≤ queue.limit.toNat

instance (queue : Fifo) (skb : SkBuff) : Decidable (queue.accepts skb) :=
  inferInstanceAs (Decidable (_ ∧ _))

def Fifo.push (queue : Fifo) (skb : SkBuff) (room : queue.accepts skb) : Fifo where
  packets := queue.packets ++ [skb]
  limit := queue.limit
  fits := by
    have perm : (queue.packets ++ [skb]).Perm (skb :: queue.packets) := List.perm_append_singleton ..
    rw [bytes_perm perm]
    exact room.2
  filled := by
    intro other member
    rcases List.mem_append.mp member with old | new
    · exact queue.filled other old
    · rw [List.mem_singleton.mp new]
      exact room.1

/-- Any part of a FIFO's packets is again within its bounds. -/
def Fifo.keep (queue : Fifo) (packets : List SkBuff) (part : packets.Sublist queue.packets) :
    Fifo where
  packets := packets
  limit := queue.limit
  fits := (bytes_sublist part).trans queue.fits
  filled := fun skb member => queue.filled skb (part.subset member)

def enqueue (skb : SkBuff) : Child → NetXmit × Child
  | .noop => (.cn, .noop)
  | .fifo queue =>
      if room : queue.accepts skb then (.success, .fifo (queue.push skb room))
      else (.drop, .fifo queue)

def dequeue : Child → Option SkBuff × Child
  | .noop => (none, .noop)
  | .fifo queue =>
      (queue.packets.head?, .fifo (queue.keep queue.packets.tail (List.tail_sublist _)))

/-- `qdisc_queue_drop` takes the newest packet. -/
def drop : Child → BitVec 32 × Child
  | .noop => (0, .noop)
  | .fifo queue =>
      ((queue.packets.getLast?.map SkBuff.len).getD 0,
        .fifo (queue.keep queue.packets.dropLast (List.dropLast_sublist _)))

def reset : Child → Child
  | .noop => .noop
  | .fifo queue => .fifo (queue.keep [] (List.nil_sublist _))

def inetEcnSetCe (skb : SkBuff) : Option SkBuff :=
  match skb.ecn with
  | .notEct => none
  | _ => some { skb with ecn := .ce }

def kernel : Kernel Child where
  noopQdisc := .noop
  fifoCreateDflt := fun limit => .fifo ⟨[], limit, Nat.zero_le _, by simp⟩
  enqueue := enqueue
  dequeue := dequeue
  hasDrop := fun child => match child with | .noop => false | .fifo _ => true
  drop := drop
  reset := reset
  qlen := fun child => BitVec.ofNat 32 child.held.length
  backlog := fun child => BitVec.ofNat 32 (bytes child.held)
  inetEcnSetCe := inetEcnSetCe

theorem length_le_bytes (packets : List SkBuff) (filled : ∀ skb ∈ packets, 0 < skb.len.toNat) :
    packets.length ≤ bytes packets := by
  induction packets with
  | nil => exact Nat.zero_le _
  | cons skb rest ih =>
    have first := filled skb (by simp)
    have later := ih (fun other member => filled other (by simp [member]))
    rw [bytes_cons, List.length_cons]
    omega

theorem bytes_held_lt (child : Child) : bytes child.held < 2 ^ 32 := by
  cases child with
  | noop => decide
  | fifo queue => exact lt_of_le_of_lt queue.fits queue.limit.isLt

theorem length_held_lt (child : Child) : child.held.length < 2 ^ 32 := by
  cases child with
  | noop => decide
  | fifo queue =>
    exact lt_of_le_of_lt (length_le_bytes queue.packets queue.filled)
      (bytes_held_lt (.fifo queue))

theorem qlen_exact (child : Child) : (kernel.qlen child).toNat = child.held.length :=
  Nat.mod_eq_of_lt (length_held_lt child)

theorem qlen_congr {first second : Child} (same : first.held = second.held) :
    kernel.qlen first = kernel.qlen second :=
  congrArg (fun packets : List SkBuff => BitVec.ofNat 32 packets.length) same

theorem backlog_exact (child : Child) : (kernel.backlog child).toNat = bytes child.held :=
  Nat.mod_eq_of_lt (bytes_held_lt child)

theorem held_enqueue_success (skb : SkBuff) (child : Child)
    (success : (enqueue skb child).1 = .success) :
    ((enqueue skb child).2.held).Perm (skb :: child.held) := by
  cases child with
  | noop => simp [enqueue] at success
  | fifo queue =>
    by_cases room : queue.accepts skb
    · simp only [enqueue, dif_pos room, Child.held, Fifo.push]
      exact List.perm_append_singleton skb queue.packets
    · simp [enqueue, dif_neg room] at success

theorem held_enqueue_refused (skb : SkBuff) (child : Child)
    (refused : (enqueue skb child).1 ≠ .success) : (enqueue skb child).2 = child := by
  cases child with
  | noop => rfl
  | fifo queue =>
    by_cases room : queue.accepts skb
    · simp [enqueue, dif_pos room] at refused
    · simp only [enqueue, dif_neg room]

theorem enqueue_never_stolen (skb : SkBuff) (child : Child) :
    (kernel.enqueue skb child).1 ≠ .stolen := by
  cases child with
  | noop => simp [kernel, enqueue]
  | fifo queue => by_cases room : queue.accepts skb <;> simp [kernel, enqueue, room]

theorem held_dequeue_some (child : Child) (skb : SkBuff) (some : (dequeue child).1 = some skb) :
    child.held = skb :: (dequeue child).2.held := by
  cases child with
  | noop => simp [dequeue] at some
  | fifo queue =>
    obtain ⟨rest, same⟩ := List.head?_eq_some_iff.mp some
    simp only [Child.held, dequeue, Fifo.keep, same, List.tail_cons]

theorem held_dequeue_none (child : Child) (none : (dequeue child).1 = none) :
    (dequeue child).2.held = child.held := by
  cases child with
  | noop => rfl
  | fifo queue =>
    have empty : queue.packets = [] := List.head?_eq_none_iff.mp none
    simp [Child.held, dequeue, Fifo.keep, empty]

theorem held_drop_positive (child : Child) (positive : 0 < (drop child).1) :
    ∃ skb, skb.len = (drop child).1 ∧ child.held.Perm (skb :: (drop child).2.held) := by
  cases child with
  | noop => simp [drop] at positive
  | fifo queue =>
    rcases List.eq_nil_or_concat queue.packets with empty | ⟨front, last, same⟩
    · simp [drop, empty] at positive
    · refine ⟨last, by simp [drop, same], ?_⟩
      simp only [Child.held, drop, Fifo.keep, same, List.concat_eq_append, List.dropLast_concat]
      exact List.perm_append_singleton last front

theorem held_drop_zero (child : Child) (zero : (drop child).1 = 0) :
    (drop child).2.held = child.held := by
  cases child with
  | noop => rfl
  | fifo queue =>
    rcases List.eq_nil_or_concat queue.packets with empty | ⟨front, last, same⟩
    · simp [Child.held, drop, Fifo.keep, empty]
    · have positive := queue.filled last (by simp [same])
      have length : last.len = 0 := by simpa [drop, same] using zero
      simp [length] at positive

theorem held_reset (child : Child) : (reset child).held = [] := by
  cases child <;> rfl

theorem counts_bytes : kernel.CountsBytes Child.held where
  backlog_exact := backlog_exact
  enqueue_success := held_enqueue_success
  enqueue_refused := fun skb child refused => by
    rw [show kernel.enqueue = enqueue from rfl, held_enqueue_refused skb child refused]
  dequeue_some := fun child skb some => by rw [held_dequeue_some child skb some]; rfl
  dequeue_none := fun child none => .of_eq (held_dequeue_none child none)
  drop_positive := held_drop_positive
  drop_zero := fun child zero => .of_eq (held_drop_zero child zero)
  reset_empty := held_reset
  noop_empty := rfl
  fifo_empty := fun _ => rfl

theorem counts_packets : kernel.CountsPackets where
  enqueue_success := fun skb child success => by
    rw [qlen_exact, qlen_exact]
    exact (held_enqueue_success skb child success).length_eq
  enqueue_refused := fun skb child refused =>
    congrArg kernel.qlen (held_enqueue_refused skb child refused)
  dequeue_some := fun child some => by
    obtain ⟨skb, same⟩ := Option.isSome_iff_exists.mp some
    rw [qlen_exact, qlen_exact, held_dequeue_some child skb same]
    rfl
  dequeue_none := fun child none => qlen_congr (held_dequeue_none child none)
  drop_positive := fun child positive => by
    obtain ⟨skb, _, perm⟩ := held_drop_positive child positive
    rw [qlen_exact, qlen_exact, perm.length_eq]
    rfl
  drop_zero := fun child zero => qlen_congr (held_drop_zero child zero)
  reset_empty := fun child => @qlen_congr (reset child) .noop (held_reset child)
  noop_empty := rfl
  fifo_empty := fun _ => rfl

end GapsoRbfPid.ByteFifo
