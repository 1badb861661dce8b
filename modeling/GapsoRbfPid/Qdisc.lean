import GapsoRbfPid.Parms

/-! The state of the scheduler: what it keeps in its own qdisc, what it keeps in
module globals, and the kernel it calls. The kernel is a parameter; the two law
structures state what the scheduler relies on. -/

namespace GapsoRbfPid

abbrev CYC_MAX : ℕ := 20
abbrev QUEUE_SHOW_MAX : ℕ := 30000
abbrev PROB_TIME : ℕ := 55000

abbrev TC_RBFGRAD_ECN : BitVec 8 := 1

/-- A kernel error code; the C functions return its negation. -/
abbrev Errno := ℤ
abbrev EINVAL : Errno := 22
abbrev EMSGSIZE : Errno := 90

inductive EcnField where
  | notEct
  | ect
  | ce
  deriving DecidableEq, Repr

structure SkBuff where
  len : BitVec 32
  ecn : EcnField
  deriving DecidableEq, Repr

/-- The verdicts of an enqueue operation; `stolen` and `bypass` are the flagged ones. -/
inductive NetXmit where
  | success
  | drop
  | cn
  | policed
  | stolen
  | bypass
  deriving DecidableEq, Repr

/-- `net_xmit_drop_count`: a stolen packet is not counted as dropped. -/
def netXmitDropCount : NetXmit → Bool
  | .stolen => false
  | _ => true

/-- The kernel functions the scheduler calls, on an abstract state of a child qdisc. -/
structure Kernel (Child : Type) where
  noopQdisc : Child
  -- `fifo_create_dflt` with `bfifo_qdisc_ops`, when its allocations succeed
  fifoCreateDflt : BitVec 32 → Child
  enqueue : SkBuff → Child → NetXmit × Child
  dequeue : Child → Option SkBuff × Child
  hasDrop : Child → Bool
  drop : Child → BitVec 32 × Child
  reset : Child → Child
  qlen : Child → BitVec 32
  backlog : Child → BitVec 32
  -- `INET_ECN_set_ce`: the marked packet, or `none` when the packet cannot be marked
  inetEcnSetCe : SkBuff → Option SkBuff

structure Kernel.CountsPackets {Child : Type} (kernel : Kernel Child) : Prop where
  enqueue_success : ∀ skb child, (kernel.enqueue skb child).1 = .success →
    (kernel.qlen (kernel.enqueue skb child).2).toNat = (kernel.qlen child).toNat + 1
  enqueue_refused : ∀ skb child, (kernel.enqueue skb child).1 ≠ .success →
    kernel.qlen (kernel.enqueue skb child).2 = kernel.qlen child
  dequeue_some : ∀ child, (kernel.dequeue child).1.isSome →
    (kernel.qlen child).toNat = (kernel.qlen (kernel.dequeue child).2).toNat + 1
  dequeue_none : ∀ child, (kernel.dequeue child).1 = none →
    kernel.qlen (kernel.dequeue child).2 = kernel.qlen child
  drop_positive : ∀ child, 0 < (kernel.drop child).1 →
    (kernel.qlen child).toNat = (kernel.qlen (kernel.drop child).2).toNat + 1
  drop_zero : ∀ child, (kernel.drop child).1 = 0 →
    kernel.qlen (kernel.drop child).2 = kernel.qlen child
  reset_empty : ∀ child, kernel.qlen (kernel.reset child) = 0
  noop_empty : kernel.qlen kernel.noopQdisc = 0
  fifo_empty : ∀ limit, kernel.qlen (kernel.fifoCreateDflt limit) = 0

def bytes (packets : List SkBuff) : ℕ := (packets.map fun skb => skb.len.toNat).sum

@[simp] theorem bytes_nil : bytes [] = 0 := rfl

@[simp] theorem bytes_cons (skb : SkBuff) (packets : List SkBuff) :
    bytes (skb :: packets) = skb.len.toNat + bytes packets := by
  simp [bytes]

theorem bytes_perm {first second : List SkBuff} (perm : first.Perm second) :
    bytes first = bytes second :=
  (perm.map _).sum_eq

structure Kernel.CountsBytes {Child : Type} (kernel : Kernel Child)
    (held : Child → List SkBuff) : Prop where
  backlog_exact : ∀ child, (kernel.backlog child).toNat = bytes (held child)
  enqueue_success : ∀ skb child, (kernel.enqueue skb child).1 = .success →
    (held (kernel.enqueue skb child).2).Perm (skb :: held child)
  enqueue_refused : ∀ skb child, (kernel.enqueue skb child).1 ≠ .success →
    (held (kernel.enqueue skb child).2).Perm (held child)
  dequeue_some : ∀ child skb, (kernel.dequeue child).1 = some skb →
    (held child).Perm (skb :: held (kernel.dequeue child).2)
  dequeue_none : ∀ child, (kernel.dequeue child).1 = none →
    (held (kernel.dequeue child).2).Perm (held child)
  drop_positive : ∀ child, 0 < (kernel.drop child).1 →
    ∃ skb, skb.len = (kernel.drop child).1 ∧
      (held child).Perm (skb :: held (kernel.drop child).2)
  drop_zero : ∀ child, (kernel.drop child).1 = 0 →
    (held (kernel.drop child).2).Perm (held child)
  reset_empty : ∀ child, held (kernel.reset child) = []
  noop_empty : held kernel.noopQdisc = []
  fifo_empty : ∀ limit, held (kernel.fifoCreateDflt limit) = []

structure RbfgradStats where
  prob_drop : BitVec 32
  prob_mark : BitVec 32
  forced_drop : BitVec 32
  forced_mark : BitVec 32
  pdrop : BitVec 32
  other : BitVec 32
  deriving DecidableEq, Repr

/-- The qdisc: the counters of `struct Qdisc` and the private `rbfgrad_sched_data`. -/
structure Qdisc (K Child : Type) where
  qlen : BitVec 32
  backlog : BitVec 32
  drops : BitVec 32
  overlimits : BitVec 32
  limit : BitVec 32
  flags : BitVec 8
  parms : RbfgradParms K
  stats : RbfgradStats
  qdisc : Child
  -- not in the source: some decrement of `qlen` took more than was there
  underflow : Bool

/-- A log record. The members hold the doubles whose bit patterns the source stores;
the arrays of the C structure are never written and are left out. -/
structure QueueShow (K : Type) where
  numbers : ℕ
  length : BitVec 32
  mark_type : Action
  p : K
  kp : K
  ki : K
  kd : K
  jacobian : K
  NetOut : K
  e_k : Int32
  e_k_1 : Int32
  e_k_2 : Int32

abbrev Task := ℕ

/-- The module globals, shared by all qdiscs of the module. `fpu` counts the
`kernel_fpu_begin` calls that are still open. -/
structure Globals (K : Type) where
  cyc_count : ℕ
  array_element_rbfgrad : ℕ
  queue_show_base_rbfgrad : ℕ → QueueShow K
  prob_number : ℕ
  pkg_number : ℕ
  tsk_prob : Option Task
  tsk_stop_prob : Option Task
  fpu : ℤ

structure State (K Child : Type) where
  globals : Globals K
  qdisc : Qdisc K Child

structure TcRbfgradQopt (K : Type) where
  q_ref : Int32
  p_init : K
  p_min : K
  p_max : K
  kp_k : K
  ki_k : K
  kd_k : K
  eta_p : K
  eta_i : K
  eta_d : K
  n : Int32
  m : Int32
  alpha : K
  eta : K
  sampl_period : Int32
  Scell_log : BitVec 8
  limit : BitVec 32
  flags : BitVec 32

structure TcRbfgradXstats where
  early : BitVec 32
  pdrop : BitVec 32
  other : BitVec 32
  marked : BitVec 32
  deriving DecidableEq, Repr

structure Attributes (K : Type) where
  parms : Option (TcRbfgradQopt K)
  stab : Option Stab

/-- An option message as the scheduler sees it: absent, refused by `nla_parse_nested`
with an error code, or parsed. -/
abbrev Options (K : Type) := Option (Except Errno (Attributes K))

end GapsoRbfPid
