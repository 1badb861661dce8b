import GapsoRbfPid.Learning
import GapsoRbfPid.Library.ShiftRegister
import GapsoRbfPid.Qdisc

/-! The operations of `modules/sch_rbfgrad.c` on one qdisc and the module globals. A
call takes as arguments what the kernel answers during it: random draws, the verdict
of an allocation, the identity of a started thread. -/

namespace GapsoRbfPid
open Library

variable {K Child : Type}

section Packets

/-- The only way the scheduler lowers its own `q.qlen`. -/
def subQlen (n : BitVec 32) (q : Qdisc K Child) : Qdisc K Child :=
  { q with qlen := q.qlen - n, underflow := q.underflow || decide (q.qlen < n) }

def logRecord (mark_type : Action) (numbers : ℕ) (q : Qdisc K Child) : QueueShow K where
  numbers := numbers
  length := q.qlen
  mark_type := mark_type
  p := q.parms.p_k
  kp := q.parms.kp_k
  ki := q.parms.ki_k
  kd := q.parms.kd_k
  jacobian := q.parms.jacobian
  NetOut := q.parms.NetOut[q.parms.gbest_index]
  e_k := q.parms.e_k
  e_k_1 := q.parms.e_k_1
  e_k_2 := q.parms.e_k_2

def sampled (q : Qdisc K Child) : RbfgradParms K :=
  { q.parms with
    proba := ShiftRegister.shiftIn q.parms.p_k_1 q.parms.proba
    queue_len := ShiftRegister.shiftIn (.ofBitVec q.qlen) q.parms.queue_len
    e_k_2 := q.parms.e_k_1
    e_k_1 := q.parms.e_k
    e_k := CInt.subInt q.qlen q.parms.q_ref }

/-- The block that both branches of `rbfgrad_enqueue` carry: every `CYC_MAX`-th packet
takes a sample. The two copies differ only in the `mark_type` they log. -/
def sampleBlock (mark_type : Action) (s : State K Child) : State K Child :=
  let g := s.globals
  if g.cyc_count + 1 = CYC_MAX then
    { globals := { g with
        queue_show_base_rbfgrad := Function.update g.queue_show_base_rbfgrad
          g.array_element_rbfgrad (logRecord mark_type g.array_element_rbfgrad s.qdisc)
        array_element_rbfgrad :=
          if g.array_element_rbfgrad < QUEUE_SHOW_MAX - 1 then g.array_element_rbfgrad + 1
          else g.array_element_rbfgrad
        cyc_count := 0 }
      qdisc := { s.qdisc with parms := sampled s.qdisc } }
  else { s with globals := { g with cyc_count := g.cyc_count + 1 } }

def rbfgradUseEcn (q : Qdisc K Child) : Bool := q.flags &&& TC_RBFGRAD_ECN != 0

/-- The tail of `rbfgrad_enqueue`: the packet is offered to the child. -/
def offerChild (kernel : Kernel Child) (skb : SkBuff) (q : Qdisc K Child) :
    NetXmit × Qdisc K Child :=
  let answer := kernel.enqueue skb q.qdisc
  let q := { q with qdisc := answer.2 }
  if answer.1 = .success then
    (answer.1, { q with qlen := q.qlen + 1, backlog := q.backlog + skb.len })
  else if netXmitDropCount answer.1 then
    (answer.1, { q with stats.pdrop := q.stats.pdrop + 1, drops := q.drops + 1 })
  else (answer.1, q)

def congestionDrop (q : Qdisc K Child) : NetXmit × Qdisc K Child :=
  (.cn, { q with stats.prob_drop := q.stats.prob_drop + 1, drops := q.drops + 1 })

def ecnMark (kernel : Kernel Child) (skb : SkBuff) (q : Qdisc K Child) : Option SkBuff :=
  if rbfgradUseEcn q then kernel.inetEcnSetCe skb else none

/-- What follows the sampling block, for each marking decision. -/
def dispatch (kernel : Kernel Child) (action : Action) (skb : SkBuff) (q : Qdisc K Child) :
    NetXmit × Qdisc K Child :=
  match action with
  | .dontMark => offerChild kernel skb q
  | .probMark =>
      let q := { q with overlimits := q.overlimits + 1 }
      match ecnMark kernel skb q with
      | none => congestionDrop q
      | some marked =>
          offerChild kernel marked { q with stats.prob_mark := q.stats.prob_mark + 1 }

def rbfgradEnqueue [Field K] [LinearOrder K] [FloorRing K] (kernel : Kernel Child)
    (netRandom : BitVec 32) (skb : SkBuff) (s : State K Child) : NetXmit × State K Child :=
  let action := rbfgradAction s.qdisc.parms netRandom
  let s := sampleBlock action
    { s with globals := { s.globals with pkg_number := s.globals.pkg_number + 1 } }
  let out := dispatch kernel action skb s.qdisc
  (out.1, { s with qdisc := out.2 })

def rbfgradDequeue (kernel : Kernel Child) (q : Qdisc K Child) :
    Option SkBuff × Qdisc K Child :=
  let answer := kernel.dequeue q.qdisc
  let q := { q with qdisc := answer.2 }
  match answer.1 with
  | some skb => (some skb, subQlen 1 { q with backlog := q.backlog - skb.len })
  | none => (none, q)

def rbfgradDrop (kernel : Kernel Child) (q : Qdisc K Child) : BitVec 32 × Qdisc K Child :=
  if kernel.hasDrop q.qdisc then
    let answer := kernel.drop q.qdisc
    let q := { q with qdisc := answer.2 }
    if 0 < answer.1 then
      (answer.1, subQlen 1 { q with
        backlog := q.backlog - answer.1
        stats.other := q.stats.other + 1
        drops := q.drops + 1 })
    else (0, q)
  else (0, q)

/-- `rbfgrad_reset`; `rbfgrad_restart` is empty. -/
def rbfgradReset (kernel : Kernel Child) (s : State K Child) : State K Child where
  globals := { s.globals with array_element_rbfgrad := 0 }
  qdisc := { s.qdisc with qdisc := kernel.reset s.qdisc.qdisc, backlog := 0, qlen := 0 }

end Packets

section Configuration
variable [Field K]

/-- The exchange of the child inside `rbfgrad_change`. The backlog is not touched. -/
def replaceChild (kernel : Kernel Child) (child : Child) (q : Qdisc K Child) : Qdisc K Child :=
  { subQlen (kernel.qlen q.qdisc) q with qdisc := child }

def install (kernel : Kernel Child) (ctl : TcRbfgradQopt K) (stab : Stab)
    (random32 : ℕ → BitVec 32) (s : State K Child) : State K Child :=
  let q := { s.qdisc with flags := ctl.flags.setWidth 8, limit := ctl.limit }
  let q := if 0 < ctl.limit then replaceChild kernel (kernel.fifoCreateDflt ctl.limit) q else q
  { globals := { s.globals with array_element_rbfgrad := 0 }
    qdisc := { q with
      parms := rbfgradSetParms q.parms ctl.sampl_period ctl.q_ref ctl.p_init ctl.p_min ctl.p_max
        ctl.kp_k ctl.ki_k ctl.kd_k ctl.eta_p ctl.eta_i ctl.eta_d ctl.n ctl.m ctl.alpha ctl.eta
        ctl.Scell_log stab random32 } }

/-- `rbfgrad_change`. `fifoError` is the failure of `fifo_create_dflt`, if it fails. -/
def rbfgradChange (kernel : Kernel Child) (opt : Options K) (fifoError : Option Errno)
    (random32 : ℕ → BitVec 32) (s : State K Child) : Except Errno Unit × State K Child :=
  match opt with
  | none => (.error EINVAL, s)
  | some (.error err) => (.error err, s)
  | some (.ok tb) =>
      match tb.parms, tb.stab with
      | some ctl, some stab =>
          match if 0 < ctl.limit then fifoError else none with
          | some err => (.error err, s)
          | none => (.ok (), install kernel ctl stab random32 s)
      | _, _ => (.error EINVAL, s)

/-- `rbfgrad_graft`: the old child is handed back, reset. -/
def rbfgradGraft (kernel : Kernel Child) (new : Option Child) (q : Qdisc K Child) :
    Child × Qdisc K Child :=
  (kernel.reset q.qdisc,
    replaceChild kernel (new.getD kernel.noopQdisc) q)

/-- `rbfgrad_dump`: the emitted options, when the message has room for them. Members
that the initialiser does not name are zero. -/
def rbfgradDump (kernel : Kernel Child) (room : Bool) (q : Qdisc K Child) :
    Except Errno (TcRbfgradQopt K) × Qdisc K Child :=
  let opt : TcRbfgradQopt K :=
    { q_ref := q.parms.q_ref
      p_init := 0
      p_min := 0
      p_max := q.parms.p_max
      kp_k := q.parms.kp_k
      ki_k := q.parms.ki_k
      kd_k := q.parms.kd_k
      eta_p := q.parms.eta_p
      eta_i := q.parms.eta_i
      eta_d := q.parms.eta_d
      n := q.parms.n
      m := q.parms.m
      alpha := q.parms.alpha
      eta := q.parms.eta
      sampl_period := q.parms.sampl_period
      Scell_log := 0
      limit := q.limit
      flags := 0 }
  (if room then .ok opt else .error EMSGSIZE, { q with backlog := kernel.backlog q.qdisc })

def rbfgradDumpStats (q : Qdisc K Child) : TcRbfgradXstats where
  early := q.stats.prob_drop + q.stats.forced_drop
  pdrop := q.stats.pdrop
  other := q.stats.other
  marked := q.stats.prob_mark + q.stats.forced_mark

/-- The qdisc a scheduler is created in: the kernel hands out zeroed memory. -/
def Qdisc.zeroed (kernel : Kernel Child) : Qdisc K Child where
  qlen := 0
  backlog := 0
  drops := 0
  overlimits := 0
  limit := 0
  flags := 0
  parms := .zeroed
  stats := ⟨0, 0, 0, 0, 0, 0⟩
  qdisc := kernel.noopQdisc
  underflow := false

def initGlobals (g : Globals K) : Globals K :=
  { g with
    fpu := g.fpu + 1
    array_element_rbfgrad := 0
    cyc_count := 0
    prob_number := 0
    pkg_number := 0 }

/-- `rbfgrad_init`. The two threads are started whatever `rbfgrad_change` returned. -/
def rbfgradInit (kernel : Kernel Child) (opt : Options K) (fifoError : Option Errno)
    (random32 : ℕ → BitVec 32) (worker stopper : Task) (s : State K Child) :
    Except Errno Unit × State K Child :=
  let out := rbfgradChange kernel opt fifoError random32
    { globals := initGlobals s.globals, qdisc := { s.qdisc with qdisc := kernel.noopQdisc } }
  (out.1, { out.2 with globals := { out.2.globals with
    tsk_prob := some worker
    tsk_stop_prob := some stopper } })

/-- `rbfgrad_destroy`. The calls that would stop the threads are commented out in the
source; the child is freed and the record is not touched. -/
def rbfgradDestroy (s : State K Child) : State K Child :=
  { s with globals := { s.globals with
    array_element_rbfgrad := 0
    fpu := s.globals.fpu - 1 } }

end Configuration

/-- The operations on a live qdisc; `worker` is one turn of `rbfgrad_thread_func`. -/
inductive Op (K Child : Type) where
  | enqueue (netRandom : BitVec 32) (skb : SkBuff)
  | dequeue
  | drop
  | reset
  | change (opt : Options K) (fifoError : Option Errno) (random32 : ℕ → BitVec 32)
  | graft (new : Option Child)
  | dump (room : Bool)
  | dumpStats
  | worker (random32 : ℕ → BitVec 32)
  | destroy

variable [Field K] [LinearOrder K] [FloorRing K]

def step (kernel : Kernel Child) (exp : K → K) (s : State K Child) : Op K Child → State K Child
  | .enqueue netRandom skb => (rbfgradEnqueue kernel netRandom skb s).2
  | .dequeue => { s with qdisc := (rbfgradDequeue kernel s.qdisc).2 }
  | .drop => { s with qdisc := (rbfgradDrop kernel s.qdisc).2 }
  | .reset => rbfgradReset kernel s
  | .change opt fifoError random32 => (rbfgradChange kernel opt fifoError random32 s).2
  | .graft new => { s with qdisc := (rbfgradGraft kernel new s.qdisc).2 }
  | .dump room => { s with qdisc := (rbfgradDump kernel room s.qdisc).2 }
  | .dumpStats => s
  | .worker random32 =>
      { globals := { s.globals with prob_number := s.globals.prob_number + 1 }
        qdisc := { s.qdisc with
          parms := rbfgradMarkProbability exp random32 s.qdisc.parms } }
  | .destroy => rbfgradDestroy s

end GapsoRbfPid
