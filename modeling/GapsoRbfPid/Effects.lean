import GapsoRbfPid.Scheduler

/-! What each operation can do, stated once: the controller record, the sampling
counter and the outcome of a configuration. Later modules cite these and do not
unfold the operations. -/

namespace GapsoRbfPid
open Library

variable {K Child : Type}

def nextCycle (cyc_count : ℕ) : ℕ := if cyc_count + 1 = CYC_MAX then 0 else cyc_count + 1

theorem nextCycle_eq (enqueues : ℕ) :
    nextCycle (enqueues % CYC_MAX) = (enqueues + 1) % CYC_MAX := by
  unfold nextCycle
  simp only [CYC_MAX]
  split <;> omega

/-- The equality test of the source fires exactly at the multiples of `CYC_MAX`. -/
theorem full_cycle_iff (enqueues : ℕ) :
    enqueues % CYC_MAX + 1 = CYC_MAX ↔ CYC_MAX ∣ enqueues + 1 := by
  simp only [CYC_MAX]
  omega

def sampleParms (cyc_count : ℕ) (q : Qdisc K Child) : RbfgradParms K :=
  if cyc_count + 1 = CYC_MAX then sampled q else q.parms

@[simp] theorem sampleParms_toParams (cyc_count : ℕ) (q : Qdisc K Child) :
    (sampleParms cyc_count q).toParams = q.parms.toParams := by
  unfold sampleParms
  split <;> rfl

@[simp] theorem sampleParms_toControl (cyc_count : ℕ) (q : Qdisc K Child) :
    (sampleParms cyc_count q).toControl = q.parms.toControl := by
  unfold sampleParms
  split <;> rfl

theorem sampleBlock_qdisc (mark_type : Action) (s : State K Child) :
    (sampleBlock mark_type s).qdisc =
      { s.qdisc with parms := sampleParms s.globals.cyc_count s.qdisc } := by
  unfold sampleBlock sampleParms
  dsimp only
  split <;> rfl

theorem sampleBlock_cyc_count (mark_type : Action) (s : State K Child) :
    (sampleBlock mark_type s).globals.cyc_count = nextCycle s.globals.cyc_count := by
  unfold sampleBlock nextCycle
  dsimp only
  split <;> rfl

/-- The tail of the enqueue operation neither reads nor writes the controller. -/
theorem offerChild_withParms (kernel : Kernel Child) (skb : SkBuff) (q : Qdisc K Child)
    (parms : RbfgradParms K) :
    offerChild kernel skb { q with parms := parms } =
      ((offerChild kernel skb q).1, { (offerChild kernel skb q).2 with parms := parms }) := by
  unfold offerChild
  dsimp only
  split
  · rfl
  · split <;> rfl

theorem dispatch_withParms (kernel : Kernel Child) (action : Action) (skb : SkBuff)
    (q : Qdisc K Child) (parms : RbfgradParms K) :
    dispatch kernel action skb { q with parms := parms } =
      ((dispatch kernel action skb q).1, { (dispatch kernel action skb q).2 with parms := parms }) := by
  cases action with
  | dontMark => exact offerChild_withParms kernel skb q parms
  | probMark =>
    have same : ecnMark kernel skb { q with parms := parms, overlimits := q.overlimits + 1 } =
        ecnMark kernel skb { q with overlimits := q.overlimits + 1 } := rfl
    cases mark : ecnMark kernel skb { q with overlimits := q.overlimits + 1 } with
    | none => simp only [dispatch, same, mark, congestionDrop]
    | some marked =>
      simp only [dispatch, same, mark]
      exact offerChild_withParms kernel marked { q with
        overlimits := q.overlimits + 1, stats.prob_mark := q.stats.prob_mark + 1 } parms

section Queue

/-- What later operations read of a qdisc besides the controller record. -/
def queue (q : Qdisc K Child) : BitVec 32 × BitVec 8 × Child := (q.qlen, q.flags, q.qdisc)

theorem queue_members {q q' : Qdisc K Child} (same : queue q' = queue q) :
    q'.qlen = q.qlen ∧ q'.flags = q.flags ∧ q'.qdisc = q.qdisc := by
  simpa only [queue, Prod.mk.injEq] using same

theorem offerChild_queue (kernel : Kernel Child) (skb : SkBuff) (q : Qdisc K Child) :
    queue (offerChild kernel skb q).2 =
      (if (kernel.enqueue skb q.qdisc).1 = .success then q.qlen + 1 else q.qlen, q.flags,
        (kernel.enqueue skb q.qdisc).2) := by
  unfold offerChild
  dsimp only
  split_ifs <;> rfl

theorem dispatch_queue (kernel : Kernel Child) (action : Action) (skb : SkBuff)
    {q q' : Qdisc K Child} (same : queue q' = queue q) :
    queue (dispatch kernel action skb q').2 = queue (dispatch kernel action skb q).2 := by
  obtain ⟨qlen, flags, child⟩ := queue_members same
  cases action with
  | dontMark => simp only [dispatch, offerChild_queue, qlen, flags, child]
  | probMark =>
    have mark : ecnMark kernel skb { q' with overlimits := q'.overlimits + 1 } =
        ecnMark kernel skb { q with overlimits := q.overlimits + 1 } := by
      have use : rbfgradUseEcn { q' with overlimits := q'.overlimits + 1 } =
          rbfgradUseEcn { q with overlimits := q.overlimits + 1 } := by
        simp only [rbfgradUseEcn, flags]
      rw [ecnMark, ecnMark, use]
    simp only [dispatch, mark]
    cases ecnMark kernel skb { q with overlimits := q.overlimits + 1 } with
    | none => exact same
    | some marked => simp only [offerChild_queue, qlen, flags, child]

theorem dequeue_queue (kernel : Kernel Child) {q q' : Qdisc K Child} (same : queue q' = queue q) :
    queue (rbfgradDequeue kernel q').2 = queue (rbfgradDequeue kernel q).2 := by
  obtain ⟨qlen, flags, child⟩ := queue_members same
  simp only [rbfgradDequeue, child]
  cases (kernel.dequeue q.qdisc).1 with
  | none => simp only [queue, qlen, flags]
  | some skb => simp only [queue, subQlen, qlen, flags]

end Queue

section Enqueue
variable [Field K] [LinearOrder K] [FloorRing K]

theorem enqueue_verdict (kernel : Kernel Child) (netRandom : BitVec 32) (skb : SkBuff)
    (s : State K Child) :
    (rbfgradEnqueue kernel netRandom skb s).1 =
      (dispatch kernel (rbfgradAction s.qdisc.parms netRandom) skb s.qdisc).1 := by
  simp only [rbfgradEnqueue, sampleBlock_qdisc]
  rw [dispatch_withParms]

/-- Apart from the sample, an enqueue operation does to the qdisc what its tail does. -/
theorem enqueue_qdisc (kernel : Kernel Child) (netRandom : BitVec 32) (skb : SkBuff)
    (s : State K Child) :
    (rbfgradEnqueue kernel netRandom skb s).2.qdisc =
      { (dispatch kernel (rbfgradAction s.qdisc.parms netRandom) skb s.qdisc).2 with
        parms := sampleParms s.globals.cyc_count s.qdisc } := by
  simp only [rbfgradEnqueue, sampleBlock_qdisc]
  rw [dispatch_withParms]

theorem enqueue_cyc_count (kernel : Kernel Child) (netRandom : BitVec 32) (skb : SkBuff)
    (s : State K Child) :
    (rbfgradEnqueue kernel netRandom skb s).2.globals.cyc_count =
      nextCycle s.globals.cyc_count := by
  simp only [rbfgradEnqueue, sampleBlock_cyc_count]

end Enqueue

/-- The controller record that a set of options leaves behind. -/
def configured [Field K] (ctl : TcRbfgradQopt K) (stab : Stab) (random32 : ℕ → BitVec 32)
    (p : RbfgradParms K) : RbfgradParms K :=
  rbfgradSetParms p ctl.sampl_period ctl.q_ref ctl.p_init ctl.p_min ctl.p_max ctl.kp_k ctl.ki_k
    ctl.kd_k ctl.eta_p ctl.eta_i ctl.eta_d ctl.n ctl.m ctl.alpha ctl.eta ctl.Scell_log stab random32

/-- A configuration request either fails and changes nothing, or installs the options
it carries; with a positive limit the new child was created. -/
theorem change_cases [Field K] (kernel : Kernel Child) (opt : Options K)
    (fifoError : Option Errno) (random32 : ℕ → BitVec 32) (s : State K Child) :
    (∃ err, rbfgradChange kernel opt fifoError random32 s = (.error err, s)) ∨
    (∃ ctl stab, opt = some (.ok ⟨some ctl, some stab⟩) ∧ (0 < ctl.limit → fifoError = none) ∧
      rbfgradChange kernel opt fifoError random32 s =
        (.ok (), install kernel ctl stab random32 s)) := by
  rcases opt with _ | err | ⟨_ | ctl, _ | stab⟩
  · exact .inl ⟨_, rfl⟩
  · exact .inl ⟨_, rfl⟩
  · exact .inl ⟨_, rfl⟩
  · exact .inl ⟨_, rfl⟩
  · exact .inl ⟨_, rfl⟩
  · by_cases positive : 0 < ctl.limit
    · cases fifoError with
      | none => exact .inr ⟨ctl, stab, rfl, fun _ => rfl, by
          simp only [rbfgradChange, if_pos positive]⟩
      | some err => exact .inl ⟨err, by simp only [rbfgradChange, if_pos positive]⟩
    · exact .inr ⟨ctl, stab, rfl, fun above => absurd above positive,
        by simp only [rbfgradChange, if_neg positive]⟩

/-- A complete message whose child can be created is installed whatever its values are. -/
theorem change_accepted [Field K] (kernel : Kernel Child) (ctl : TcRbfgradQopt K) (stab : Stab)
    (random32 : ℕ → BitVec 32) (s : State K Child) :
    rbfgradChange kernel (some (.ok ⟨some ctl, some stab⟩)) none random32 s =
      (.ok (), install kernel ctl stab random32 s) := by
  simp only [rbfgradChange, ite_self]

def exchangesChild (opt : Options K) (fifoError : Option Errno) : Bool :=
  match opt with
  | some (.ok ⟨some ctl, some _⟩) => decide (0 < ctl.limit) && fifoError.isNone
  | _ => false

/-- What a configuration request does to the qdisc besides flags, limit and controller. -/
theorem change_qdisc [Field K] (kernel : Kernel Child) (opt : Options K)
    (fifoError : Option Errno) (random32 : ℕ → BitVec 32) (s : State K Child) :
    ∃ flags limit parms, (rbfgradChange kernel opt fifoError random32 s).2.qdisc =
      { (if exchangesChild opt fifoError then
          replaceChild kernel (kernel.fifoCreateDflt limit) s.qdisc else s.qdisc) with
        flags := flags, limit := limit, parms := parms } := by
  rcases change_cases kernel opt fifoError random32 s with
    ⟨err, failed⟩ | ⟨ctl, stab, rfl, created, installed⟩
  · have kept : exchangesChild opt fifoError = false := by
      rcases opt with _ | err' | ⟨_ | ctl, _ | stab⟩
      · rfl
      · rfl
      · rfl
      · rfl
      · rfl
      · by_contra exchanged
        simp only [exchangesChild, Bool.and_eq_true, decide_eq_true_eq, Option.isNone_iff_eq_none,
          Bool.not_eq_false] at exchanged
        simp only [rbfgradChange, if_pos exchanged.1, exchanged.2, Prod.mk.injEq, reduceCtorEq,
          false_and] at failed
    refine ⟨s.qdisc.flags, s.qdisc.limit, s.qdisc.parms, ?_⟩
    rw [failed, kept]
    rfl
  · refine ⟨ctl.flags.setWidth 8, ctl.limit, configured ctl stab random32 s.qdisc.parms, ?_⟩
    rw [installed]
    by_cases positive : 0 < ctl.limit
    · simp only [install, exchangesChild, positive, created positive, decide_true,
        Option.isNone_none, Bool.and_self, if_true]
      rfl
    · simp only [install, exchangesChild, positive, decide_false, Bool.false_and, if_false,
        Bool.false_eq_true]
      rfl

theorem install_parms [Field K] (kernel : Kernel Child) (ctl : TcRbfgradQopt K) (stab : Stab)
    (random32 : ℕ → BitVec 32) (s : State K Child) :
    (install kernel ctl stab random32 s).qdisc.parms =
      configured ctl stab random32 s.qdisc.parms := by
  unfold install configured
  dsimp only
  split <;> rfl

theorem dequeue_parms (kernel : Kernel Child) (q : Qdisc K Child) :
    (rbfgradDequeue kernel q).2.parms = q.parms := by
  unfold rbfgradDequeue
  dsimp only
  split <;> rfl

theorem drop_parms (kernel : Kernel Child) (q : Qdisc K Child) :
    (rbfgradDrop kernel q).2.parms = q.parms := by
  unfold rbfgradDrop
  dsimp only
  split
  · split <;> rfl
  · rfl

theorem change_cyc_count [Field K] (kernel : Kernel Child) (opt : Options K)
    (fifoError : Option Errno) (random32 : ℕ → BitVec 32) (s : State K Child) :
    (rbfgradChange kernel opt fifoError random32 s).2.globals.cyc_count =
      s.globals.cyc_count := by
  rcases change_cases kernel opt fifoError random32 s with ⟨err, same⟩ | ⟨ctl, stab, _, _, same⟩
  · rw [same]
  · rw [same]
    rfl

section Settings

/-- What a configuration sets in the qdisc itself. -/
def settings (q : Qdisc K Child) : BitVec 8 × BitVec 32 := (q.flags, q.limit)

theorem offerChild_settings (kernel : Kernel Child) (skb : SkBuff) (q : Qdisc K Child) :
    settings (offerChild kernel skb q).2 = settings q := by
  unfold offerChild
  dsimp only
  split_ifs <;> rfl

theorem dispatch_settings (kernel : Kernel Child) (action : Action) (skb : SkBuff)
    (q : Qdisc K Child) : settings (dispatch kernel action skb q).2 = settings q := by
  cases action with
  | dontMark => exact offerChild_settings kernel skb q
  | probMark =>
    simp only [dispatch]
    split
    · rfl
    · exact offerChild_settings kernel _ _

theorem dequeue_settings (kernel : Kernel Child) (q : Qdisc K Child) :
    settings (rbfgradDequeue kernel q).2 = settings q := by
  unfold rbfgradDequeue
  dsimp only
  split <;> rfl

theorem drop_settings (kernel : Kernel Child) (q : Qdisc K Child) :
    settings (rbfgradDrop kernel q).2 = settings q := by
  unfold rbfgradDrop
  dsimp only
  split_ifs <;> rfl

theorem install_settings [Field K] (kernel : Kernel Child) (ctl : TcRbfgradQopt K) (stab : Stab)
    (random32 : ℕ → BitVec 32) (s : State K Child) :
    settings (install kernel ctl stab random32 s).qdisc = (ctl.flags.setWidth 8, ctl.limit) := by
  unfold install
  dsimp only
  split <;> rfl

end Settings

section Step
variable [Field K] [LinearOrder K] [FloorRing K]

/-- The only operations that write the controller record are the enqueue operation,
the worker and a configuration. -/
theorem step_parms (kernel : Kernel Child) (exp : K → K) (s : State K Child) (op : Op K Child) :
    (step kernel exp s op).qdisc.parms =
      match op with
      | .enqueue _ _ => sampleParms s.globals.cyc_count s.qdisc
      | .worker random32 => rbfgradMarkProbability exp random32 s.qdisc.parms
      | .change opt fifoError random32 =>
          (rbfgradChange kernel opt fifoError random32 s).2.qdisc.parms
      | _ => s.qdisc.parms := by
  cases op with
  | enqueue netRandom skb => exact congrArg Qdisc.parms (enqueue_qdisc kernel netRandom skb s)
  | dequeue => exact dequeue_parms kernel s.qdisc
  | drop => exact drop_parms kernel s.qdisc
  | _ => rfl

/-- Only a configuration writes the flags and the limit. -/
theorem step_settings (kernel : Kernel Child) (exp : K → K) (s : State K Child) (op : Op K Child) :
    settings (step kernel exp s op).qdisc =
      match op with
      | .change opt fifoError random32 =>
          settings (rbfgradChange kernel opt fifoError random32 s).2.qdisc
      | _ => settings s.qdisc := by
  cases op with
  | enqueue netRandom skb =>
    simp only [step, enqueue_qdisc]
    exact dispatch_settings kernel _ skb s.qdisc
  | dequeue => exact dequeue_settings kernel s.qdisc
  | drop => exact drop_settings kernel s.qdisc
  | _ => rfl

/-- Only the enqueue operation moves the sampling counter. -/
theorem step_cyc_count (kernel : Kernel Child) (exp : K → K) (s : State K Child)
    (op : Op K Child) :
    (step kernel exp s op).globals.cyc_count =
      match op with
      | .enqueue _ _ => nextCycle s.globals.cyc_count
      | _ => s.globals.cyc_count := by
  cases op with
  | enqueue netRandom skb => exact enqueue_cyc_count kernel netRandom skb s
  | change opt fifoError random32 => exact change_cyc_count kernel opt fifoError random32 s
  | _ => rfl

end Step

end GapsoRbfPid
