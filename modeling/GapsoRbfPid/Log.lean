import GapsoRbfPid.Deployment
import GapsoRbfPid.Effects

/-! The content of the log. A recorder notes what a log record should say at every sample, and
starts over whenever `array_element_rbfgrad` is set to 0; below that counter the slots say
what the notes say, and each slot carries the error history of the one before it. -/

namespace GapsoRbfPid.Log
open GapsoRbfPid Library

variable {K Child : Type}

/-- What was the case when a sample was taken. -/
structure Note (K : Type) where
  qlen : BitVec 32
  decision : Action
  p_k : K
  kp_k : K
  ki_k : K
  kd_k : K

section Recorder
variable [Field K] [LinearOrder K] [FloorRing K]

def note (s : State K Child) (netRandom : BitVec 32) : Note K :=
  ⟨s.qdisc.qlen, rbfgradAction s.qdisc.parms netRandom, s.qdisc.parms.p_k, s.qdisc.parms.kp_k,
    s.qdisc.parms.ki_k, s.qdisc.parms.kd_k⟩

/-- The samples since `array_element_rbfgrad` was last set to 0, oldest first. -/
def record (kernel : Kernel Child) (notes : List (Note K)) (s : State K Child) :
    Op K Child → List (Note K)
  | .enqueue netRandom _ =>
      if s.globals.cyc_count + 1 = CYC_MAX then notes ++ [note s netRandom] else notes
  | .change opt fifoError random32 =>
      match (rbfgradChange kernel opt fifoError random32 s).1 with
      | .ok _ => []
      | .error _ => notes
  | .reset => []
  | .destroy => []
  | _ => notes

end Recorder

/-- A slot says what a note says. -/
structure Describes (i : ℕ) (note : Note K) (slot : QueueShow K) : Prop where
  numbers : slot.numbers = i
  length : slot.length = note.qlen
  mark_type : slot.mark_type = note.decision
  p : slot.p = note.p_k
  kp : slot.kp = note.kp_k
  ki : slot.ki = note.ki_k
  kd : slot.kd = note.kd_k

/-- An error history that continues the one of a slot. -/
structure Follows (q_ref : Int32) (slot : QueueShow K) (e_k e_k_1 e_k_2 : Int32) : Prop where
  e_k : e_k = CInt.subInt slot.length q_ref
  e_k_1 : e_k_1 = slot.e_k
  e_k_2 : e_k_2 = slot.e_k_1

/-- The log, and the controller's error history that the next slot will carry. The last slot of
the array is written over and over and is never counted. -/
structure Faithful (notes : List (Note K)) (s : State K Child) : Prop where
  count : s.globals.array_element_rbfgrad = min notes.length (QUEUE_SHOW_MAX - 1)
  slots : ∀ i note, i < s.globals.array_element_rbfgrad → notes[i]? = some note →
    Describes i note (s.globals.queue_show_base_rbfgrad i)
  errors : ∀ i, i + 1 < s.globals.array_element_rbfgrad →
    Follows s.qdisc.parms.q_ref (s.globals.queue_show_base_rbfgrad i)
      (s.globals.queue_show_base_rbfgrad (i + 1)).e_k
      (s.globals.queue_show_base_rbfgrad (i + 1)).e_k_1
      (s.globals.queue_show_base_rbfgrad (i + 1)).e_k_2
  pending : ∀ i, i + 1 = s.globals.array_element_rbfgrad → i + 1 < QUEUE_SHOW_MAX - 1 →
    Follows s.qdisc.parms.q_ref (s.globals.queue_show_base_rbfgrad i)
      s.qdisc.parms.e_k s.qdisc.parms.e_k_1 s.qdisc.parms.e_k_2

/-- The part of the globals that the log is. -/
def logPart (g : Globals K) : ℕ × (ℕ → QueueShow K) :=
  (g.array_element_rbfgrad, g.queue_show_base_rbfgrad)

theorem Faithful.congr {notes : List (Note K)} {s t : State K Child} (faithful : Faithful notes s)
    (log : logPart t.globals = logPart s.globals)
    (reference : t.qdisc.parms.q_ref = s.qdisc.parms.q_ref)
    (window : t.qdisc.parms.toWindow = s.qdisc.parms.toWindow) : Faithful notes t := by
  obtain ⟨count, base⟩ : t.globals.array_element_rbfgrad = s.globals.array_element_rbfgrad ∧
      t.globals.queue_show_base_rbfgrad = s.globals.queue_show_base_rbfgrad := by
    simpa only [logPart, Prod.mk.injEq] using log
  refine ⟨by rw [count]; exact faithful.count, ?_, ?_, ?_⟩
  · rw [count, base]
    exact faithful.slots
  · rw [count, base, reference]
    exact faithful.errors
  · rw [count, base, reference, window]
    exact faithful.pending

theorem Faithful.unchanged {notes : List (Note K)} {s t : State K Child}
    (faithful : Faithful notes s) (log : logPart t.globals = logPart s.globals)
    (parms : t.qdisc.parms = s.qdisc.parms) : Faithful notes t :=
  faithful.congr log (by rw [parms]) (by rw [parms])

/-- A log that has just been started over describes no sample. -/
theorem faithful_of_empty {s : State K Child} (empty : s.globals.array_element_rbfgrad = 0) :
    Faithful [] s := by
  refine ⟨by rw [empty]; rfl, ?_, ?_, ?_⟩
  · intro i note inside
    rw [empty] at inside
    exact absurd inside (Nat.not_lt_zero i)
  · intro i inside
    rw [empty] at inside
    exact absurd inside (Nat.not_lt_zero _)
  · intro i last
    rw [empty] at last
    exact absurd last (Nat.succ_ne_zero i)

section Runs
variable [Field K] [LinearOrder K] [FloorRing K]

/-- What a completed cycle writes. -/
structure Sampled (netRandom : BitVec 32) (s t : State K Child) : Prop where
  base : t.globals.queue_show_base_rbfgrad =
    Function.update s.globals.queue_show_base_rbfgrad s.globals.array_element_rbfgrad
      (logRecord (rbfgradAction s.qdisc.parms netRandom) s.globals.array_element_rbfgrad s.qdisc)
  count : t.globals.array_element_rbfgrad =
    if s.globals.array_element_rbfgrad < QUEUE_SHOW_MAX - 1 then
      s.globals.array_element_rbfgrad + 1 else s.globals.array_element_rbfgrad
  parms : t.qdisc.parms = sampled s.qdisc

theorem enqueue_sampled (kernel : Kernel Child) (netRandom : BitVec 32) (skb : SkBuff)
    (s : State K Child) (full : s.globals.cyc_count + 1 = CYC_MAX) :
    Sampled netRandom s (rbfgradEnqueue kernel netRandom skb s).2 where
  base := by simp only [rbfgradEnqueue, sampleBlock, if_pos full]
  count := by simp only [rbfgradEnqueue, sampleBlock, if_pos full]
  parms := by
    rw [enqueue_qdisc]
    exact if_pos full

theorem enqueue_unsampled (kernel : Kernel Child) (netRandom : BitVec 32) (skb : SkBuff)
    (s : State K Child) (partway : s.globals.cyc_count + 1 ≠ CYC_MAX) :
    logPart (rbfgradEnqueue kernel netRandom skb s).2.globals = logPart s.globals ∧
      (rbfgradEnqueue kernel netRandom skb s).2.qdisc.parms = s.qdisc.parms := by
  constructor
  · simp only [rbfgradEnqueue, sampleBlock, if_neg partway]
    rfl
  · rw [enqueue_qdisc]
    exact if_neg partway

/-- Slots below the counter are not touched by a sample. -/
theorem Sampled.kept {netRandom : BitVec 32} {s t : State K Child} (sample : Sampled netRandom s t)
    {i : ℕ} (below : i ≠ s.globals.array_element_rbfgrad) :
    t.globals.queue_show_base_rbfgrad i = s.globals.queue_show_base_rbfgrad i := by
  rw [sample.base, Function.update_of_ne below]

theorem Sampled.written {netRandom : BitVec 32} {s t : State K Child}
    (sample : Sampled netRandom s t) :
    t.globals.queue_show_base_rbfgrad s.globals.array_element_rbfgrad =
      logRecord (rbfgradAction s.qdisc.parms netRandom) s.globals.array_element_rbfgrad s.qdisc := by
  rw [sample.base, Function.update_self]

theorem Sampled.q_ref {netRandom : BitVec 32} {s t : State K Child} (sample : Sampled netRandom s t) :
    t.qdisc.parms.q_ref = s.qdisc.parms.q_ref := by
  rw [sample.parms]
  rfl

/-- A sample below the end of the array adds one slot. -/
theorem sampled_appends {notes : List (Note K)} {netRandom : BitVec 32} {s t : State K Child}
    (faithful : Faithful notes s) (sample : Sampled netRandom s t)
    (space : s.globals.array_element_rbfgrad < QUEUE_SHOW_MAX - 1) :
    Faithful (notes ++ [note s netRandom]) t := by
  have count := faithful.count
  have all : notes.length = s.globals.array_element_rbfgrad := by omega
  have next : t.globals.array_element_rbfgrad = s.globals.array_element_rbfgrad + 1 := by
    rw [sample.count, if_pos space]
  refine ⟨?_, ?_, ?_, ?_⟩
  · rw [next, List.length_append, List.length_singleton, all]
    omega
  · intro i noted inside found
    rw [next] at inside
    by_cases newest : i = s.globals.array_element_rbfgrad
    · subst newest
      rw [← all, List.getElem?_concat_length, Option.some.injEq] at found
      rw [sample.written, ← found]
      exact ⟨rfl, rfl, rfl, rfl, rfl, rfl, rfl⟩
    · rw [List.getElem?_append_left (by omega)] at found
      rw [sample.kept newest]
      exact faithful.slots i noted (by omega) found
  · intro i inside
    rw [next] at inside
    rw [sample.q_ref, sample.kept (by omega)]
    by_cases newest : i + 1 = s.globals.array_element_rbfgrad
    · rw [newest, sample.written]
      exact faithful.pending i newest (by omega)
    · rw [sample.kept newest]
      exact faithful.errors i (by omega)
  · intro i last _
    have newest : i = s.globals.array_element_rbfgrad := by omega
    rw [newest, sample.written, sample.parms]
    exact ⟨rfl, rfl, rfl⟩

/-- At the end of the array the counter stands still, and the slot written is not counted. -/
theorem sampled_saturates {notes : List (Note K)} {netRandom : BitVec 32} {s t : State K Child}
    (faithful : Faithful notes s) (sample : Sampled netRandom s t)
    (full : ¬s.globals.array_element_rbfgrad < QUEUE_SHOW_MAX - 1) :
    Faithful (notes ++ [note s netRandom]) t := by
  have count := faithful.count
  have next : t.globals.array_element_rbfgrad = s.globals.array_element_rbfgrad := by
    rw [sample.count, if_neg full]
  refine ⟨?_, ?_, ?_, ?_⟩
  · rw [next, List.length_append, List.length_singleton]
    omega
  · intro i noted inside found
    rw [next] at inside
    rw [List.getElem?_append_left (by omega)] at found
    rw [sample.kept (by omega)]
    exact faithful.slots i noted inside found
  · intro i inside
    rw [next] at inside
    rw [sample.q_ref, sample.kept (by omega), sample.kept (by omega)]
    exact faithful.errors i inside
  · intro i last small
    omega

theorem change_empties (kernel : Kernel Child) (opt : Options K) (fifoError : Option Errno)
    (random32 : ℕ → BitVec 32) (notes : List (Note K)) (s : State K Child)
    (faithful : Faithful notes s) :
    Faithful (record kernel notes s (.change opt fifoError random32))
      (rbfgradChange kernel opt fifoError random32 s).2 := by
  rcases change_cases kernel opt fifoError random32 s with ⟨err, failed⟩ | ⟨ctl, stab, _, _, installed⟩
  · simp only [record, failed]
    exact faithful
  · simp only [record, installed]
    exact faithful_of_empty rfl

theorem step_faithful (kernel : Kernel Child) (exp : K → K) (state : State K Child × List (Note K))
    (op : Op K Child) (faithful : Faithful state.2 state.1) :
    Faithful (Transition.recording (step kernel exp) (record kernel) state op).2
      (Transition.recording (step kernel exp) (record kernel) state op).1 := by
  obtain ⟨s, notes⟩ := state
  change Faithful (record kernel notes s op) (step kernel exp s op)
  cases op with
  | enqueue netRandom skb =>
    by_cases full : s.globals.cyc_count + 1 = CYC_MAX
    · rw [record, if_pos full]
      have sample := enqueue_sampled kernel netRandom skb s full
      by_cases space : s.globals.array_element_rbfgrad < QUEUE_SHOW_MAX - 1
      · exact sampled_appends faithful sample space
      · exact sampled_saturates faithful sample space
    · rw [record, if_neg full]
      obtain ⟨log, parms⟩ := enqueue_unsampled kernel netRandom skb s full
      exact faithful.unchanged log parms
  | change opt fifoError random32 =>
    exact change_empties kernel opt fifoError random32 notes s faithful
  | reset => exact faithful_of_empty rfl
  | destroy => exact faithful_of_empty rfl
  | dequeue => exact faithful.unchanged rfl (dequeue_parms kernel s.qdisc)
  | drop => exact faithful.unchanged rfl (drop_parms kernel s.qdisc)
  | worker random32 =>
    have params := markProbability_toParams exp random32 s.qdisc.parms
    have window := markProbability_toWindow exp random32 s.qdisc.parms
    exact faithful.congr rfl (congrArg Params.q_ref params) window
  | graft new => exact faithful.unchanged rfl rfl
  | dump room => exact faithful.unchanged rfl rfl
  | dumpStats => exact faithful

omit [LinearOrder K] [FloorRing K] in
theorem init_empties (kernel : Kernel Child) (opt : Options K) (fifoError : Option Errno)
    (random32 : ℕ → BitVec 32) (worker stopper : Task) (s : State K Child) :
    (rbfgradInit kernel opt fifoError random32 worker stopper s).2.globals.array_element_rbfgrad = 0 := by
  simp only [rbfgradInit]
  rcases change_cases kernel opt fifoError random32
    ⟨initGlobals s.globals, { s.qdisc with qdisc := kernel.noopQdisc }⟩ with
    ⟨err, failed⟩ | ⟨ctl, stab, _, _, installed⟩
  · rw [failed]
    rfl
  · rw [installed]
    rfl

/-- In every run the counter stays inside the array, each slot below it describes its sample,
and the errors of a slot continue those of the slot before it. -/
theorem log_content (kernel : Kernel Child) (exp : K → K) (g : Globals K) (opt : Options K)
    (fifoError : Option Errno) (random32 : ℕ → BitVec 32) (worker stopper : Task)
    (ops : List (Op K Child)) :
    let start := (rbfgradInit kernel opt fifoError random32 worker stopper ⟨g, .zeroed kernel⟩).2
    let final := Transition.run (Transition.recording (step kernel exp) (record kernel)) (start, []) ops
    let log := final.1.globals.queue_show_base_rbfgrad
    let count := final.1.globals.array_element_rbfgrad
    let q_ref := final.1.qdisc.parms.q_ref
    final.1 = Transition.run (step kernel exp) start ops ∧
    count = min final.2.length (QUEUE_SHOW_MAX - 1) ∧ count < QUEUE_SHOW_MAX ∧
    (∀ i, i < count → ∃ note, final.2[i]? = some note ∧ Describes i note (log i)) ∧
    (∀ i, 1 ≤ i → i < count →
      Follows q_ref (log (i - 1)) (log i).e_k (log i).e_k_1 (log i).e_k_2 ∧
      (-2147483648 ≤ ((log (i - 1)).length.toNat : ℤ) - q_ref.toInt →
        ((log (i - 1)).length.toNat : ℤ) - q_ref.toInt ≤ CInt.intMax →
        (log i).e_k.toInt = (log (i - 1)).length.toNat - q_ref.toInt)) := by
  intro start final log count q_ref
  have faithful : Faithful final.2 final.1 :=
    Transition.run_keeps (fun state op => step_faithful kernel exp state op)
      (faithful_of_empty (init_empties kernel opt fifoError random32 worker stopper ⟨g, .zeroed kernel⟩))
      ops
  have number : count = min final.2.length (QUEUE_SHOW_MAX - 1) := faithful.count
  refine ⟨Transition.run_recording_fst (step kernel exp) (record kernel) (start, []) ops, number,
    ?_, ?_, ?_⟩
  · simp only [QUEUE_SHOW_MAX] at number ⊢
    omega
  · intro i inside
    have noted : i < final.2.length := by omega
    exact ⟨final.2[i], List.getElem?_eq_getElem noted,
      faithful.slots i final.2[i] inside (List.getElem?_eq_getElem noted)⟩
  · intro i positive inside
    obtain ⟨j, rfl⟩ : ∃ j, i = j + 1 := ⟨i - 1, by omega⟩
    have follows := faithful.errors j inside
    refine ⟨follows, ?_⟩
    intro low high
    rw [follows.e_k]
    exact CInt.subInt_eq _ _ low high

end Runs

end GapsoRbfPid.Log
