import GapsoRbfPid.Library.ByteQueue
import GapsoRbfPid.Library.Transition

/-! The byte queue of `tracepoint-probe-rbfgrad.c`: the probe puts whole structures, the
iterator of the proc file gets them. Neither looks at how many bytes were moved. -/

namespace GapsoRbfPid.TraceQueue
open GapsoRbfPid Library Library.Transition

abbrev BUF_SIZE : ℕ := 128 * 1024
abbrev MAX_TO_GET : ℕ := 10000
/-- `sizeof(struct tc_rbfgrad_qopt)`. -/
abbrev RECORD : ℕ := 120

/-- The bytes of a `struct tc_rbfgrad_qopt`. -/
abbrev Record := { bytes : List UInt8 // bytes.length = RECORD }

def ctlInit : Record := ⟨List.replicate RECORD 0, List.length_replicate⟩

/-- Bytes copied over the start of a record. -/
def overlay (ctl_temp : Record) (copied : List UInt8) : Record :=
  ⟨(copied ++ ctl_temp.1.drop copied.length).take RECORD, by
    have size := ctl_temp.2
    rw [List.length_take, List.length_append, List.length_drop]
    omega⟩

def probeRbfgradOutput (fifo : List UInt8) (ctl : Record) : List UInt8 :=
  ByteQueue.put BUF_SIZE fifo ctl.1

/-- `rbfgrad_next`, which is given the position it advances. -/
def rbfgradNext (fifo : List UInt8) (pos : ℕ) : Option Record × List UInt8 :=
  if MAX_TO_GET ≤ pos + 1 then (none, fifo)
  else
    let out := ByteQueue.get RECORD fifo
    if out.1.length = 0 then (none, out.2)
    else (some (overlay ctlInit out.1), out.2)

inductive Event where
  | put (ctl : Record)
  | next (pos : ℕ)

/-- The queue, with the records put into it and those returned so far. -/
structure Trace where
  fifo : List UInt8
  puts : List Record
  returned : List Record

def step (trace : Trace) : Event → Trace
  | .put ctl =>
      { trace with
        fifo := probeRbfgradOutput trace.fifo ctl
        puts := trace.puts ++ [ctl] }
  | .next pos =>
      { trace with
        fifo := (rbfgradNext trace.fifo pos).2
        returned := trace.returned ++ (rbfgradNext trace.fifo pos).1.toList }

/-- After `kfifo_alloc`. -/
def empty : Trace := ⟨[], [], []⟩

/-- A put finds room for a whole record. -/
def HasRoom (trace : Trace) : Event → Prop
  | .put _ => trace.fifo.length + RECORD ≤ BUF_SIZE
  | .next _ => True

/-- What has been put is what has been returned, followed by the records in the queue. -/
def Framed (trace : Trace) : Prop :=
  trace.fifo.length ≤ BUF_SIZE ∧ ∃ pending : List Record, trace.puts = trace.returned ++ pending ∧
    ByteQueue.Holds RECORD (pending.map Subtype.val) trace.fifo

theorem overlay_whole (ctl_temp ctl : Record) : overlay ctl_temp ctl.1 = ctl := by
  have left : ctl_temp.1.drop ctl.1.length = [] := by
    apply List.drop_eq_nil_of_le
    exact Nat.le_of_eq (ctl_temp.2.trans ctl.2.symm)
  apply Subtype.ext
  change (ctl.1 ++ ctl_temp.1.drop ctl.1.length).take RECORD = ctl.1
  rw [left, List.append_nil, List.take_of_length_le (Nat.le_of_eq ctl.2)]

theorem next_record (ctl : Record) (rest : List UInt8) {pos : ℕ} (more : ¬MAX_TO_GET ≤ pos + 1) :
    rbfgradNext (ctl.1 ++ rest) pos = (some ctl, rest) := by
  have size : ctl.1.length ≠ 0 := by
    rw [ctl.2]
    decide
  rw [rbfgradNext, if_neg more, ByteQueue.get_frame ctl.2]
  dsimp only
  rw [if_neg size, overlay_whole]

theorem step_framed (trace : Trace) (event : Event) (framed : Framed trace)
    (room : HasRoom trace event) : Framed (step trace event) := by
  obtain ⟨bounded, pending, whole, holds⟩ := framed
  cases event with
  | put ctl =>
    have queue : (step trace (.put ctl)).fifo = trace.fifo ++ ctl.1 :=
      ByteQueue.put_of_room (by rw [ctl.2]; exact room)
    refine ⟨?_, pending ++ [ctl], ?_, ?_⟩
    · rw [queue, List.length_append, ctl.2]
      exact room
    · change trace.puts ++ [ctl] = trace.returned ++ (pending ++ [ctl])
      rw [whole, List.append_assoc]
    · rw [List.map_append]
      exact holds.put ctl.2 room
  | next pos =>
    by_cases enough : MAX_TO_GET ≤ pos + 1
    · have idle : step trace (.next pos) = trace := by
        simp only [step, rbfgradNext, if_pos enough, Option.toList_none, List.append_nil]
      rw [idle]
      exact ⟨bounded, pending, whole, holds⟩
    · cases pending with
      | nil =>
        have drained : trace.fifo = [] := holds.1
        have idle : step trace (.next pos) = trace := by
          simp only [step, rbfgradNext, if_neg enough, drained, ByteQueue.get, List.take_nil,
            List.length_nil, if_true, List.drop_nil, Option.toList_none, List.append_nil]
          rw [← drained]
        rw [idle]
        exact ⟨bounded, [], whole, holds⟩
      | cons ctl pending =>
        have queue : trace.fifo = ctl.1 ++ (pending.map Subtype.val).flatten := holds.1
        have answer := next_record ctl (pending.map Subtype.val).flatten enough
        rw [← queue] at answer
        refine ⟨?_, pending, ?_, ?_⟩
        · rw [queue, List.length_append] at bounded
          simp only [step, answer]
          omega
        · simp only [step, answer, whole, Option.toList_some, List.append_assoc,
            List.singleton_append]
        · simp only [step, answer]
          exact ⟨rfl, fun frame member => holds.2 frame (List.mem_cons_of_mem _ member)⟩

/-- A put without room tears its record: the queue ends up full, and the record size does not
divide its capacity. -/
theorem put_torn (trace : Trace) (ctl : Record) (framed : Framed trace)
    (full : ¬HasRoom trace (.put ctl)) : ¬Framed (step trace (.put ctl)) := by
  rintro ⟨_, later, _, torn⟩
  have size := ctl.2
  have length : (step trace (.put ctl)).fifo.length = BUF_SIZE := by
    apply ByteQueue.put_length_of_full framed.1
    rw [size]
    exact Nat.lt_of_not_le full
  have whole := torn.length
  rw [length] at whole
  simp only [BUF_SIZE, RECORD] at whole
  omega

theorem step_framed_iff (trace : Trace) (event : Event) (framed : Framed trace) :
    Framed (step trace event) ↔ HasRoom trace event := by
  constructor
  · intro kept
    cases event with
    | put ctl => exact Classical.byContradiction fun full => put_torn trace ctl framed full kept
    | next pos => exact trivial
  · exact step_framed trace event framed

/-- The records keep their boundaries, and come out in the order they were put, exactly in the
runs in which every put finds room for a whole record. -/
theorem framed_always_iff (events : List Event) :
    Always step (fun trace => Framed trace ∧ trace.returned.Sublist trace.puts) empty events ↔
      Along step HasRoom empty events := by
  have ordered : ∀ trace, Framed trace → trace.returned.Sublist trace.puts := by
    rintro trace ⟨_, pending, whole, _⟩
    rw [whole]
    exact List.sublist_append_left trace.returned pending
  have every : Along step (fun _ _ => True) empty events :=
    (along_iff_forall empty events).mpr fun _ _ => trivial
  refine always_iff_along ?_ ?_ events every
  · intro trace event framed _
    have exact_step := step_framed_iff trace event framed.1
    exact ⟨fun kept => exact_step.mp kept.1,
      fun room => ⟨exact_step.mpr room, ordered _ (exact_step.mpr room)⟩⟩
  · exact ⟨⟨Nat.zero_le _, [], rfl, rfl, by simp⟩, List.Sublist.refl _⟩

/-- The queue takes 1092 records as they are. -/
theorem run_puts (ctl : Record) (n : ℕ) (few : n ≤ 1092) :
    run step empty (List.replicate n (.put ctl)) =
      ⟨(List.replicate n ctl.1).flatten, List.replicate n ctl, []⟩ := by
  induction n with
  | zero => rfl
  | succ n ih =>
    have room : (List.replicate n ctl.1).flatten.length + ctl.1.length ≤ BUF_SIZE := by
      have holds : ByteQueue.Holds RECORD (List.replicate n ctl.1) (List.replicate n ctl.1).flatten :=
        ⟨rfl, fun frame member => by rw [List.eq_of_mem_replicate member, ctl.2]⟩
      rw [holds.length, ctl.2, List.length_replicate]
      simp only [RECORD, BUF_SIZE]
      omega
    rw [List.replicate_succ', run_append, ih (by omega), run_cons, run_nil]
    simp only [step, probeRbfgradOutput, ByteQueue.put_of_room room, List.replicate_succ',
      List.flatten_append, List.flatten_singleton]

/-- Whole records at the head of the queue are returned one by one. -/
theorem run_nexts (records : List Record) (tail : List UInt8) (puts returned : List Record)
    (positions : List ℕ) (turns : positions.length = records.length)
    (more : ∀ pos ∈ positions, ¬MAX_TO_GET ≤ pos + 1) :
    run step ⟨(records.map Subtype.val).flatten ++ tail, puts, returned⟩ (positions.map .next) =
      ⟨tail, puts, returned ++ records⟩ := by
  induction records generalizing returned positions with
  | nil =>
    rw [List.length_eq_zero_iff.mp turns, List.append_nil]
    rfl
  | cons ctl records ih =>
    cases positions with
    | nil => exact absurd turns (by simp)
    | cons pos positions =>
      have answer := next_record ctl ((records.map Subtype.val).flatten ++ tail)
        (more pos List.mem_cons_self)
      have later := ih (returned ++ [ctl]) positions (Nat.succ.inj turns)
        fun pos member => more pos (List.mem_cons_of_mem _ member)
      rw [List.append_assoc, List.singleton_append] at later
      rw [List.map_cons, List.map_cons, List.flatten_cons, List.append_assoc, run_cons, ← later]
      simp only [step, answer, Option.toList_some]

def ones : Record := ⟨List.replicate RECORD 1, List.length_replicate⟩

/-- One record more than `n`, and then as many gets. -/
def overfill (n : ℕ) : List Event :=
  List.replicate n (.put ones) ++ [.put ones] ++ (List.range n).map .next ++ [.next n]

def torn : Record := overlay ctlInit (ones.1.take 32)

theorem run_overfill (n : ℕ) (full : n = 1092) :
    run step empty (overfill n) =
      ⟨[], List.replicate (n + 1) ones, List.replicate n ones ++ [torn]⟩ := by
  have holds : ByteQueue.Holds RECORD (List.replicate n ones.1) (List.replicate n ones.1).flatten :=
    ⟨rfl, fun frame member => by rw [List.eq_of_mem_replicate member, ones.2]⟩
  have free : BUF_SIZE - (List.replicate n ones.1).flatten.length = 32 := by
    rw [holds.length, List.length_replicate, full]
    rfl
  have cut : run step ⟨(List.replicate n ones.1).flatten, List.replicate n ones, []⟩ [.put ones] =
      ⟨((List.replicate n ones).map Subtype.val).flatten ++ ones.1.take 32,
        List.replicate (n + 1) ones, []⟩ := by
    simp only [run_cons, run_nil, step, probeRbfgradOutput, ByteQueue.put, free, List.map_replicate]
    rw [List.replicate_succ' (n := n)]
  have more : ∀ pos, pos ≤ n → ¬MAX_TO_GET ≤ pos + 1 := by
    intro pos small
    simp only [MAX_TO_GET]
    omega
  have whole := run_nexts (List.replicate n ones) (ones.1.take 32) (List.replicate (n + 1) ones) []
    (List.range n) (by rw [List.length_range, List.length_replicate])
    fun pos member => more pos (Nat.le_of_lt (List.mem_range.mp member))
  have last : rbfgradNext (ones.1.take 32) n = (some torn, []) := by
    rw [rbfgradNext, if_neg (more n (Nat.le_refl n))]
    decide +kernel
  rw [overfill, run_append, run_append, run_append, run_puts ones n (Nat.le_of_eq full), cut, whole,
    run_cons, run_nil]
  simp only [step, last, List.nil_append, Option.toList_some]

/-- The last record returned is 32 bytes of the record that did not fit, and zeros. -/
theorem torn_record_returned :
    ¬(run step empty (overfill 1092)).returned.Sublist (run step empty (overfill 1092)).puts := by
  rw [run_overfill 1092 rfl]
  intro ordered
  have member : torn ∈ List.replicate (1092 + 1) ones :=
    ordered.subset (List.mem_append_right _ List.mem_cons_self)
  exact absurd (List.eq_of_mem_replicate member) (by decide +kernel)

end GapsoRbfPid.TraceQueue
