import GapsoRbfPid.Deployment
import GapsoRbfPid.Library.SeqFile

/-! The export of the log by `queuedata/seqfile_queuedata_rbfgrad.c`. The iterator keeps its
place in two static counters and answers `l_start` only at position 0, so what the reader
sees depends on where its buffer ends. -/

namespace GapsoRbfPid.LogExport
open GapsoRbfPid Library

variable {K : Type}

/-- The two static counters; the first is the module parameter. -/
structure Cursor where
  queue_array_count : ℤ
  count : ℕ
  deriving DecidableEq, Repr

/-- `l_start`: whether it prints the heading, the slot it starts at, and the counters. -/
def lStart (g : Globals K) (cursor : Cursor) (index : ℕ) : Bool × Option ℕ × Cursor :=
  if index = 0 then
    let heading := decide (cursor.queue_array_count = 0)
    if cursor.queue_array_count < g.array_element_rbfgrad then
      -- the source advances the pointer once for each count, none when it is negative
      (heading, some cursor.queue_array_count.toNat, { cursor with count := 1 })
    else (heading, none, cursor)
  else (false, none, cursor)

/-- `l_next`: the counters move before the test, and at position 0 there is no test. -/
def lNext (g : Globals K) (cursor : Cursor) (l : ℕ) (pos : ℕ) : Option (ℕ × ℕ) × Cursor :=
  let cursor : Cursor := ⟨cursor.queue_array_count + 1, cursor.count + 1⟩
  if pos ≠ 0 ∧ (g.array_element_rbfgrad ≤ cursor.queue_array_count ∨ cursor.count > 40) then
    (none, cursor)
  else (some (l + 1, pos + 1), cursor)

/-- `l_show` prints the members of a slot. -/
def lShow (g : Globals K) (l : ℕ) : QueueShow K := g.queue_show_base_rbfgrad l

def queuedataSeqOp (g : Globals K) : SeqFile.Iterator Cursor ℕ where
  start cursor pos := (lStart g cursor pos).2
  next := lNext g

/-- The records that reach the reader of a freshly loaded module, over all its sessions. -/
def exported (g : Globals K) (queue_array_count : ℤ) (cuts : List SeqFile.Cut) :
    Option (List (QueueShow K)) :=
  (SeqFile.readAll (queuedataSeqOp g) cuts ⟨queue_array_count, 1⟩ 0).map (List.map (lShow g))

/-- How many slots one traversal shows; the missing test at position 0 makes it at least two. -/
def batch (array_element : ℕ) (queue_array_count : ℤ) : ℕ :=
  if array_element ≤ queue_array_count then 0
  else max 2 (min 40 (array_element - queue_array_count).toNat)

/-- After `shown` slots the iterator goes on exactly while the batch is longer than that. -/
theorem lNext_eq (g : Globals K) {start : ℤ} (pending : start < g.array_element_rbfgrad)
    (l shown : ℕ) :
    lNext g ⟨start + shown, shown + 1⟩ l shown =
      (if batch g.array_element_rbfgrad start ≤ shown + 1 then none else some (l + 1, shown + 1),
        ⟨start + (shown + 1 : ℕ), shown + 1 + 1⟩) := by
  have size : batch g.array_element_rbfgrad start =
      max 2 (min 40 (g.array_element_rbfgrad - start).toNat) := if_neg (by omega)
  have test : (shown ≠ 0 ∧ ((g.array_element_rbfgrad : ℤ) ≤ start + shown + 1 ∨
      shown + 1 + 1 > 40)) ↔ batch g.array_element_rbfgrad start ≤ shown + 1 := by
    rw [size]
    omega
  simp only [lNext, test, Nat.cast_add, Nat.cast_one, ← add_assoc]
  split <;> rfl

/-- A traversal that has `shown` slots behind it shows the slots up to the end of the batch,
unless the buffer ends it first. -/
theorem traverse_slots (g : Globals K) {start : ℤ} (pending : start < g.array_element_rbfgrad)
    (more l shown : ℕ) (inside : shown < batch g.array_element_rbfgrad start) :
    let out := SeqFile.traverse (queuedataSeqOp g) more ⟨start + shown, shown + 1⟩ l shown
    out.1 = List.range' l (min (more + 1) (batch g.array_element_rbfgrad start - shown)) ∧
      out.2.1 = decide (batch g.array_element_rbfgrad start - shown ≤ more) := by
  induction more generalizing l shown with
  | zero =>
    have one : min (0 + 1) (batch g.array_element_rbfgrad start - shown) = 1 := by omega
    have running : ¬batch g.array_element_rbfgrad start - shown ≤ 0 := by omega
    rw [one, decide_eq_false running]
    exact ⟨rfl, rfl⟩
  | succ more ih =>
    have next := lNext_eq g pending l shown
    by_cases last : batch g.array_element_rbfgrad start ≤ shown + 1
    · rw [if_pos last] at next
      have one : min (more + 1 + 1) (batch g.array_element_rbfgrad start - shown) = 1 := by omega
      have ended : batch g.array_element_rbfgrad start - shown ≤ more + 1 := by omega
      simp only [SeqFile.traverse, queuedataSeqOp, next, one, decide_eq_true ended]
      exact ⟨rfl, trivial⟩
    · rw [if_neg last] at next
      have rest := ih (l + 1) (shown + 1) (by omega)
      have size : min (more + 1 + 1) (batch g.array_element_rbfgrad start - shown) =
          min (more + 1) (batch g.array_element_rbfgrad start - (shown + 1)) + 1 := by omega
      have ended : batch g.array_element_rbfgrad start - shown ≤ more + 1 ↔
          batch g.array_element_rbfgrad start - (shown + 1) ≤ more := by omega
      simp only [SeqFile.traverse, queuedataSeqOp, next, size, ended, List.range'_succ]
      exact ⟨congrArg (l :: ·) rest.1, rest.2⟩

/-- A session at position 0 delivers the batch as far as its buffer reaches. -/
theorem session_slots (g : Globals K) {start : ℤ} (pending : start < g.array_element_rbfgrad)
    (cut : SeqFile.Cut) (l : ℕ) :
    (SeqFile.session (queuedataSeqOp g) cut ⟨start, 1⟩ l 0).1 =
      List.range' l (min cut.capacity (batch g.array_element_rbfgrad start)) := by
  have inside : 0 < batch g.array_element_rbfgrad start := by
    rw [batch, if_neg (by omega)]
    omega
  obtain ⟨slots, ended⟩ := traverse_slots g pending cut.more l 0 inside
  simp only [Nat.cast_zero, add_zero, zero_add, Nat.sub_zero] at slots ended
  obtain ⟨more, discard⟩ := cut
  simp only [SeqFile.session, slots, ended]
  cases discard with
  | false => rfl
  | true =>
    change _ = List.range' l (min more _)
    by_cases whole : batch g.array_element_rbfgrad start ≤ more
    · rw [min_eq_right whole, min_eq_right (by omega), decide_eq_true whole]
      rfl
    · rw [min_eq_left (by omega), min_eq_left (by omega), decide_eq_false whole,
        List.range'_1_concat]
      exact List.dropLast_concat

/-- What all the sessions together deliver, in terms of where the first one that delivers a
record was cut. -/
theorem exported_eq (g : Globals K) (start : ℤ) (cuts : List SeqFile.Cut) :
    exported g start cuts =
      if g.array_element_rbfgrad ≤ start then some []
      else (cuts.find? fun cut => 0 < cut.capacity).map fun cut =>
        (List.range' start.toNat (min cut.capacity (batch g.array_element_rbfgrad start))).map
          (lShow g) := by
  have unresumable : ∀ (cursor : Cursor) position, position ≠ 0 →
      ((queuedataSeqOp g).start cursor position).1 = none := by
    intro cursor position elsewhere
    simp only [queuedataSeqOp, lStart, if_neg elsewhere]
  unfold exported
  by_cases past : g.array_element_rbfgrad ≤ start
  · have stopped : ((queuedataSeqOp g).start ⟨start, 1⟩ 0).1 = none := by
      simp only [queuedataSeqOp, lStart, if_true, if_neg (not_lt.mpr past)]
    rw [if_pos past, SeqFile.readAll_of_stopped _ cuts stopped]
    rfl
  · have pending : start < g.array_element_rbfgrad := not_le.mp past
    have restarts : (queuedataSeqOp g).start ⟨start, 1⟩ 0 = (some start.toNat, ⟨start, 1⟩) := by
      simp only [queuedataSeqOp, lStart, if_true, if_pos pending]
    rw [if_neg past, SeqFile.readAll_of_unresumable _ unresumable restarts, Option.map_map]
    congr 1
    funext cut
    exact congrArg (List.map (lShow g)) (session_slots g pending cut start.toNat)

/-- The whole batch reaches the reader exactly when the first session that delivers a record
delivers all of it. -/
theorem exported_unsplit_iff (g : Globals K) (start : ℤ) (cuts : List SeqFile.Cut)
    (complete : (exported g start cuts).isSome) (room : ℕ) (enough : 40 ≤ room) :
    exported g start [⟨room, false⟩] =
      some ((List.range' start.toNat (batch g.array_element_rbfgrad start)).map (lShow g)) ∧
    (exported g start cuts = exported g start [⟨room, false⟩] ↔
      g.array_element_rbfgrad ≤ start ∨
      ∀ cut, (cuts.find? fun cut => 0 < cut.capacity) = some cut →
        batch g.array_element_rbfgrad start ≤ cut.capacity) := by
  have bounded : batch g.array_element_rbfgrad start ≤ 40 := by
    unfold batch
    split <;> omega
  by_cases past : g.array_element_rbfgrad ≤ start
  · have empty : batch g.array_element_rbfgrad start = 0 := if_pos past
    have nothing : ∀ cuts, exported g start cuts = some [] := by
      intro cuts
      rw [exported_eq, if_pos past]
    rw [nothing, nothing, empty]
    exact ⟨rfl, fun _ => .inl past, fun _ => rfl⟩
  · have unsplit : exported g start [⟨room, false⟩] =
        some ((List.range' start.toNat (batch g.array_element_rbfgrad start)).map (lShow g)) := by
      have fits : min (room + 1) (batch g.array_element_rbfgrad start) =
          batch g.array_element_rbfgrad start := by omega
      simp [exported_eq, past, SeqFile.Cut.capacity, fits]
    refine ⟨unsplit, ?_⟩
    rw [unsplit]
    rw [exported_eq, if_neg past] at complete ⊢
    cases found : cuts.find? fun cut => 0 < cut.capacity with
    | none =>
      rw [found] at complete
      exact absurd complete (by simp)
    | some cut =>
      simp only [Option.map_some, Option.some.injEq, past, false_or, forall_eq']
      constructor
      · intro same
        have lengths := congrArg List.length same
        simp only [List.length_map, List.length_range'] at lengths
        omega
      · intro whole
        rw [min_eq_right whole]

def fortyRecords : Globals ℚ :=
  { Deployment.loaded with
    array_element_rbfgrad := 40
    queue_show_base_rbfgrad := fun i => ⟨i, 0, .dontMark, 0, 0, 0, 0, 0, 0, 0, 0, 0⟩ }

theorem exported_unsplit_iff_deployed :
    exported fortyRecords 0 [⟨0, true⟩, ⟨39, false⟩] = exported fortyRecords 0 [⟨63, false⟩] :=
  (exported_unsplit_iff fortyRecords 0 [⟨0, true⟩, ⟨39, false⟩] (by decide) 63 (by decide)).2.mpr
    (.inr (by decide))

/-- The page of the captured log: record 37 no longer fits, and records 37 to 39 are lost. -/
theorem exported_loses_records :
    (exported fortyRecords 0 [⟨37, true⟩]).map (List.map QueueShow.numbers) =
      some (List.range 37) ∧
    (exported fortyRecords 0 [⟨63, false⟩]).map (List.map QueueShow.numbers) =
      some (List.range 40) ∧
    exported fortyRecords 0 [⟨37, true⟩] ≠ exported fortyRecords 0 [⟨63, false⟩] := by
  have cut : (exported fortyRecords 0 [⟨37, true⟩]).map (List.map QueueShow.numbers) =
      some (List.range 37) := by decide +kernel
  have whole : (exported fortyRecords 0 [⟨63, false⟩]).map (List.map QueueShow.numbers) =
      some (List.range 40) := by decide +kernel
  refine ⟨cut, whole, ?_⟩
  intro same
  rw [same, whole] at cut
  exact absurd cut (by decide +kernel)

/-- One traversal: `l_start` at position 0, then `l_next`, at most `calls` times, until it
returns no slot. The slots visited, and whether it has. -/
def visited (g : Globals K) (calls : ℕ) (cursor : Cursor) : List ℕ × Bool :=
  match (queuedataSeqOp g).start cursor 0 with
  | (none, _) => ([], true)
  | (some l, cursor) =>
      let shown := SeqFile.traverse (queuedataSeqOp g) calls cursor l 0
      (shown.1, shown.2.1)

/-- A traversal ends within 40 calls of `l_next`, after its batch. -/
theorem visited_eq (g : Globals K) (start count : ℕ) {calls : ℕ} (enough : 40 ≤ calls) :
    visited g calls ⟨start, count⟩ =
      (List.range' start (batch g.array_element_rbfgrad start), true) := by
  unfold visited
  by_cases past : (g.array_element_rbfgrad : ℤ) ≤ start
  · have stopped : (queuedataSeqOp g).start ⟨start, count⟩ 0 = (none, ⟨start, count⟩) := by
      simp only [queuedataSeqOp, lStart, if_true, if_neg (not_lt.mpr past)]
    have empty : batch g.array_element_rbfgrad start = 0 := if_pos past
    rw [stopped, empty]
    rfl
  · have pending : (start : ℤ) < g.array_element_rbfgrad := not_le.mp past
    have starts : (queuedataSeqOp g).start ⟨start, count⟩ 0 = (some start, ⟨start, 1⟩) := by
      simp only [queuedataSeqOp, lStart, if_true, if_pos pending, Int.toNat_natCast]
    have size : batch g.array_element_rbfgrad start =
        max 2 (min 40 ((g.array_element_rbfgrad : ℤ) - start).toNat) := if_neg past
    have inside : 0 < batch g.array_element_rbfgrad start := by omega
    have bounded : batch g.array_element_rbfgrad start ≤ calls := by omega
    obtain ⟨slots, ended⟩ := traverse_slots g pending calls start 0 inside
    simp only [Nat.cast_zero, add_zero, zero_add, Nat.sub_zero] at slots ended
    rw [starts]
    simp only [slots, ended, min_eq_right (Nat.le_succ_of_le bounded), decide_eq_true bounded]

/-- The traversal visits the recorded slots of its batch, and no other, exactly when it does not
start at the last recorded slot. -/
theorem visited_recorded_iff (g : Globals K) (start count : ℕ) {calls : ℕ} (enough : 40 ≤ calls) :
    (visited g calls ⟨start, count⟩).2 = true ∧
    (((visited g calls ⟨start, count⟩).1 =
        List.range' start (min (start + 40) g.array_element_rbfgrad - start) ∧
      ∀ l ∈ (visited g calls ⟨start, count⟩).1, l < g.array_element_rbfgrad) ↔
      g.array_element_rbfgrad ≠ start + 1) := by
  rw [visited_eq g start count enough]
  refine ⟨rfl, ?_⟩
  unfold batch
  by_cases past : (g.array_element_rbfgrad : ℤ) ≤ start
  · have none : min (start + 40) g.array_element_rbfgrad - start = 0 := by omega
    rw [if_pos past, none]
    constructor
    · intro _
      omega
    · intro _
      exact ⟨rfl, fun l member => absurd member List.not_mem_nil⟩
  · rw [if_neg past]
    constructor
    · rintro ⟨-, recorded⟩
      -- the slot after the first one is visited without a test
      have second : start + 1 ∈ List.range' start
          (max 2 (min 40 ((g.array_element_rbfgrad : ℤ) - start).toNat)) := by
        rw [List.mem_range'_1]
        omega
      have inside := recorded (start + 1) second
      omega
    · intro several
      have size : max 2 (min 40 ((g.array_element_rbfgrad : ℤ) - start).toNat) =
          min (start + 40) g.array_element_rbfgrad - start := by omega
      rw [size]
      refine ⟨rfl, ?_⟩
      intro l member
      rw [List.mem_range'_1] at member
      omega

theorem visited_recorded_iff_forty :
    (visited fortyRecords 63 ⟨0, 1⟩).1 = List.range' 0 40 :=
  ((visited_recorded_iff fortyRecords 0 1 (by decide)).2.mpr (by decide)).1

/-- The second batch of 41 records starts at the last one, and shows the stale slot behind it. -/
theorem visited_stale :
    let g : Globals ℚ := { fortyRecords with array_element_rbfgrad := 41 }
    visited g 63 ⟨40, 1⟩ = ([40, 41], true) ∧
      (visited g 63 ⟨40, 1⟩).1 ≠ List.range' 40 (min (40 + 40) 41 - 40) := by
  decide +kernel

end GapsoRbfPid.LogExport
