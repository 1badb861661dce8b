import GapsoRbfPid.Qdisc
import GapsoRbfPid.Library.Stdio
import GapsoRbfPid.Library.Transition

/-! The two trace files under `/proc` and the programs that read them. The modules print one
number on each line, a double as the integer with its bit pattern; the programs count lines
to know which number they have. -/

namespace GapsoRbfPid.TraceText
open GapsoRbfPid Library Library.Stdio Library.Transition

/-- A number as it is printed and as it is recovered, before it is formatted again. -/
inductive Cell where
  | int (value : Int32)
  | double (pattern : BitVec 64)
  deriving DecidableEq, Repr

def Cell.print : Cell → List Char
  | .int value => printInt value.toInt
  | .double pattern => printInt pattern.toInt

/-- A `seq_printf` whose format ends every conversion with a newline. -/
def seqPrintf (cells : List Cell) : List Char := (cells.map fun cell => cell.print ++ ['\n']).flatten

def rbfgradShow (t : TcRbfgradQopt (BitVec 64)) : List Char :=
  seqPrintf [.int t.sampl_period, .int t.q_ref, .double t.p_max, .double t.eta_p, .double t.eta_i,
    .double t.eta_d, .int t.m, .int t.n, .double t.alpha, .double t.eta]

/-- The members of `struct trace_rbfgrad_parms` that are shown, as bit patterns. -/
structure TraceRbfgradParms where
  p_k : BitVec 64
  p_k_1 : BitVec 64
  e_k : BitVec 64
  e_k_1 : BitVec 64
  e_k_2 : BitVec 64
  kp_k : BitVec 64
  kp_k_1 : BitVec 64
  ki_k : BitVec 64
  ki_k_1 : BitVec 64
  kd_k : BitVec 64
  kd_k_1 : BitVec 64
  deriving DecidableEq, Repr

def rbfgradVarsShow (t : TraceRbfgradParms) : List Char :=
  -- the fifth argument is `e_k_1` once more
  seqPrintf [.double t.p_k, .double t.p_k_1, .double t.e_k, .double t.e_k_1, .double t.e_k_1,
    .double t.kp_k, .double t.kp_k_1, .double t.ki_k, .double t.ki_k_1, .double t.kd_k,
    .double t.kd_k_1]

abbrev MAX : ℕ := 10000
/-- The size of the array `s` that `fgets` is told has `MAX` bytes. -/
abbrev BUFFER : ℕ := 20

/-- What a case of the reader's switch does with a line. -/
inductive Conversion where
  | int
  | double
  | lastDouble

structure Reader where
  count_line : ℕ
  count_total : ℕ
  -- the line of the output file that is being written, and those that are finished
  row : List Cell
  rows : List (List Cell)
  -- not in the source: a line with its NUL was longer than the buffer
  overrun : Bool
  deriving DecidableEq

def readLine (switch : ℕ → Option Conversion) (reader : Reader) (s : List Char) : Reader :=
  let reader := { reader with
    count_line := reader.count_line + 1
    count_total := reader.count_total + 1
    overrun := reader.overrun || decide (BUFFER < s.length + 1) }
  match switch reader.count_line with
  | some .int => { reader with row := reader.row ++ [.int (atoi s)] }
  | some .double => { reader with row := reader.row ++ [.double (atoll s)] }
  | some .lastDouble =>
      { reader with
        count_line := 0
        row := []
        rows := reader.rows ++ [reader.row ++ [.double (atoll s)]] }
  | none => reader

/-- The loop of both programs. Every turn takes a character, so the fuel is never used up. -/
def readProc (switch : ℕ → Option Conversion) (text : List Char) : Reader :=
  run (readLine switch) ⟨0, 0, [], [], false⟩ (readLines (MAX - 1) (text.length + 1) text)

def paramsSwitch : ℕ → Option Conversion
  | 1 | 2 | 7 | 8 => some .int
  | 3 | 4 | 5 | 6 | 9 => some .double
  | 10 => some .lastDouble
  | _ => none

def varsSwitch : ℕ → Option Conversion
  | 1 | 2 | 3 | 4 | 5 | 6 | 7 | 8 | 9 | 10 => some .double
  | 11 => some .lastDouble
  | _ => none

def readProcRbfgrad : List Char → Reader := readProc paramsSwitch

def readProcRbfgradVars : List Char → Reader := readProc varsSwitch

def Cell.line (cell : Cell) : List Char := cell.print ++ ['\n']

/-- A bit pattern that prints in 18 characters, which leaves two for the newline and NUL. -/
abbrev FitsBuffer (pattern : BitVec 64) : Prop := -10 ^ 17 < pattern.toInt ∧ pattern.toInt < 10 ^ 18

def Cell.short : Cell → Bool
  | .int _ => true
  | .double pattern => decide (FitsBuffer pattern)

theorem print_length_le (cell : Cell) : cell.print.length ≤ 20 := by
  cases cell with
  | int value =>
    have least := value.le_toInt
    have most := value.toInt_lt
    exact (printInt_length_le_iff _ (by decide)).mpr ⟨by omega, by omega⟩
  | double pattern =>
    have least := pattern.le_toInt
    have most := pattern.toInt_lt
    exact (printInt_length_le_iff _ (by decide)).mpr ⟨by omega, by omega⟩

theorem newline_notMem_print (cell : Cell) : '\n' ∉ cell.print := by
  cases cell <;> exact newline_notMem_printInt _

theorem overrun_line (cell : Cell) : decide (BUFFER < cell.line.length + 1) = !cell.short := by
  have width : BUFFER < cell.line.length + 1 ↔ ¬cell.print.length ≤ 18 := by
    rw [Cell.line, List.length_append]
    change 20 < cell.print.length + 1 + 1 ↔ _
    omega
  have fits : cell.print.length ≤ 18 ↔ cell.short = true := by
    cases cell with
    | int value =>
      have least := value.le_toInt
      have most := value.toInt_lt
      exact ⟨fun _ => rfl,
        fun _ => (printInt_length_le_iff _ (by decide)).mpr ⟨by omega, by omega⟩⟩
    | double pattern =>
      rw [Cell.short, decide_eq_true_iff]
      exact printInt_length_le_iff pattern.toInt (by decide)
  simp only [width, fits, Bool.not_eq_true, Bool.decide_eq_false]

theorem atoi_line (value : Int32) : atoi (Cell.int value).line = value :=
  atoi_printInt value (by decide) []

theorem atoll_line (pattern : BitVec 64) : atoll (Cell.double pattern).line = pattern :=
  atoll_printInt pattern (by decide) []

/-- The lines of the trace come back one by one. -/
theorem readLines_seqPrintf (cells : List Cell) :
    readLines (MAX - 1) ((seqPrintf cells).length + 1) (seqPrintf cells) = cells.map Cell.line := by
  have lines : seqPrintf cells = ((cells.map Cell.print).map (· ++ ['\n'])).flatten := by
    rw [List.map_map]
    rfl
  have enough : (cells.map Cell.print).length ≤ (seqPrintf cells).length := by
    rw [lines]
    generalize cells.map Cell.print = texts
    induction texts with
    | nil => exact Nat.le_refl 0
    | cons text texts ih =>
      simp only [List.map_cons, List.flatten_cons, List.length_append, List.length_cons] at ih ⊢
      omega
  have short : ∀ line ∈ cells.map Cell.print, line.length < MAX - 1 := by
    intro line member
    obtain ⟨cell, _, rfl⟩ := List.mem_map.mp member
    exact Nat.lt_of_le_of_lt (print_length_le cell) (by decide)
  have unbroken : ∀ line ∈ cells.map Cell.print, '\n' ∉ line := by
    intro line member
    obtain ⟨cell, _, rfl⟩ := List.mem_map.mp member
    exact newline_notMem_print cell
  have read := readLines_lines (cells.map Cell.print) short unbroken (Nat.lt_succ_of_le enough)
  rw [← lines, List.map_map] at read
  exact read

/-- From a line count on, the switch has the conversion of each number, and ends the row with
the last one. -/
def Aligned (switch : ℕ → Option Conversion) : ℕ → List Cell → Prop
  | _, [] => False
  | count_line, [.double _] => switch (count_line + 1) = some .lastDouble
  | count_line, .int _ :: cells =>
      switch (count_line + 1) = some .int ∧ Aligned switch (count_line + 1) cells
  | count_line, .double _ :: cells =>
      switch (count_line + 1) = some .double ∧ Aligned switch (count_line + 1) cells

section
variable {switch : ℕ → Option Conversion}

theorem run_aligned (cells : List Cell) (reader : Reader)
    (aligned : Aligned switch reader.count_line cells) :
    run (readLine switch) reader (cells.map Cell.line) =
      ⟨0, reader.count_total + cells.length, [], reader.rows ++ [reader.row ++ cells],
        reader.overrun || cells.any fun cell => !cell.short⟩ := by
  induction cells generalizing reader with
  | nil => exact aligned.elim
  | cons cell cells ih =>
    rw [List.map_cons, run_cons]
    match cell, cells with
    | .double pattern, [] =>
      have last : switch (reader.count_line + 1) = some .lastDouble := aligned
      simp only [readLine, last, overrun_line, atoll_line, List.map_nil, List.any_cons, List.any_nil,
        Bool.or_false, List.length_singleton]
      rfl
    | .int value, cells =>
      have here : switch (reader.count_line + 1) = some .int := by
        cases cells <;> exact aligned.1
      have after : Aligned switch (reader.count_line + 1) cells := by
        cases cells <;> exact aligned.2
      have next : readLine switch reader (Cell.int value).line =
          { reader with
            count_line := reader.count_line + 1
            count_total := reader.count_total + 1
            row := reader.row ++ [.int value]
            overrun := reader.overrun || !(Cell.int value).short } := by
        simp only [readLine, here, overrun_line, atoi_line]
      rw [next, ih _ after]
      simp only [List.length_cons, List.any_cons, Bool.or_assoc, List.append_assoc,
        List.singleton_append, Nat.add_assoc, Nat.add_comm 1]
    | .double pattern, second :: cells =>
      have next : readLine switch reader (Cell.double pattern).line =
          { reader with
            count_line := reader.count_line + 1
            count_total := reader.count_total + 1
            row := reader.row ++ [.double pattern]
            overrun := reader.overrun || !(Cell.double pattern).short } := by
        simp only [readLine, aligned.1, overrun_line, atoll_line]
      rw [next, ih _ aligned.2]
      simp only [List.length_cons, List.any_cons, Bool.or_assoc, List.append_assoc,
        List.singleton_append, Nat.add_assoc, Nat.add_comm 1]

theorem run_records (records : List (List Cell))
    (aligned : ∀ cells ∈ records, Aligned switch 0 cells) (total : ℕ) (rows : List (List Cell))
    (overrun : Bool) :
    run (readLine switch) ⟨0, total, [], rows, overrun⟩ (records.flatten.map Cell.line) =
      ⟨0, total + records.flatten.length, [], rows ++ records,
        overrun || records.flatten.any fun cell => !cell.short⟩ := by
  induction records generalizing total rows overrun with
  | nil => simp [run]
  | cons cells records ih =>
    have first := run_aligned cells ⟨0, total, [], rows, overrun⟩ (aligned cells List.mem_cons_self)
    have later := ih fun cells member => aligned cells (List.mem_cons_of_mem _ member)
    rw [List.flatten_cons, List.map_append, run_append, first, later, List.length_append,
      List.any_append, Nat.add_assoc, Bool.or_assoc, List.append_assoc, List.singleton_append,
      List.nil_append]

/-- A trace of any length is read back record by record; the buffer is overrun exactly when
some number is too long. -/
theorem readProc_records (records : List (List Cell))
    (aligned : ∀ cells ∈ records, Aligned switch 0 cells) :
    readProc switch (records.map seqPrintf).flatten =
      ⟨0, records.flatten.length, [], records, records.flatten.any fun cell => !cell.short⟩ := by
  have whole : (records.map seqPrintf).flatten = seqPrintf records.flatten := by
    simp only [seqPrintf, List.map_flatten, List.flatten_flatten, List.map_map]
    rfl
  have result := run_records records aligned 0 [] false
  rw [Nat.zero_add, List.nil_append, Bool.false_or] at result
  rw [readProc, whole, readLines_seqPrintf, result]

end

/-- The row that belongs to a record of the parameter trace. -/
def paramsRow (t : TcRbfgradQopt (BitVec 64)) : List Cell :=
  [.int t.sampl_period, .int t.q_ref, .double t.p_max, .double t.eta_p, .double t.eta_i,
    .double t.eta_d, .int t.m, .int t.n, .double t.alpha, .double t.eta]

def varsRow (t : TraceRbfgradParms) : List Cell :=
  [.double t.p_k, .double t.p_k_1, .double t.e_k, .double t.e_k_1, .double t.e_k_2,
    .double t.kp_k, .double t.kp_k_1, .double t.ki_k, .double t.ki_k_1, .double t.kd_k,
    .double t.kd_k_1]

theorem params_aligned (t : TcRbfgradQopt (BitVec 64)) : Aligned paramsSwitch 0 (paramsRow t) :=
  ⟨rfl, rfl, rfl, rfl, rfl, rfl, rfl, rfl, rfl, rfl⟩

/-- What `rbfgrad_vars_show` prints: the row with its fifth number replaced by the fourth. -/
def printedVars (t : TraceRbfgradParms) : TraceRbfgradParms := { t with e_k_2 := t.e_k_1 }

theorem vars_aligned (t : TraceRbfgradParms) : Aligned varsSwitch 0 (varsRow t) :=
  ⟨rfl, rfl, rfl, rfl, rfl, rfl, rfl, rfl, rfl, rfl, rfl⟩

theorem varsRow_injective : Function.Injective varsRow := by
  intro first second same
  simp only [varsRow, List.cons.injEq, Cell.double.injEq, and_true] at same
  obtain ⟨h1, h2, h3, h4, h5, h6, h7, h8, h9, h10, h11⟩ := same
  cases first
  cases second
  subst_vars
  rfl

theorem readProcRbfgrad_records (records : List (TcRbfgradQopt (BitVec 64))) :
    readProcRbfgrad (records.map rbfgradShow).flatten =
      ⟨0, (records.map paramsRow).flatten.length, [], records.map paramsRow,
        (records.map paramsRow).flatten.any fun cell => !cell.short⟩ := by
  have aligned : ∀ cells ∈ records.map paramsRow, Aligned paramsSwitch 0 cells := by
    intro cells member
    obtain ⟨t, _, rfl⟩ := List.mem_map.mp member
    exact params_aligned t
  have read := readProc_records (records.map paramsRow) aligned
  rw [List.map_map] at read
  exact read

theorem readProcRbfgradVars_records (records : List TraceRbfgradParms) :
    readProcRbfgradVars (records.map rbfgradVarsShow).flatten =
      ⟨0, (records.map fun t => varsRow (printedVars t)).flatten.length, [],
        records.map fun t => varsRow (printedVars t),
        (records.map fun t => varsRow (printedVars t)).flatten.any fun cell => !cell.short⟩ := by
  have aligned : ∀ cells ∈ records.map fun t => varsRow (printedVars t),
      Aligned varsSwitch 0 cells := by
    intro cells member
    obtain ⟨t, _, rfl⟩ := List.mem_map.mp member
    exact vars_aligned (printedVars t)
  have read := readProc_records (records.map fun t => varsRow (printedVars t)) aligned
  rw [List.map_map] at read
  exact read

theorem no_overrun_iff (rows : List (List Cell)) :
    (rows.flatten.any fun cell => !cell.short) = false ↔
      ∀ row ∈ rows, ∀ cell ∈ row, cell.short = true := by
  simp only [List.any_eq_false, List.mem_flatten, Bool.not_eq_true', Bool.not_eq_false]
  constructor
  · intro all row member cell inside
    exact all cell ⟨row, member, inside⟩
  · intro all cell ⟨row, member, inside⟩
    exact all row member cell inside

theorem paramsRow_short (t : TcRbfgradQopt (BitVec 64)) :
    (∀ cell ∈ paramsRow t, cell.short = true) ↔
      ∀ pattern ∈ [t.p_max, t.eta_p, t.eta_i, t.eta_d, t.alpha, t.eta], FitsBuffer pattern := by
  simp only [paramsRow, List.forall_mem_cons, Cell.short, decide_eq_true_eq, true_and,
    List.not_mem_nil, false_imp_iff, implies_true]

theorem varsRow_short (t : TraceRbfgradParms) :
    (∀ cell ∈ varsRow t, cell.short = true) ↔
      ∀ pattern ∈ [t.p_k, t.p_k_1, t.e_k, t.e_k_1, t.e_k_2, t.kp_k, t.kp_k_1, t.ki_k, t.ki_k_1,
        t.kd_k, t.kd_k_1], FitsBuffer pattern := by
  simp only [varsRow, List.forall_mem_cons, Cell.short, decide_eq_true_eq, List.not_mem_nil,
    false_imp_iff, implies_true]

/-- The parameter trace is read back exactly, and inside the buffer, as long as every double
has a bit pattern of at most 18 characters. Ordinary values such as 0.1 have 19. -/
theorem params_round_trip_iff (records : List (TcRbfgradQopt (BitVec 64))) :
    ((readProcRbfgrad (records.map rbfgradShow).flatten).rows = records.map paramsRow ∧
      (readProcRbfgrad (records.map rbfgradShow).flatten).row = [] ∧
      (readProcRbfgrad (records.map rbfgradShow).flatten).overrun = false) ↔
    ∀ t ∈ records, ∀ pattern ∈ [t.p_max, t.eta_p, t.eta_i, t.eta_d, t.alpha, t.eta],
      FitsBuffer pattern := by
  have read := readProcRbfgrad_records records
  simp only [read, true_and, no_overrun_iff, List.forall_mem_map, paramsRow_short]

def tenth : TcRbfgradQopt (BitVec 64) :=
  ⟨300, 0, 0, 0x3fb999999999999a#64, 0, 0, 0, 0, 0, 0, 1, 1, 0, 0, 20, 0, 0, 0⟩

/-- The line of the bit pattern of 0.1 takes 21 bytes. -/
theorem params_overrun :
    ¬((readProcRbfgrad ([tenth].map rbfgradShow).flatten).rows = [tenth].map paramsRow ∧
      (readProcRbfgrad ([tenth].map rbfgradShow).flatten).row = [] ∧
      (readProcRbfgrad ([tenth].map rbfgradShow).flatten).overrun = false) := by
  decide +kernel

/-- The record prints as it is: what stands in the place of `e_k_2` is equal to it, and every
number fits. -/
def Printable (t : TraceRbfgradParms) : Prop :=
  t.e_k_2 = t.e_k_1 ∧ ∀ pattern ∈ [t.p_k, t.p_k_1, t.e_k, t.e_k_1, t.kp_k, t.kp_k_1, t.ki_k,
    t.ki_k_1, t.kd_k, t.kd_k_1], FitsBuffer pattern

theorem printable_iff (t : TraceRbfgradParms) :
    Printable t ↔ varsRow (printedVars t) = varsRow t ∧
      ∀ cell ∈ varsRow (printedVars t), cell.short = true := by
  have unchanged : varsRow (printedVars t) = varsRow t ↔ t.e_k_2 = t.e_k_1 := by
    constructor
    · intro same
      exact (congrArg TraceRbfgradParms.e_k_2 (varsRow_injective same)).symm
    · intro same
      obtain ⟨_, _, _, _, _, _, _, _, _, _, _⟩ := t
      cases same
      rfl
  rw [unchanged, varsRow_short]
  simp only [Printable, printedVars, List.forall_mem_cons]
  constructor
  · rintro ⟨same, p_k, p_k_1, e_k, e_k_1, rest⟩
    exact ⟨same, p_k, p_k_1, e_k, e_k_1, e_k_1, rest⟩
  · rintro ⟨same, p_k, p_k_1, e_k, e_k_1, _, rest⟩
    exact ⟨same, p_k, p_k_1, e_k, e_k_1, rest⟩

/-- The variable trace is read back exactly when all its records are printable, and two such
traces with the same rows are the same. -/
theorem vars_round_trip_iff (records : List TraceRbfgradParms) :
    (((readProcRbfgradVars (records.map rbfgradVarsShow).flatten).rows = records.map varsRow ∧
      (readProcRbfgradVars (records.map rbfgradVarsShow).flatten).row = [] ∧
      (readProcRbfgradVars (records.map rbfgradVarsShow).flatten).overrun = false) ↔
    ∀ t ∈ records, Printable t) ∧
    ∀ others, (∀ t ∈ records ++ others, Printable t) →
      (readProcRbfgradVars (records.map rbfgradVarsShow).flatten).rows =
        (readProcRbfgradVars (others.map rbfgradVarsShow).flatten).rows → records = others := by
  have read := readProcRbfgradVars_records
  have exact_iff : ∀ records : List TraceRbfgradParms,
      (records.map fun t => varsRow (printedVars t)) = records.map varsRow ↔
        ∀ t ∈ records, varsRow (printedVars t) = varsRow t := fun _ => List.map_inj_left
  simp only [read, true_and, no_overrun_iff, List.forall_mem_map, exact_iff, printable_iff]
  constructor
  · constructor
    · rintro ⟨same, fits⟩ t member
      exact ⟨same t member, fits t member⟩
    · intro all
      exact ⟨fun t member => (all t member).1, fun t member => (all t member).2⟩
  · intro others all same
    have first := (exact_iff records).mpr fun t member => (all t (List.mem_append_left _ member)).1
    have second := (exact_iff others).mpr fun t member => (all t (List.mem_append_right _ member)).1
    rw [first, second] at same
    exact List.map_injective_iff.mpr varsRow_injective same

def lastError : TraceRbfgradParms := ⟨0, 0, 0, 0, 0x3ff0000000000000#64, 0, 0, 0, 0, 0, 0⟩

/-- Errors 0, 0 and 1: the third is lost, and the row is that of a record with errors 0, 0, 0. -/
theorem vars_lose_e_k_2 :
    (readProcRbfgradVars ([lastError].map rbfgradVarsShow).flatten).rows ≠ [lastError].map varsRow ∧
    (readProcRbfgradVars ([lastError].map rbfgradVarsShow).flatten).overrun = false ∧
    (readProcRbfgradVars ([lastError].map rbfgradVarsShow).flatten).rows =
      (readProcRbfgradVars ([{ lastError with e_k_2 := 0 }].map rbfgradVarsShow).flatten).rows := by
  decide +kernel

end GapsoRbfPid.TraceText
