import GapsoRbfPid.Qdisc
import GapsoRbfPid.Library.Stdio
import GapsoRbfPid.Library.Transition

/-! The log as text and `test/transfer.c`, which decodes it. The decoder reads a fixed number
of rows of twelve numbers and never asks whether a number was there. -/

namespace GapsoRbfPid.LogDecoding
open GapsoRbfPid Library Library.Stdio Library.Transition

abbrev ROW : ℕ := 20000
abbrev COL : ℕ := 12
abbrev CUR_MAX : ℕ := 4095

/-- The values of the enumeration in `rbfgrad.h`. -/
def markType : Action → ℕ
  | .dontMark => 0
  | .probMark => 1

/-- The numbers of a record in the order of the format of `l_show`. -/
def members (s : QueueShow (BitVec 64)) : List ℤ :=
  [(BitVec.ofNat 32 s.numbers).toNat, s.length.toNat, markType s.mark_type, s.p.toInt, s.kp.toInt,
    s.ki.toInt, s.kd.toInt, s.jacobian.toInt, s.NetOut.toInt, s.e_k.toInt, s.e_k_1.toInt,
    s.e_k_2.toInt]

def printRow (values : List ℤ) : List Char :=
  (values.map fun value => printInt value ++ ['\t']).flatten

def lShow (s : QueueShow (BitVec 64)) : List Char := printRow (members s) ++ ['\n']

/-- The names of the columns; the last three columns have none. -/
def columnNames : List Char :=
  "numbers\tqueue_length\tmark_type\tprobability\tkp\tki\tkd\tjacobian\tNetOut".toList

/-- What `l_start` prints before the first record. -/
def heading : List Char := "Show queue length:".toList ++ '\n' :: (columnNames ++ ['\n'])

def logFile (records : List (QueueShow (BitVec 64))) : List Char :=
  heading ++ (records.map lShow).flatten

/-- A number of the output file before it is formatted. -/
inductive Column (D : Type) where
  | int (value : ℤ)
  | double (value : D)

/-- The decoder: the text still to be read, the variable `a`, the line of the output file that
is being written, and those that are finished. -/
structure Decoder (D : Type) where
  text : List Char
  a : BitVec 64
  row : List (Column D)
  rows : List (List (Column D))

/-- `fscanf` with `%lld`: at the end of the input `a` keeps its value. -/
def fscanf (text : List Char) (a : BitVec 64) : BitVec 64 × List Char :=
  match scanInt text with
  | some (value, rest) => (BitVec.ofInt 64 (saturate value), rest)
  | none => (a, text.dropWhile isSpace)

section
variable {D : Type} [Mul D] [OfNat D 6500] (ofBits : BitVec 64 → D)

def column (j : ℕ) (a : BitVec 64) : Column D :=
  match j with
  | 3 | 4 | 5 | 6 | 7 => .double (ofBits a)
  | 8 => .double (ofBits a * 6500)
  | _ => .int a.toInt

def readColumn (decoder : Decoder D) (j : ℕ) : Decoder D :=
  let scanned := fscanf decoder.text decoder.a
  { decoder with
    text := scanned.2
    a := scanned.1
    row := decoder.row ++ [column ofBits j scanned.1] }

def readRow (decoder : Decoder D) : Decoder D :=
  let decoder := run (readColumn ofBits) decoder (List.range COL)
  { decoder with
    row := []
    rows := decoder.rows ++ [decoder.row] }

/-- `main` of `transfer.c`: the commented heading and the rows. The variable `a` is not
initialised. -/
def transfer (a : BitVec 64) (text : List Char) : List Char × List (List (Column D)) :=
  let first := fgets (CUR_MAX - 1) text
  let second := fgets (CUR_MAX - 1) first.2
  let decoder := run (fun decoder _ => readRow ofBits decoder) ⟨second.2, a, [], []⟩
    (List.range ROW)
  ('#' :: second.1, decoder.rows)

/-- The row that belongs to a record. -/
def decoded (s : QueueShow (BitVec 64)) : List (Column D) :=
  [.int (BitVec.ofNat 32 s.numbers).toNat, .int s.length.toNat, .int (markType s.mark_type),
    .double (ofBits s.p), .double (ofBits s.kp), .double (ofBits s.ki), .double (ofBits s.kd),
    .double (ofBits s.jacobian), .double (ofBits s.NetOut * 6500), .int s.e_k.toInt,
    .int s.e_k_1.toInt, .int s.e_k_2.toInt]

def Representable (value : ℤ) : Prop := -2 ^ 63 ≤ value ∧ value < 2 ^ 63

/-- Reading consecutive columns of a printed row that has blanks before it. -/
theorem run_readColumn (values : List ℤ) (range : ∀ value ∈ values, Representable value)
    (blanks rest : List Char) (blank : ∀ c ∈ blanks, isSpace c) (a : BitVec 64)
    (row : List (Column D)) (rows : List (List (Column D))) (j : ℕ) :
    ∃ blanks' a', (∀ c ∈ blanks', isSpace c) ∧
      run (readColumn ofBits) ⟨blanks ++ (printRow values ++ rest), a, row, rows⟩
        (List.range' j values.length) =
      ⟨blanks' ++ rest, a',
        row ++ (values.zipIdx j).map fun value => column ofBits value.2 (BitVec.ofInt 64 value.1),
        rows⟩ := by
  induction values generalizing blanks a row j with
  | nil => exact ⟨blanks, a, blank, by simp [run, printRow]⟩
  | cons value values ih =>
    have tab : ∀ c ∈ ['\t'], isSpace c := by
      intro c member
      rw [List.mem_singleton.mp member]
      rfl
    obtain ⟨blanks', a', blank', later⟩ := ih
      (fun v member => range v (List.mem_cons_of_mem _ member)) ['\t'] tab (BitVec.ofInt 64 value)
      (row ++ [column ofBits j (BitVec.ofInt 64 value)]) (j + 1)
    refine ⟨blanks', a', blank', ?_⟩
    have kept : saturate value = value := by
      obtain ⟨least, most⟩ := range value List.mem_cons_self
      unfold saturate
      omega
    have text : printRow (value :: values) ++ rest =
        printInt value ++ '\t' :: (printRow values ++ rest) := by
      simp only [printRow, List.map_cons, List.flatten_cons, List.append_assoc, List.cons_append,
        List.nil_append]
    have scanned := scanInt_printInt blanks blank value (c := '\t') (by decide) (printRow values ++ rest)
    have first : readColumn ofBits ⟨blanks ++ (printRow (value :: values) ++ rest), a, row, rows⟩ j =
        ⟨['\t'] ++ (printRow values ++ rest), BitVec.ofInt 64 value,
          row ++ [column ofBits j (BitVec.ofInt 64 value)], rows⟩ := by
      simp only [readColumn, fscanf, text, scanned, kept]
      rfl
    calc run (readColumn ofBits) ⟨blanks ++ (printRow (value :: values) ++ rest), a, row, rows⟩
          (List.range' j (value :: values).length)
      _ = run (readColumn ofBits)
            (readColumn ofBits ⟨blanks ++ (printRow (value :: values) ++ rest), a, row, rows⟩ j)
            (List.range' (j + 1) values.length) := rfl
      _ = _ := by
        rw [first, later, List.zipIdx_cons, List.map_cons, List.append_assoc, List.singleton_append]

theorem members_representable (s : QueueShow (BitVec 64)) :
    ∀ value ∈ members s, Representable value := by
  have unsigned : ∀ word : BitVec 32, Representable word.toNat := by
    intro word
    have small := word.isLt
    unfold Representable
    omega
  have mark : Representable (markType s.mark_type) := by
    cases s.mark_type <;> exact ⟨by decide, by decide⟩
  have pattern : ∀ word : BitVec 64, Representable word.toInt := by
    intro word
    exact ⟨word.le_toInt, word.toInt_lt⟩
  have signed : ∀ word : Int32, Representable word.toInt := by
    intro word
    have least := word.le_toInt
    have most := word.toInt_lt
    unfold Representable
    omega
  simp only [members, List.forall_mem_cons, List.not_mem_nil, false_imp_iff, implies_true, unsigned,
    mark, pattern, signed, and_true]

/-- The twelve columns of a record are its row. -/
theorem decoded_eq (s : QueueShow (BitVec 64)) :
    ((members s).zipIdx 0).map (fun value => column ofBits value.2 (BitVec.ofInt 64 value.1)) =
      decoded ofBits s := by
  have fits : ∀ value ∈ members s, (BitVec.ofInt 64 value).toInt = value := by
    intro value member
    obtain ⟨least, most⟩ := members_representable s value member
    rw [BitVec.toInt_ofInt, Int.bmod_eq_of_le (by omega) (by omega)]
  simp only [members, List.forall_mem_cons] at fits
  obtain ⟨numbers, length, mark, _, _, _, _, _, _, e_k, e_k_1, e_k_2, _⟩ := fits
  simp only [members, decoded, List.zipIdx_cons, List.zipIdx_nil, List.map_cons, List.map_nil,
    Nat.reduceAdd, column, BitVec.ofInt_toInt, numbers, length, mark, e_k, e_k_1, e_k_2]

theorem readRow_lShow (s : QueueShow (BitVec 64)) (blanks rest : List Char)
    (blank : ∀ c ∈ blanks, isSpace c) (a : BitVec 64) (rows : List (List (Column D))) :
    ∃ blanks' a', (∀ c ∈ blanks', isSpace c) ∧
      readRow ofBits ⟨blanks ++ (lShow s ++ rest), a, [], rows⟩ =
        ⟨blanks' ++ rest, a', [], rows ++ [decoded ofBits s]⟩ := by
  obtain ⟨blanks', a', blank', read⟩ := run_readColumn ofBits (members s) (members_representable s)
    blanks ('\n' :: rest) blank a [] rows 0
  have newline : ∀ c ∈ blanks' ++ ['\n'], isSpace c := by
    intro c member
    rcases List.mem_append.mp member with inside | last
    · exact blank' c inside
    · rw [List.mem_singleton.mp last]
      rfl
  refine ⟨blanks' ++ ['\n'], a', newline, ?_⟩
  have text : blanks ++ (lShow s ++ rest) = blanks ++ (printRow (members s) ++ '\n' :: rest) := by
    rw [lShow, List.append_assoc, List.singleton_append]
  rw [decoded_eq, List.nil_append] at read
  change run (readColumn ofBits) _ (List.range' 0 12) = _ at read
  rw [readRow, List.range_eq_range', text, read, List.append_assoc, List.singleton_append]

/-- As many turns of the outer loop as there are records recover the records. -/
theorem run_readRow (records : List (QueueShow (BitVec 64))) (blanks : List Char)
    (blank : ∀ c ∈ blanks, isSpace c) (a : BitVec 64) (rows : List (List (Column D)))
    (indices : List ℕ) (turns : indices.length = records.length) :
    (run (fun decoder _ => readRow ofBits decoder)
      ⟨blanks ++ (records.map lShow).flatten, a, [], rows⟩ indices).rows =
      rows ++ records.map (decoded ofBits) := by
  induction records generalizing blanks a rows indices with
  | nil =>
    rw [List.length_eq_zero_iff.mp turns, run_nil, List.map_nil (f := decoded ofBits),
      List.append_nil]
  | cons s records ih =>
    cases indices with
    | nil => exact absurd turns (by simp)
    | cons index indices =>
      obtain ⟨blanks', a', blank', first⟩ :=
        readRow_lShow ofBits s blanks (records.map lShow).flatten blank a rows
      have later := ih blanks' blank' a' (rows ++ [decoded ofBits s]) indices
        (Nat.succ.inj turns)
      rw [← first, List.append_assoc, List.singleton_append] at later
      rw [run_cons, List.map_cons, List.map_cons, List.flatten_cons, later]

theorem readColumn_rows (decoder : Decoder D) (j : ℕ) :
    (readColumn ofBits decoder j).rows = decoder.rows := rfl

theorem rows_length (decoder : Decoder D) (indices : List ℕ) :
    (run (fun decoder _ => readRow ofBits decoder) decoder indices).rows.length =
      decoder.rows.length + indices.length := by
  induction indices generalizing decoder with
  | nil => rfl
  | cons index indices ih =>
    have kept := run_preserves (fun decoder : Decoder D => decoder.rows) (readColumn_rows ofBits)
      decoder (List.range COL)
    have one : (readRow ofBits decoder).rows.length = decoder.rows.length + 1 := by
      simp only [readRow, kept, List.length_append, List.length_singleton]
    rw [run_cons, ih, one, List.length_cons]
    omega

/-- The decoder always writes `ROW` rows. -/
theorem transfer_length (a : BitVec 64) (text : List Char) :
    (transfer ofBits a text).2.length = ROW := by
  rw [transfer, rows_length, List.length_range]
  exact Nat.zero_add ROW

theorem fgets_heading (rest : List Char) :
    (fgets (CUR_MAX - 1) (heading ++ rest)).2 = columnNames ++ '\n' :: rest := by
  have text : ∀ first second : List Char, (first ++ '\n' :: (second ++ ['\n'])) ++ rest =
      first ++ '\n' :: (second ++ '\n' :: rest) := by
    intro first second
    simp only [List.append_assoc, List.cons_append, List.nil_append]
  have line := @fgets_line (CUR_MAX - 1) "Show queue length:".toList (by decide +kernel)
    (by decide +kernel) (columnNames ++ '\n' :: rest)
  exact congrArg Prod.snd ((congrArg (fgets (CUR_MAX - 1)) (text _ columnNames)).trans line)

theorem fgets_columnNames (rest : List Char) :
    fgets (CUR_MAX - 1) (columnNames ++ '\n' :: rest) = (columnNames ++ ['\n'], rest) :=
  fgets_line (by decide +kernel) (by decide +kernel) rest

/-- The decoded file is the heading and one row for each record exactly when the log has as
many records as the decoder has rows. -/
theorem transfer_exact_iff (a : BitVec 64) (records : List (QueueShow (BitVec 64))) :
    transfer ofBits a (logFile records) =
      ('#' :: columnNames ++ ['\n'], records.map (decoded ofBits)) ↔ records.length = ROW := by
  constructor
  · intro same
    have rows := transfer_length ofBits a (logFile records)
    rw [same, List.length_map] at rows
    exact rows
  · intro turns
    have read := run_readRow ofBits records [] (by simp) a [] (List.range ROW)
      (List.length_range.trans turns.symm)
    rw [List.nil_append, List.nil_append] at read
    simp only [transfer, logFile, fgets_heading, fgets_columnNames, read, List.cons_append]

end

/-- The first record of the captured log. -/
def captured : QueueShow (BitVec 64) :=
  ⟨0, 0, .dontMark, 0, 4576918229304087675, 4574720472685930873, 4576918229304087675, 0,
    BitVec.ofInt 64 (-4656614632709752704), 0, 0, 0⟩

/-- A log of one record is decoded to 20000 rows. -/
theorem transfer_invents_rows :
    transfer (fun pattern => Float.ofBits ⟨pattern⟩) 0 (logFile [captured]) ≠
      ('#' :: columnNames ++ ['\n'], [captured].map (decoded fun pattern => Float.ofBits ⟨pattern⟩)) := by
  intro same
  have rows := transfer_length (fun pattern => Float.ofBits ⟨pattern⟩) 0 (logFile [captured])
  rw [same] at rows
  exact absurd rows (by decide)

end GapsoRbfPid.LogDecoding
