import Mathlib.Data.Int.Notation
import Mathlib.Data.List.Basic
import Mathlib.Data.Rat.Init
import Mathlib.Tactic.TypeStar
import Mathlib.Order.Basic
import Mathlib.Algebra.Group.Int.Defs
import Mathlib.Algebra.Group.Nat.Defs

/-! What the C library does with decimal text: integers printed by `printf`, tokens read
by `fscanf`, `atoi` and `atoll`, lines returned by `fgets`. A text is a list of characters. -/

namespace GapsoRbfPid.Library.Stdio

/-- The conversions `%d` and `%lld`. -/
def printInt : ℤ → List Char
  | .ofNat n => Nat.toDigits 10 n
  | .negSucc n => '-' :: Nat.toDigits 10 (n + 1)

def isSpace (c : Char) : Bool :=
  c = ' ' || c = '\t' || c = '\n' || c = '\x0b' || c = '\x0c' || c = '\r'

/-- The longest run of digits at the head of a text. -/
def scanDigits (text : List Char) : Option (ℕ × List Char) :=
  match text.takeWhile Char.isDigit with
  | [] => none
  | digits => some (Nat.ofDigitChars 10 digits 0, text.dropWhile Char.isDigit)

/-- The next decimal token: white space, an optional sign, digits. -/
def scanInt (text : List Char) : Option (ℤ × List Char) :=
  match text.dropWhile isSpace with
  | '-' :: rest => (scanDigits rest).map fun token => (-(token.1 : ℤ), token.2)
  | '+' :: rest => (scanDigits rest).map fun token => ((token.1 : ℤ), token.2)
  | rest => (scanDigits rest).map fun token => ((token.1 : ℤ), token.2)

/-- A decimal numeral without sign or exponent: digits with an optional fraction. -/
def scanFraction (text : List Char) : Option (ℚ × List Char) :=
  let whole := text.takeWhile Char.isDigit
  let rest := text.dropWhile Char.isDigit
  let fraction := if rest.head? = some '.' then rest.tail.takeWhile Char.isDigit else []
  let rest := if rest.head? = some '.' then rest.tail.dropWhile Char.isDigit else rest
  match whole ++ fraction with
  | [] => none
  | digits => some (mkRat (Nat.ofDigitChars 10 digits 0) (10 ^ fraction.length), rest)

/-- The decimal tokens of `strtod`: white space, an optional sign, a numeral. -/
def scanDecimal (text : List Char) : Option (ℚ × List Char) :=
  match text.dropWhile isSpace with
  | '-' :: rest => (scanFraction rest).map fun token => (-token.1, token.2)
  | '+' :: rest => scanFraction rest
  | rest => scanFraction rest

/-- A `long long` holds the nearest value it can. -/
def saturate (value : ℤ) : ℤ := max (-2 ^ 63) (min value (2 ^ 63 - 1))

def strtoll (text : List Char) : ℤ := ((scanInt text).map fun token => saturate token.1).getD 0

def atoi (text : List Char) : Int32 := Int32.ofInt (strtoll text)

def atoll (text : List Char) : BitVec 64 := BitVec.ofInt 64 (strtoll text)

/-- The line `fgets` stores into a buffer with `room` bytes before the NUL, and what is left. -/
def fgets : ℕ → List Char → List Char × List Char
  | 0, text => ([], text)
  | _ + 1, [] => ([], [])
  | room + 1, c :: text =>
      if c = '\n' then (['\n'], text)
      else
        let line := fgets room text
        (c :: line.1, line.2)

/-- The lines of `while (!feof(f)) if (fgets(..) != NULL)`. -/
def readLines (room : ℕ) : ℕ → List Char → List (List Char)
  | 0, _ => []
  | fuel + 1, text =>
      match fgets room text with
      | ([], _) => []
      | (line, rest) => line :: readLines room fuel rest

theorem printInt_chars {z : ℤ} {c : Char} (printed : c ∈ printInt z) : c.isDigit ∨ c = '-' := by
  cases z with
  | ofNat n => exact .inl (Nat.isDigit_of_mem_toDigits (by decide) (by decide) printed)
  | negSucc n =>
    rcases List.mem_cons.mp printed with sign | digit
    · exact .inr sign
    · exact .inl (Nat.isDigit_of_mem_toDigits (by decide) (by decide) digit)

theorem digit_not_space {c : Char} (digit : c.isDigit) : isSpace c = false := by
  rw [Bool.eq_false_iff]
  intro space
  simp only [isSpace, Bool.or_eq_true, decide_eq_true_eq] at space
  rcases space with ((((rfl | rfl) | rfl) | rfl) | rfl) | rfl <;> exact absurd digit (by decide)

theorem scanDigits_toDigits (n : ℕ) {c : Char} (stop : c.isDigit = false) (rest : List Char) :
    scanDigits (Nat.toDigits 10 n ++ c :: rest) = some (n, c :: rest) := by
  have digits : ∀ c ∈ Nat.toDigits 10 n, c.isDigit := by
    intro c member
    exact Nat.isDigit_of_mem_toDigits (by decide) (by decide) member
  have taken : (Nat.toDigits 10 n ++ c :: rest).takeWhile Char.isDigit = Nat.toDigits 10 n := by
    rw [List.takeWhile_append_of_pos digits, List.takeWhile_cons, stop]
    simp
  have left : (Nat.toDigits 10 n ++ c :: rest).dropWhile Char.isDigit = c :: rest := by
    rw [List.dropWhile_append_of_pos digits, List.dropWhile_cons, stop]
    simp
  unfold scanDigits
  rw [taken, left]
  split
  next empty => exact absurd empty Nat.toDigits_ne_nil
  next => rw [Nat.ofDigitChars_ten_toDigits]

/-- A printed integer is read back, and the scan stops at the character after it. -/
theorem scanInt_printInt (blanks : List Char) (blank : ∀ c ∈ blanks, isSpace c) (z : ℤ) {c : Char}
    (stop : c.isDigit = false) (rest : List Char) :
    scanInt (blanks ++ (printInt z ++ c :: rest)) = some (z, c :: rest) := by
  unfold scanInt
  rw [List.dropWhile_append_of_pos blank]
  cases z with
  | negSucc n =>
    have sign : (printInt (.negSucc n) ++ c :: rest).dropWhile isSpace =
        '-' :: (Nat.toDigits 10 (n + 1) ++ c :: rest) := rfl
    rw [sign]
    simp only [scanDigits_toDigits (n + 1) stop rest, Option.map_some]
    rfl
  | ofNat n =>
    change (match (Nat.toDigits 10 n ++ c :: rest).dropWhile isSpace with
      | '-' :: rest => _ | '+' :: rest => _ | rest => _) = _
    obtain ⟨first, others, split⟩ := List.exists_cons_of_ne_nil (Nat.toDigits_ne_nil (n := n) (b := 10))
    have digit : first.isDigit :=
      Nat.isDigit_of_mem_toDigits (b := 10) (n := n) (by decide) (by decide) (by rw [split]; simp)
    have kept : (Nat.toDigits 10 n ++ c :: rest).dropWhile isSpace = Nat.toDigits 10 n ++ c :: rest := by
      rw [split, List.cons_append, List.dropWhile_cons, digit_not_space digit]
      simp
    have scanned := scanDigits_toDigits n stop rest
    rw [kept]
    split
    next tail cons =>
      rw [split, List.cons_append, List.cons.injEq] at cons
      rw [cons.1] at digit
      exact absurd digit (by decide)
    next tail cons =>
      rw [split, List.cons_append, List.cons.injEq] at cons
      rw [cons.1] at digit
      exact absurd digit (by decide)
    next => rw [scanned]; rfl

theorem strtoll_printInt {z : ℤ} (least : -2 ^ 63 ≤ z) (most : z < 2 ^ 63) {c : Char}
    (stop : c.isDigit = false) (rest : List Char) : strtoll (printInt z ++ c :: rest) = z := by
  have scanned := scanInt_printInt [] (by simp) z stop rest
  rw [List.nil_append] at scanned
  simp only [strtoll, scanned, Option.map_some, Option.getD_some, saturate]
  omega

theorem atoi_printInt (value : Int32) {c : Char} (stop : c.isDigit = false) (rest : List Char) :
    atoi (printInt value.toInt ++ c :: rest) = value := by
  have least := value.le_toInt
  have most := value.toInt_lt
  rw [atoi, strtoll_printInt (by omega) (by omega) stop, Int32.ofInt_toInt]

theorem atoll_printInt (pattern : BitVec 64) {c : Char} (stop : c.isDigit = false)
    (rest : List Char) : atoll (printInt pattern.toInt ++ c :: rest) = pattern := by
  have least := pattern.le_toInt
  have most := pattern.toInt_lt
  rw [atoll, strtoll_printInt (by omega) (by omega) stop, BitVec.ofInt_toInt]

theorem printInt_length_le_iff (z : ℤ) {width : ℕ} (wide : 1 < width) :
    (printInt z).length ≤ width ↔ -10 ^ (width - 1) < z ∧ z < 10 ^ width := by
  have small : 0 < 10 ^ (width - 1) := Nat.pow_pos (by decide)
  have large : 0 < 10 ^ width := Nat.pow_pos (by decide)
  have casts : ∀ k : ℕ, ((10 ^ k : ℕ) : ℤ) = 10 ^ k := fun k => Int.natCast_pow 10 k
  rw [← casts, ← casts]
  cases z with
  | ofNat n =>
    have digits := Nat.length_toDigits_le_iff (b := 10) (n := n) (k := width) (by decide) (by omega)
    change (Nat.toDigits 10 n).length ≤ width ↔ _
    rw [digits, Int.ofNat_eq_natCast]
    omega
  | negSucc n =>
    have digits := Nat.length_toDigits_le_iff (b := 10) (n := n + 1) (k := width - 1) (by decide)
      (by omega)
    change (Nat.toDigits 10 (n + 1)).length + 1 ≤ width ↔ _
    have shift : (Nat.toDigits 10 (n + 1)).length + 1 ≤ width ↔
        (Nat.toDigits 10 (n + 1)).length ≤ width - 1 := by omega
    rw [shift, digits, Int.negSucc_eq]
    omega

theorem newline_notMem_printInt (z : ℤ) : '\n' ∉ printInt z := by
  intro printed
  rcases printInt_chars printed with digit | sign
  · exact absurd digit (by decide)
  · exact absurd sign (by decide)

theorem fgets_line {room : ℕ} {line : List Char} (short : line.length < room)
    (unbroken : '\n' ∉ line) (rest : List Char) :
    fgets room (line ++ '\n' :: rest) = (line ++ ['\n'], rest) := by
  induction line generalizing room with
  | nil =>
    cases room with
    | zero => exact absurd short (by simp)
    | succ room => rfl
  | cons c line ih =>
    cases room with
    | zero => exact absurd short (by simp)
    | succ room =>
      have other : c ≠ '\n' := fun same => unbroken (same ▸ List.mem_cons_self)
      have later : '\n' ∉ line := fun member => unbroken (List.mem_cons_of_mem c member)
      have tail := ih (Nat.lt_of_succ_lt_succ short) later
      simp only [List.cons_append, fgets, if_neg other, tail]

/-- A text made of short lines is read line by line. -/
theorem readLines_lines {room : ℕ} (lines : List (List Char))
    (short : ∀ line ∈ lines, line.length < room) (unbroken : ∀ line ∈ lines, '\n' ∉ line)
    {fuel : ℕ} (enough : lines.length < fuel) :
    readLines room fuel (lines.map (· ++ ['\n'])).flatten = lines.map (· ++ ['\n']) := by
  induction lines generalizing fuel with
  | nil =>
    cases fuel with
    | zero => rfl
    | succ fuel => cases room <;> rfl
  | cons line lines ih =>
    cases fuel with
    | zero => exact absurd enough (by simp)
    | succ fuel =>
      have first : fgets room ((line :: lines).map (· ++ ['\n'])).flatten =
          (line ++ ['\n'], (lines.map (· ++ ['\n'])).flatten) := by
        rw [List.map_cons, List.flatten_cons, List.append_assoc]
        exact fgets_line (short line List.mem_cons_self) (unbroken line List.mem_cons_self) _
      have later := ih (fun l member => short l (List.mem_cons_of_mem line member))
        (fun l member => unbroken l (List.mem_cons_of_mem line member))
        (Nat.lt_of_succ_lt_succ enough)
      rw [readLines, first]
      split
      next empty => simp at empty
      next taken rest _ same =>
        rw [Prod.mk.injEq] at same
        rw [← same.1, ← same.2, later, List.map_cons]

end GapsoRbfPid.Library.Stdio
