import GapsoRbfPid.Log
import GapsoRbfPid.LogDecoding
import GapsoRbfPid.LogExport

/-! The way of a sample from the scheduler to the plot, as `test/autotest` runs it: the log,
the forty sessions a turn of `queuedata/read.sh`, the text file and `test/transfer.c`. -/

namespace GapsoRbfPid.Pipeline
open GapsoRbfPid Library Library.Transition LogExport LogDecoding

variable {K : Type}

section Reading

/-- The values of `i` in the loop of `read.sh`. -/
def positions : List ℕ := List.range' 0 751 40

/-- How many slots a turn delivers. -/
def shown (n i : ℕ) (cuts : List SeqFile.Cut) : ℕ :=
  match cuts.find? fun cut => 0 < cut.capacity with
  | none => 0
  | some cut => min cut.capacity (batch n i)

def slotsUpTo (n : ℕ) (cuts : ℕ → List SeqFile.Cut) (turns : ℕ) : List ℕ :=
  (List.range' 0 turns 40).flatMap fun i => List.range' i (shown n i (cuts i))

/-- The slots of the log that reach the file. -/
def slots (n : ℕ) (cuts : ℕ → List SeqFile.Cut) : List ℕ := slotsUpTo n cuts 751

/-- Every turn that finds records ends with a session that delivers one. -/
def Complete (n : ℕ) (cuts : ℕ → List SeqFile.Cut) : Prop :=
  ∀ i ∈ positions, i < n → ((cuts i).find? fun cut => 0 < cut.capacity).isSome

/-- No session is cut before forty records. -/
def Whole (n : ℕ) (cuts : ℕ → List SeqFile.Cut) : Prop :=
  ∀ i ∈ positions, i < n → ∃ cut, ((cuts i).find? fun cut => 0 < cut.capacity) = some cut ∧
    40 ≤ cut.capacity

theorem Whole.complete {n : ℕ} {cuts : ℕ → List SeqFile.Cut} (whole : Whole n cuts) :
    Complete n cuts := by
  intro i member pending
  obtain ⟨cut, found, -⟩ := whole i member pending
  rw [found]
  rfl

end Reading

section Decoding
variable {D : Type} [Mul D] [OfNat D 6500] (ofBits : BitVec 64 → D)

/-- A record as the log keeps it, with the patterns of its doubles. -/
def stored (bits : K → BitVec 64) (s : QueueShow K) : QueueShow (BitVec 64) where
  numbers := s.numbers
  length := s.length
  mark_type := s.mark_type
  p := bits s.p
  kp := bits s.kp
  ki := bits s.ki
  kd := bits s.kd
  jacobian := bits s.jacobian
  NetOut := bits s.NetOut
  e_k := s.e_k
  e_k_1 := s.e_k_1
  e_k_2 := s.e_k_2

end Decoding

section Runs
variable {Child : Type} [Field K] [LinearOrder K] [FloorRing K]
variable {D : Type} [Mul D] [OfNat D 6500] (ofBits : BitVec 64 → D)

end Runs

end GapsoRbfPid.Pipeline
