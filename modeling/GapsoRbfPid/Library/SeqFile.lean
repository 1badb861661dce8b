import Mathlib.Data.Nat.Notation
import Mathlib.Tactic.TypeStar

/-! A reader that drains an iterator through a bounded buffer, as `seq_file` does. The
iterator keeps state of its own between calls; the reader only remembers a position. -/

namespace GapsoRbfPid.Library.SeqFile

variable {σ ρ : Type*}

/-- `start` is given a position, `next` the current record and its position. -/
structure Iterator (σ ρ : Type*) where
  start : σ → ℕ → Option ρ × σ
  next : σ → ρ → ℕ → Option (ρ × ℕ) × σ

/-- Where the buffer ends a session: how many records are shown after the first one, and
whether the last one shown did not fit and is thrown away. -/
structure Cut where
  more : ℕ
  discard : Bool
  deriving DecidableEq, Repr

def Cut.capacity (cut : Cut) : ℕ := if cut.discard then cut.more else cut.more + 1

/-- The records shown from the current one on, whether the iterator ended, and its state. -/
def traverse (it : Iterator σ ρ) : ℕ → σ → ρ → ℕ → List ρ × Bool × σ
  | 0, state, record, _ => ([record], false, state)
  | more + 1, state, record, position =>
      match it.next state record position with
      | (none, state) => ([record], true, state)
      | (some (following, position), state) =>
          let rest := traverse it more state following position
          (record :: rest.1, rest.2)

def session (it : Iterator σ ρ) (cut : Cut) (state : σ) (record : ρ) (position : ℕ) :
    List ρ × σ :=
  let shown := traverse it cut.more state record position
  (if cut.discard && !shown.2.1 then shown.1.dropLast else shown.1, shown.2.2)

/-- The concatenation of all sessions. Each one resumes at the first position that was not
delivered; the result is `none` while `start` has not answered that the records are over. -/
def readAll (it : Iterator σ ρ) : List Cut → σ → ℕ → Option (List ρ)
  | [], state, position =>
      match it.start state position with
      | (none, _) => some []
      | (some _, _) => none
  | cut :: rest, state, position =>
      match it.start state position with
      | (none, _) => some []
      | (some record, state) =>
          let delivered := session it cut state record position
          (readAll it rest delivered.2 (position + delivered.1.length)).map (delivered.1 ++ ·)

theorem traverse_length (it : Iterator σ ρ) (more : ℕ) (state : σ) (record : ρ) (position : ℕ) :
    0 < (traverse it more state record position).1.length ∧
      ((traverse it more state record position).2.1 = false →
        (traverse it more state record position).1.length = more + 1) := by
  induction more generalizing state record position with
  | zero => exact ⟨Nat.zero_lt_one, fun _ => rfl⟩
  | succ more ih =>
    simp only [traverse]
    split
    · exact ⟨Nat.zero_lt_one, fun running => nomatch running⟩
    next following place state' _ =>
      refine ⟨Nat.succ_pos _, fun running => ?_⟩
      exact congrArg (· + 1) ((ih state' following place).2 running)

theorem session_nonempty (it : Iterator σ ρ) {cut : Cut} (delivers : 0 < cut.capacity) (state : σ)
    (record : ρ) (position : ℕ) : 0 < (session it cut state record position).1.length := by
  have shown := traverse_length it cut.more state record position
  unfold session
  dsimp only
  split
  next thrown =>
    simp only [Bool.and_eq_true, Bool.not_eq_true'] at thrown
    have full := shown.2 thrown.2
    rw [Cut.capacity, if_pos thrown.1] at delivers
    rw [List.length_dropLast]
    omega
  · exact shown.1

theorem readAll_of_stopped (it : Iterator σ ρ) (cuts : List Cut) {state : σ} {position : ℕ}
    (stopped : (it.start state position).1 = none) : readAll it cuts state position = some [] := by
  cases answer : it.start state position with
  | mk first after =>
    rw [answer] at stopped
    subst stopped
    cases cuts with
    | nil => simp only [readAll, answer]
    | cons cut rest => simp only [readAll, answer]

/-- An iterator that answers only at position 0: everything that is delivered is delivered
by the first session that delivers a record at all. -/
theorem readAll_of_unresumable (it : Iterator σ ρ) {state : σ} {record : ρ}
    (unresumable : ∀ state position, position ≠ 0 → (it.start state position).1 = none)
    (restarts : it.start state 0 = (some record, state)) (cuts : List Cut) :
    readAll it cuts state 0 =
      (cuts.find? fun cut => 0 < cut.capacity).map
        fun cut => (session it cut state record 0).1 := by
  induction cuts with
  | nil => simp only [readAll, restarts, List.find?_nil, Option.map_none]
  | cons cut rest ih =>
    by_cases delivers : 0 < cut.capacity
    · have advanced := session_nonempty it delivers state record 0
      have finished := readAll_of_stopped it rest
        (unresumable (session it cut state record 0).2 (0 + (session it cut state record 0).1.length)
          (by omega))
      simp only [readAll, restarts, finished, List.find?_cons, delivers, decide_true, Option.map_some,
        List.append_nil]
    · obtain ⟨more, discard⟩ := cut
      have nothing : more = 0 ∧ discard = true := by
        cases discard with
        | false => exact absurd (Nat.succ_pos more) delivers
        | true => exact ⟨Nat.eq_zero_of_not_pos delivers, rfl⟩
      obtain ⟨rfl, rfl⟩ := nothing
      -- the only record shown did not fit: the next session starts over from the same state
      have again : readAll it (⟨0, true⟩ :: rest) state 0 = readAll it rest state 0 := by
        simp only [readAll, restarts]
        exact Option.map_id'
      rw [again, ih, List.find?_cons_of_neg (by simpa using delivers)]

end GapsoRbfPid.Library.SeqFile
