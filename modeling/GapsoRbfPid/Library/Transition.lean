import GapsoRbfPid.Library.Vectors

/-! Finite runs of a deterministic step function: invariants, conditions checked
along a run, and a recorder that is carried beside the state. -/

namespace GapsoRbfPid.Library.Transition

variable {σ α γ β : Type*}

def run (step : σ → α → σ) (start : σ) (actions : List α) : σ := actions.foldl step start

@[simp] theorem run_nil (step : σ → α → σ) (start : σ) : run step start [] = start := rfl

@[simp] theorem run_cons (step : σ → α → σ) (start : σ) (action : α) (rest : List α) :
    run step start (action :: rest) = run step (step start action) rest := rfl

theorem run_append (step : σ → α → σ) (start : σ) (before after : List α) :
    run step start (before ++ after) = run step (run step start before) after :=
  List.foldl_append

/-- A condition on each action and on the state it is taken in. -/
def Along (step : σ → α → σ) (ok : σ → α → Prop) : σ → List α → Prop
  | _, [] => True
  | state, action :: rest => ok state action ∧ Along step ok (step state action) rest

instance decidableAlong (step : σ → α → σ) (ok : σ → α → Prop)
    [checks : ∀ state action, Decidable (ok state action)] :
    ∀ state actions, Decidable (Along step ok state actions)
  | _, [] => isTrue trivial
  | state, action :: rest =>
      have : Decidable (Along step ok (step state action) rest) :=
        decidableAlong step ok (step state action) rest
      inferInstanceAs (Decidable (_ ∧ _))

/-- A property of the state after every action of the run. -/
def Always (step : σ → α → σ) (property : σ → Prop) : σ → List α → Prop
  | _, [] => True
  | state, action :: rest =>
      property (step state action) ∧ Always step property (step state action) rest

/-- The invariant rule for actions that meet a condition where they are taken. -/
theorem run_invariant_along {step : σ → α → σ} {ok : σ → α → Prop} {invariant : σ → Prop}
    (keeps : ∀ state action, invariant state → ok state action → invariant (step state action))
    {start : σ} (holds : invariant start) (actions : List α) (met : Along step ok start actions) :
    invariant (run step start actions) := by
  induction actions generalizing start with
  | nil => exact holds
  | cons action rest ih => exact ih (keeps start action holds met.1) met.2

/-- What an invariant gives at each action holds all along the run. -/
theorem along_of_invariant {step : σ → α → σ} {ok good : σ → α → Prop} {invariant : σ → Prop}
    (keeps : ∀ state action, invariant state → ok state action → invariant (step state action))
    (gives : ∀ state action, invariant state → good state action)
    {start : σ} (holds : invariant start) (actions : List α) (met : Along step ok start actions) :
    Along step good start actions := by
  induction actions generalizing start with
  | nil => trivial
  | cons action rest ih =>
    exact ⟨gives start action holds, ih (keeps start action holds met.1) met.2⟩

/-- Two conditions that agree wherever an invariant holds are met by the same runs. -/
theorem along_iff_along {step : σ → α → σ} {ok good : σ → α → Prop} {invariant : σ → Prop}
    (keeps : ∀ state action, invariant state → ok state action → invariant (step state action))
    (agree : ∀ state action, invariant state → (good state action ↔ ok state action))
    {start : σ} (holds : invariant start) (actions : List α) :
    Along step good start actions ↔ Along step ok start actions := by
  induction actions generalizing start with
  | nil => exact Iff.rfl
  | cons action rest ih =>
    have first := agree start action holds
    constructor
    · intro along
      have now := first.mp along.1
      exact ⟨now, (ih (keeps start action holds now)).mp along.2⟩
    · intro along
      exact ⟨first.mpr along.1, (ih (keeps start action holds along.1)).mpr along.2⟩

theorem along_mono {step : σ → α → σ} {ok good : σ → α → Prop}
    (weaker : ∀ state action, ok state action → good state action) {start : σ} (actions : List α)
    (along : Along step ok start actions) : Along step good start actions := by
  induction actions generalizing start with
  | nil => trivial
  | cons action rest ih => exact ⟨weaker start action along.1, ih along.2⟩

theorem along_append {step : σ → α → σ} {ok : σ → α → Prop} {start : σ} {before after : List α} :
    Along step ok start (before ++ after) ↔
      Along step ok start before ∧ Along step ok (run step start before) after := by
  induction before generalizing start with
  | nil => exact ⟨fun along => ⟨trivial, along⟩, fun both => both.2⟩
  | cons action rest ih =>
    constructor
    · intro along
      obtain ⟨first, second⟩ := ih.mp along.2
      exact ⟨⟨along.1, first⟩, second⟩
    · rintro ⟨first, second⟩
      exact ⟨first.1, ih.mpr ⟨first.2, second⟩⟩

theorem along_iff_forall {step : σ → α → σ} {allowed : α → Prop} (start : σ) (actions : List α) :
    Along step (fun _ => allowed) start actions ↔ ∀ action ∈ actions, allowed action := by
  induction actions generalizing start with
  | nil => simp [Along]
  | cons action rest ih => simp [Along, ih]

/-- The invariant rule for actions that meet a condition of their own. -/
theorem run_invariant {step : σ → α → σ} {allowed : α → Prop} {invariant : σ → Prop}
    (keeps : ∀ state action, invariant state → allowed action → invariant (step state action))
    {start : σ} (holds : invariant start) (actions : List α)
    (met : ∀ action ∈ actions, allowed action) : invariant (run step start actions) :=
  run_invariant_along keeps holds actions ((along_iff_forall start actions).mpr met)

theorem run_keeps {step : σ → α → σ} {invariant : σ → Prop}
    (keeps : ∀ state action, invariant state → invariant (step state action))
    {start : σ} (holds : invariant start) (actions : List α) :
    invariant (run step start actions) :=
  run_invariant (fun state action holds (_ : True) => keeps state action holds) holds actions
    (fun _ _ => trivial)

/-- What the actions of a run add up to. -/
def total (weight : α → ℕ) : List α → ℕ
  | [] => 0
  | action :: rest => weight action + total weight rest

/-- The invariant rule for a property that depends on how much the actions so far add up to. -/
theorem run_counted {step : σ → α → σ} {ok : σ → α → Prop} {weight : α → ℕ}
    {invariant : ℕ → σ → Prop}
    (keeps : ∀ count state action, invariant count state → ok state action →
      invariant (count + weight action) (step state action))
    {start : σ} {count : ℕ} (holds : invariant count start) (actions : List α)
    (met : Along step ok start actions) :
    invariant (count + total weight actions) (run step start actions) := by
  induction actions generalizing start count with
  | nil => exact holds
  | cons action rest ih =>
    have later := ih (keeps count start action holds met.1) met.2
    rw [total, ← Nat.add_assoc]
    exact later

/-- Where one step keeps a property exactly under a condition, a run keeps it after every
action exactly when the condition is met all along. -/
theorem always_iff_along {step : σ → α → σ} {allowed ok : σ → α → Prop} {property : σ → Prop}
    (exact : ∀ state action, property state → allowed state action →
      (property (step state action) ↔ ok state action))
    {start : σ} (holds : property start) (actions : List α)
    (met : Along step allowed start actions) :
    Always step property start actions ↔ Along step ok start actions := by
  induction actions generalizing start with
  | nil => exact Iff.rfl
  | cons action rest ih =>
    have first := exact start action holds met.1
    constructor
    · intro kept
      exact ⟨first.mp kept.1, (ih kept.1 met.2).mp kept.2⟩
    · intro along
      have next := first.mpr along.1
      exact ⟨next, (ih next met.2).mpr along.2⟩

/-- A property holds after every action exactly when it holds at every point of the run. -/
theorem always_iff_prefixes {step : σ → α → σ} {property : σ → Prop} {start : σ}
    (holds : property start) (actions : List α) :
    Always step property start actions ↔
      ∀ before after, actions = before ++ after → property (run step start before) := by
  induction actions generalizing start with
  | nil =>
    refine ⟨fun _ before after split => ?_, fun _ => trivial⟩
    obtain ⟨rfl, rfl⟩ := List.append_eq_nil_iff.mp split.symm
    exact holds
  | cons action rest ih =>
    constructor
    · intro kept before after split
      cases before with
      | nil => exact holds
      | cons first before =>
        obtain ⟨rfl, rfl⟩ := List.cons.inj split
        exact (ih kept.1).mp kept.2 before after rfl
    · intro everywhere
      have next : property (step start action) := everywhere [action] rest rfl
      refine ⟨next, (ih next).mpr ?_⟩
      intro before after split
      exact everywhere (action :: before) after (congrArg (action :: ·) split)

/-- The unwinding rule: an interleaved run is related to the run of one party's own actions
when her actions keep the relation in step and all the others keep it alone. -/
theorem run_filter_related {τ : Type*} {step : σ → α → σ} {solo : τ → α → τ} {own : α → Bool}
    {ok : σ → α → Prop} {related : σ → τ → Prop}
    (mine : ∀ state alone action, related state alone → ok state action → own action = true →
      related (step state action) (solo alone action))
    (others : ∀ state alone action, related state alone → own action = false →
      related (step state action) alone)
    {start : σ} {alone : τ} (holds : related start alone) (actions : List α)
    (met : Along step ok start actions) :
    related (run step start actions) (run solo alone (actions.filter own)) := by
  induction actions generalizing start alone with
  | nil => exact holds
  | cons action rest ih =>
    cases owner : own action with
    | true =>
      rw [List.filter_cons_of_pos owner]
      exact ih (mine start alone action holds met.1 owner) met.2
    | false =>
      rw [List.filter_cons_of_neg (by rw [owner]; decide)]
      exact ih (others start alone action holds owner) met.2

theorem run_preserves {step : σ → α → σ} (view : σ → β)
    (frame : ∀ state action, view (step state action) = view state) (start : σ)
    (actions : List α) : view (run step start actions) = view start := by
  induction actions generalizing start with
  | nil => rfl
  | cons action rest ih => exact (ih (step start action)).trans (frame start action)

/-- A counted loop: one step for each index, in increasing order. -/
def sweep {n : ℕ} (step : σ → Fin n → σ) (start : σ) : σ := run step start (List.finRange n)

theorem sweep_preserves {n : ℕ} {step : σ → Fin n → σ} (view : σ → β)
    (frame : ∀ state index, view (step state index) = view state) (start : σ) :
    view (sweep step start) = view start :=
  run_preserves view frame start (List.finRange n)

theorem sweep_keeps {n : ℕ} {step : σ → Fin n → σ} {invariant : σ → Prop}
    (keeps : ∀ state index, invariant state → invariant (step state index))
    {start : σ} (holds : invariant start) : invariant (sweep step start) :=
  run_keeps keeps holds (List.finRange n)

/-- The invariant rule of a counted loop: the index says how far the loop has come. -/
theorem sweep_invariant {n : ℕ} {step : σ → Fin n → σ} {invariant : ℕ → σ → Prop}
    (keeps : ∀ state (index : Fin n), invariant index state →
      invariant (index + 1) (step state index))
    {start : σ} (holds : invariant 0 start) : invariant n (sweep step start) := by
  induction n with
  | zero => exact holds
  | succ n ih =>
    let earlier : σ → Fin n → σ := fun state index => step state index.castSucc
    have before : invariant n (sweep earlier start) :=
      ih fun state index reached => keeps state index.castSucc reached
    have split : sweep step start = step (sweep earlier start) (Fin.last n) := by
      rw [sweep, List.finRange_succ_last, run_append, run_cons, run_nil, run, List.foldl_map]
      rfl
    rw [split]
    exact keeps _ (Fin.last n) before

/-- A counted loop after its first turns. -/
def turns {n : ℕ} (step : σ → Fin n → σ) (start : σ) (count : ℕ) : σ :=
  run step start ((List.finRange n).take count)

theorem turns_succ {n : ℕ} (step : σ → Fin n → σ) (start : σ) (index : Fin n) :
    turns step start (index + 1) = step (turns step start index) index := by
  have inside : index.val < (List.finRange n).length := by
    rw [List.length_finRange]
    exact index.isLt
  rw [turns, List.take_succ_eq_append_getElem inside, run_append, List.getElem_finRange]
  rfl

theorem turns_all {n : ℕ} (step : σ → Fin n → σ) (start : σ) :
    turns step start n = sweep step start := by
  rw [turns, List.take_of_length_le (Nat.le_of_eq List.length_finRange)]
  rfl

theorem set_self {n : ℕ} (old : Vector β n) (index : Fin n) (value : β) :
    (old.set index value index.isLt)[index] = value := by
  simp

theorem set_of_ne {n : ℕ} (old : Vector β n) {index other : Fin n} (different : index ≠ other)
    (value : β) : (old.set index value index.isLt)[other] = old[other] := by
  have values : index.val ≠ other.val := fun same => different (Fin.ext same)
  simp [values]

theorem set_same {n : ℕ} (old : Vector β n) (index : Fin n) : old.set index old[index] index.isLt = old :=
  Vector.set_getElem_self index.isLt

/-- A vector that a counted loop has written up to an index. -/
def filled {n : ℕ} (reached : ℕ) (old : Vector β n) (new : Fin n → β) : Vector β n :=
  Vector.ofFn fun index => if index.val < reached then new index else old[index]

theorem filled_zero {n : ℕ} (old : Vector β n) (new : Fin n → β) : filled 0 old new = old := by
  ext index inside
  simp [filled]

theorem filled_all {n : ℕ} (old : Vector β n) (new : Fin n → β) :
    filled n old new = Vector.ofFn new := by
  ext index inside
  simp [filled]

/-- The loop has not written the entry it comes to next. -/
theorem filled_at {n : ℕ} (old : Vector β n) (new : Fin n → β) (index : Fin n) :
    (filled index old new)[index] = old[index] := by
  simp [filled]

theorem filled_set {n : ℕ} (old : Vector β n) (new : Fin n → β) (index : Fin n) :
    (filled index old new).set index (new index) index.isLt = filled (index + 1) old new := by
  ext other inside
  by_cases same : index.val = other
  · subst same
    simp [filled]
  · have order : other < index.val + 1 ↔ other < index.val := by omega
    simp only [filled, Vector.getElem_set_ne _ _ same, Vector.getElem_ofFn, order]

/-- A map between two systems that takes every step to the step of the same action. -/
theorem run_map {τ : Type*} {step : σ → α → σ} {image : τ → α → τ} (f : σ → τ)
    (commutes : ∀ state action, image (f state) action = f (step state action)) (start : σ)
    (actions : List α) : run image (f start) actions = f (run step start actions) := by
  induction actions generalizing start with
  | nil => rfl
  | cons action rest ih => rw [run_cons, run_cons, commutes, ih]

theorem sweep_map {τ : Type*} {n : ℕ} {step : σ → Fin n → σ} {image : τ → Fin n → τ} (f : σ → τ)
    (commutes : ∀ state index, image (f state) index = f (step state index)) (start : σ) :
    sweep image (f start) = f (sweep step start) :=
  run_map f commutes start (List.finRange n)

/-- The step function with a recorder that sees the state before each action. -/
def recording (step : σ → α → σ) (record : γ → σ → α → γ) (state : σ × γ) (action : α) : σ × γ :=
  (step state.1 action, record state.2 state.1 action)

theorem run_recording_fst (step : σ → α → σ) (record : γ → σ → α → γ) (start : σ × γ)
    (actions : List α) :
    (run (recording step record) start actions).1 = run step start.1 actions := by
  induction actions generalizing start with
  | nil => rfl
  | cons action rest ih => exact ih (recording step record start action)

end GapsoRbfPid.Library.Transition
