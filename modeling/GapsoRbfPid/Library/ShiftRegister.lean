import GapsoRbfPid.Library.Vectors

/-! A shift register of fixed length, and the register filled from a history that is
kept newest first. -/

namespace GapsoRbfPid.Library.ShiftRegister

variable {α : Type*} {n : ℕ}

/-- Every entry moves one place up, the last one is lost and `value` enters at index 0. -/
def shiftIn (value : α) (register : Vector α n) : Vector α n :=
  Vector.ofFn fun i => if i.val = 0 then value else register[i.val - 1]

theorem shiftIn_keeps {property : α → Prop} {value : α} {register : Vector α n}
    (enters : property value) (holds : ∀ i : Fin n, property register[i]) (i : Fin n) :
    property (shiftIn value register)[i] := by
  have inside : i.val - 1 < n := by omega
  simp only [shiftIn, Vectors.getElem_fin, Vector.getElem_ofFn]
  by_cases first : i.val = 0
  · rw [if_pos first]
    exact enters
  · rw [if_neg first]
    exact holds ⟨i.val - 1, inside⟩

/-- The newest entries of a history, with a default where the history is too short. -/
def window (default : α) (history : List α) : Vector α n :=
  Vector.ofFn fun i => history.getD i default

theorem window_get (default : α) (history : List α) (i : Fin n) :
    (window default history : Vector α n)[i] = history.getD i default := by
  simp [window]

@[simp] theorem window_nil (default : α) :
    (window default [] : Vector α n) = Vector.replicate n default := by
  ext i bound
  simp [window]

/-- Shifting a value in is what a longer history shows through the same window. -/
theorem window_cons (default value : α) (history : List α) :
    (window default (value :: history) : Vector α n) =
      shiftIn value (window default history) := by
  ext i bound
  cases i with
  | zero => simp [window, shiftIn]
  | succ i => simp [window, shiftIn]

end GapsoRbfPid.Library.ShiftRegister
