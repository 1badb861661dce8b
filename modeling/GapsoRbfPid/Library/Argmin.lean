import GapsoRbfPid.Library.Transition
import Mathlib.Order.Lattice

/-! The search for the least entry of a vector: one comparison with each entry in turn, and a
strictly smaller entry takes the place of the least one so far. -/

namespace GapsoRbfPid.Library.Argmin
open Transition

variable {α : Type*} [LinearOrder α] {n : ℕ}

def compare (values : Vector α n) (best : α × Fin n) (j : Fin n) : α × Fin n :=
  if best.1 > values[j] then (values[j], j) else best

/-- The value and the index that the search ends with. -/
def scan (values : Vector α n) (first : Fin n) : α × Fin n :=
  sweep (compare values) (values[first], first)

theorem compare_le (values : Vector α n) (best : α × Fin n) (j : Fin n) :
    (compare values best j).1 ≤ best.1 ∧ (compare values best j).1 ≤ values[j] := by
  unfold compare
  split_ifs with smaller
  · exact ⟨le_of_lt smaller, le_refl _⟩
  · exact ⟨le_refl _, not_lt.mp smaller⟩

/-- The search returns an entry together with its index. -/
theorem scan_attained (values : Vector α n) (first : Fin n) :
    (scan values first).1 = values[(scan values first).2] := by
  let attained : α × Fin n → Prop := fun best => best.1 = values[best.2]
  have keeps : ∀ best (j : Fin n), attained best → attained (compare values best j) := by
    intro best j found
    unfold compare
    split_ifs
    · exact rfl
    · exact found
  have start : attained (values[first], first) := rfl
  exact sweep_keeps keeps start

/-- No entry is smaller than the one that is returned. -/
theorem scan_le (values : Vector α n) (first : Fin n) (j : Fin n) :
    (scan values first).1 ≤ values[j] := by
  let lower : ℕ → α × Fin n → Prop := fun reached best =>
    ∀ j : Fin n, j.val < reached → best.1 ≤ values[j]
  have keeps : ∀ best (index : Fin n), lower index best →
      lower (index + 1) (compare values best index) := by
    intro best index below j inside
    obtain ⟨old, new⟩ := compare_le values best index
    by_cases same : j = index
    · subst same
      exact new
    · have earlier : j.val < index.val :=
        Nat.lt_of_le_of_ne (Nat.le_of_lt_succ inside) (fun equal => same (Fin.ext equal))
      exact le_trans old (below j earlier)
  have start : lower 0 (values[first], first) := fun j inside => absurd inside (Nat.not_lt_zero _)
  have ends : lower n (scan values first) := sweep_invariant keeps start
  exact ends j j.isLt

/-- A first entry that is least already is never replaced. -/
theorem scan_first {values : Vector α n} {first : Fin n} (least : ∀ j : Fin n, values[first] ≤ values[j]) :
    scan values first = (values[first], first) := by
  let unmoved : α × Fin n → Prop := fun best => best = (values[first], first)
  have keeps : ∀ best (j : Fin n), unmoved best → unmoved (compare values best j) := by
    rintro best j rfl
    exact if_neg (not_lt.mpr (least j))
  have start : unmoved (values[first], first) := rfl
  exact sweep_keeps keeps start

end GapsoRbfPid.Library.Argmin
