import Mathlib.Data.Nat.Init
import Mathlib.Data.Nat.Notation
import Mathlib.Tactic.TypeStar

/-! What two notations rest on: a vector read at an index of type `Fin`, which is in range by
its type, and the numerals of a field, which need to be known to be at least two. -/

namespace GapsoRbfPid.Library.Vectors

variable {n : ℕ} {β : Type*}

instance getElemFin : GetElem (Vector β n) (Fin n) β fun _ _ => True where
  getElem values index _ := getElem values index.val index.isLt

@[simp] theorem getElem_fin (values : Vector β n) (index : Fin n) :
    values[index] = getElem values index.val index.isLt := rfl

instance two : Nat.AtLeastTwo 2 := ⟨by decide⟩
instance three : Nat.AtLeastTwo 3 := ⟨by decide⟩
instance four : Nat.AtLeastTwo 4 := ⟨by decide⟩
instance ten : Nat.AtLeastTwo 10 := ⟨by decide⟩
instance hundred : Nat.AtLeastTwo 100 := ⟨by decide⟩
instance thousand : Nat.AtLeastTwo 1000 := ⟨by decide⟩

end GapsoRbfPid.Library.Vectors
