import GapsoRbfPid.Library.Vectors
import Mathlib.Data.List.Forall2

/-! A channel that may lose what it carries, and may change it on the way in, but keeps the
order: what has come out of it and what is still inside is, item for item, a changed part of
what was offered. -/

namespace GapsoRbfPid.Library.LossyChannel

variable {α : Type*}

structure Channel (α : Type*) where
  offered : List α
  held : List α
  delivered : List α

/-- One move of the channel; `change got sent` says what may become of an item on its way in. -/
inductive Move (change : α → α → Prop) : Channel α → Channel α → Prop where
  | carry (channel : Channel α) (sent got : α) : change got sent →
      Move change channel
        { channel with offered := channel.offered ++ [sent], held := channel.held ++ [got] }
  | deliver (channel : Channel α) (item : α) (rest : List α) : channel.held = item :: rest →
      Move change channel
        { channel with held := rest, delivered := channel.delivered ++ [item] }
  | lose (channel : Channel α) (missed rest : List α) : rest.Sublist channel.held →
      Move change channel { channel with offered := channel.offered ++ missed, held := rest }

theorem Move.loses {change : α → α → Prop} {channel : Channel α} {rest : List α}
    (fewer : rest.Sublist channel.held) : Move change channel { channel with held := rest } := by
  have move : Move change channel _ := .lose channel [] rest fewer
  rwa [List.append_nil] at move

/-- The content of the channel is a changed part of what was offered, in its order. -/
def InOrder (change : α → α → Prop) (channel : Channel α) : Prop :=
  List.SublistForall₂ change (channel.delivered ++ channel.held) channel.offered

/-- Nothing was lost. -/
def Lossless (change : α → α → Prop) (channel : Channel α) : Prop :=
  List.Forall₂ change (channel.delivered ++ channel.held) channel.offered

variable {change : α → α → Prop}

theorem sublistForall_append {got sent : List α} (part : List.SublistForall₂ change got sent)
    (more : List α) : List.SublistForall₂ change got (sent ++ more) := by
  obtain ⟨whole, changed, sublist⟩ := List.sublistForall₂_iff.mp part
  exact List.sublistForall₂_iff.mpr ⟨whole, changed, List.sublist_append_of_sublist_left sublist⟩

theorem sublistForall_concat {got sent : List α} {x y : α}
    (part : List.SublistForall₂ change got sent) (changed : change x y) :
    List.SublistForall₂ change (got ++ [x]) (sent ++ [y]) := by
  obtain ⟨whole, related, sublist⟩ := List.sublistForall₂_iff.mp part
  apply List.sublistForall₂_iff.mpr
  exact ⟨whole ++ [y], List.rel_append related (.cons changed .nil), sublist.append (List.Sublist.refl [y])⟩

theorem sublistForall_of_sublist {part got sent : List α} (sublist : part.Sublist got)
    (whole : List.SublistForall₂ change got sent) : List.SublistForall₂ change part sent := by
  induction whole generalizing part with
  | nil =>
    rw [List.eq_nil_of_sublist_nil sublist]
    exact .nil
  | cons changed _ ih =>
    cases sublist with
    | cons _ fewer => exact .cons_right (ih fewer)
    | cons_cons _ fewer => exact .cons changed (ih fewer)
  | cons_right _ ih => exact .cons_right (ih sublist)

theorem Move.inOrder {before after : Channel α} (move : Move change before after)
    (ordered : InOrder change before) : InOrder change after := by
  cases move with
  | carry sent got changed =>
    unfold InOrder
    rw [← List.append_assoc]
    exact sublistForall_concat ordered changed
  | deliver item rest first =>
    unfold InOrder at ordered ⊢
    rw [List.append_assoc, List.singleton_append, ← first]
    exact ordered
  | lose missed rest fewer =>
    apply sublistForall_append
    exact sublistForall_of_sublist (List.Sublist.append_left fewer before.delivered) ordered

theorem inOrder_empty : InOrder change ⟨[], [], []⟩ := .nil

/-- A channel that changes nothing delivers a part of what was offered. -/
theorem InOrder.sublist {channel : Channel α} (ordered : InOrder change channel)
    (same : ∀ x y, change x y → x = y) :
    (channel.delivered ++ channel.held).Sublist channel.offered := by
  obtain ⟨whole, related, sublist⟩ := List.sublistForall₂_iff.mp ordered
  have equal : List.Forall₂ Eq (channel.delivered ++ channel.held) whole :=
    related.imp fun x y changed => same x y changed
  rw [List.forall₂_eq_eq_eq] at equal
  rw [equal]
  exact sublist

theorem Lossless.carry {channel : Channel α} (whole : Lossless change channel) {sent got : α}
    (changed : change got sent) : Lossless change
      { channel with offered := channel.offered ++ [sent], held := channel.held ++ [got] } := by
  unfold Lossless
  rw [← List.append_assoc]
  exact List.rel_append whole (.cons changed .nil)

theorem Lossless.deliver {channel : Channel α} (whole : Lossless change channel) {item : α}
    {rest : List α} (first : channel.held = item :: rest) : Lossless change
      { channel with held := rest, delivered := channel.delivered ++ [item] } := by
  unfold Lossless at whole ⊢
  rw [List.append_assoc, List.singleton_append, ← first]
  exact whole

end GapsoRbfPid.Library.LossyChannel
