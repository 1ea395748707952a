import Mathlib.Data.List.Forall2

/-! # Lists that are related member by member

What is related to a list is related part by part, and each of its members is related to some member.
-/

namespace Licensing

variable {α β : Type} {R : α → β → Prop}

theorem exists_of_forall₂ {xs : List α} {ys : List β} (related : List.Forall₂ R xs ys) {x : α} (member : x ∈ xs) :
    ∃ y ∈ ys, R x y := by
  induction related with
  | nil => cases member
  | cons first _ ih =>
    cases List.mem_cons.mp member with
    | inl same => exact ⟨_, List.mem_cons_self, same ▸ first⟩
    | inr later =>
      obtain ⟨y, inside, pair⟩ := ih later
      exact ⟨y, .tail _ inside, pair⟩

theorem exists_of_forall₂_right {xs : List α} {ys : List β} (related : List.Forall₂ R xs ys) {y : β} (member : y ∈ ys) :
    ∃ x ∈ xs, R x y :=
  exists_of_forall₂ (R := flip R) related.flip member

theorem forall₂_append_iff {front back : List α} {ys : List β} : List.Forall₂ R (front ++ back) ys ↔
    ∃ first second, List.Forall₂ R front first ∧ List.Forall₂ R back second ∧ ys = first ++ second := by
  constructor
  · intro related
    exact ⟨_, _, (List.forall₂_take_append ys front back related.flip).flip,
      (List.forall₂_drop_append ys front back related.flip).flip, (List.take_append_drop ..).symm⟩
  · rintro ⟨first, second, related, related', rfl⟩
    exact List.rel_append related related'

end Licensing
