import Mathlib.Data.List.Nodup
import Mathlib.Data.List.Sort

/-! # Sorting by an order of the members

The laws of an order may hold for the members of a list only, as for numbers some of which cannot be compared.  A sort
of the list is still sorted, and it is stable.
-/

namespace Licensing

variable {α : Type} {le : α → α → Bool} {xs zs : List α} {a b : α}

theorem map_mergeSort_attach (xs : List α) (le : α → α → Bool) :
    (xs.attach.mergeSort fun a b => le a b).map Subtype.val = xs.mergeSort le := by
  rw [List.map_mergeSort (s := le) fun _ _ _ _ => rfl, List.attach_map_subtype_val]

section Members

variable (trans : ∀ a ∈ xs, ∀ b ∈ xs, ∀ c ∈ xs, le a b = true → le b c = true → le a c = true)
  (total : ∀ a ∈ xs, ∀ b ∈ xs, (le a b || le b a) = true)

include trans total

theorem pairwise_mergeSort : (xs.mergeSort le).Pairwise fun a b => le a b = true := by
  rw [← map_mergeSort_attach, List.pairwise_map]
  exact List.pairwise_mergeSort (fun (a b c : { a // a ∈ xs }) => trans a a.2 b b.2 c c.2)
    (fun (a b : { a // a ∈ xs }) => total a a.2 b b.2) xs.attach

/-- Members that are in order keep their order. -/
theorem sublist_mergeSort (sublist : zs.Sublist xs) (sorted : zs.Pairwise fun a b => le a b = true) :
    zs.Sublist (xs.mergeSort le) := by
  rw [← xs.attach_map_subtype_val, List.sublist_map_iff] at sublist
  obtain ⟨zs, sublist, rfl⟩ := sublist
  rw [← map_mergeSort_attach]
  refine List.Sublist.map _ (List.sublist_mergeSort (fun (a b c : { a // a ∈ xs }) => trans a a.2 b b.2 c c.2)
    (fun (a b : { a // a ∈ xs }) => total a a.2 b b.2) ?_ sublist)
  exact List.pairwise_map.mp sorted

end Members

/-! ## The order of two members -/

theorem pair_sublist_or (memberA : a ∈ xs) (memberB : b ∈ xs) (other : a ≠ b) :
    [a, b].Sublist xs ∨ [b, a].Sublist xs := by
  induction xs with
  | nil => cases memberA
  | cons x xs ih =>
    obtain rfl | behindA := List.mem_cons.mp memberA
    · obtain rfl | behindB := List.mem_cons.mp memberB
      · exact absurd rfl other
      · exact .inl (.cons_cons a (List.singleton_sublist.mpr behindB))
    · obtain rfl | behindB := List.mem_cons.mp memberB
      · exact .inr (.cons_cons b (List.singleton_sublist.mpr behindA))
      · exact (ih behindA behindB).imp (.cons x) (.cons x)

theorem not_pair_sublist_swap (nodup : xs.Nodup) (before : [a, b].Sublist xs) : ¬ [b, a].Sublist xs := by
  induction xs with
  | nil => cases before
  | cons x xs ih =>
    obtain ⟨new, nodup⟩ := List.nodup_cons.mp nodup
    intro behind
    cases before with
    | cons _ before =>
      cases behind with
      | cons _ behind => exact ih nodup before behind
      | cons_cons _ behind => exact new (before.subset (by simp))
    | cons_cons _ before =>
      cases behind with
      | cons _ behind => exact new (behind.subset (by simp))
      | cons_cons _ behind => exact new (behind.subset (by simp))

end Licensing
