/-! # Sets as sorted lists

A finite set over an ordered type is kept as the strictly increasing list of its members. Two such
lists with the same members are the same list, so equality of sets is equality of values.

* `SortedSet.insert` — adds a member.
* `SortedSet.ofList` — the set of the members of a list.
* `mem_ofList` — members are neither lost nor invented.
* `sorted_ofList` — the list is strictly increasing.
* `eq_of_mem_iff` — two strictly increasing lists with the same members are equal.
-/

namespace Licensing.SortedSet

variable {α : Type} [Ord α]

/-- Adds `x` to a sorted list, unless an equal member is there. -/
def insert (x : α) : List α → List α
  | [] => [x]
  | y :: ys =>
    match compare x y with
    | .lt => x :: y :: ys
    | .eq => y :: ys
    | .gt => y :: insert x ys

/-- The sorted list of the members of `xs`, each once. -/
def ofList (xs : List α) : List α :=
  xs.foldr insert []

def union (xs ys : List α) : List α :=
  xs.foldr insert ys

theorem mem_insert [Std.LawfulEqOrd α] {x z : α} {l : List α} :
    z ∈ insert x l ↔ z = x ∨ z ∈ l := by
  induction l with
  | nil => simp [insert]
  | cons y ys ih =>
    unfold insert
    split
    · simp
    · rename_i equal
      have : x = y := Std.LawfulEqOrd.eq_of_compare equal
      simp [this]
    · simp only [List.mem_cons, ih]
      grind

theorem mem_union [Std.LawfulEqOrd α] {z : α} {xs ys : List α} :
    z ∈ union xs ys ↔ z ∈ xs ∨ z ∈ ys := by
  induction xs with
  | nil => simp [union]
  | cons x xs ih =>
    have step : union (x :: xs) ys = insert x (union xs ys) := rfl
    rw [step, mem_insert, ih, List.mem_cons, or_assoc]

theorem mem_ofList [Std.LawfulEqOrd α] {z : α} {xs : List α} : z ∈ ofList xs ↔ z ∈ xs := by
  have := @mem_union α _ _ z xs []
  simpa [ofList, union] using this

/-! ## Order -/

/-- Strictly increasing lists. -/
def Sorted (l : List α) : Prop :=
  l.Pairwise fun a b => compare a b = .lt

theorem sorted_insert [Std.LawfulEqOrd α] [Std.TransOrd α] (x : α) {l : List α}
    (sorted : Sorted l) : Sorted (insert x l) := by
  induction l with
  | nil => exact List.pairwise_singleton _ x
  | cons y ys ih =>
    obtain ⟨above, rest⟩ := List.pairwise_cons.mp sorted
    unfold insert
    split
    · rename_i less
      refine List.pairwise_cons.mpr ⟨?_, sorted⟩
      intro z member
      cases List.mem_cons.mp member with
      | inl equal => exact equal ▸ less
      | inr later => exact Std.TransCmp.lt_trans less (above z later)
    · exact sorted
    · rename_i greater
      refine List.pairwise_cons.mpr ⟨?_, ih rest⟩
      intro z member
      cases mem_insert.mp member with
      | inl equal => exact equal ▸ Std.OrientedCmp.lt_of_gt greater
      | inr later => exact above z later

theorem sorted_union [Std.LawfulEqOrd α] [Std.TransOrd α] (xs : List α) {ys : List α}
    (sorted : Sorted ys) : Sorted (union xs ys) := by
  induction xs with
  | nil => exact sorted
  | cons x xs ih => exact sorted_insert x ih

theorem sorted_ofList [Std.LawfulEqOrd α] [Std.TransOrd α] (xs : List α) : Sorted (ofList xs) :=
  sorted_union xs List.Pairwise.nil

theorem Sorted.nodup [Std.TransOrd α] {l : List α} (sorted : Sorted l) : l.Nodup := by
  refine sorted.imp fun {a b} less same => ?_
  subst same
  simp [Std.ReflCmp.compare_self] at less

/-- The least member of a strictly increasing list comes first, so the members determine it. -/
theorem eq_of_mem_iff [Std.TransOrd α] {xs ys : List α} (sortedXs : Sorted xs) (sortedYs : Sorted ys)
    (same : ∀ z, z ∈ xs ↔ z ∈ ys) : xs = ys := by
  induction xs generalizing ys with
  | nil =>
    cases ys with
    | nil => rfl
    | cons y ys => simpa using same y
  | cons x xs ih =>
    cases ys with
    | nil => simpa using same x
    | cons y ys =>
      obtain ⟨aboveX, restXs⟩ := List.pairwise_cons.mp sortedXs
      obtain ⟨aboveY, restYs⟩ := List.pairwise_cons.mp sortedYs
      have irrefl (a : α) : compare a a ≠ .lt := by simp [Std.ReflCmp.compare_self]
      have heads : x = y := by
        -- Otherwise each of the two heads would be below the other.
        cases List.mem_cons.mp ((same x).mp (List.mem_cons_self ..)) with
        | inl equal => exact equal
        | inr inYs =>
          cases List.mem_cons.mp ((same y).mpr (List.mem_cons_self ..)) with
          | inl equal => exact equal.symm
          | inr inXs =>
            exact absurd (Std.TransCmp.lt_trans (aboveX y inXs) (aboveY x inYs)) (irrefl x)
      subst heads
      refine congrArg (x :: ·) (ih restXs restYs fun z => ?_)
      constructor
      · intro member
        cases List.mem_cons.mp ((same z).mp (List.mem_cons_of_mem _ member)) with
        | inl equal => exact absurd (equal ▸ aboveX z member) (irrefl x)
        | inr later => exact later
      · intro member
        cases List.mem_cons.mp ((same z).mpr (List.mem_cons_of_mem _ member)) with
        | inl equal => exact absurd (equal ▸ aboveY z member) (irrefl x)
        | inr later => exact later

end Licensing.SortedSet
