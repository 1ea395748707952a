import Mathlib.Data.List.Nodup
import Mathlib.Logic.Relation

/-! # Descending a relation

A computation that calls itself goes down a relation: what is computed inside is `below`.  If it ends,
no cycle lies below its start (`not_cycle_of_acc`).  If it goes down further than there are different
places to go, it has come to one of them twice (`Descent.exists_cycle`).
-/

namespace Licensing

variable {α : Type} {below : α → α → Prop}

theorem irrefl_of_acc {a : α} (accessible : Acc below a) : ¬ below a a := by
  induction accessible with
  | intro a _ ih => exact fun loop => ih a loop loop

theorem not_cycle_of_acc {a : α} (accessible : Acc below a) :
    ¬ ∃ b, Relation.ReflTransGen below b a ∧ Relation.TransGen below b b := by
  rintro ⟨b, reached, cycle⟩
  have inside : Acc below b := by
    cases Relation.reflTransGen_iff_eq_or_transGen.mp reached with
    | inl same => exact same ▸ accessible
    | inr steps => exact accessible.inv_of_transGen steps
  exact irrefl_of_acc inside.transGen cycle

/-- Each member of the path lies below those before it. -/
def Descent (below : α → α → Prop) (path : List α) : Prop :=
  path.Pairwise fun upper lower => Relation.TransGen below lower upper

theorem Descent.cons {upper lower : α} {path : List α} (step : below lower upper)
    (descent : Descent below (lower :: path)) : Descent below (upper :: lower :: path) := by
  refine List.pairwise_cons.mpr ⟨?_, descent⟩
  intro a member
  cases List.mem_cons.mp member with
  | inl same => exact same ▸ .single step
  | inr deeper => exact .tail ((List.pairwise_cons.mp descent).1 a deeper) step

/-- A path that is longer than the list of the places it can go to meets one of them twice. -/
theorem Descent.exists_cycle {path places : List α} (descent : Descent below path)
    (known : path ⊆ places) (long : places.length < path.length) :
    ∃ a ∈ path, Relation.TransGen below a a := by
  -- Without a cycle, all members of the path would be different.
  by_contra none
  have distinct : path.Nodup := by
    refine descent.imp_of_mem fun {upper lower} member _ step same => ?_
    subst same
    exact none ⟨upper, member, step⟩
  have few := distinct.length_le_of_subset known
  omega

theorem Descent.reaches {start a : α} {path : List α} (descent : Descent below (start :: path))
    (member : a ∈ start :: path) : Relation.ReflTransGen below a start := by
  cases List.mem_cons.mp member with
  | inl same => exact same ▸ .refl
  | inr deeper => exact ((List.pairwise_cons.mp descent).1 a deeper).to_reflTransGen

end Licensing
