import Licensing.Similarity.Scalar
import Mathlib.Analysis.Real.Sqrt
import Mathlib.Analysis.SpecialFunctions.Log.Basic

/-! # Numbers that can be sorted

* `Ordered` — numbers that `Scalar.lt` orders; doubles are, as long as each of them is a number.
* `Scalar ℝ` — the real numbers, with the natural logarithm and the square root.
-/

namespace Licensing.Similarity

/-- The numbers are ordered: of two, at most one is below the other, and to be not below is transitive. -/
structure Ordered {R : Type} [Scalar R] (numbers : List R) : Prop where
  asymm : ∀ a ∈ numbers, ∀ b ∈ numbers, Scalar.lt a b = true → Scalar.lt b a = false
  trans : ∀ a ∈ numbers, ∀ b ∈ numbers, ∀ c ∈ numbers,
    Scalar.lt a b = false → Scalar.lt b c = false → Scalar.lt a c = false

theorem Ordered.subset {R : Type} [Scalar R] {numbers others : List R} (ordered : Ordered numbers)
    (among : others ⊆ numbers) : Ordered others where
  asymm a inA b inB := ordered.asymm a (among inA) b (among inB)
  trans a inA b inB c inC := ordered.trans a (among inA) b (among inB) c (among inC)

noncomputable instance : Scalar ℝ where
  ofNat := Nat.cast
  add := (· + ·)
  mul := (· * ·)
  div := (· / ·)
  ln := Real.log
  sqrt := Real.sqrt
  lt a b := decide (a < b)

theorem lt_real_iff {a b : ℝ} : Scalar.lt a b = true ↔ a < b := by
  simp [Scalar.lt]

theorem ordered_real (numbers : List ℝ) : Ordered numbers where
  asymm a _ b _ below := by
    rw [← Bool.not_eq_true, lt_real_iff]
    exact not_lt_of_gt (lt_real_iff.mp below)
  trans a _ b _ c _ first second := by
    rw [← Bool.not_eq_true, lt_real_iff, not_lt] at first second ⊢
    exact second.trans first

end Licensing.Similarity
