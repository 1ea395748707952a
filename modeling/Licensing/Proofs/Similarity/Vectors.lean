import Licensing.Proofs.Lookup
import Licensing.Proofs.Similarity.Numbers
import Licensing.Similarity.Model
import Mathlib.Algebra.BigOperators.Ring.Finset
import Mathlib.Algebra.Order.BigOperators.Group.Finset
import Mathlib.Tactic.Linarith
import Mathlib.Tactic.Ring

/-! # Vectors over the real numbers

A vector lists the weights of some indices; over the real numbers it stands for a function on all indices that is zero
elsewhere (`Vector.weight`).  Lengths and products are sums over any finite set of indices that contains the listed ones
(`Vector.sum_entries`), so it does not matter in which order the entries stand, nor which of two vectors is the shorter
one.  Between two vectors of length one the squares of the differences sum up to `2 - 2 * dot` (`Vector.sum_sq_sub`):
this bounds the product, and leaves it to be one for equal vectors only.

* `Vector.Normal` — a vector of length one without negative weights.
-/

namespace Licensing.Similarity

theorem sum_real (numbers : List ℝ) : Scalar.sum numbers = numbers.sum := by
  rw [Scalar.sum, List.sum_eq_foldl, show (Scalar.zero : ℝ) = 0 from Nat.cast_zero]
  rfl

theorem isZero_real_iff {x : ℝ} : Scalar.isZero x = true ↔ x = 0 := by
  have zero : (Scalar.zero : ℝ) = 0 := Nat.cast_zero
  rw [Scalar.isZero, Bool.and_eq_true, Bool.not_eq_true', Bool.not_eq_true', ← Bool.not_eq_true, ← Bool.not_eq_true,
    lt_real_iff, lt_real_iff, zero, not_lt, not_lt]
  exact ⟨fun ⟨above, below⟩ => le_antisymm below above, fun same => ⟨same.ge, same.le⟩⟩

namespace Vector

theorem keys_unit {R : Type} [Scalar R] {v : Vector R} (nonempty : v.unit ≠ []) :
    v.unit.map Prod.fst = v.map Prod.fst := by
  rw [unit] at nonempty ⊢
  split
  next zero => exact absurd (if_pos zero) nonempty
  next => simp [List.map_map, Function.comp_def]

variable {v a b : Vector ℝ} {i : Nat} {w : ℝ} {among : Finset Nat}

/-- The weight of an index. -/
noncomputable def weight (v : Vector ℝ) (i : Nat) : ℝ :=
  (v.lookup i).getD 0

theorem weight_cons (i j : Nat) (w : ℝ) (v : Vector ℝ) :
    weight ((i, w) :: v) j = if j = i then w else v.weight j := by
  rw [weight, lookup_cons_eq_if]
  split <;> rfl

theorem weight_of_mem (once : (v.map Prod.fst).Nodup) (member : (i, w) ∈ v) : v.weight i = w := by
  rw [weight, (mem_iff_lookup once).mp member, Option.getD_some]

theorem weight_of_not_mem (absent : i ∉ v.map Prod.fst) : v.weight i = 0 := by
  have none : v.lookup i = none := by
    refine List.lookup_eq_none_iff.mpr fun entry member => ?_
    have other : i ≠ entry.1 := fun same => absent (same ▸ List.mem_map_of_mem member)
    simpa using other
  rw [weight, none, Option.getD_none]

theorem weight_nonneg (positive : ∀ entry ∈ v, 0 ≤ entry.2) (i : Nat) : 0 ≤ v.weight i := by
  induction v with
  | nil => exact le_rfl
  | cons entry v ih =>
    obtain ⟨first, others⟩ := List.forall_mem_cons.mp positive
    rw [weight_cons]
    split
    · exact first
    · exact ih others

theorem nonneg_of_weight (once : (v.map Prod.fst).Nodup) (positive : ∀ i, 0 ≤ v.weight i) :
    ∀ entry ∈ v, 0 ≤ entry.2 := by
  intro entry member
  rw [← weight_of_mem once member]
  exact positive entry.1

/-- A vector is determined by its indices and its weights. -/
theorem eq_of_weight (once : (a.map Prod.fst).Nodup) (keys : a.map Prod.fst = b.map Prod.fst)
    (same : ∀ i, a.weight i = b.weight i) : a = b := by
  have entries {v : Vector ℝ} (once : (v.map Prod.fst).Nodup) :
      v = (v.map Prod.fst).map fun i => (i, v.weight i) := by
    rw [List.map_map]
    refine (List.map_id v).symm.trans (List.map_congr_left fun entry member => ?_)
    exact Prod.ext rfl (weight_of_mem once member).symm
  calc a
    _ = (a.map Prod.fst).map fun i => (i, a.weight i) := entries once
    _ = (b.map Prod.fst).map fun i => (i, b.weight i) := by simp only [keys, same]
    _ = b := (entries (keys ▸ once)).symm

/-! ## Sums -/

/-- A sum over the entries of a vector is a sum over any indices among which are its own. -/
theorem sum_entries {f : ℝ → Nat → ℝ} (zero : ∀ i, f 0 i = 0) (once : (v.map Prod.fst).Nodup)
    (within : ∀ entry ∈ v, entry.1 ∈ among) :
    (v.map fun entry => f entry.2 entry.1).sum = ∑ i ∈ among, f (v.weight i) i := by
  induction v with
  | nil => simp [weight, zero]
  | cons entry v ih =>
    obtain ⟨i, w⟩ := entry
    obtain ⟨here, within⟩ := List.forall_mem_cons.mp within
    obtain ⟨new, once⟩ := List.nodup_cons.mp once
    -- The first entry is the only one with its index, so it adds its own term to the sum.
    have term (j : Nat) : f (weight ((i, w) :: v) j) j = (if j = i then f w i else 0) + f (weight v j) j := by
      rw [weight_cons]
      split
      next same =>
        subst same
        rw [weight_of_not_mem new, zero, add_zero]
      next => rw [zero_add]
    rw [List.map_cons, List.sum_cons, ih once within, Finset.sum_congr rfl fun j _ => term j, Finset.sum_add_distrib,
      Finset.sum_ite_eq' among i, if_pos here]

/-- The indices of two vectors. -/
def indices (a b : Vector ℝ) : Finset Nat :=
  (a.map Prod.fst ++ b.map Prod.fst).toFinset

theorem mem_indices_left (a b : Vector ℝ) : ∀ entry ∈ a, entry.1 ∈ indices a b := by
  intro entry member
  simpa [indices] using Or.inl ⟨entry.2, member⟩

theorem mem_indices_right (a b : Vector ℝ) : ∀ entry ∈ b, entry.1 ∈ indices a b := by
  intro entry member
  simpa [indices] using Or.inr ⟨entry.2, member⟩

theorem norm_eq (once : (v.map Prod.fst).Nodup) (within : ∀ entry ∈ v, entry.1 ∈ among) :
    v.norm = Real.sqrt (∑ i ∈ among, v.weight i * v.weight i) := by
  have squares := sum_entries (f := fun w _ => w * w) (by simp) once within
  rw [norm, sum_real, ← squares]
  rfl

theorem dot_real (a b : Vector ℝ) : a.dot b =
    if b.length < a.length then (b.map fun entry => entry.2 * a.weight entry.1).sum
    else (a.map fun entry => entry.2 * b.weight entry.1).sum := by
  have zero : (Scalar.zero : ℝ) = 0 := Nat.cast_zero
  by_cases shorter : b.length < a.length
  · simp only [dot, if_pos shorter, sum_real, zero]
    rfl
  · simp only [dot, if_neg shorter, sum_real, zero]
    rfl

/-- The product does not depend on which of the vectors is the shorter one. -/
theorem dot_eq (onceA : (a.map Prod.fst).Nodup) (onceB : (b.map Prod.fst).Nodup)
    (withinA : ∀ entry ∈ a, entry.1 ∈ among) (withinB : ∀ entry ∈ b, entry.1 ∈ among) :
    a.dot b = ∑ i ∈ among, a.weight i * b.weight i := by
  rw [dot_real]
  split
  · rw [sum_entries (f := fun w i => w * a.weight i) (by simp) onceB withinB]
    exact Finset.sum_congr rfl fun i _ => mul_comm ..
  · exact sum_entries (f := fun w i => w * b.weight i) (by simp) onceA withinA

theorem dot_congr {c : Vector ℝ} (onceA : (a.map Prod.fst).Nodup) (onceB : (b.map Prod.fst).Nodup)
    (onceC : (c.map Prod.fst).Nodup) (same : ∀ i, a.weight i = b.weight i) : a.dot c = b.dot c := by
  let among := indices a b ∪ indices c []
  have withinC : ∀ entry ∈ c, entry.1 ∈ among := fun entry member =>
    Finset.mem_union_right _ (mem_indices_left c [] entry member)
  rw [dot_eq onceA onceC (fun entry member => Finset.mem_union_left _ (mem_indices_left a b entry member)) withinC,
    dot_eq onceB onceC (fun entry member => Finset.mem_union_left _ (mem_indices_right a b entry member)) withinC]
  simp only [same]

theorem dot_nonneg (positiveA : ∀ entry ∈ a, 0 ≤ entry.2) (positiveB : ∀ entry ∈ b, 0 ≤ entry.2) : 0 ≤ a.dot b := by
  rw [dot_real]
  split
  · refine List.sum_nonneg fun product member => ?_
    obtain ⟨entry, inside, rfl⟩ := List.mem_map.mp member
    exact mul_nonneg (positiveB entry inside) (weight_nonneg positiveA _)
  · refine List.sum_nonneg fun product member => ?_
    obtain ⟨entry, inside, rfl⟩ := List.mem_map.mp member
    exact mul_nonneg (positiveA entry inside) (weight_nonneg positiveB _)

theorem nil_dot (b : Vector ℝ) : dot [] b = 0 := by
  rw [dot_real]
  split <;> simp_all

theorem dot_nil (a : Vector ℝ) : a.dot [] = 0 := by
  rw [dot_real]
  simp [weight]

/-! ## Lengths -/

theorem norm_eq_zero_iff (once : (v.map Prod.fst).Nodup) : v.norm = 0 ↔ ∀ i, v.weight i = 0 := by
  have squares (i : Nat) : 0 ≤ v.weight i * v.weight i := mul_self_nonneg _
  rw [norm_eq once (mem_indices_left v []), Real.sqrt_eq_zero (Finset.sum_nonneg fun i _ => squares i),
    Finset.sum_eq_zero_iff_of_nonneg fun i _ => squares i]
  constructor
  · intro zero i
    by_cases listed : i ∈ v.map Prod.fst
    · exact mul_self_eq_zero.mp (zero i (by simpa [indices] using listed))
    · exact weight_of_not_mem listed
  · intro zero i _
    rw [zero, mul_zero]

theorem norm_congr (once : (a.map Prod.fst).Nodup) (once' : (b.map Prod.fst).Nodup)
    (same : ∀ i, a.weight i = b.weight i) : a.norm = b.norm := by
  rw [norm_eq once (mem_indices_left a b), norm_eq once' (mem_indices_right a b)]
  simp only [same]

theorem unit_eq (v : Vector ℝ) :
    v.unit = if v.norm = 0 then [] else v.map fun entry => (entry.1, entry.2 / v.norm) := by
  simp only [unit, isZero_real_iff]
  rfl

theorem norm_ne_zero (nonempty : v.unit ≠ []) : v.norm ≠ 0 :=
  fun zero => nonempty (by rw [unit_eq, if_pos zero])

theorem unit_eq_nil_iff (once : (v.map Prod.fst).Nodup) : v.unit = [] ↔ ∀ i, v.weight i = 0 := by
  rw [unit_eq, ← norm_eq_zero_iff once]
  split
  next zero => exact iff_of_true rfl zero
  next length =>
    rw [List.map_eq_nil_iff]
    refine iff_of_false (fun none => length ((norm_eq_zero_iff once).mpr fun i => ?_)) length
    rw [none, weight, List.lookup_nil, Option.getD_none]

theorem weight_map_div (v : Vector ℝ) (x : ℝ) (i : Nat) :
    weight (v.map fun entry => (entry.1, entry.2 / x)) i = v.weight i / x := by
  induction v with
  | nil => exact (zero_div x).symm
  | cons entry v ih =>
    rw [List.map_cons, weight_cons, weight_cons, ih]
    split <;> rfl

theorem weight_unit (v : Vector ℝ) (i : Nat) : v.unit.weight i = v.weight i / v.norm := by
  rw [unit_eq]
  split
  next zero =>
    rw [zero, div_zero]
    rfl
  next => exact weight_map_div ..

/-- A vector of length one without negative weights, in which no index is listed twice. -/
structure Normal (v : Vector ℝ) : Prop where
  once : (v.map Prod.fst).Nodup
  nonneg : ∀ entry ∈ v, 0 ≤ entry.2
  length : Real.sqrt (v.map fun entry => entry.2 ^ 2).sum = 1

theorem normal_unit (once : (v.map Prod.fst).Nodup) (nonneg : ∀ entry ∈ v, 0 ≤ entry.2) (nonempty : v.unit ≠ []) :
    v.unit.Normal := by
  have positive : v.norm ≠ 0 := norm_ne_zero nonempty
  have square : (v.map fun entry => entry.2 * entry.2).sum = v.norm * v.norm := by
    have squares : 0 ≤ (v.map fun entry => entry.2 * entry.2).sum := by
      refine List.sum_nonneg fun square member => ?_
      obtain ⟨entry, -, rfl⟩ := List.mem_map.mp member
      exact mul_self_nonneg _
    rw [norm, sum_real]
    exact (Real.mul_self_sqrt squares).symm
  have unit : v.unit = v.map fun entry => (entry.1, entry.2 / v.norm) := by rw [unit_eq, if_neg positive]
  refine ⟨keys_unit nonempty ▸ once, fun entry member => ?_, Real.sqrt_eq_one.mpr ?_⟩
  · obtain ⟨before, inside, rfl⟩ := List.mem_map.mp (unit ▸ member)
    exact div_nonneg (nonneg before inside) (Real.sqrt_nonneg _)
  · calc (v.unit.map fun entry => entry.2 ^ 2).sum
      _ = (v.map fun entry => entry.2 * entry.2 * (v.norm * v.norm)⁻¹).sum := by
        rw [unit, List.map_map]
        refine congrArg List.sum (List.map_congr_left fun entry _ => ?_)
        show (entry.2 / v.norm) ^ 2 = _
        rw [div_pow, sq, sq, div_eq_mul_inv]
      _ = 1 := by
        rw [List.sum_map_mul_right, square]
        exact mul_inv_cancel₀ (mul_ne_zero positive positive)

/-! ## Products of vectors of length one -/

theorem Normal.sum_sq (normal : v.Normal) (within : ∀ entry ∈ v, entry.1 ∈ among) :
    ∑ i ∈ among, v.weight i ^ 2 = 1 := by
  rw [← sum_entries (f := fun w _ => w ^ 2) (by simp) normal.once within]
  exact Real.sqrt_eq_one.mp normal.length

theorem Normal.dot_self (normal : v.Normal) : v.dot v = 1 := by
  rw [dot_eq normal.once normal.once (mem_indices_left v []) (mem_indices_left v []),
    ← normal.sum_sq (mem_indices_left v [])]
  exact Finset.sum_congr rfl fun i _ => (sq _).symm

/-- The squares of the differences sum up to what the product is short of one, twice. -/
theorem sum_sq_sub (left : a.Normal) (right : b.Normal) :
    ∑ i ∈ indices a b, (a.weight i - b.weight i) ^ 2 = 2 - 2 * a.dot b := by
  rw [dot_eq left.once right.once (mem_indices_left a b) (mem_indices_right a b)]
  calc ∑ i ∈ indices a b, (a.weight i - b.weight i) ^ 2
    _ = ∑ i ∈ indices a b, (a.weight i ^ 2 + b.weight i ^ 2 - 2 * (a.weight i * b.weight i)) :=
      Finset.sum_congr rfl fun i _ => by ring
    _ = 2 - 2 * ∑ i ∈ indices a b, a.weight i * b.weight i := by
      rw [Finset.sum_sub_distrib, Finset.sum_add_distrib, ← Finset.mul_sum, left.sum_sq (mem_indices_left a b),
        right.sum_sq (mem_indices_right a b)]
      ring

theorem Normal.dot_le_one (left : a.Normal) (right : b.Normal) : a.dot b ≤ 1 := by
  have squares : 0 ≤ ∑ i ∈ indices a b, (a.weight i - b.weight i) ^ 2 := Finset.sum_nonneg fun i _ => sq_nonneg _
  rw [sum_sq_sub left right] at squares
  linarith

theorem Normal.weight_eq_of_dot (left : a.Normal) (right : b.Normal) (one : a.dot b = 1) (i : Nat) :
    a.weight i = b.weight i := by
  have squares := sum_sq_sub left right
  rw [one, mul_one, sub_self, Finset.sum_eq_zero_iff_of_nonneg fun i _ => sq_nonneg _] at squares
  by_cases listed : i ∈ indices a b
  · exact sub_eq_zero.mp (pow_eq_zero_iff two_ne_zero |>.mp (squares i listed))
  · simp only [indices, List.mem_toFinset, List.mem_append, not_or] at listed
    rw [weight_of_not_mem listed.1, weight_of_not_mem listed.2]

end Vector

end Licensing.Similarity
