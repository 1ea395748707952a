import Licensing.Proofs.Equivalence.Closure

/-! # Expanding twice

An expansion that has changed its expression is a choice between ends, and ends stand for nothing else.
That does not make it final.  The choice is a new expression, which has never been looked up, and the
tables may have an entry for it; and an end that is itself a choice is taken apart when ends are joined,
while its alternatives have never been looked up on their own.  These are the only two gaps:

* `expand_expand` — an expansion is left alone by another one, unless it is a choice with an entry.
* `expand_alternative` — an alternative of an expansion stands for nothing else, unless it comes out of a
  choice among the values of the tables.
-/

namespace Licensing.Equivalence

variable {equivalence : Equivalence}

/-! ## Expansions -/

/-- A changed expansion that is no choice is an end. -/
theorem lookup_expand {e expanded : Expression} (tables : equivalence.Canonical)
    (canonical : e.Canonical) (ended : equivalence.expand e = .ok expanded)
    (changed : expanded ≠ e) (single : ∀ ds, expanded ≠ .compound .or ds) :
    equivalence.lookup expanded = .ok [] := by
  have alone : expanded.operands .or = [expanded] := Expression.operands_eq_singleton single
  have alternatives := mem_operands_expand tables canonical ended changed
  simp only [alone, List.mem_singleton] at alternatives
  obtain ⟨t, reached, leaf, -⟩ := (alternatives expanded).mp rfl
  -- The operands of an end are alternatives of the expansion, so the end has one only.
  have within (d : Expression) (member : d ∈ t.operands .or) : d = expanded :=
    (alternatives d).mpr ⟨t, reached, leaf, member⟩
  have canonicalEnd := canonical_of_reaches tables canonical reached
  obtain ⟨d, member⟩ := List.exists_mem_of_ne_nil _ (canonicalEnd.operands_ne_nil .or)
  have same : t = expanded := by
    refine Expression.Canonical.ext_operands .or canonicalEnd (tables.expand canonical ended) fun c => ?_
    rw [alone, List.mem_singleton]
    exact ⟨within c, fun equal => equal ▸ within d member ▸ member⟩
  exact same ▸ leaf

/-- Another expansion changes nothing, unless the first one has made a choice that the tables have an
entry for. -/
theorem expand_expand {e expanded : Expression} (tables : equivalence.Canonical)
    (canonical : e.Canonical) (ended : equivalence.expand e = .ok expanded)
    (unlisted : ∀ ds, expanded = .compound .or ds → expanded ≠ e → equivalence.direct expanded = []) :
    equivalence.expand expanded = .ok expanded := by
  by_cases changed : expanded = e
  · rw [changed] at ended ⊢
    exact ended
  · apply expand_of_leaf
    cases Expression.joined_or_alone .or expanded with
    | inl joined =>
      -- A choice has not been looked up on the way; it leads where the tables say, so nowhere.
      obtain ⟨ds, rfl⟩ := joined
      rw [lookup_eq_ok_iff tables, ← unlisted ds rfl changed]
      exact .direct rfl
    | inr alone => exact lookup_expand tables canonical ended changed alone

/-- `A` or later stands for `A` and for `B` or later; an exception is carried along. -/
theorem expand_expand_with_exception :
    let a : License := .free ⟨"A", []⟩
    let b : License := .free ⟨"B", []⟩
    let x : LicenseException := .free ⟨"x", []⟩
    let equivalence : Equivalence :=
      ⟨[[(.orLater a, [.just a, .orLater b]), (.orLater b, [.just b])]]⟩
    let e : Expression := .withException (.orLater a) x
    let expanded := Expression.or (.withException (.exact a) x) (.withException (.exact b) x)
    equivalence.Canonical ∧ e.Canonical ∧ equivalence.expand e = .ok expanded ∧ expanded ≠ e ∧
      equivalence.direct expanded = [] ∧ equivalence.expand expanded = .ok expanded := by
  intro a b x equivalence e expanded
  have tables : equivalence.Canonical := by
    simp [equivalence, Canonical, values, EquivalenceTable.values, Expression.Canonical]
  have canonical : e.Canonical := by simp [e, Expression.Canonical]
  have ended : equivalence.expand e = .ok expanded := Outcome.toOption_eq_some.mp (by decide +kernel)
  have changed : expanded ≠ e := by decide +kernel
  have unlisted : equivalence.direct expanded = [] := by decide +kernel
  exact ⟨tables, canonical, ended, changed, unlisted,
    expand_expand tables canonical ended fun _ _ _ => unlisted⟩

/-- The tables have an entry for the choice that the expansion of `A` makes. -/
theorem expand_expand_of_listed_choice :
    let a : Expression := .just (.free ⟨"A", []⟩)
    let b : Expression := .just (.free ⟨"B", []⟩)
    let c : Expression := .just (.free ⟨"C", []⟩)
    let d : Expression := .just (.free ⟨"D", []⟩)
    let equivalence : Equivalence := ⟨[[(a, [b, c]), (b.or c, [d])]]⟩
    equivalence.Canonical ∧ a.Canonical ∧ equivalence.expand a = .ok (b.or c) ∧
      equivalence.expand (b.or c) = .ok d ∧ d ≠ b.or c := by
  intro a b c d equivalence
  have tables : equivalence.Canonical := by
    simp [equivalence, b, c, d, Canonical, values, EquivalenceTable.values, Expression.Canonical]
  have first : equivalence.expand a = .ok (b.or c) := Outcome.toOption_eq_some.mp (by decide +kernel)
  have second : equivalence.expand (b.or c) = .ok d := Outcome.toOption_eq_some.mp (by decide +kernel)
  exact ⟨tables, by simp [a, Expression.Canonical], first, second, by decide +kernel⟩

/-! ## Alternatives -/

/-- An alternative of a changed expansion stands for nothing else, unless it comes out of a choice in the
tables that stands for nothing else as a whole. -/
theorem expand_alternative {e expanded p : Expression} (tables : equivalence.Canonical)
    (canonical : e.Canonical) (ended : equivalence.expand e = .ok expanded)
    (changed : expanded ≠ e) (alternative : p ∈ expanded.operands .or) :
    (equivalence.lookup p = .ok [] ∧ equivalence.expand p = .ok p) ∨
    ∃ ds, p ∈ ds ∧ .compound .or ds ∈ equivalence.values ∧
      Reaches equivalence.lookup e (.compound .or ds) ∧
      equivalence.lookup (.compound .or ds) = .ok [] := by
  obtain ⟨t, reached, leaf, operand⟩ :=
    (mem_operands_expand tables canonical ended changed p).mp alternative
  cases Expression.joined_or_alone .or t with
  | inl joined =>
    -- Look-ups attach exceptions to licenses only, so a choice can only come from the tables.
    obtain ⟨ds, rfl⟩ := joined
    rw [Expression.operands_compound] at operand
    exact .inr ⟨ds, operand, mem_values_of_reaches tables reached rfl, reached, leaf⟩
  | inr alone =>
    rw [Expression.operands_eq_singleton alone, List.mem_singleton] at operand
    subst operand
    exact .inl ⟨leaf, expand_of_leaf leaf⟩

/-- The alternatives of `A` or later with an exception, which are licenses with that exception. -/
theorem expand_alternative_with_exception :
    let a : License := .free ⟨"A", []⟩
    let b : License := .free ⟨"B", []⟩
    let x : LicenseException := .free ⟨"x", []⟩
    let equivalence : Equivalence :=
      ⟨[[(.orLater a, [.just a, .orLater b]), (.orLater b, [.just b])]]⟩
    let e : Expression := .withException (.orLater a) x
    let p : Expression := .withException (.exact b) x
    ∃ expanded, equivalence.Canonical ∧ e.Canonical ∧ equivalence.expand e = .ok expanded ∧
      expanded ≠ e ∧ p ∈ expanded.operands .or ∧
      equivalence.lookup p = .ok [] ∧ equivalence.expand p = .ok p := by
  intro a b x equivalence e p
  have tables : equivalence.Canonical := by
    simp [equivalence, Canonical, values, EquivalenceTable.values, Expression.Canonical]
  have canonical : e.Canonical := by simp [e, Expression.Canonical]
  have ended : equivalence.expand e = .ok (Expression.or (.withException (.exact a) x) p) :=
    Outcome.toOption_eq_some.mp (by decide +kernel)
  have changed : Expression.or (.withException (.exact a) x) p ≠ e := by decide +kernel
  have alternative : p ∈ (Expression.or (.withException (.exact a) x) p).operands .or := by
    decide +kernel
  refine ⟨_, tables, canonical, ended, changed, alternative, ?_⟩
  obtain terminal | ⟨ds, -, choice, -⟩ :=
    expand_alternative tables canonical ended changed alternative
  · exact terminal
  · -- No value of the table is a choice.
    simp [equivalence, values, EquivalenceTable.values] at choice

/-- `A` stands for the choice between `B` and `C`, which has no entry, but `B` has one. -/
theorem expand_alternative_of_choice :
    let a : Expression := .just (.free ⟨"A", []⟩)
    let b : Expression := .just (.free ⟨"B", []⟩)
    let c : Expression := .just (.free ⟨"C", []⟩)
    let d : Expression := .just (.free ⟨"D", []⟩)
    let equivalence : Equivalence := ⟨[[(a, [b.or c]), (b, [d])]]⟩
    equivalence.Canonical ∧ a.Canonical ∧ equivalence.expand a = .ok (b.or c) ∧ b.or c ≠ a ∧
      b ∈ (b.or c).operands .or ∧ equivalence.lookup b = .ok [d] ∧ equivalence.expand b = .ok d ∧
      d ≠ b := by
  intro a b c d equivalence
  have choice : (b.or c).Canonical :=
    Expression.Canonical.combine (by simp [b, Expression.Canonical])
      (by simp [c, Expression.Canonical])
  have tables : equivalence.Canonical := by
    simp [equivalence, d, choice, Canonical, values, EquivalenceTable.values, Expression.Canonical]
  have expanded : equivalence.expand a = .ok (b.or c) :=
    Outcome.toOption_eq_some.mp (by decide +kernel)
  have found : equivalence.lookup b = .ok [d] := Outcome.toOption_eq_some.mp (by decide +kernel)
  have onward : equivalence.expand b = .ok d := Outcome.toOption_eq_some.mp (by decide +kernel)
  exact ⟨tables, by simp [a, Expression.Canonical], expanded, by decide +kernel, by decide +kernel,
    found, onward, by decide +kernel⟩

end Licensing.Equivalence
