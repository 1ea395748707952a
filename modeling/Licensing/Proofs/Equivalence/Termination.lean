import Licensing.Proofs.Equivalence.Bounds

/-! # When expansion ends

Tables over canonical expressions have an expansion of an expression exactly if no license that is
expanded on the way leads back to itself, and the bounds of `Equivalence.expand` and
`Equivalence.lookup` are met exactly if there is none.

One direction is `not_endless_of_expands`.  For the other one, a bound that is met cannot be the one
of a walk, so the expansion has gone down to the lowest level: `exists_nest` collects the licenses on
the way, one for each level.  They are more than the tables can write, so one of them occurs twice.

* `expansion_ends_iff` — expansion and look-up, with and without bounds.
* `expands_of_plain_values` — tables without exceptions always have an end.
-/

namespace Licensing.Equivalence

variable {equivalence : Equivalence} {root : Expression}

/-! ## Nests of expansions -/

/-- Licenses, each of which is expanded inside the expansions of those before it. -/
def Nest (equivalence : Equivalence) (nested : List SimpleTerm) : Prop :=
  nested.Pairwise fun outer inner => Relation.TransGen equivalence.Within inner outer

/-! ## Bounds that are met -/

section Bounded

variable (tables : equivalence.Canonical) (start : root.Canonical)

include tables start

/-- Walks have enough fuel, so an expansion meets a bound only in a look-up on the level below. -/
theorem exists_ask_of_not_settled {depth : Nat} {e : Expression}
    (admitted : e ∈ equivalence.meetable root ∨ hasException e = false)
    (failed : ¬ Settled
      (expandWith (equivalence.lookupAt (equivalence.reach root) depth) (equivalence.reach root) e)) :
    ∃ term exception, equivalence.Asks e term ∧
      .withException term exception ∈ equivalence.meetable root ∧
      ¬ Settled (equivalence.lookupAt (equivalence.reach root) depth
        (.withException term exception)) := by
  obtain ⟨unending, failed⟩ := not_settled_iff.mp failed
  obtain ⟨c, place, visits, reason⟩ :=
    exists_visit_of_expandWith (closed_lookupAt tables start _ depth)
      (looksUp_of_lookupAt _ depth) admitted (Nat.le_of_eq (length_meetable ..)) failed
  cases plain : hasException c with
  | false =>
    rw [lookupAt_plain _ _ plain] at reason
    cases reason
  | true =>
    obtain ⟨term, exception, rfl⟩ := withException_of_hasException plain
    refine ⟨term, exception, ⟨exception, visits⟩, ?_, not_settled_iff.mpr ⟨unending, reason⟩⟩
    cases place with
    | inr met => exact met
    | inl same =>
      subst same
      exact admitted.resolve_right (by simp [hasException])

/-- A look-up that meets a bound has gone down all levels. -/
theorem exists_nest {depth : Nat} {term : SimpleTerm} {exception : LicenseException}
    (met : .withException term exception ∈ equivalence.meetable root)
    (failed : ¬ Settled (equivalence.lookupAt (equivalence.reach root) depth
      (.withException term exception))) :
    ∃ nested, nested.length = depth ∧ equivalence.Nest (term :: nested) ∧
      term :: nested ⊆ equivalence.terms root := by
  have known := mem_terms_of_meetable met
  induction depth generalizing term exception with
  | zero => exact ⟨[], rfl, List.pairwise_singleton _ term, by simpa using known⟩
  | succ depth ih =>
    rw [lookupAt_withException, settled_carried] at failed
    obtain ⟨inner, exception', within, met', failed'⟩ :=
      exists_ask_of_not_settled tables start (.inr rfl) failed
    obtain ⟨nested, levels, nest, inside⟩ := ih met' failed' (mem_terms_of_meetable met')
    exact ⟨inner :: nested, by rw [List.length_cons, levels], Descent.cons within nest,
      List.cons_subset.mpr ⟨known, inside⟩⟩

/-- The levels are more than the licenses, so the lowest one is reached only through a cycle. -/
theorem exists_cycle_of_not_settled {term : SimpleTerm} {exception : LicenseException}
    (met : .withException term exception ∈ equivalence.meetable root)
    (failed : ¬ Settled (equivalence.lookupAt (equivalence.reach root) (equivalence.depth root)
      (.withException term exception))) :
    ∃ repeated, Relation.ReflTransGen equivalence.Within repeated term ∧
      Relation.TransGen equivalence.Within repeated repeated := by
  obtain ⟨nested, levels, nest, known⟩ := exists_nest tables start met failed
  have long : (equivalence.terms root).length < (term :: nested).length := by
    simp only [List.length_cons, levels, depth, terms]
    omega
  obtain ⟨repeated, member, cycle⟩ := Descent.exists_cycle nest known long
  exact ⟨repeated, Descent.reaches nest member, cycle⟩

end Bounded

/-! ## Ends and cycles -/

theorem endless_of_expand {e : Expression} (tables : equivalence.Canonical) (canonical : e.Canonical)
    (failed : ¬ Settled (equivalence.expand e)) : equivalence.Endless e := by
  have known : e ∈ equivalence.meetable e := mem_meetable.mpr (.inl (by simp))
  obtain ⟨term, exception, asks, met, failed'⟩ :=
    exists_ask_of_not_settled tables canonical (.inl known) failed
  obtain ⟨repeated, below, cycle⟩ := exists_cycle_of_not_settled tables canonical met failed'
  exact ⟨term, repeated, asks, below, cycle⟩

theorem endless_of_lookup {term : SimpleTerm} {exception : LicenseException}
    (tables : equivalence.Canonical)
    (failed : ¬ Settled (equivalence.lookup (.withException term exception))) :
    equivalence.Endless (.simple term) := by
  have known : Expression.withException term exception ∈
      equivalence.meetable (.withException term exception) := mem_meetable.mpr (.inl (by simp))
  obtain ⟨repeated, below, cycle⟩ :=
    exists_cycle_of_not_settled tables (by simp [Expression.Canonical]) known failed
  -- The cycle lies below the license, so there is a first step from the license towards it.
  obtain ⟨asked, above, within⟩ := Relation.TransGen.tail'_iff.mp (cycle.trans_left below)
  exact ⟨asked, repeated, within, above, cycle⟩

theorem expands_iff {e : Expression} (tables : equivalence.Canonical) (canonical : e.Canonical)
    (r : Except ExpansionFault Expression) :
    Expands equivalence e r ↔ equivalence.expand e = r ∧ Settled r := by
  constructor
  · intro run
    have settled : Settled (equivalence.expand e) := by
      by_contra failed
      exact not_endless_of_expands run (endless_of_expand tables canonical failed)
    have same := (expands_of_expandWith (looksUp_of_lookupAt _ _) settled).unique run
    exact ⟨same, same ▸ settled⟩
  · rintro ⟨rfl, settled⟩
    exact expands_of_expandWith (looksUp_of_lookupAt _ _) settled

theorem looksUp_iff {e : Expression} (tables : equivalence.Canonical)
    (r : Except ExpansionFault (List Expression)) :
    LooksUp equivalence e r ↔ equivalence.lookup e = r ∧ Settled r := by
  constructor
  · intro run
    have settled : Settled (equivalence.lookup e) := by
      match e with
      | .withException term exception =>
        by_contra failed
        obtain ⟨outcome, inside, -⟩ := run.inside
        exact not_endless_of_expands inside (endless_of_lookup tables failed)
      | .sentinel _ | .simple _ | .compound .. => exact settled_ok _
    have same := (looksUp_of_lookupAt _ _ e settled).unique run
    exact ⟨same, same ▸ settled⟩
  · rintro ⟨rfl, settled⟩
    exact looksUp_of_lookupAt _ _ e settled

/-- Expansion and look-up end exactly where no license is expanded inside its own expansion; then the
bounded computations have the same outcome, and otherwise they say that there is no end. -/
theorem expansion_ends_iff {e : Expression} (tables : equivalence.Canonical)
    (canonical : e.Canonical) :
    ((∃ r, Expands equivalence e r) ↔ ¬ equivalence.Endless e) ∧
    (∀ r, Expands equivalence e r ↔ equivalence.expand e = r ∧ Settled r) ∧
    ((∃ r, LooksUp equivalence e r) ↔
      ∀ term exception, e = .withException term exception → ¬ equivalence.Endless (.simple term)) ∧
    (∀ r, LooksUp equivalence e r ↔ equivalence.lookup e = r ∧ Settled r) := by
  refine ⟨⟨?_, ?_⟩, expands_iff tables canonical, ⟨?_, ?_⟩, looksUp_iff tables⟩
  · rintro ⟨r, run⟩
    exact not_endless_of_expands run
  · intro acyclic
    have settled : Settled (equivalence.expand e) := by
      by_contra failed
      exact acyclic (endless_of_expand tables canonical failed)
    exact ⟨_, (expands_iff tables canonical _).mpr ⟨rfl, settled⟩⟩
  · rintro ⟨r, run⟩ term exception rfl
    obtain ⟨outcome, inside, -⟩ := run.inside
    exact not_endless_of_expands inside
  · intro acyclic
    match e with
    | .withException term exception =>
      have settled : Settled (equivalence.lookup (.withException term exception)) := by
        by_contra failed
        exact acyclic term exception rfl (endless_of_lookup tables failed)
      exact ⟨_, (looksUp_iff tables _).mpr ⟨rfl, settled⟩⟩
    | .sentinel _ | .simple _ | .compound .. => exact ⟨_, .direct rfl⟩

/-- The tables send `A` to `A WITH x`, which has no end; the expansion of `B` does not meet it. -/
theorem expansion_ends_beside_cycle :
    let a : SimpleTerm := .exact (.free ⟨"A", []⟩)
    let b : Expression := .just (.free ⟨"B", []⟩)
    let c : Expression := .just (.free ⟨"C", []⟩)
    let equivalence : Equivalence :=
      ⟨[[(.simple a, [.withException a (.free ⟨"x", []⟩)]), (b, [c])]]⟩
    equivalence.Canonical ∧ b.Canonical ∧ ¬ equivalence.Endless b ∧
      Expands equivalence b (.ok c) ∧ LooksUp equivalence b (.ok [c]) := by
  intro a b c equivalence
  have tables : equivalence.Canonical := by
    simp [equivalence, c, Canonical, values, EquivalenceTable.values, Expression.Canonical]
  have canonical : b.Canonical := by simp [b, Expression.Canonical]
  obtain ⟨ends, runs, -, lookups⟩ := expansion_ends_iff tables canonical
  have expanded : equivalence.expand b = .ok c := Outcome.toOption_eq_some.mp (by decide +kernel)
  have found : equivalence.lookup b = .ok [c] := Outcome.toOption_eq_some.mp (by decide +kernel)
  have run := (runs _).mpr ⟨expanded, settled_ok c⟩
  exact ⟨tables, canonical, ends.mp ⟨_, run⟩, run, (lookups _).mpr ⟨found, settled_ok [c]⟩⟩

/-- A license that stands for itself with an exception has no expansion. -/
theorem not_expands_of_own_exception :
    let a : SimpleTerm := .exact (.free ⟨"A", []⟩)
    let equivalence : Equivalence := ⟨[[(.simple a, [.withException a (.free ⟨"x", []⟩)])]]⟩
    equivalence.Canonical ∧ (Expression.simple a).Canonical ∧
      ¬ ∃ r, Expands equivalence (.simple a) r := by
  intro a equivalence
  have tables : equivalence.Canonical := by
    simp [equivalence, Canonical, values, EquivalenceTable.values, Expression.Canonical]
  have found : equivalence.direct (.simple a) = [.withException a (.free ⟨"x", []⟩)] := by
    decide +kernel
  have first : LooksUp equivalence (.simple a) (.ok [.withException a (.free ⟨"x", []⟩)]) :=
    found ▸ .direct rfl
  have inside : equivalence.Within a a := ⟨_, .queued first .here⟩
  refine ⟨tables, by simp [Expression.Canonical], ?_⟩
  rintro ⟨r, run⟩
  exact not_endless_of_expands run ⟨a, a, inside, .refl, .single inside⟩

/-! ## Tables without exceptions -/

theorem Advances.plain {queue seen queue' seen' : List Expression}
    (advances : Advances equivalence queue seen queue' seen')
    (values : ∀ e ∈ equivalence.values, hasException e = false)
    (plain : ∀ e ∈ queue, hasException e = false) : ∀ e ∈ queue', hasException e = false := by
  induction advances with
  | here => exact plain
  | visit head rest ih =>
    have found := Except.ok.inj (head.plain (plain _ (by simp)))
    refine ih fun e member => ?_
    cases List.mem_append.mp member with
    | inl queued => exact plain e (.tail _ queued)
    | inr new =>
      have known := fresh_subset _ _ new
      rw [found] at known
      exact values e (direct_subset_values _ known)

/-- Licenses are expanded inside an expansion only if the tables bring in exceptions. -/
theorem not_within_of_plain_values (values : ∀ e ∈ equivalence.values, hasException e = false)
    (inner outer : SimpleTerm) : ¬ equivalence.Within inner outer := by
  intro within
  obtain ⟨exception, same⟩ | ⟨exception, start, queue, seen, first, advances⟩ := Asks.cases within
  · cases same
  · have found := Except.ok.inj (first.plain rfl)
    have plain : ∀ e ∈ start, hasException e = false := by
      intro e member
      rw [found] at member
      exact values e (direct_subset_values _ member)
    have carries := advances.plain values plain _ List.mem_cons_self
    simp [hasException] at carries

/-- Tables without exceptions have an expansion of everything. -/
theorem expands_of_plain_values {e : Expression} (tables : equivalence.Canonical)
    (canonical : e.Canonical) (values : ∀ e ∈ equivalence.values, hasException e = false) :
    ∃ r, Expands equivalence e r := by
  have settled : Settled (equivalence.expand e) := by
    by_contra failed
    obtain ⟨asked, term, -, -, cycle⟩ := endless_of_expand tables canonical failed
    obtain ⟨outer, -, within⟩ := Relation.TransGen.tail'_iff.mp cycle
    exact not_within_of_plain_values values _ _ within
  exact ⟨_, (expands_iff tables canonical _).mpr ⟨rfl, settled⟩⟩

end Licensing.Equivalence
