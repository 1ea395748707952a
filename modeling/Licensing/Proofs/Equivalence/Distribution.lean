import Licensing.Proofs.Equivalence.SimpleTables

/-! # Exceptions distribute over expansions

A license with an exception is expanded by attaching the exception to every alternative of the license.
Over tables of simple terms this is all that happens (`expand_withException`): no table speaks of
exceptions, so the first look-up gives the alternatives of the license with the exception attached, and each
of these is an end, because its license stands for nothing else.
-/

namespace Licensing.Equivalence

variable {equivalence : Equivalence}

/-! ## Attaching an exception -/

theorem exists_terms_of_simple {es : List Expression} (simple : ∀ e ∈ es, IsSimple e) :
    ∃ terms : List SimpleTerm, es = terms.map .simple := by
  induction es with
  | nil => exact ⟨[], rfl⟩
  | cons e es ih =>
    obtain ⟨term, rfl⟩ := simple e List.mem_cons_self
    obtain ⟨terms, rfl⟩ := ih fun d member => simple d (.tail _ member)
    exact ⟨term :: terms, rfl⟩

/-- Steps that succeed on all simple terms give a result for each of them. -/
theorem mapM_simple {ε : Type} {f : Expression → Except ε Expression} {g : SimpleTerm → Expression}
    (step : ∀ term, f (.simple term) = .ok (g term)) (terms : List SimpleTerm) :
    (terms.map .simple).mapM f = .ok (terms.map g) := by
  induction terms with
  | nil => rfl
  | cons term terms ih =>
    rw [List.map_cons, Outcome.mapM_cons, step, ih]
    rfl

theorem distribute_eq (term : SimpleTerm) (exception : LicenseException) {expanded : Expression}
    {terms : List SimpleTerm} (alternatives : expanded.operands .or = terms.map .simple) :
    distribute term exception expanded = .ok (terms.map (.withException · exception)) := by
  match expanded with
  | .simple t =>
    obtain ⟨t', rest, rfl, same, none⟩ := List.map_eq_cons_iff.mp alternatives.symm
    obtain rfl := List.map_eq_nil_iff.mp none
    cases same
    rfl
  | .compound .or es =>
    rw [Expression.operands_compound] at alternatives
    subst alternatives
    exact mapM_simple (g := (.withException · exception)) (fun _ => rfl) terms
  | .compound .and _ | .sentinel _ | .withException .. =>
    -- Nothing else is a choice, so it would be its own simple alternative.
    obtain ⟨_, _, _, same, -⟩ := List.map_eq_cons_iff.mp alternatives.symm
    cases same

namespace SimpleTables

variable (simple : SimpleTables equivalence)

include simple

theorem direct_withException (term : SimpleTerm) (exception : LicenseException) :
    equivalence.direct (.withException term exception) = [] := by
  apply direct_eq_nil
  intro table member entry inTable same
  obtain ⟨t, other⟩ := simple.keys table member entry inTable
  cases same.symm.trans other

/-- A license with an exception stands for the alternatives of the license with that exception, and for
nothing if the license expands to itself. -/
theorem lookup_withException {term : SimpleTerm} {expanded : Expression} {terms : List SimpleTerm}
    (ended : equivalence.expand (.simple term) = .ok expanded)
    (alternatives : expanded.operands .or = terms.map .simple) (exception : LicenseException) :
    equivalence.lookup (.withException term exception) =
      .ok (if expanded = .simple term then []
        else SortedSet.ofList (terms.map (.withException · exception))) := by
  have tables := simple.canonical
  have inside := (expands_iff tables (by simp [Expression.Canonical]) _).mpr ⟨ended, settled_ok expanded⟩
  have run : LooksUp equivalence (.withException term exception) _ := .carried inside
  simp only [carried, simple.direct_withException, distribute_eq term exception alternatives] at run
  rw [lookup_eq_ok_iff tables]
  split
  next unchanged =>
    rw [if_pos unchanged] at run
    exact run
  next changed =>
    rw [if_neg changed] at run
    exact run

theorem leaf_of_fixed {term : SimpleTerm} (fixed : equivalence.expand (.simple term) = .ok (.simple term))
    (exception : LicenseException) : equivalence.lookup (.withException term exception) = .ok [] := by
  have alone : (Expression.simple term).operands .or = [term].map .simple := by
    simp [Expression.operands]
  rw [simple.lookup_withException fixed alone]
  simp

/-- The alternatives of the expansion of a simple term are simple terms. -/
theorem exists_alternatives (term : SimpleTerm) :
    ∃ (expanded : Expression) (terms : List SimpleTerm),
      equivalence.expand (.simple term) = .ok expanded ∧
        expanded.operands .or = terms.map .simple := by
  have canonical : (Expression.simple term).Canonical := by simp [Expression.Canonical]
  obtain ⟨expanded, ended⟩ := simple.exists_expand canonical
  have run := (expands_iff simple.canonical canonical _).mpr ⟨ended, settled_ok expanded⟩
  obtain ⟨_, same, parts⟩ := run.ok_of_simple_values simple.values
  obtain rfl := Except.ok.inj same
  obtain ⟨terms, alternatives⟩ := exists_terms_of_simple (parts ⟨term, rfl⟩)
  exact ⟨expanded, terms, ended, alternatives⟩

/-- What a license with an exception leads to are the alternatives of the license with that exception, and
all of them are ends. -/
theorem end_withException_iff {term : SimpleTerm} {expanded : Expression} {terms : List SimpleTerm}
    (ended : equivalence.expand (.simple term) = .ok expanded) (changed : expanded ≠ .simple term)
    (alternatives : expanded.operands .or = terms.map .simple) (exception : LicenseException)
    (e : Expression) :
    e ∈ terms.map (.withException · exception) ↔
      Reaches equivalence.lookup (.withException term exception) e ∧ equivalence.lookup e = .ok [] := by
  have start := simple.lookup_withException ended alternatives exception
  rw [if_neg changed] at start
  have leaf (d : Expression) (member : d ∈ terms.map (Expression.withException · exception)) :
      equivalence.lookup d = .ok [] := by
    obtain ⟨t, inTerms, rfl⟩ := List.mem_map.mp member
    have part : .simple t ∈ expanded.operands .or := alternatives ▸ List.mem_map_of_mem inTerms
    have single (connective : Connective) (es : List Expression) :
        Expression.simple term ≠ .compound connective es := by
      intro same
      cases same
    exact simple.leaf_of_fixed (simple.fixed_of_mem_operands single ended part).1 exception
  constructor
  · intro member
    exact ⟨.step start (SortedSet.mem_ofList.mpr member), leaf e member⟩
  · rintro ⟨reached, -⟩
    induction reached with
    | step found member =>
      cases start.symm.trans found
      exact SortedSet.mem_ofList.mp member
    | tail _ found member met =>
      -- Nothing is reached behind an end.
      cases (leaf _ met).symm.trans found
      cases member

end SimpleTables

/-! ## Expansion -/

/-- Over tables of simple terms, a simple term and the same term with an exception both have an expansion;
the second one is the choice between the alternatives of the first one with the exception attached.  A
term that expands to itself does so with every exception. -/
theorem expand_withException (simple : SimpleTables equivalence) (term : SimpleTerm)
    (exception : LicenseException) :
    ∃ expanded alternatives distributed, Expands equivalence (.simple term) (.ok expanded) ∧
      equivalence.expand (.simple term) = .ok expanded ∧
      (expanded.operands .or).mapM (Expression.attach? · exception) = .ok alternatives ∧
      Expression.joined .or alternatives = .ok distributed ∧
      Expands equivalence (.withException term exception) (.ok distributed) ∧
      equivalence.expand (.withException term exception) = .ok distributed ∧
      (expanded = .simple term → distributed = .withException term exception) := by
  have tables := simple.canonical
  have canonical : (Expression.withException term exception).Canonical := by simp [Expression.Canonical]
  obtain ⟨expanded, terms, ended, parts⟩ := simple.exists_alternatives term
  have run := (expands_iff tables (by simp [Expression.Canonical]) _).mpr ⟨ended, settled_ok expanded⟩
  have attached : (expanded.operands .or).mapM (Expression.attach? · exception) =
      .ok (terms.map (.withException · exception)) := by
    rw [parts]
    exact mapM_simple (g := (.withException · exception)) (fun _ => rfl) terms
  by_cases unchanged : expanded = .simple term
  · subst unchanged
    have fixed := expand_of_leaf (simple.leaf_of_fixed ended exception)
    have only : terms = [term] := by simpa [Expression.operands] using parts.symm
    refine ⟨_, _, .withException term exception, run, ended, attached, ?_,
      (expands_iff tables canonical _).mpr ⟨fixed, settled_ok _⟩, fixed, fun _ => rfl⟩
    simp [only, Expression.joined, Expression.combine?, Expression.operandSet, Expression.operands,
      SortedSet.ofList, SortedSet.insert]
  · obtain ⟨distributed, ended'⟩ := simple.exists_expand canonical
    obtain ⟨-, -, choices⟩ := expand_eq_choice_of_ends tables canonical ended'
    obtain ⟨-, chosen⟩ := choices _ (simple.end_withException_iff ended unchanged parts exception)
    have several : terms.map (Expression.withException · exception) ≠ [] := by
      have some := (tables.expand (by simp [Expression.Canonical]) ended).operands_ne_nil .or
      rw [parts] at some
      simpa using some
    refine ⟨_, _, distributed, run, ended, attached, ?_,
      (expands_iff tables canonical _).mpr ⟨ended', settled_ok _⟩, ended',
      fun same => absurd same unchanged⟩
    simp [Expression.joined, chosen several]

/-- `A` and `B` or later lead to one another, and both lead to further licenses; `C` only leads to itself. -/
theorem expand_withException_beside_cycles :
    let a : SimpleTerm := .exact (.free ⟨"A", []⟩)
    let b : SimpleTerm := .orLater (.free ⟨"B", []⟩)
    let c : SimpleTerm := .exact (.free ⟨"C", []⟩)
    let d : SimpleTerm := .orLater (.free ⟨"D", []⟩)
    let f : SimpleTerm := .exact (.free ⟨"F", []⟩)
    let x : LicenseException := .free ⟨"x", []⟩
    let equivalence : Equivalence :=
      ⟨[[(.simple a, [.simple b, .simple c, .simple d]), (.simple c, [.simple c])],
        [(.simple b, [.simple a, .simple f])]]⟩
    let distributed := (Expression.withException d x).or (.withException f x)
    SimpleTables equivalence ∧
      equivalence.expand (.simple a) = .ok ((Expression.simple d).or (.simple f)) ∧
      Expands equivalence (.withException a x) (.ok distributed) ∧
      equivalence.expand (.withException a x) = .ok distributed ∧
      equivalence.expand (.withException c x) = .ok (.withException c x) := by
  intro a b c d f x equivalence distributed
  have simple : SimpleTables equivalence := by decide +kernel
  have known : equivalence.expand (.simple a) = .ok ((Expression.simple d).or (.simple f)) :=
    Outcome.toOption_eq_some.mp (by decide +kernel)
  have fixed : equivalence.expand (.simple c) = .ok (.simple c) :=
    Outcome.toOption_eq_some.mp (by decide +kernel)
  have attached : (((Expression.simple d).or (.simple f)).operands .or).mapM
      (Expression.attach? · x) = .ok [.withException f x, .withException d x] :=
    Outcome.toOption_eq_some.mp (by decide +kernel)
  obtain ⟨expanded, alternatives, whole, -, ended, attached', joined, run, ended', -⟩ :=
    expand_withException simple a x
  obtain rfl := Except.ok.inj (known.symm.trans ended)
  obtain rfl := Except.ok.inj (attached.symm.trans attached')
  obtain rfl : whole = distributed :=
    Except.ok.inj (joined.symm.trans (Outcome.toOption_eq_some.mp (by decide +kernel)))
  obtain ⟨expanded', _, whole', -, ended, -, -, -, unchanged, alone⟩ := expand_withException simple c x
  obtain rfl := alone (Except.ok.inj (ended.symm.trans fixed))
  exact ⟨simple, known, run, ended', unchanged⟩

end Licensing.Equivalence
