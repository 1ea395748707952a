import Licensing.Proofs.Equivalence.Closure

/-! # Tables of simple terms

Tables that send everything to simple terms have an expansion for everything: what an exception has to be
attached to is always a choice between simple terms (`Expands.ok_of_simple_values`).  If their keys are
simple as well, only licenses, alone or with an exception, stand for anything else, and the alternatives of
an expansion stand for nothing else (`SimpleTables.fixed_of_mem_operands`).
-/

namespace Licensing.Equivalence

variable {equivalence : Equivalence}

def IsSimple (e : Expression) : Prop := ∃ term, e = .simple term

instance : DecidablePred IsSimple
  | .simple term => .isTrue ⟨term, rfl⟩
  | .sentinel _ | .withException .. | .compound .. => .isFalse nofun

theorem IsSimple.plain {e : Expression} (simple : IsSimple e) : hasException e = false := by
  obtain ⟨term, rfl⟩ := simple
  rfl

theorem IsSimple.canonical {e : Expression} (simple : IsSimple e) : e.Canonical := by
  obtain ⟨term, rfl⟩ := simple
  simp [Expression.Canonical]

/-! ## Expansions that succeed -/

/-- A choice between simple terms can carry an exception. -/
theorem exists_distribute (term : SimpleTerm) (exception : LicenseException) {expanded : Expression}
    (simple : ∀ p ∈ expanded.operands .or, IsSimple p) :
    ∃ carrying, distribute term exception expanded = .ok carrying := by
  match expanded with
  | .simple t => exact ⟨_, rfl⟩
  | .compound .or ops =>
    rw [Expression.operands_compound] at simple
    cases attached : distribute term exception (.compound .or ops) with
    | ok carrying => exact ⟨carrying, rfl⟩
    | error fault =>
      obtain ⟨p, member, failed⟩ := Outcome.exists_of_mapM_eq_error attached
      obtain ⟨t, rfl⟩ := simple p member
      cases failed
  | .compound .and _ | .sentinel _ | .withException .. =>
    obtain ⟨t, same⟩ := simple _ (List.mem_singleton_self _)
    cases same

mutual

theorem LooksUp.ok_of_simple_values (simple : ∀ d ∈ equivalence.values, IsSimple d) {e : Expression}
    {r : Except ExpansionFault (List Expression)} :
    LooksUp equivalence e r → ∃ successors, r = .ok successors ∧
      (hasException e = false → ∀ d ∈ successors, IsSimple d)
  | .direct _ => ⟨_, rfl, fun _ d member => simple d (direct_subset_values e member)⟩
  | @LooksUp.carried _ term exception _ inside => by
    obtain ⟨expanded, rfl, parts⟩ := inside.ok_of_simple_values simple
    obtain ⟨carrying, attached⟩ := exists_distribute term exception (parts ⟨term, rfl⟩)
    unfold carried
    by_cases unchanged : expanded = .simple term
    · simp [unchanged, hasException]
    · simp [unchanged, attached, Except.map, hasException]

theorem Walks.ok_of_simple_values (simple : ∀ d ∈ equivalence.values, IsSimple d)
    {queue seen : List Expression} {r : Except ExpansionFault (List Expression)} :
    Walks equivalence queue seen r → ∃ terminals, r = .ok terminals ∧
      ((∀ c ∈ queue, IsSimple c) → ∀ t ∈ terminals, IsSimple t)
  | .done => ⟨[], rfl, by simp⟩
  | .fault head => by
    obtain ⟨_, same, -⟩ := head.ok_of_simple_values simple
    cases same
  | @Walks.visit _ e queue seen successors _ head rest => by
    obtain ⟨successors', same, next⟩ := head.ok_of_simple_values simple
    obtain rfl := Except.ok.inj same
    obtain ⟨terminals, rfl, ends⟩ := rest.ok_of_simple_values simple
    refine ⟨_, rfl, fun queued t member => ?_⟩
    have first : IsSimple e := queued e (by simp)
    have queued' : ∀ c ∈ queue ++ fresh seen successors, IsSimple c := by
      intro c inQueue
      cases List.mem_append.mp inQueue with
      | inl old => exact queued c (.tail _ old)
      | inr new => exact next first.plain c (List.mem_of_mem_filter new)
    obtain ⟨-, rfl⟩ | inside := mem_collect.mp member
    · exact first
    · exact ends queued' t inside

theorem Expands.ok_of_simple_values (simple : ∀ d ∈ equivalence.values, IsSimple d) {e : Expression}
    {r : Except ExpansionFault Expression} :
    Expands equivalence e r → ∃ expanded, r = .ok expanded ∧
      (IsSimple e → ∀ p ∈ expanded.operands .or, IsSimple p)
  | .fault start => by
    obtain ⟨_, same, -⟩ := start.ok_of_simple_values simple
    cases same
  | .itself _ => by
    refine ⟨e, rfl, ?_⟩
    rintro ⟨term, rfl⟩ p member
    obtain rfl := List.mem_singleton.mp member
    exact ⟨term, rfl⟩
  | .walk first _ walk => by
    obtain ⟨start, same, next⟩ := first.ok_of_simple_values simple
    obtain rfl := Except.ok.inj same
    obtain ⟨terminals, rfl, ends⟩ := walk.ok_of_simple_values simple
    refine ⟨_, rfl, ?_⟩
    intro simple' p member
    have terms := ends (next simple'.plain)
    unfold choiceOr at member
    cases joined : Expression.combine? .or terminals with
    | none =>
      obtain ⟨term, rfl⟩ := simple'
      rw [joined] at member
      obtain rfl := List.mem_singleton.mp member
      exact ⟨term, rfl⟩
    | some choice =>
      rw [joined, Option.getD_some,
        Expression.mem_operands_of_combine? (fun t inside => (terms t inside).canonical) joined]
        at member
      obtain ⟨t, inside, operand⟩ := member
      obtain ⟨term, rfl⟩ := terms t inside
      obtain rfl := List.mem_singleton.mp operand
      exact ⟨term, rfl⟩

end

theorem exists_expands_of_simple_values (simple : ∀ d ∈ equivalence.values, IsSimple d)
    {e : Expression} (canonical : e.Canonical) :
    ∃ expanded, Expands equivalence e (.ok expanded) := by
  have tables : equivalence.Canonical := fun d member => (simple d member).canonical
  obtain ⟨r, run⟩ := expands_of_plain_values tables canonical fun d member => (simple d member).plain
  obtain ⟨expanded, rfl, -⟩ := run.ok_of_simple_values simple
  exact ⟨expanded, run⟩

/-! ## Alternatives that stand for nothing else -/

/-- The tables mention nothing but simple terms. -/
structure SimpleTables (equivalence : Equivalence) : Prop where
  keys : ∀ table ∈ equivalence.tables, ∀ entry ∈ table, IsSimple entry.1
  values : ∀ d ∈ equivalence.values, IsSimple d

theorem simpleTables_iff : SimpleTables equivalence ↔
    (∀ table ∈ equivalence.tables, ∀ entry ∈ table, IsSimple entry.1) ∧
      ∀ d ∈ equivalence.values, IsSimple d :=
  ⟨fun simple => ⟨simple.keys, simple.values⟩, fun ⟨keys, values⟩ => ⟨keys, values⟩⟩

instance : Decidable (SimpleTables equivalence) :=
  decidable_of_iff _ simpleTables_iff.symm

namespace SimpleTables

variable (simple : SimpleTables equivalence) {e expanded p : Expression}

include simple

theorem canonical : equivalence.Canonical :=
  fun d member => (simple.values d member).canonical

theorem exists_expand (canonical : e.Canonical) : ∃ expanded, equivalence.expand e = .ok expanded := by
  obtain ⟨expanded, run⟩ := exists_expands_of_simple_values simple.values canonical
  exact ⟨expanded, ((expands_iff simple.canonical canonical _).mp run).1⟩

theorem expand_compound (connective : Connective) (es : List Expression) :
    equivalence.expand (.compound connective es) = .ok (.compound connective es) := by
  apply expand_of_unlisted rfl
  intro table member entry inTable same
  obtain ⟨term, other⟩ := simple.keys table member entry inTable
  cases same.symm.trans other

/-- An alternative of the expansion of a single expression is a single expression that expands to
itself. -/
theorem fixed_of_mem_operands (single : ∀ connective es, e ≠ .compound connective es)
    (ended : equivalence.expand e = .ok expanded) (part : p ∈ expanded.operands .or) :
    equivalence.expand p = .ok p ∧ ∀ connective es, p ≠ .compound connective es := by
  by_cases changed : expanded = e
  · subst changed
    obtain rfl := (Expression.mem_operands_alone (single .or)).mp part
    exact ⟨ended, single⟩
  · have canonical := Expression.canonical_of_single single
    obtain ⟨t, reached, leaf, operand⟩ :=
      (mem_operands_expand simple.canonical canonical ended changed p).mp part
    have alone (connective : Connective) (es : List Expression) : t ≠ .compound connective es := by
      rintro rfl
      -- Only the tables could lead to a compound expression.
      obtain ⟨term, same⟩ := simple.values _ (mem_values_of_reaches simple.canonical reached rfl)
      cases same
    obtain rfl := (Expression.mem_operands_alone (alone .or)).mp operand
    exact ⟨expand_of_leaf leaf, alone⟩

end SimpleTables

end Licensing.Equivalence
