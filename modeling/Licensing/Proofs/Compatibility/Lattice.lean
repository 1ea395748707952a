import Licensing.Proofs.Compatibility.Coverage
import Licensing.Proofs.Compatibility.Monotonicity
import Licensing.Proofs.Compatibility.Termination

/-! # Verdicts form a lattice

Where neither policy nor tables have entries for compound expressions, the verdict of a combination is the
worse one of its two sides, and the verdict of a choice the better one (`Evaluates.combine`).  Joining
merges operands and drops those that occur twice, so what is evaluated are not the two sides; but the
verdict of either side is the verdict of an operand that is still there, and bounds those of the others.

Verdicts are a chain, so this is a distributive lattice.  `Bracketing` is an expression with the brackets in
which it was joined, and `Bracketing.Rearranges` are the laws of distributive lattices, applied anywhere in
it.  They leave the verdict as it is (`evaluate_lattice`).
-/

namespace Licensing

/-! ## The lattice of verdicts -/

namespace Connective

/-- The verdict of two sides that are joined: the worse one for `AND`, the better one for `OR`. -/
def meet (connective : Connective) (v w : Verdict) : Verdict :=
  if connective.Bounds v w then v else w

def other : Connective → Connective
  | .and => .or
  | .or => .and

theorem rank_meet_and (v w : Verdict) : (and.meet v w).rank = min v.rank w.rank := by
  cases v <;> cases w <;> rfl

theorem rank_meet_or (v w : Verdict) : (or.meet v w).rank = max v.rank w.rank := by
  cases v <;> cases w <;> rfl

theorem meet_comm (connective : Connective) (v w : Verdict) :
    connective.meet v w = connective.meet w v := by
  cases connective <;> cases v <;> cases w <;> rfl

theorem meet_assoc (connective : Connective) (u v w : Verdict) :
    connective.meet (connective.meet u v) w = connective.meet u (connective.meet v w) := by
  cases connective <;> cases u <;> cases v <;> cases w <;> rfl

theorem meet_self (connective : Connective) (v : Verdict) : connective.meet v v = v := by
  simp [meet]

theorem meet_absorb (connective : Connective) (v w : Verdict) :
    connective.meet v (connective.other.meet v w) = v := by
  cases connective <;> cases v <;> cases w <;> rfl

theorem meet_distrib (connective : Connective) (u v w : Verdict) :
    connective.meet u (connective.other.meet v w) =
      connective.other.meet (connective.meet u v) (connective.meet u w) := by
  cases connective <;> cases u <;> cases v <;> cases w <;> rfl

/-- A bound of two verdicts that is one of them. -/
theorem eq_meet {connective : Connective} {u v w : Verdict} (left : connective.Bounds u v)
    (right : connective.Bounds u w) (attained : u = v ∨ u = w) : u = connective.meet v w := by
  unfold meet
  obtain rfl | rfl := attained
  · rw [if_pos right]
  · split
    next bounded => exact Verdict.eq_of_bounds left bounded
    next => rfl

end Connective

/-! ## Bracketings -/

/-- Expressions that are joined two by two. -/
inductive Bracketing where
  | single (e : Expression)
  | join (connective : Connective) (left right : Bracketing)

namespace Bracketing

def expression : Bracketing → Expression
  | single e => e
  | join connective left right => Expression.combine connective left.expression [right.expression]

def members : Bracketing → List Expression
  | single e => [e]
  | join _ left right => left.members ++ right.members

/-- The verdict in the lattice, given those of the members. -/
def verdict (value : Expression → Verdict) : Bracketing → Verdict
  | single e => value e
  | join connective left right => connective.meet (left.verdict value) (right.verdict value)

/-- One bracketing becomes the other by re-bracketing, reordering, duplication, absorption and
distribution, at any place and in either direction. -/
inductive Rearranges : Bracketing → Bracketing → Prop
  | refl {a : Bracketing} : Rearranges a a
  | symm {a b : Bracketing} (back : Rearranges b a) : Rearranges a b
  | trans {a b c : Bracketing} (first : Rearranges a b) (second : Rearranges b c) : Rearranges a c
  | inside {connective : Connective} {a b c d : Bracketing} (left : Rearranges a b)
      (right : Rearranges c d) : Rearranges (join connective a c) (join connective b d)
  | rebracket {connective : Connective} {a b c : Bracketing} :
      Rearranges (join connective (join connective a b) c) (join connective a (join connective b c))
  | reorder {connective : Connective} {a b : Bracketing} :
      Rearranges (join connective a b) (join connective b a)
  | duplicate {connective : Connective} {a : Bracketing} : Rearranges (join connective a a) a
  | absorb {connective : Connective} {a b : Bracketing} :
      Rearranges (join connective a (join connective.other a b)) a
  | distribute {connective : Connective} {a b c : Bracketing} :
      Rearranges (join connective a (join connective.other b c))
        (join connective.other (join connective a b) (join connective a c))

theorem Rearranges.verdict_eq {before after : Bracketing} (rearranges : before.Rearranges after)
    (value : Expression → Verdict) : before.verdict value = after.verdict value := by
  induction rearranges with
  | refl => rfl
  | symm _ ih => exact ih.symm
  | trans _ _ first second => exact first.trans second
  | inside _ _ left right => rw [verdict, verdict, left, right]
  | rebracket => exact Connective.meet_assoc ..
  | reorder => exact Connective.meet_comm ..
  | duplicate => exact Connective.meet_self ..
  | absorb => exact Connective.meet_absorb ..
  | distribute => exact Connective.meet_distrib ..

theorem canonical {b : Bracketing} (members : ∀ e ∈ b.members, e.Canonical) :
    b.expression.Canonical := by
  induction b with
  | single e => exact members e List.mem_cons_self
  | join connective left right leftIh rightIh =>
    have first := leftIh fun e member => members e (List.mem_append_left _ member)
    have second := rightIh fun e member => members e (List.mem_append_right _ member)
    exact first.combine (by simpa using second)

end Bracketing

namespace Interpreter

variable {interpreter : Interpreter} {connective : Connective}

/-! ## Verdicts of joined expressions -/

/-- Neither the tables nor the policy have an entry for a compound expression. -/
structure SingleKeys (interpreter : Interpreter) : Prop where
  tables : ∀ table ∈ interpreter.equivalence.tables, ∀ entry ∈ table, ∀ connective es,
    entry.1 ≠ .compound connective es
  policy : ∀ key ∈ interpreter.policy.keys, ∀ connective es, key ≠ .compound connective es

theorem SingleKeys.unmentioned (keys : SingleKeys interpreter) (connective : Connective)
    (es : List Expression) : interpreter.Unmentioned (.compound connective es) := by
  constructor
  · cases entry : interpreter.policy.find? (.compound connective es) with
    | none => rfl
    | some decision => exact absurd rfl (keys.policy _ (mem_keys_of_find? entry) connective es)
  · exact Equivalence.expand_of_unlisted rfl fun table member entry inTable =>
      keys.tables table member entry inTable connective es

section Joined

variable (keys : SingleKeys interpreter) {e a b : Expression} {r s t : Resolution}

include keys

/-- The verdict of an expression is the one of an operand, and bounds those of all others. -/
theorem Evaluates.verdict_operands (canonical : e.Canonical) (run : Evaluates interpreter e r)
    (connective : Connective) :
    (∀ d ∈ e.operands connective, ∃ operand, Evaluates interpreter d operand ∧
      connective.Bounds r.verdict operand.verdict) ∧
    ∃ d ∈ e.operands connective, ∃ operand, Evaluates interpreter d operand ∧
      r.verdict = operand.verdict := by
  cases Expression.joined_or_alone connective e with
  | inl joined =>
    obtain ⟨es, rfl⟩ := joined
    have several := canonical.operands_ne_nil connective
    rw [Expression.operands_compound] at several ⊢
    obtain ⟨unlisted, fixed⟩ := keys.unmentioned connective es
    exact run.verdict several unlisted fixed
  | inr alone =>
    rw [Expression.operands_eq_singleton alone]
    simp only [List.mem_singleton, forall_eq, exists_eq_left]
    exact ⟨⟨r, run, .refl connective _⟩, r, run, rfl⟩

theorem exists_evaluates_of_operands (canonical : e.Canonical)
    (known : ∀ d ∈ e.operands connective, ∃ operand, Evaluates interpreter d operand) :
    ∃ r, Evaluates interpreter e r := by
  cases Expression.joined_or_alone connective e with
  | inl joined =>
    obtain ⟨es, rfl⟩ := joined
    have several := canonical.operands_ne_nil connective
    rw [Expression.operands_compound] at several known
    obtain ⟨unlisted, fixed⟩ := keys.unmentioned connective es
    exact exists_evaluates_compound unlisted fixed several known
  | inr alone =>
    rw [Expression.operands_eq_singleton alone] at known
    exact known e List.mem_cons_self

/-- The verdict of an expression bounds the one of every expression that has operands of it only. -/
theorem Evaluates.bounds_of_operands (whole : e.Canonical) (part : a.Canonical)
    (subset : a.operands connective ⊆ e.operands connective) (run : Evaluates interpreter e t)
    (inner : Evaluates interpreter a r) : connective.Bounds t.verdict r.verdict := by
  obtain ⟨d, member, operand, run', same⟩ := (inner.verdict_operands keys part connective).2
  obtain ⟨operand', run'', bounds⟩ := (run.verdict_operands keys whole connective).1 d (subset member)
  rw [same, run'.unique run'']
  exact bounds

theorem Evaluates.combine (left : a.Canonical) (right : b.Canonical)
    (first : Evaluates interpreter a r) (second : Evaluates interpreter b s)
    (connective : Connective) :
    ∃ t, Evaluates interpreter (Expression.combine connective a [b]) t ∧
      t.verdict = connective.meet r.verdict s.verdict := by
  have whole : (Expression.combine connective a [b]).Canonical := left.combine (by simpa using right)
  have operands (d : Expression) :
      d ∈ (Expression.combine connective a [b]).operands connective ↔
        d ∈ a.operands connective ∨ d ∈ b.operands connective :=
    left.mem_operands_combine right d
  have known (d : Expression)
      (member : d ∈ (Expression.combine connective a [b]).operands connective) :
      ∃ operand, Evaluates interpreter d operand := by
    rw [operands] at member
    cases member with
    | inl inLeft =>
      obtain ⟨operand, run, -⟩ := (first.verdict_operands keys left connective).1 d inLeft
      exact ⟨operand, run⟩
    | inr inRight =>
      obtain ⟨operand, run, -⟩ := (second.verdict_operands keys right connective).1 d inRight
      exact ⟨operand, run⟩
  obtain ⟨t, run⟩ := exists_evaluates_of_operands keys whole known
  have bounds : connective.Bounds t.verdict r.verdict :=
    run.bounds_of_operands keys whole left (fun d member => (operands d).mpr (.inl member)) first
  have bounds' : connective.Bounds t.verdict s.verdict :=
    run.bounds_of_operands keys whole right (fun d member => (operands d).mpr (.inr member)) second
  refine ⟨t, run, Connective.eq_meet bounds bounds' ?_⟩
  -- The verdict of the whole is the one of an operand, which comes from one of the two sides.
  obtain ⟨d, member, operand, run', same⟩ := (run.verdict_operands keys whole connective).2
  rw [operands] at member
  cases member with
  | inl inLeft =>
    obtain ⟨operand', run'', lower⟩ := (first.verdict_operands keys left connective).1 d inLeft
    rw [← run'.unique run'', ← same] at lower
    exact .inl (Verdict.eq_of_bounds bounds lower)
  | inr inRight =>
    obtain ⟨operand', run'', lower⟩ := (second.verdict_operands keys right connective).1 d inRight
    rw [← run'.unique run'', ← same] at lower
    exact .inr (Verdict.eq_of_bounds bounds' lower)

theorem evaluates_bracketing (value : Expression → Verdict) (bracketing : Bracketing)
    (known : ∀ e ∈ bracketing.members, e.Canonical ∧ ∃ r, Evaluates interpreter e r ∧
      r.verdict = value e) :
    ∃ r, Evaluates interpreter bracketing.expression r ∧ r.verdict = bracketing.verdict value := by
  induction bracketing with
  | single e => exact (known e List.mem_cons_self).2
  | join connective left right leftIh rightIh =>
    have known' (e : Expression) (member : e ∈ left.members) :=
      known e (List.mem_append_left right.members member)
    have known'' (e : Expression) (member : e ∈ right.members) :=
      known e (List.mem_append_right left.members member)
    obtain ⟨r, run, verdict⟩ := leftIh known'
    obtain ⟨s, run', verdict'⟩ := rightIh known''
    obtain ⟨t, run'', joined⟩ := run.combine keys (Bracketing.canonical fun e h => (known' e h).1)
      (Bracketing.canonical fun e h => (known'' e h).1) run' connective
    exact ⟨t, run'', by rw [joined, verdict, verdict', Bracketing.verdict]⟩

end Joined

/-! ## Evaluation and the laws of the lattice -/

/-- The verdict on an expression, where there is one. -/
def verdictOf (interpreter : Interpreter) (e : Expression) : Verdict :=
  match interpreter.evaluate e with
  | .ok r => r.verdict
  | .error _ => .unknown

/-- A combination has the worse verdict of its two sides, and a choice the better one.  So the verdict of an
expression is the same however it is re-bracketed, reordered, duplicated, absorbed or distributed. -/
theorem evaluate_lattice (tables : interpreter.equivalence.Canonical)
    (keys : SingleKeys interpreter) :
    (∀ (a b : Expression) (r s : Resolution), a.Canonical → b.Canonical →
      interpreter.evaluate a = .ok r → interpreter.evaluate b = .ok s →
      (∃ t, interpreter.evaluate (a.and b) = .ok t ∧
        t.verdict.rank = min r.verdict.rank s.verdict.rank) ∧
      ∃ t, interpreter.evaluate (a.or b) = .ok t ∧
        t.verdict.rank = max r.verdict.rank s.verdict.rank) ∧
    ∀ before after : Bracketing, before.Rearranges after →
      (∀ e ∈ before.members ++ after.members, e.Canonical ∧
        ∃ r, interpreter.evaluate e = .ok r) →
      ∃ r s, interpreter.evaluate before.expression = .ok r ∧
        interpreter.evaluate after.expression = .ok s ∧ r.verdict = s.verdict := by
  constructor
  · intro a b r s left right first second
    have joined (connective : Connective) :
        ∃ t, interpreter.evaluate (Expression.combine connective a [b]) = .ok t ∧
          t.verdict = connective.meet r.verdict s.verdict := by
      obtain ⟨t, run, verdict⟩ := (evaluates_of_evaluate first).combine keys left right
        (evaluates_of_evaluate second) connective
      have whole : (Expression.combine connective a [b]).Canonical :=
        left.combine (by simpa using right)
      exact ⟨t, (evaluate_eq_ok_iff tables whole).mpr run, verdict⟩
    obtain ⟨worse, evaluated, verdict⟩ := joined .and
    obtain ⟨better, evaluated', verdict'⟩ := joined .or
    exact ⟨⟨worse, evaluated, by rw [verdict, Connective.rank_meet_and]⟩,
      better, evaluated', by rw [verdict', Connective.rank_meet_or]⟩
  · intro before after rearranges known
    have resolved (b : Bracketing) (inside : b.members ⊆ before.members ++ after.members) :
        ∃ r, interpreter.evaluate b.expression = .ok r ∧
          r.verdict = b.verdict interpreter.verdictOf := by
      have members (e : Expression) (member : e ∈ b.members) : e.Canonical ∧
          ∃ r, Evaluates interpreter e r ∧ r.verdict = interpreter.verdictOf e := by
        obtain ⟨canonical, r, evaluated⟩ := known e (inside member)
        exact ⟨canonical, r, evaluates_of_evaluate evaluated, by rw [verdictOf, evaluated]⟩
      obtain ⟨r, run, verdict⟩ := evaluates_bracketing keys interpreter.verdictOf b members
      have whole := Bracketing.canonical fun e member => (members e member).1
      exact ⟨r, (evaluate_eq_ok_iff tables whole).mpr run, verdict⟩
    obtain ⟨r, evaluated, verdict⟩ := resolved before (List.subset_append_left _ _)
    obtain ⟨s, evaluated', verdict'⟩ := resolved after (List.subset_append_right _ _)
    exact ⟨r, s, evaluated, evaluated', by rw [verdict, verdict', rearranges.verdict_eq]⟩

/-- `A` or later stands for `A`, which is allowed, and for `B`, which is rejected; `C` has no entry. -/
theorem evaluate_lattice_of_versions :
    let a : License := .free ⟨"A", []⟩
    let b : License := .free ⟨"B", []⟩
    let c : Expression := .just (.free ⟨"C", []⟩)
    let equivalence : Equivalence := ⟨[[(.orLater a, [.just a, .just b])]]⟩
    let policy : Policy := ⟨[(.just a, ⟨.allow, ""⟩), (.just b, ⟨.reject, ""⟩)]⟩
    let choice : Bracketing := .join .or (.single (.just b)) (.single c)
    let before : Bracketing := .join .and (.single (.orLater a)) choice
    let after : Bracketing := .join .or (.join .and (.single (.orLater a)) (.single (.just b)))
      (.join .and (.single (.orLater a)) (.single c))
    ∃ interpreter, build equivalence policy = .ok interpreter ∧
      interpreter.equivalence.Canonical ∧ SingleKeys interpreter ∧ before.Rearranges after ∧
      (∃ t, interpreter.evaluate ((Expression.orLater a).and c) = .ok t ∧ t.verdict = .unknown) ∧
      (∃ t, interpreter.evaluate ((Expression.orLater a).or c) = .ok t ∧ t.verdict = .allow) ∧
      ∃ r s, interpreter.evaluate before.expression = .ok r ∧
        interpreter.evaluate after.expression = .ok s ∧ r.verdict = s.verdict := by
  intro a b c equivalence policy choice before after
  let interpreter : Interpreter :=
    ⟨equivalence, policy, [(.just a, .just a), (.just b, .just b)]⟩
  have built : build equivalence policy = .ok interpreter :=
    Outcome.toOption_eq_some.mp (by decide +kernel)
  have simple (term : SimpleTerm) : (Expression.simple term).Canonical := by
    simp [Expression.Canonical]
  have tables : interpreter.equivalence.Canonical := by
    simp [interpreter, equivalence, Equivalence.Canonical, Equivalence.values,
      EquivalenceTable.values, simple]
  have keys : SingleKeys interpreter := by
    constructor
    · simp [interpreter, equivalence]
    · simp [interpreter, policy, Policy.keys]
  have allowed : interpreter.evaluate (.orLater a) = .ok ⟨.allow, ["A: ALLOW"]⟩ :=
    Outcome.toOption_eq_some.mp (by decide +kernel)
  have rejected : interpreter.evaluate (.just b) = .ok ⟨.reject, ["B: REJECT"]⟩ :=
    Outcome.toOption_eq_some.mp (by decide +kernel)
  have unknown : interpreter.evaluate c = .ok ⟨.unknown, ["No rules found for C"]⟩ :=
    Outcome.toOption_eq_some.mp (by decide +kernel)
  obtain ⟨joined, rearranged⟩ := evaluate_lattice tables keys
  obtain ⟨⟨t, evaluated, worse⟩, u, evaluated', better⟩ :=
    joined _ _ _ _ (simple _) (simple _) allowed unknown
  have distributed : before.Rearranges after := .distribute
  refine ⟨interpreter, built, tables, keys, distributed, ⟨t, evaluated, ?_⟩,
    ⟨u, evaluated', ?_⟩, rearranged before after distributed ?_⟩
  · cases verdict : t.verdict <;> simp [verdict, Verdict.rank] at worse ⊢
  · cases verdict : u.verdict <;> simp [verdict, Verdict.rank] at better ⊢
  · let Known (e : Expression) : Prop := e.Canonical ∧ ∃ r, interpreter.evaluate e = .ok r
    have first : Known (.orLater a) := ⟨simple _, _, allowed⟩
    have second : Known (.just b) := ⟨simple _, _, rejected⟩
    have third : Known c := ⟨simple _, _, unknown⟩
    show ∀ e ∈ [.orLater a, .just b, c, .orLater a, .just b, .orLater a, c], Known e
    simp only [List.forall_mem_cons]
    exact ⟨first, second, third, first, second, first, third, List.forall_mem_nil _⟩

end Interpreter

end Licensing
