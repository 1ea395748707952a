import Licensing.Compatibility

/-! # Evaluations and their verdicts

`Evaluates` is the recursion of `Interpreter.evaluate` without its bound: the finite evaluations of an
expression.  What the bounded function answers is such an evaluation (`evaluates_of_evaluate`), and an
expression has one resolution at most (`Evaluates.unique`), so the resolutions that operands have
inside an evaluation are the ones that they have alone.

`Connective.Bounds` is the side to which a connective moves a verdict.  The verdict of a compound
expression is the one of some operand, and bounds those of all others (`Folds.verdict`).
-/

namespace Licensing

/-! ## Verdicts of joined resolutions -/

/-- A combination is no better than its parts, and a choice no worse than its alternatives. -/
def Connective.Bounds : Connective → (joined part : Verdict) → Prop
  | .and, joined, part => joined.rank ≤ part.rank
  | .or, joined, part => part.rank ≤ joined.rank

instance (connective : Connective) (joined part : Verdict) :
    Decidable (connective.Bounds joined part) :=
  match connective with
  | .and => inferInstanceAs (Decidable (joined.rank ≤ part.rank))
  | .or => inferInstanceAs (Decidable (part.rank ≤ joined.rank))

theorem Connective.Bounds.refl (connective : Connective) (v : Verdict) : connective.Bounds v v := by
  cases connective with
  | and => exact Nat.le_refl _
  | or => exact Nat.le_refl _

theorem Connective.Bounds.trans {connective : Connective} {u v w : Verdict}
    (upper : connective.Bounds u v) (lower : connective.Bounds v w) : connective.Bounds u w := by
  cases connective with
  | and => exact Nat.le_trans upper lower
  | or => exact Nat.le_trans lower upper

theorem Verdict.eq_of_bounds {connective : Connective} {v w : Verdict}
    (left : connective.Bounds v w) (right : connective.Bounds w v) : v = w := by
  cases connective <;> cases v <;> cases w <;> simp [Connective.Bounds, rank] at left right ⊢

namespace Resolution

theorem join_verdict (connective : Connective) (a b : Resolution) :
    (join connective a b).verdict = a.verdict ∨ (join connective a b).verdict = b.verdict := by
  obtain ⟨v, reasons⟩ := a
  obtain ⟨w, others⟩ := b
  cases connective <;> cases v <;> cases w <;> simp [join, both, either]

theorem join_verdict_eq {connective : Connective} {a b : Resolution} {v : Verdict}
    (left : a.verdict = v) (right : b.verdict = v) : (join connective a b).verdict = v := by
  cases join_verdict connective a b with
  | inl first => exact first.trans left
  | inr second => exact second.trans right

theorem bounds_join (connective : Connective) (a b : Resolution) :
    connective.Bounds (join connective a b).verdict a.verdict ∧
      connective.Bounds (join connective a b).verdict b.verdict := by
  obtain ⟨v, reasons⟩ := a
  obtain ⟨w, others⟩ := b
  cases connective <;> cases v <;> cases w <;>
    simp [join, both, either, Connective.Bounds, Verdict.rank]

end Resolution

namespace Interpreter

variable {interpreter : Interpreter} {connective : Connective}

/-! ## Evaluations that end -/

/-- What is said about an expression that is no compound one after its expansion. -/
def ascribe (interpreter : Interpreter) (e expanded : Expression) : Resolution :=
  match interpreter.covering? expanded with
  | some decision => decision.resolve expanded
  | none => .unlisted e

mutual

/-- An evaluation that ends. -/
inductive Evaluates (interpreter : Interpreter) : Expression → Resolution → Prop
  | listed {e : Expression} {decision : Decision}
      (entry : interpreter.policy.find? e = some decision) :
      Evaluates interpreter e (decision.resolve e)
  | compound {e first : Expression} {connective : Connective} {rest : List Expression}
      {start r : Resolution} (unlisted : interpreter.policy.find? e = none)
      (expanded : interpreter.equivalence.expand e = .ok (.compound connective (first :: rest)))
      (head : Evaluates interpreter first start) (tail : Folds interpreter connective start rest r) :
      Evaluates interpreter e r
  | alone {e own : Expression} (unlisted : interpreter.policy.find? e = none)
      (expanded : interpreter.equivalence.expand e = .ok own)
      (single : ∀ connective first rest, own ≠ .compound connective (first :: rest)) :
      Evaluates interpreter e (interpreter.ascribe e own)

/-- The evaluation of operands from left to right. -/
inductive Folds (interpreter : Interpreter) :
    Connective → Resolution → List Expression → Resolution → Prop
  | done {connective : Connective} {r : Resolution} : Folds interpreter connective r [] r
  | next {connective : Connective} {e : Expression} {rest : List Expression}
      {result operand r : Resolution} (head : Evaluates interpreter e operand)
      (tail : Folds interpreter connective (Resolution.join connective result operand) rest r) :
      Folds interpreter connective result (e :: rest) r

end

/-- The three ways in which an evaluation can end. -/
theorem Evaluates.cases {e : Expression} {r : Resolution} (run : Evaluates interpreter e r) :
    (∃ decision, interpreter.policy.find? e = some decision ∧ r = decision.resolve e) ∨
    (interpreter.policy.find? e = none ∧ ∃ connective first rest start,
      interpreter.equivalence.expand e = .ok (.compound connective (first :: rest)) ∧
      Evaluates interpreter first start ∧ Folds interpreter connective start rest r) ∨
    (interpreter.policy.find? e = none ∧ ∃ own, interpreter.equivalence.expand e = .ok own ∧
      (∀ connective first rest, own ≠ .compound connective (first :: rest)) ∧
      r = interpreter.ascribe e own) := by
  cases run with
  | listed entry => exact .inl ⟨_, entry, rfl⟩
  | compound unlisted expanded head tail =>
    exact .inr (.inl ⟨unlisted, _, _, _, _, expanded, head, tail⟩)
  | alone unlisted expanded single => exact .inr (.inr ⟨unlisted, _, expanded, single, rfl⟩)

theorem Folds.cases {e : Expression} {rest : List Expression} {result r : Resolution}
    (run : Folds interpreter connective result (e :: rest) r) :
    ∃ operand, Evaluates interpreter e operand ∧
      Folds interpreter connective (Resolution.join connective result operand) rest r := by
  cases run with
  | next head tail => exact ⟨_, head, tail⟩

/-! ## Evaluations are determined -/

mutual

theorem Evaluates.unique {e : Expression} {r s : Resolution} :
    Evaluates interpreter e r → Evaluates interpreter e s → r = s
  | .listed entry, right => by
    obtain ⟨decision, entry', rfl⟩ | ⟨unlisted, -⟩ | ⟨unlisted, -⟩ := right.cases
    · rw [Option.some.inj (entry.symm.trans entry')]
    · simp [entry] at unlisted
    · simp [entry] at unlisted
  | .compound unlisted expanded head tail, right => by
    obtain ⟨decision, entry, -⟩ | ⟨-, _, _, _, _, expanded', head', tail'⟩ |
      ⟨-, own, expanded', single, -⟩ := right.cases
    · simp [unlisted] at entry
    · cases Except.ok.inj (expanded.symm.trans expanded')
      rw [← head.unique head'] at tail'
      exact tail.unique tail'
    · exact absurd (Except.ok.inj (expanded'.symm.trans expanded)) (single _ _ _)
  | .alone unlisted expanded single, right => by
    obtain ⟨decision, entry, -⟩ | ⟨-, _, _, _, _, expanded', -⟩ |
      ⟨-, own, expanded', -, rfl⟩ := right.cases
    · simp [unlisted] at entry
    · exact absurd (Except.ok.inj (expanded.symm.trans expanded')) (single _ _ _)
    · rw [Except.ok.inj (expanded.symm.trans expanded')]

theorem Folds.unique {connective : Connective} {rest : List Expression} {result r s : Resolution} :
    Folds interpreter connective result rest r → Folds interpreter connective result rest s → r = s
  | .done, right => by
    cases right with
    | done => rfl
  | .next head tail, right => by
    obtain ⟨operand, head', tail'⟩ := right.cases
    rw [← head.unique head'] at tail'
    exact tail.unique tail'

end

/-! ## Evaluations of operands -/

theorem Folds.eq_foldl {rest : List Expression} {r s : Resolution}
    {results : Expression → Resolution} (known : ∀ d ∈ rest, Evaluates interpreter d (results d))
    (run : Folds interpreter connective r rest s) :
    s = (rest.map results).foldl (Resolution.join connective) r := by
  induction rest generalizing r with
  | nil =>
    cases run with
    | done => rfl
  | cons d rest ih =>
    obtain ⟨operand, head, tail⟩ := run.cases
    obtain rfl := head.unique (known d List.mem_cons_self)
    exact ih (fun d member => known d (.tail _ member)) tail

theorem folds_of_results {rest : List Expression} {results : Expression → Resolution}
    (known : ∀ d ∈ rest, Evaluates interpreter d (results d)) (connective : Connective)
    (start : Resolution) :
    Folds interpreter connective start rest
      ((rest.map results).foldl (Resolution.join connective) start) := by
  induction rest generalizing start with
  | nil => exact .done
  | cons d rest ih =>
    exact .next (known d List.mem_cons_self) (ih (fun d member => known d (.tail _ member)) _)

theorem exists_folds {rest : List Expression} (known : ∀ d ∈ rest, ∃ s, Evaluates interpreter d s)
    (connective : Connective) (start : Resolution) :
    ∃ r, Folds interpreter connective start rest r := by
  induction rest generalizing start with
  | nil => exact ⟨start, .done⟩
  | cons d rest ih =>
    obtain ⟨operand, head⟩ := known d List.mem_cons_self
    obtain ⟨r, tail⟩ := ih (fun d member => known d (.tail _ member)) (Resolution.join connective start operand)
    exact ⟨r, .next head tail⟩

/-- A compound expression that stands for nothing else has an evaluation if its operands have. -/
theorem exists_evaluates_compound {es : List Expression}
    (unlisted : interpreter.policy.find? (.compound connective es) = none)
    (fixed : interpreter.equivalence.expand (.compound connective es) =
      .ok (.compound connective es)) (several : es ≠ [])
    (known : ∀ d ∈ es, ∃ s, Evaluates interpreter d s) :
    ∃ r, Evaluates interpreter (.compound connective es) r := by
  obtain ⟨first, rest, rfl⟩ := List.exists_cons_of_ne_nil several
  obtain ⟨start, head⟩ := known first List.mem_cons_self
  obtain ⟨r, tail⟩ := exists_folds (fun d member => known d (.tail _ member)) connective start
  exact ⟨r, .compound unlisted fixed head tail⟩

/-! ## Bounded evaluations -/

theorem evaluateAt_listed {depth : Nat} {e : Expression} {decision : Decision}
    (entry : interpreter.policy.find? e = some decision) :
    interpreter.evaluateAt (depth + 1) e = .ok (decision.resolve e) := by
  rw [evaluateAt, entry]

theorem evaluateAt_compound {depth : Nat} {e first : Expression} {rest : List Expression}
    {start : Resolution} (unlisted : interpreter.policy.find? e = none)
    (expanded : interpreter.equivalence.expand e = .ok (.compound connective (first :: rest)))
    (head : interpreter.evaluateAt depth first = .ok start) :
    interpreter.evaluateAt (depth + 1) e =
      fold connective (interpreter.evaluateAt depth) start rest := by
  simp only [evaluateAt, unlisted, expanded, head]

theorem evaluateAt_alone {depth : Nat} {e own : Expression}
    (unlisted : interpreter.policy.find? e = none)
    (expanded : interpreter.equivalence.expand e = .ok own)
    (single : ∀ connective first rest, own ≠ .compound connective (first :: rest)) :
    interpreter.evaluateAt (depth + 1) e = .ok (interpreter.ascribe e own) := by
  cases covering : interpreter.covering? own with
  | some decision =>
    match own with
    | .compound connective (first :: rest) => exact absurd rfl (single connective first rest)
    | .compound _ [] | .sentinel _ | .simple _ | .withException .. =>
      simp only [evaluateAt, unlisted, expanded, ascribe, covering]
  | none =>
    match own with
    | .compound connective (first :: rest) => exact absurd rfl (single connective first rest)
    | .compound _ [] | .sentinel _ | .simple _ | .withException .. =>
      simp only [evaluateAt, unlisted, expanded, ascribe, covering]

theorem folds_of_fold {evaluate : Expression → Except ExpansionFault Resolution}
    (sound : ∀ e r, evaluate e = .ok r → Evaluates interpreter e r) {rest : List Expression}
    {result r : Resolution} (folded : fold connective evaluate result rest = .ok r) :
    Folds interpreter connective result rest r := by
  induction rest generalizing result with
  | nil =>
    cases folded
    exact .done
  | cons e rest ih =>
    cases head : evaluate e with
    | error fault => simp [fold, head] at folded
    | ok operand =>
      simp only [fold, head] at folded
      exact .next (sound e operand head) (ih folded)

theorem evaluates_of_evaluateAt {depth : Nat} {e : Expression} {r : Resolution}
    (evaluated : interpreter.evaluateAt depth e = .ok r) : Evaluates interpreter e r := by
  induction depth generalizing e r with
  | zero => cases evaluated
  | succ depth ih =>
    rw [evaluateAt] at evaluated
    split at evaluated
    next decision entry =>
      cases evaluated
      exact .listed entry
    next unlisted =>
      split at evaluated
      next => cases evaluated
      next connective first rest expanded =>
        cases head : interpreter.evaluateAt depth first with
        | error fault => simp [head] at evaluated
        | ok start =>
          simp only [head] at evaluated
          exact .compound unlisted expanded (ih head) (folds_of_fold (fun _ _ => ih) evaluated)
      next own single expanded =>
        have ascribed : r = interpreter.ascribe e own := by
          unfold ascribe
          split at evaluated
          next covering => simpa [covering] using evaluated.symm
          next uncovered => simpa [uncovered] using evaluated.symm
        rw [ascribed]
        exact .alone unlisted expanded single

theorem evaluates_of_evaluate {e : Expression} {r : Resolution}
    (evaluated : interpreter.evaluate e = .ok r) : Evaluates interpreter e r :=
  evaluates_of_evaluateAt evaluated

/-! ## Verdicts of compound expressions -/

theorem Folds.verdict {rest : List Expression} {result r : Resolution}
    (run : Folds interpreter connective result rest r) :
    connective.Bounds r.verdict result.verdict ∧
    (∀ e ∈ rest, ∃ operand, Evaluates interpreter e operand ∧
      connective.Bounds r.verdict operand.verdict) ∧
    (r.verdict = result.verdict ∨
      ∃ e ∈ rest, ∃ operand, Evaluates interpreter e operand ∧ r.verdict = operand.verdict) := by
  induction rest generalizing result with
  | nil =>
    cases run with
    | done => exact ⟨.refl _ _, by simp, .inl rfl⟩
  | cons e rest ih =>
    obtain ⟨operand, head, tail⟩ := run.cases
    obtain ⟨whole, others, source⟩ := ih tail
    obtain ⟨left, right⟩ := Resolution.bounds_join connective result operand
    refine ⟨whole.trans left, ?_, ?_⟩
    · intro d member
      cases List.mem_cons.mp member with
      | inl same => exact same ▸ ⟨operand, head, whole.trans right⟩
      | inr later => exact others d later
    · -- The verdict comes from a later operand, or from one of the two that are joined first.
      cases source with
      | inl joined =>
        cases Resolution.join_verdict connective result operand with
        | inl first => exact .inl (joined.trans first)
        | inr second => exact .inr ⟨e, by simp, operand, head, joined.trans second⟩
      | inr later =>
        obtain ⟨d, member, rest⟩ := later
        exact .inr ⟨d, .tail _ member, rest⟩

/-- An unlisted compound expression that stands for nothing else is decided by its operands. -/
theorem Evaluates.verdict {es : List Expression} {r : Resolution}
    (run : Evaluates interpreter (.compound connective es) r) (several : es ≠ [])
    (unlisted : interpreter.policy.find? (.compound connective es) = none)
    (fixed : interpreter.equivalence.expand (.compound connective es) =
      .ok (.compound connective es)) :
    (∀ e ∈ es, ∃ operand, Evaluates interpreter e operand ∧
      connective.Bounds r.verdict operand.verdict) ∧
    ∃ e ∈ es, ∃ operand, Evaluates interpreter e operand ∧ r.verdict = operand.verdict := by
  obtain ⟨decision, entry, -⟩ | ⟨-, _, first, rest, start, expanded, head, tail⟩ |
    ⟨-, own, expanded, single, -⟩ := run.cases
  · simp [unlisted] at entry
  · cases Except.ok.inj (fixed.symm.trans expanded)
    obtain ⟨whole, others, source⟩ := tail.verdict
    refine ⟨?_, ?_⟩
    · intro e member
      cases List.mem_cons.mp member with
      | inl same => exact same ▸ ⟨start, head, whole⟩
      | inr later => exact others e later
    · cases source with
      | inl same => exact ⟨first, by simp, start, head, same⟩
      | inr later =>
        obtain ⟨e, member, operand⟩ := later
        exact ⟨e, .tail _ member, operand⟩
  · have same := Except.ok.inj (fixed.symm.trans expanded)
    cases es with
    | nil => exact absurd rfl several
    | cons first rest => exact absurd same.symm (single _ _ _)

end Interpreter

end Licensing
