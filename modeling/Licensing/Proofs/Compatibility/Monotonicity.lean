import Licensing.Proofs.Compatibility.Evaluation
import Licensing.Proofs.Expression.Algebra
import Licensing.Proofs.Outcome

/-! # Adding operands

A further obligation makes a verdict no better, and a further choice makes it no worse, as long as
policy and tables leave it to the operands to decide (`evaluate_combine_bounds`).  Entries for compound
expressions are looked up before anything else, so a policy can decide otherwise about them
(`evaluate_listed_compound`).
-/

namespace Licensing.Interpreter

variable {interpreter : Interpreter} {connective : Connective}

/-- Neither the policy nor the tables say anything about the expression as a whole. -/
def Unmentioned (interpreter : Interpreter) (e : Expression) : Prop :=
  interpreter.policy.find? e = none ∧ interpreter.equivalence.expand e = .ok e

/-- An expression to which an operand has really been added is compound. -/
theorem exists_combine_eq_compound {e x : Expression} (left : e.Canonical) (right : x.Canonical)
    (changed : Expression.combine connective e [x] ≠ e) :
    ∃ es, es ≠ [] ∧ Expression.combine connective e [x] = .compound connective es ∧
      ∀ d ∈ e.operands connective, d ∈ es := by
  have canonical : (Expression.combine connective e [x]).Canonical :=
    left.combine (by simpa using right)
  have operands (d : Expression) (member : d ∈ e.operands connective) :
      d ∈ (Expression.combine connective e [x]).operands connective :=
    (left.mem_operands_combine right d).mpr (.inl member)
  cases Expression.joined_or_alone connective (Expression.combine connective e [x]) with
  | inl joined =>
    obtain ⟨es, same⟩ := joined
    rw [same, Expression.operands_compound] at operands
    refine ⟨es, ?_, same, operands⟩
    obtain ⟨d, member⟩ := List.exists_mem_of_ne_nil _ (left.operands_ne_nil connective)
    exact List.ne_nil_of_mem (operands d member)
  | inr alone =>
    -- With one operand only, the combination has the operands of `e`, and so it is `e`.
    rw [Expression.operands_eq_singleton alone] at operands
    refine absurd (Expression.Canonical.ext_operands connective canonical left fun d => ?_) changed
    rw [Expression.operands_eq_singleton alone]
    constructor
    · intro member
      obtain ⟨d', member'⟩ := List.exists_mem_of_ne_nil _ (left.operands_ne_nil connective)
      rw [List.mem_singleton.mp member, ← List.mem_singleton.mp (operands d' member')]
      exact member'
    · exact operands d

theorem Evaluates.bounds_combine {e x : Expression} {r s : Resolution} (left : e.Canonical)
    (right : x.Canonical)
    (decided : Expression.combine connective e [x] = e ∨
      interpreter.Unmentioned (Expression.combine connective e [x]) ∧
        ∀ ds, e = .compound connective ds → interpreter.Unmentioned e)
    (before : Evaluates interpreter e r)
    (after : Evaluates interpreter (Expression.combine connective e [x]) s) :
    connective.Bounds s.verdict r.verdict := by
  by_cases changed : Expression.combine connective e [x] = e
  · rw [changed] at after
    rw [after.unique before]
    exact .refl connective _
  · obtain ⟨⟨unlisted, fixed⟩, part⟩ := decided.resolve_left changed
    obtain ⟨es, several, joined, operands⟩ := exists_combine_eq_compound left right changed
    rw [joined] at after unlisted fixed
    have others := (after.verdict several unlisted fixed).1
    cases Expression.joined_or_alone connective e with
    | inr alone =>
      -- The expression itself is one of the operands.
      have member : e ∈ es := operands e (by simp [Expression.operands_eq_singleton alone])
      obtain ⟨operand, run, bounds⟩ := others e member
      rwa [run.unique before] at bounds
    | inl compound =>
      -- The verdict on the expression is the one on an operand, which is there again.
      obtain ⟨ds, rfl⟩ := compound
      obtain ⟨unlisted', fixed'⟩ := part ds rfl
      have some : ds ≠ [] := by simpa using left.operands_ne_nil connective
      obtain ⟨d, inDs, operand, run, same⟩ := (before.verdict some unlisted' fixed').2
      obtain ⟨operand', run', bounds⟩ := others d (operands d (by simpa using inDs))
      rwa [run'.unique run, ← same] at bounds

/-- Adding an obligation never makes a verdict better, and adding a choice never makes it worse, unless
a policy entry or a table is about the compound expressions themselves. -/
theorem evaluate_combine_bounds {e x : Expression} {r s : Resolution} (left : e.Canonical)
    (right : x.Canonical)
    (decided : Expression.combine connective e [x] = e ∨
      interpreter.Unmentioned (Expression.combine connective e [x]) ∧
        ∀ ds, e = .compound connective ds → interpreter.Unmentioned e)
    (before : interpreter.evaluate e = .ok r)
    (after : interpreter.evaluate (Expression.combine connective e [x]) = .ok s) :
    connective.Bounds s.verdict r.verdict :=
  Evaluates.bounds_combine left right decided (evaluates_of_evaluate before)
    (evaluates_of_evaluate after)

/-- `A` is allowed and `B` is rejected, so `A AND B` is rejected and `A OR B` is allowed. -/
theorem evaluate_combine_allowed_rejected :
    let a : Expression := .just (.free ⟨"A", []⟩)
    let b : Expression := .just (.free ⟨"B", []⟩)
    let interpreter : Interpreter :=
      ⟨⟨[]⟩, ⟨[(a, ⟨.allow, ""⟩), (b, ⟨.reject, ""⟩)]⟩, [(a, a), (b, b)]⟩
    (∃ r s, interpreter.evaluate a = .ok r ∧ interpreter.evaluate (a.and b) = .ok s ∧
      s.verdict = .reject ∧ Connective.and.Bounds s.verdict r.verdict) ∧
    ∃ r s, interpreter.evaluate b = .ok r ∧ interpreter.evaluate (b.or a) = .ok s ∧
      s.verdict = .allow ∧ Connective.or.Bounds s.verdict r.verdict := by
  intro a b interpreter
  have left : a.Canonical := by simp [a, Expression.Canonical]
  have right : b.Canonical := by simp [b, Expression.Canonical]
  have allowed : interpreter.evaluate a = .ok ⟨.allow, ["A: ALLOW"]⟩ :=
    Outcome.toOption_eq_some.mp (by decide +kernel)
  have rejected : interpreter.evaluate b = .ok ⟨.reject, ["B: REJECT"]⟩ :=
    Outcome.toOption_eq_some.mp (by decide +kernel)
  have both : interpreter.evaluate (a.and b) = .ok ⟨.reject, ["B: REJECT"]⟩ :=
    Outcome.toOption_eq_some.mp (by decide +kernel)
  have either : interpreter.evaluate (b.or a) = .ok ⟨.allow, ["A: ALLOW"]⟩ :=
    Outcome.toOption_eq_some.mp (by decide +kernel)
  have obligation : interpreter.Unmentioned (a.and b) :=
    ⟨by decide +kernel, Outcome.toOption_eq_some.mp (by decide +kernel)⟩
  have choice : interpreter.Unmentioned (b.or a) :=
    ⟨by decide +kernel, Outcome.toOption_eq_some.mp (by decide +kernel)⟩
  have plain (license : License) (connective : Connective) (es : List Expression) :
      Expression.just license ≠ .compound connective es := by simp
  exact ⟨⟨_, _, allowed, both, rfl, evaluate_combine_bounds left right
      (.inr ⟨obligation, fun es same => absurd same (plain _ _ es)⟩) allowed both⟩,
    ⟨_, _, rejected, either, rfl, evaluate_combine_bounds right left
      (.inr ⟨choice, fun es same => absurd same (plain _ _ es)⟩) rejected either⟩⟩

/-- Entries for compound expressions that decide against the operands. -/
theorem evaluate_listed_compound :
    let a : Expression := .just (.free ⟨"A", []⟩)
    let b : Expression := .just (.free ⟨"B", []⟩)
    let c : Expression := .just (.free ⟨"C", []⟩)
    let lenient : Policy := ⟨[(a.and b, ⟨.allow, ""⟩)]⟩
    let strict : Policy := ⟨[(a, ⟨.allow, ""⟩), (b, ⟨.allow, ""⟩), ((a.and b).or c, ⟨.reject, ""⟩)]⟩
    (∃ interpreter r s, build ⟨[]⟩ lenient = .ok interpreter ∧ interpreter.evaluate a = .ok r ∧
      interpreter.evaluate (a.and b) = .ok s ∧ ¬ Connective.and.Bounds s.verdict r.verdict) ∧
    ∃ interpreter r s, build ⟨[]⟩ strict = .ok interpreter ∧
      interpreter.evaluate (a.and b) = .ok r ∧ interpreter.evaluate ((a.and b).or c) = .ok s ∧
      ¬ Connective.or.Bounds s.verdict r.verdict := by
  intro a b c lenient strict
  have builtLenient : build ⟨[]⟩ lenient = .ok ⟨⟨[]⟩, lenient, [(a.and b, a.and b)]⟩ :=
    Outcome.toOption_eq_some.mp (by decide +kernel)
  have builtStrict : build ⟨[]⟩ strict = .ok ⟨⟨[]⟩, strict,
      [(a, a), (b, b), (c, (a.and b).or c), (a.and b, (a.and b).or c)]⟩ :=
    Outcome.toOption_eq_some.mp (by decide +kernel)
  refine ⟨⟨_, ⟨.unknown, ["No rules found for A"]⟩, ⟨.allow, ["A AND B: ALLOW"]⟩, builtLenient,
      ?_, ?_, by decide⟩,
    ⟨_, ⟨.allow, ["A: ALLOW", "B: ALLOW"]⟩, ⟨.reject, ["C OR A AND B: REJECT"]⟩, builtStrict,
      ?_, ?_, by decide⟩⟩
  · exact Outcome.toOption_eq_some.mp (by decide +kernel)
  · exact Outcome.toOption_eq_some.mp (by decide +kernel)
  · exact Outcome.toOption_eq_some.mp (by decide +kernel)
  · exact Outcome.toOption_eq_some.mp (by decide +kernel)

end Licensing.Interpreter
