import Licensing.Proofs.Compatibility.Coverage
import Licensing.Proofs.Compatibility.Termination
import Licensing.Proofs.Equivalence.SimpleTables

/-! # Evaluation through expansions

With tables of simple terms, an expression that is not compound is decided by an entry of its own, or by
the alternatives of its expansion, each of which stands for nothing else (`alternatives_cases`).  An entry
says the same about all alternatives that it covers, and so the verdict does not depend on whether an
expression, its expansion or an alternative of it is what the policy lists (`evaluate_expand`).
-/

namespace Licensing.Interpreter

open Licensing.Equivalence (SimpleTables)

variable {interpreter : Interpreter}

/-! ## Alternatives and the entries behind them -/

/-- Whether it has an entry of its own or not, what stands for nothing else is decided by the index. -/
theorem evaluates_fixed (built : build interpreter.equivalence interpreter.policy = .ok interpreter)
    {p : Expression} (fixed : Fixed interpreter p) :
    Evaluates interpreter p (interpreter.ascribe p p) := by
  cases entry : interpreter.policy.find? p with
  | none => exact .alone entry fixed.itself fun connective first rest => fixed.single connective _
  | some decision =>
    have covers : Covers interpreter.equivalence p p :=
      ⟨p, fixed.itself, (Expression.mem_operands_alone (fixed.single .or)).mpr rfl⟩
    rw [ascribe_of_covers built entry covers]
    exact .listed entry

theorem verdict_ascribe (interpreter : Interpreter) (e d own : Expression) :
    (interpreter.ascribe e own).verdict = (interpreter.ascribe d own).verdict := by
  unfold ascribe
  cases interpreter.covering? own <;> rfl

/-! ## Choices between alternatives -/

/-- What is said about alternatives that stand for nothing else, joined from left to right. -/
def choose (interpreter : Interpreter) (first : Expression) (rest : List Expression) : Resolution :=
  (rest.map fun p => interpreter.ascribe p p).foldl (Resolution.join .or)
    (interpreter.ascribe first first)

theorem foldl_join_verdict {connective : Connective} {v : Verdict} {results : List Resolution}
    {start : Resolution} (first : start.verdict = v) (others : ∀ r ∈ results, r.verdict = v) :
    (results.foldl (Resolution.join connective) start).verdict = v := by
  induction results generalizing start with
  | nil => exact first
  | cons r results ih =>
    apply ih (Resolution.join_verdict_eq first (others r List.mem_cons_self))
    exact fun s member => others s (.tail _ member)

theorem choose_verdict {v : Verdict} {first : Expression} {rest : List Expression}
    (same : ∀ p ∈ first :: rest, (interpreter.ascribe p p).verdict = v) :
    (interpreter.choose first rest).verdict = v := by
  apply foldl_join_verdict (same first List.mem_cons_self)
  intro r member
  obtain ⟨p, inside, rfl⟩ := List.mem_map.mp member
  exact same p (.tail _ inside)

theorem evaluates_choice (built : build interpreter.equivalence interpreter.policy = .ok interpreter)
    {e first : Expression} {rest : List Expression} (unlisted : interpreter.policy.find? e = none)
    (expanded : interpreter.equivalence.expand e = .ok (.compound .or (first :: rest)))
    (fixed : ∀ p ∈ first :: rest, Fixed interpreter p) :
    Evaluates interpreter e (interpreter.choose first rest) := by
  apply Evaluates.compound unlisted expanded (evaluates_fixed built (fixed first List.mem_cons_self))
  exact folds_of_results (fun p member => evaluates_fixed built (fixed p (.tail _ member))) .or _

section Simple

variable (simple : SimpleTables interpreter.equivalence)

include simple

/-- What a single expression expands to: something that stands for nothing else, or a choice between such
alternatives. -/
theorem alternatives_cases {e : Expression} (single : ∀ connective es, e ≠ .compound connective es) :
    (∃ own, interpreter.equivalence.expand e = .ok own ∧ Fixed interpreter own) ∨
    ∃ first rest, interpreter.equivalence.expand e = .ok (.compound .or (first :: rest)) ∧
      ∀ p ∈ first :: rest, Fixed interpreter p := by
  have canonical := Expression.canonical_of_single single
  obtain ⟨expanded, ended⟩ := simple.exists_expand canonical
  have fixed (p : Expression) (part : p ∈ expanded.operands .or) : Fixed interpreter p := by
    obtain ⟨itself, alone⟩ := simple.fixed_of_mem_operands single ended part
    exact ⟨itself, alone⟩
  cases Expression.joined_or_alone .or expanded with
  | inl joined =>
    obtain ⟨es, rfl⟩ := joined
    have several := (simple.canonical.expand canonical ended).operands_ne_nil .or
    rw [Expression.operands_compound] at several fixed
    obtain ⟨first, rest, rfl⟩ := List.exists_cons_of_ne_nil several
    exact .inr ⟨first, rest, ended, fixed⟩
  | inr alone =>
    have itself := (Expression.mem_operands_alone alone).mpr rfl
    exact .inl ⟨expanded, ended, fixed expanded itself⟩

variable (built : build interpreter.equivalence interpreter.policy = .ok interpreter)

include built

/-- With tables of simple terms, every evaluation ends without a fault. -/
theorem exists_evaluates {e : Expression} (canonical : e.Canonical) :
    ∃ r, Evaluates interpreter e r := by
  -- Operands of a compound expression are smaller, and alternatives of anything else are fixed.
  induction size : e.size using Nat.strongRecOn generalizing e with
  | ind bound ih =>
    cases entry : interpreter.policy.find? e with
    | some decision => exact ⟨_, .listed entry⟩
    | none =>
      by_cases single : ∀ connective es, e ≠ .compound connective es
      · obtain ⟨own, expanded, fixed⟩ | ⟨first, rest, expanded, fixed⟩ :=
          alternatives_cases simple single
        · exact ⟨_, .alone entry expanded fun connective first rest => fixed.single connective _⟩
        · exact ⟨_, evaluates_choice built entry expanded fixed⟩
      · push Not at single
        obtain ⟨connective, es, rfl⟩ := single
        obtain ⟨-, -, parts, -⟩ := Expression.canonical_compound_iff.mp canonical
        have several := canonical.operands_ne_nil connective
        rw [Expression.operands_compound] at several
        apply exists_evaluates_compound entry (simple.expand_compound connective es) several
        intro d member
        exact ih d.size (size ▸ Expression.size_lt_of_operand member) (parts d member) rfl

end Simple

/-! ## Verdicts come from expansions -/

section Verdict

variable (built : build interpreter.equivalence interpreter.policy = .ok interpreter)
variable {e : Expression} {r : Resolution} (run : Evaluates interpreter e r)

include built run

theorem Evaluates.verdict_fixed {own : Expression}
    (expanded : interpreter.equivalence.expand e = .ok own) (fixed : Fixed interpreter own) :
    r.verdict = (interpreter.ascribe own own).verdict := by
  cases entry : interpreter.policy.find? e with
  | some decision =>
    have covers : Covers interpreter.equivalence e own :=
      ⟨own, expanded, (Expression.mem_operands_alone (fixed.single .or)).mpr rfl⟩
    rw [run.unique (.listed entry), ascribe_of_covers built entry covers]
    rfl
  | none =>
    have alone : Evaluates interpreter e (interpreter.ascribe e own) :=
      .alone entry expanded fun connective first rest => fixed.single connective _
    rw [run.unique alone]
    exact interpreter.verdict_ascribe e own own

theorem Evaluates.verdict_choice {first : Expression} {rest : List Expression}
    (expanded : interpreter.equivalence.expand e = .ok (.compound .or (first :: rest)))
    (fixed : ∀ p ∈ first :: rest, Fixed interpreter p) :
    r.verdict = (interpreter.choose first rest).verdict := by
  cases entry : interpreter.policy.find? e with
  | some decision =>
    rw [run.unique (.listed entry)]
    refine (choose_verdict fun p member => ?_).symm
    rw [ascribe_of_covers built entry ⟨_, expanded, member⟩]
    rfl
  | none => rw [run.unique (evaluates_choice built entry expanded fixed)]

end Verdict

theorem verdict_expand (simple : SimpleTables interpreter.equivalence)
    (built : build interpreter.equivalence interpreter.policy = .ok interpreter)
    {e expanded : Expression} {r s : Resolution}
    (ended : interpreter.equivalence.expand e = .ok expanded) (run : Evaluates interpreter e r)
    (run' : Evaluates interpreter expanded s) : r.verdict = s.verdict := by
  by_cases single : ∀ connective es, e ≠ .compound connective es
  · obtain ⟨own, ended', fixed⟩ | ⟨first, rest, ended', fixed⟩ := alternatives_cases simple single
    · cases Except.ok.inj (ended.symm.trans ended')
      rw [run.verdict_fixed built ended fixed, run'.verdict_fixed built fixed.itself fixed]
    · cases Except.ok.inj (ended.symm.trans ended')
      -- The choice expands to itself, whether the policy lists it or not.
      have again := simple.expand_compound .or (first :: rest)
      rw [run.verdict_choice built ended fixed, run'.verdict_choice built again fixed]
  · push Not at single
    obtain ⟨connective, es, rfl⟩ := single
    cases Except.ok.inj (ended.symm.trans (simple.expand_compound connective es))
    rw [run.unique run']

/-- An expression and its expansion have the same verdict. -/
theorem evaluate_expand {equivalence : Equivalence} {policy : Policy}
    (simple : SimpleTables equivalence) (built : build equivalence policy = .ok interpreter)
    {e : Expression} (canonical : e.Canonical) :
    ∃ expanded r s, equivalence.expand e = .ok expanded ∧ interpreter.evaluate e = .ok r ∧
      interpreter.evaluate expanded = .ok s ∧ r.verdict = s.verdict := by
  obtain ⟨rfl, rfl, -⟩ := build_spec built
  obtain ⟨expanded, ended⟩ := simple.exists_expand canonical
  have canonical' := simple.canonical.expand canonical ended
  obtain ⟨r, run⟩ := exists_evaluates simple built canonical
  obtain ⟨s, run'⟩ := exists_evaluates simple built canonical'
  have evaluated := (evaluate_eq_ok_iff simple.canonical canonical).mpr run
  have evaluated' := (evaluate_eq_ok_iff simple.canonical canonical').mpr run'
  exact ⟨expanded, r, s, ended, evaluated, evaluated', verdict_expand simple built ended run run'⟩

/-- `A` or later stands for `A` and `B`, which have an entry as a choice only; `C` or later has an entry of
its own, and stands for `C` and `D`. -/
theorem evaluate_expand_of_listed_choice :
    let a : License := .free ⟨"A", []⟩
    let b : License := .free ⟨"B", []⟩
    let c : License := .free ⟨"C", []⟩
    let d : License := .free ⟨"D", []⟩
    let equivalence : Equivalence :=
      ⟨[[(.orLater a, [.just a, .orLater b]), (.orLater b, [.just b])],
        [(.orLater c, [.just c, .just d])]]⟩
    let choice : Expression := (Expression.just a).or (.just b)
    let choice' : Expression := (Expression.just c).or (.just d)
    let policy : Policy := ⟨[(choice, ⟨.reject, "no"⟩), (.orLater c, ⟨.allow, ""⟩)]⟩
    ∃ interpreter, build equivalence policy = .ok interpreter ∧ SimpleTables equivalence ∧
      equivalence.expand (.orLater a) = .ok choice ∧
      (∃ r s, interpreter.evaluate (.orLater a) = .ok r ∧ interpreter.evaluate choice = .ok s ∧
        r.verdict = s.verdict) ∧
      equivalence.expand (.orLater c) = .ok choice' ∧
      ∃ r s, interpreter.evaluate (.orLater c) = .ok r ∧ interpreter.evaluate choice' = .ok s ∧
        r.verdict = s.verdict := by
  intro a b c d equivalence choice choice' policy
  let interpreter : Interpreter := ⟨equivalence, policy, [(.just a, choice), (.just b, choice),
    (.just c, .orLater c), (.just d, .orLater c)]⟩
  have built : build equivalence policy = .ok interpreter :=
    Outcome.toOption_eq_some.mp (by decide +kernel)
  have simple : SimpleTables equivalence := by decide +kernel
  have canonical (license : License) : (Expression.orLater license).Canonical := by
    simp [Expression.Canonical]
  have ended : equivalence.expand (.orLater a) = .ok choice :=
    Outcome.toOption_eq_some.mp (by decide +kernel)
  have ended' : equivalence.expand (.orLater c) = .ok choice' :=
    Outcome.toOption_eq_some.mp (by decide +kernel)
  obtain ⟨_, r, s, first, resolved⟩ := evaluate_expand simple built (canonical a)
  obtain ⟨_, r', s', second, resolved'⟩ := evaluate_expand simple built (canonical c)
  cases Except.ok.inj (ended.symm.trans first)
  cases Except.ok.inj (ended'.symm.trans second)
  exact ⟨interpreter, built, simple, ended, ⟨r, s, resolved⟩, ended', r', s', resolved'⟩

end Licensing.Interpreter
