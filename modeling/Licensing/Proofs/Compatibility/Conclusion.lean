import Licensing.Proofs.Compatibility.Evaluation
import Licensing.Proofs.Equivalence.Termination

/-! # Evaluations that come to an end

An evaluation calls itself for the operands of an expansion, and those need not be parts of what was
expanded.  `Concludes` and `Gathers` are the finite runs of this recursion, without any bound, also those
that stop at the fault of an expansion.  A run is determined by its expression (`Concludes.unique`), and
it evaluates no expression again inside the evaluation of that expression (`not_circular_of_concludes`).

`Evaluates` has the runs without faults only, and takes expansions from the bounded function; statements
about ends need both differences.
-/

namespace Licensing.Interpreter

open Licensing.Equivalence (Expands)

variable {interpreter : Interpreter} {connective : Connective}

/-! ## Runs -/

/-- Adds the resolution of an operand; the first one stands for itself. -/
def gather (connective : Connective) : Option Resolution → Resolution → Resolution
  | none, operand => operand
  | some result, operand => Resolution.join connective result operand

mutual

/-- An evaluation that ends, with a resolution or with the fault of an expansion. -/
inductive Concludes (interpreter : Interpreter) :
    Expression → Except ExpansionFault Resolution → Prop
  | listed {e : Expression} {decision : Decision}
      (entry : interpreter.policy.find? e = some decision) :
      Concludes interpreter e (.ok (decision.resolve e))
  | fault {e : Expression} {fault : ExpansionFault} (unlisted : interpreter.policy.find? e = none)
      (failed : Expands interpreter.equivalence e (.error fault)) :
      Concludes interpreter e (.error fault)
  | alone {e own : Expression} (unlisted : interpreter.policy.find? e = none)
      (expanded : Expands interpreter.equivalence e (.ok own))
      (single : ∀ connective first rest, own ≠ .compound connective (first :: rest)) :
      Concludes interpreter e (.ok (interpreter.ascribe e own))
  | compound {e first : Expression} {connective : Connective} {rest : List Expression}
      {outcome : Except ExpansionFault Resolution} (unlisted : interpreter.policy.find? e = none)
      (expanded : Expands interpreter.equivalence e (.ok (.compound connective (first :: rest))))
      (operands : Gathers interpreter connective none (first :: rest) outcome) :
      Concludes interpreter e outcome

/-- The evaluation of operands from left to right, up to the first fault. -/
inductive Gathers (interpreter : Interpreter) :
    Connective → Option Resolution → List Expression → Except ExpansionFault Resolution → Prop
  | done {connective : Connective} {result : Resolution} :
      Gathers interpreter connective (some result) [] (.ok result)
  | fault {connective : Connective} {result : Option Resolution} {e : Expression}
      {rest : List Expression} {fault : ExpansionFault}
      (head : Concludes interpreter e (.error fault)) :
      Gathers interpreter connective result (e :: rest) (.error fault)
  | next {connective : Connective} {result : Option Resolution} {e : Expression}
      {rest : List Expression} {operand : Resolution} {outcome : Except ExpansionFault Resolution}
      (head : Concludes interpreter e (.ok operand))
      (tail : Gathers interpreter connective (some (gather connective result operand)) rest outcome) :
      Gathers interpreter connective result (e :: rest) outcome

end

theorem Concludes.cases {e : Expression} {r : Except ExpansionFault Resolution}
    (run : Concludes interpreter e r) :
    (∃ decision, interpreter.policy.find? e = some decision ∧ r = .ok (decision.resolve e)) ∨
    (interpreter.policy.find? e = none ∧ ∃ outcome, Expands interpreter.equivalence e outcome ∧
      ((∃ fault, outcome = .error fault ∧ r = .error fault) ∨
        (∃ own, outcome = .ok own ∧ (∀ connective first rest, own ≠ .compound connective (first :: rest)) ∧
          r = .ok (interpreter.ascribe e own)) ∨
        ∃ connective first rest, outcome = .ok (.compound connective (first :: rest)) ∧
          Gathers interpreter connective none (first :: rest) r)) := by
  cases run with
  | listed entry => exact .inl ⟨_, entry, rfl⟩
  | fault unlisted failed => exact .inr ⟨unlisted, _, failed, .inl ⟨_, rfl, rfl⟩⟩
  | alone unlisted expanded single =>
    exact .inr ⟨unlisted, _, expanded, .inr (.inl ⟨_, rfl, single, rfl⟩)⟩
  | compound unlisted expanded operands =>
    exact .inr ⟨unlisted, _, expanded, .inr (.inr ⟨_, _, _, rfl, operands⟩)⟩

theorem Gathers.cases {result : Option Resolution} {e : Expression} {rest : List Expression}
    {r : Except ExpansionFault Resolution}
    (run : Gathers interpreter connective result (e :: rest) r) :
    (∃ fault, Concludes interpreter e (.error fault) ∧ r = .error fault) ∨
    ∃ operand, Concludes interpreter e (.ok operand) ∧
      Gathers interpreter connective (some (gather connective result operand)) rest r := by
  cases run with
  | fault head => exact .inl ⟨_, head, rfl⟩
  | next head tail => exact .inr ⟨_, head, tail⟩

/-! ## Runs are determined -/

mutual

theorem Concludes.unique {e : Expression} {r s : Except ExpansionFault Resolution} :
    Concludes interpreter e r → Concludes interpreter e s → r = s
  | .listed entry, right => by
    obtain ⟨decision, entry', rfl⟩ | ⟨unlisted, -⟩ := right.cases
    · rw [Option.some.inj (entry.symm.trans entry')]
    · simp [entry] at unlisted
  | .fault unlisted failed, right => by
    obtain ⟨decision, entry, -⟩ | ⟨-, outcome, expanded, rest⟩ := right.cases
    · simp [unlisted] at entry
    · cases failed.unique expanded
      obtain ⟨fault, same, rfl⟩ | ⟨own, same, -⟩ | ⟨_, _, _, same, -⟩ := rest
      · exact congrArg _ (Except.error.inj same)
      · cases same
      · cases same
  | .alone unlisted expanded single, right => by
    obtain ⟨decision, entry, -⟩ | ⟨-, outcome, expanded', rest⟩ := right.cases
    · simp [unlisted] at entry
    · cases expanded.unique expanded'
      obtain ⟨fault, same, -⟩ | ⟨own, same, -, rfl⟩ | ⟨_, _, _, same, -⟩ := rest
      · cases same
      · rw [Except.ok.inj same]
      · exact absurd (Except.ok.inj same) (single _ _ _)
  | .compound unlisted expanded operands, right => by
    obtain ⟨decision, entry, -⟩ | ⟨-, outcome, expanded', rest⟩ := right.cases
    · simp [unlisted] at entry
    · cases expanded.unique expanded'
      obtain ⟨fault, same, -⟩ | ⟨own, same, single, -⟩ | ⟨_, _, _, same, operands'⟩ := rest
      · cases same
      · exact absurd (Except.ok.inj same).symm (single _ _ _)
      · cases same
        exact operands.unique operands'

theorem Gathers.unique {connective : Connective} {result : Option Resolution}
    {es : List Expression} {r s : Except ExpansionFault Resolution} :
    Gathers interpreter connective result es r → Gathers interpreter connective result es s → r = s
  | .done, right => by
    cases right with
    | done => rfl
  | .fault head, right => by
    obtain ⟨fault, head', rfl⟩ | ⟨operand, head', -⟩ := right.cases
    · exact congrArg _ (Except.error.inj (head.unique head'))
    · cases head.unique head'
  | .next head tail, right => by
    obtain ⟨fault, head', -⟩ | ⟨operand, head', tail'⟩ := right.cases
    · cases head.unique head'
    · cases head.unique head'
      exact tail.unique tail'

end

/-! ## Evaluations inside evaluations -/

/-- The evaluation of `outer` evaluates `inner`: it is an operand of the expansion, and the operands
before it have resolutions. -/
def Inside (interpreter : Interpreter) (inner outer : Expression) : Prop :=
  interpreter.policy.find? outer = none ∧ ∃ connective before after,
    Expands interpreter.equivalence outer (.ok (.compound connective (before ++ inner :: after))) ∧
    ∀ d ∈ before, ∃ r, Concludes interpreter d (.ok r)

/-- Some expression that the evaluation of `e` evaluates is evaluated again inside its own evaluation. -/
def Circular (interpreter : Interpreter) (e : Expression) : Prop :=
  ∃ repeated, Relation.ReflTransGen interpreter.Inside repeated e ∧
    Relation.TransGen interpreter.Inside repeated repeated

mutual

theorem Concludes.accessible {e : Expression} {r : Except ExpansionFault Resolution} :
    Concludes interpreter e r → Acc interpreter.Inside e
  | .listed entry => .intro _ fun inner inside => by
    obtain ⟨unlisted, -⟩ := inside
    simp [entry] at unlisted
  | .fault _ failed => .intro _ fun inner inside => by
    obtain ⟨-, _, _, _, expanded, -⟩ := inside
    cases failed.unique expanded
  | .alone _ expanded single => .intro _ fun inner inside => by
    obtain ⟨-, _, before, _, expanded', -⟩ := inside
    have same := Except.ok.inj (expanded.unique expanded')
    cases before with
    | nil => exact absurd same (single _ _ _)
    | cons => exact absurd same (single _ _ _)
  | .compound _ expanded operands => .intro _ fun inner inside => by
    obtain ⟨-, _, before, after, expanded', ends⟩ := inside
    -- Expansions are determined, so `inner` is among the operands that this run goes through.
    injection Except.ok.inj (expanded.unique expanded') with _ same
    exact operands.accessible before inner after same ends

theorem Gathers.accessible {connective : Connective} {result : Option Resolution}
    {es : List Expression} {r : Except ExpansionFault Resolution} :
    Gathers interpreter connective result es r → ∀ before inner after, es = before ++ inner :: after →
      (∀ d ∈ before, ∃ s, Concludes interpreter d (.ok s)) → Acc interpreter.Inside inner
  | .done, before, _, _, same, _ => by simp at same
  | .fault head, before, inner, after, same, ends => by
    cases before with
    | nil =>
      injection same with first
      exact first ▸ head.accessible
    | cons d before =>
      -- What comes before `inner` does not fail.
      injection same with first
      obtain ⟨s, head'⟩ := ends d List.mem_cons_self
      cases head.unique (first ▸ head')
  | .next head tail, before, inner, after, same, ends => by
    cases before with
    | nil =>
      injection same with first
      exact first ▸ head.accessible
    | cons d before =>
      injection same with _ rest
      exact tail.accessible before inner after rest fun d member => ends d (.tail _ member)

end

/-- An evaluation that ends comes back to nothing inside its own evaluation. -/
theorem not_circular_of_concludes {e : Expression} {r : Except ExpansionFault Resolution}
    (run : Concludes interpreter e r) : ¬ Circular interpreter e :=
  not_cycle_of_acc run.accessible

end Licensing.Interpreter
