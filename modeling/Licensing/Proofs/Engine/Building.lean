import Licensing.Engine
import Licensing.Proofs.Outcome
import Licensing.Proofs.Reporting

/-! # Building an engine

An engine is built in steps that may fail: the registry, the tables, the policy and the interpreter.  What the
steps with tables need to succeed is said here once for each.

* `Engine.Layers` — the tables that an engine has.
-/

namespace Licensing.Engine

open Reporting

variable {registry : Registry}

/-- An engine expands by its tables; what it notes on the way does not matter. -/
theorem outcome_expand (engine : Engine) (e : Expression) :
    (engine.expand e).outcome.1 = (engine.equivalence.expand e).mapError .expansion := by
  show (runFrom (noteAll _ >>= fun _ => lift .expansion (engine.equivalence.expand e)) []).1 = _
  cases engine.equivalence.expand e with
  | error fault => rfl
  | ok expanded => rfl

/-- The tables on which the rules of the settings lie, and their own table if there are any rules. -/
inductive Layers (registry : Registry) (rules : List EquivalenceRule) : Equivalence → Prop
  | plain {versions : EquivalenceTable} (accepted : versionTable registry bundledVersions = .ok versions)
      (none : rules.isEmpty = true) : Layers registry rules ⟨[versions]⟩
  | ruled {versions table : EquivalenceTable}
      (accepted : versionTable registry bundledVersions = .ok versions) (some : rules.isEmpty = false)
      (read : EquivalenceTable.ofRules registry rules = .ok table) : Layers registry rules ⟨[versions, table]⟩

theorem exists_runFrom_buildEquivalence {rules : List EquivalenceRule} {equivalence : Equivalence}
    (before : List Event) :
    (∃ behind, runFrom (buildEquivalence registry rules) before = (.ok equivalence, behind)) ↔
      Layers registry rules equivalence := by
  simp only [buildEquivalence, runFrom_bind_eq_ok, runFrom_lift_eq_ok, runFrom_note_eq_ok]
  constructor
  · rintro ⟨_, versions, _, ⟨accepted, rfl⟩, ⟨⟩, _, rfl, built⟩
    split at built
    next none =>
      obtain ⟨rfl, rfl⟩ := runFrom_pure_eq_ok.mp built
      exact .plain accepted none
    next some =>
      obtain ⟨table, _, lifted, built⟩ := runFrom_bind_eq_ok.mp built
      obtain ⟨read, rfl⟩ := runFrom_lift_eq_ok.mp lifted
      obtain ⟨rfl, rfl⟩ := runFrom_pure_eq_ok.mp built
      exact .ruled accepted (by simpa using some) read
  · intro layers
    cases layers with
    | @plain versions accepted none =>
      refine ⟨before ++ [.versionTableBuilt versions.length], versions, _, ⟨accepted, rfl⟩, ⟨⟩, _, rfl, ?_⟩
      rw [if_pos none]
      exact runFrom_pure_eq_ok.mpr ⟨rfl, rfl⟩
    | @ruled versions _ accepted some read =>
      refine ⟨before ++ [.versionTableBuilt versions.length], versions, _, ⟨accepted, rfl⟩, ⟨⟩, _, rfl, ?_⟩
      rw [if_neg (by simpa using some)]
      exact runFrom_bind_eq_ok.mpr ⟨_, _, runFrom_lift_eq_ok.mpr ⟨read, rfl⟩,
        runFrom_pure_eq_ok.mpr ⟨rfl, rfl⟩⟩

theorem exists_runFrom_buildInterpreter {equivalence : Equivalence} {policy : Policy}
    {interpreter : Interpreter} (before : List Event) :
    (∃ behind, runFrom (buildInterpreter equivalence policy) before = (.ok interpreter, behind)) ↔
      Interpreter.build equivalence policy = .ok interpreter := by
  simp only [buildInterpreter, runFrom_bind_eq_ok, runFrom_noteAll_eq_ok, runFrom_lift_eq_ok,
    runFrom_note_eq_ok, runFrom_pure_eq_ok]
  constructor
  · rintro ⟨_, ⟨⟩, _, -, built, _, ⟨indexed, -⟩, ⟨⟩, _, -, rfl, -⟩
    exact indexed
  · intro indexed
    exact ⟨_, ⟨⟩, _, rfl, interpreter, _, ⟨indexed, rfl⟩, ⟨⟩, _, rfl, rfl, rfl⟩

end Licensing.Engine
