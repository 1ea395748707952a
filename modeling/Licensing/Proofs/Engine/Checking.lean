import Licensing.Proofs.Compatibility.Expansion
import Licensing.Proofs.Equivalence.VersionRanges
import Licensing.Proofs.Normalization.Guessing
import Licensing.Proofs.Registry.Identifiers

/-! # Checking what was printed

A check reads a text, normalizes what it reads, and goes on with the normal form alone (`check_eq_ok`).  The
normal form of something that was read can be printed and read again, and it is its own normal form; so a
check of the printed normal form finds the same.

* `check_text_normalized` — the main statement.
-/

namespace Licensing.Engine

open Reporting

variable {engine : Engine}

/-! ## The steps of a check -/

/-- A check succeeds exactly if its steps do; what is noted on the way does not matter. -/
theorem check_eq_ok {text : String} {report : CheckReport} :
    (engine.check text).outcome.1 = .ok report ↔
      Expression.parse engine.registry text = .ok report.expression ∧
      report.expression.normalize engine.guesser.rules false = .ok report.normalized ∧
      engine.interpreter.evaluate? (some report.normalized) = .ok report.result ∧
      engine.equivalence.expand report.normalized = .ok report.expanded := by
  simp only [outcome_eq_ok, check, parse, normalize, evaluate, expand, runFrom_bind_eq_ok, runFrom_lift_eq_ok,
    runFrom_note_eq_ok, runFrom_noteAll_eq_ok, runFrom_pure_eq_ok]
  constructor
  · rintro ⟨_, expression, _, ⟨parsed, rfl⟩, normalized, _, ⟨⟨⟩, _, rfl, resolved, rfl⟩, result, _,
      ⟨⟨⟩, _, rfl, evaluated, rfl⟩, ⟨⟩, _, rfl, expanded, _, ⟨⟨⟩, _, rfl, ended, rfl⟩, rfl, rfl⟩
    exact ⟨parsed, resolved, evaluated, ended⟩
  · rintro ⟨parsed, resolved, evaluated, ended⟩
    exact ⟨_, _, _, ⟨parsed, rfl⟩, _, _, ⟨⟨⟩, _, rfl, resolved, rfl⟩, _, _, ⟨⟨⟩, _, rfl, evaluated, rfl⟩, ⟨⟩, _, rfl,
      _, _, ⟨⟨⟩, _, rfl, ended, rfl⟩, rfl, rfl⟩

/-! ## The parts of an engine -/

/-- How the parts of an engine fit together. -/
structure Assembled (files : Files) (settings : Settings) (engine : Engine) : Prop where
  registry : ∃ behind, runFrom (loadRegistry files settings.licenses) [] = (.ok engine.registry, behind)
  equivalence : Layers engine.registry settings.equivalences engine.equivalence
  guesser : engine.guesser = .ofRegistry engine.registry settings.threshold settings.limit
  interpreter : ∃ policy, Policy.ofRules engine.registry settings.rules = .ok policy ∧
    Interpreter.build engine.equivalence policy = .ok engine.interpreter

theorem assembled_of_ofSettings {files : Files} {settings : Settings}
    (built : (ofSettings files settings).outcome.1 = .ok engine) : Assembled files settings engine := by
  simp only [outcome_eq_ok, ofSettings, buildGuesser, runFrom_bind_eq_ok, runFrom_note_eq_ok,
    runFrom_lift_eq_ok, runFrom_pure_eq_ok] at built
  obtain ⟨_, registry, _, loaded, equivalence, _, tables, _, _, ⟨⟨⟩, _, rfl, rfl, rfl⟩, policy, _,
    ⟨accepted, rfl⟩, ⟨⟩, _, rfl, interpreter, _, indexed, rfl, rfl⟩ := built
  exact ⟨⟨_, loaded⟩, (exists_runFrom_buildEquivalence _).mp ⟨_, tables⟩, rfl,
    policy, accepted, (exists_runFrom_buildInterpreter _).mp ⟨_, indexed⟩⟩

/-- Without rules of the settings there is the table of version ranges alone. -/
theorem Layers.simpleTables {registry : Registry} {rules : List EquivalenceRule} {equivalence : Equivalence}
    (layers : Layers registry rules equivalence) (unruled : rules = []) :
    Equivalence.SimpleTables equivalence := by
  cases layers with
  | plain accepted _ => exact VersionTable.simpleTables accepted
  | ruled _ some _ => simp [unruled] at some

/-- The engine with other guesses by title. -/
def withRank (engine : Engine) (rank : String → List (Listed × Float)) : Engine :=
  { engine with guesser := { engine.guesser with rank } }

namespace Assembled

variable {files : Files} {settings : Settings} (assembled : Assembled files settings engine)

include assembled

theorem registry_eq_standard (bundled : settings.licenses = none) : engine.registry = Registry.standard := by
  obtain ⟨behind, loaded⟩ := assembled.registry
  rw [bundled] at loaded
  exact (runFrom_pure_eq_ok.mp loaded).1.symm

theorem withRank {rank : String → List (Listed × Float)}
    (guesses : ∀ title, ∀ guess ∈ rank title, guess.1 ∈ engine.registry.licenses) :
    (engine.withRank rank).guesser.registry = engine.registry ∧
      (engine.withRank rank).guesser.Registered := by
  have same : (engine.withRank rank).guesser.registry = engine.registry := by
    rw [Engine.withRank, assembled.guesser]
    rfl
  exact ⟨same, fun title guess member => same ▸ guesses title guess member⟩

end Assembled

/-! ## Checks that succeed -/

/-- With tables of simple terms, every text that can be read can be checked. -/
theorem exists_check (registered : engine.guesser.Registered)
    (simple : Equivalence.SimpleTables engine.equivalence) {policy : Policy}
    (indexed : Interpreter.build engine.equivalence policy = .ok engine.interpreter) {text : String}
    {e : Expression} (parsed : Expression.parse engine.registry text = .ok e) :
    ∃ report, report.expression = e ∧ (engine.check text).outcome.1 = .ok report := by
  have canonical := (Expression.printable_of_parse parsed).canonical
  obtain ⟨normalized, resolved⟩ := Expression.exists_normalize engine.guesser.rules e
  obtain ⟨canonical', -⟩ := Guesser.settled_of_normalize registered canonical resolved
  obtain ⟨expanded, ended⟩ := simple.exists_expand canonical'
  obtain ⟨tables, rfl, -⟩ := Interpreter.build_spec indexed
  rw [← tables] at simple indexed
  obtain ⟨result, run⟩ := Interpreter.exists_evaluates simple indexed canonical'
  have evaluated := (Interpreter.evaluate_eq_ok_iff simple.canonical canonical').mpr run
  exact ⟨⟨e, normalized, expanded, result⟩, rfl, check_eq_ok.mpr ⟨parsed, resolved, evaluated, ended⟩⟩

/-! ## Checking twice -/

theorem exists_check_again (registered : engine.guesser.Registered)
    (same : engine.guesser.registry = engine.registry)
    (names : ∀ entry ∈ engine.registry.licenses, IsName entry.id) {text : String} {report : CheckReport}
    (checked : (engine.check text).outcome.1 = .ok report) :
    ∃ again, (engine.check report.normalized.text).outcome.1 = .ok again ∧
      again.normalized = report.normalized ∧ again.expanded = report.expanded ∧
      again.result = report.result := by
  obtain ⟨parsed, resolved, evaluated, ended⟩ := check_eq_ok.mp checked
  rw [← same] at parsed names
  have printable := Expression.printable_of_parse parsed
  have printable' := Guesser.printable_of_normalize registered names printable resolved
  -- The first two steps of the second check lead to the same normal form, and the others start from it.
  have unchanged := Guesser.normalize_of_normalize registered printable.canonical resolved
  have parsed' := printable'.parse_text
  rw [same] at parsed'
  exact ⟨⟨report.normalized, report.normalized, report.expanded, report.result⟩,
    check_eq_ok.mpr ⟨parsed', unchanged, evaluated, ended⟩, rfl, rfl, rfl⟩

/-- An engine whose registry lists names finds the same again in the printed normal form of a text, whatever
guesses from its registry it has. -/
theorem check_text_normalized {files : Files} {settings : Settings}
    (built : (ofSettings files settings).outcome.1 = .ok engine)
    (names : ∀ entry ∈ engine.registry.licenses, IsName entry.id) :
    engine.guesser.Registered ∧
    ∀ rank : String → List (Listed × Float),
      (∀ title, ∀ guess ∈ rank title, guess.1 ∈ engine.registry.licenses) →
      ∀ (text : String) (report : CheckReport), ((engine.withRank rank).check text).outcome.1 = .ok report →
        ∃ again, ((engine.withRank rank).check report.normalized.text).outcome.1 = .ok again ∧
          again.normalized = report.normalized ∧ again.expanded = report.expanded ∧
          again.result = report.result := by
  have assembled := assembled_of_ofSettings built
  refine ⟨assembled.guesser ▸ Guesser.registered_ofModel _ _ _ _, fun rank guesses text report checked => ?_⟩
  obtain ⟨same, registered⟩ := assembled.withRank guesses
  exact exists_check_again registered same names checked

/-- With the bundled licenses and without rules: a title that is no identifier, whose only guess may be good enough
or not. -/
theorem check_text_normalized_of_title :
    ∃ (engine : Engine) (entry : Listed) (report again : CheckReport),
      (ofSettings ⟨⟨"", []⟩, [], [], []⟩ {}).outcome.1 = .ok engine ∧ engine.registry = Registry.standard ∧
      entry ∈ engine.registry.licenses ∧ entry.id = "MIT" ∧
      report.expression = (Expression.orLater (engine.registry.readLicense "Expat").named).or
        (.just (engine.registry.readLicense "ISC").named) ∧
      ((engine.withRank fun _ => [(entry, 1)]).check "Expat+ OR ISC").outcome.1 = .ok report ∧
      ((engine.withRank fun _ => [(entry, 1)]).check report.normalized.text).outcome.1 = .ok again ∧
      again.normalized = report.normalized ∧ again.expanded = report.expanded ∧
      again.result = report.result := by
  obtain ⟨engine, built⟩ := exists_ofSettings ⟨⟨"", []⟩, [], [], []⟩
    (show ({} : Settings).licenses = none from rfl) rfl ⟨[], rfl⟩
  have assembled := assembled_of_ofSettings built
  have standard := assembled.registry_eq_standard rfl
  obtain ⟨policy, -, indexed⟩ := assembled.interpreter
  have names : ∀ entry ∈ engine.registry.licenses, IsName entry.id := fun entry member =>
    Registry.isName_of_standard (List.mem_append_left _ (standard ▸ member))
  obtain ⟨entry, listed, id⟩ : ∃ entry ∈ engine.registry.licenses, entry.id = "MIT" :=
    VersionTable.hasLicense_iff.mp (standard ▸ Registry.hasLicense_standard (by decide +kernel))
  have guesses (title : String) (guess : Listed × Float) (member : guess ∈ [(entry, (1 : Float))]) :
      guess.1 ∈ engine.registry.licenses := by
    rw [List.mem_singleton.mp member]
    exact listed
  have named : IsName "Expat" ∧ IsName "ISC" := by decide +kernel
  have parsed : Expression.parse engine.registry "Expat+ OR ISC" =
      .ok ((Expression.orLater (engine.registry.readLicense "Expat").named).or
        (.just (engine.registry.readLicense "ISC").named)) := by
    have first : Writes engine.registry (Symbol.join .or).rank "Expat+" _ :=
      (Writes.license named.1).orLater (by decide)
    exact Expression.parse_of_writes (first.join (Nat.le_refl _) (Writes.license named.2))
  obtain ⟨report, expression, checked⟩ := exists_check (assembled.withRank guesses).2
    (assembled.equivalence.simpleTables rfl) indexed parsed
  obtain ⟨-, stable⟩ := check_text_normalized built names
  obtain ⟨again, checked', rest⟩ := stable _ guesses _ report checked
  exact ⟨engine, entry, report, again, built, standard, listed, id, expression, checked, checked', rest⟩

end Licensing.Engine
