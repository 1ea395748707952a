import Licensing.BundleHeader
import Licensing.Equivalence.Versions
import Licensing.Reporting

/-! # The engine

Registry, guesser, equivalence tables and policy put together as settings demand.

* `Engine.ofSettings` — the engine for some settings.
* `Engine.parse`, `Engine.normalize`, `Engine.expand`, `Engine.evaluate` — the single steps.
* `Engine.check` — all of them for one text.
-/

namespace Licensing

open Licensing.Similarity

/-- Everything that is needed to work with license expressions. -/
structure Engine where
  registry : Registry
  guesser : Guesser Float
  equivalence : Equivalence
  interpreter : Interpreter

/-- What a check found: the expression that was read, with its free text resolved, expanded, and its
resolution. -/
structure CheckReport where
  expression : Expression
  normalized : Expression
  expanded : Expression
  result : Resolution

/-! ## Equivalence rules of the settings -/

def EquivalenceRule.read (registry : Registry) (rule : EquivalenceRule) :
    Except ParseError (Expression × List Expression) := do
  let source ← Expression.parse registry rule.source
  let targets ← rule.targets.mapM (Expression.parse registry)
  .ok (source, targets)

/-- The table of the rules that can be read, and the defects of the others; `index` is the position
of the first rule. -/
def EquivalenceTable.addRules (registry : Registry) (index : Nat) (table : EquivalenceTable) :
    List EquivalenceRule → EquivalenceTable × List SettingsDefect
  | [] => (table, [])
  | rule :: rest =>
    match rule.read registry with
    | .ok (source, targets) => addRules registry (index + 1) (table.add source targets) rest
    | .error cause =>
      let (table, defects) := addRules registry (index + 1) table rest
      (table, .badEquivalence index cause :: defects)

def EquivalenceTable.ofRules (registry : Registry) (rules : List EquivalenceRule) :
    Except (List SettingsDefect) EquivalenceTable :=
  match EquivalenceTable.addRules registry 0 [] rules with
  | (table, []) => .ok table
  | (_, defects) => .error defects

/-! ## Notes on guesses -/

/-- The number of guesses, the best one included, that a note on a guess mentions. -/
def mentionedGuesses : Nat := 10

/-- What is noted about free text; nothing if no guess was needed. -/
def Finding.event? (text : FreeText) : Finding Float → Option Event
  | .byUri entry score => some (.guessedByUri text.title text.uris entry.id score)
  | .byTitle entry score others =>
    some (.guessedByTitle text.title entry.id score
      ((others.take (mentionedGuesses - 1)).map Listed.id))
  | .tooFar best score => some (.notGuessed text.title best.id score)
  | .publicDomain _ | .identifier _ | .nothing => none

namespace Engine

open Reporting

/-! ## Building -/

/-- The registry, with the further entries of a file if there is one. -/
def loadRegistry (files : Files) : Option Files.Path → Reporting Registry
  | none => pure Registry.standard
  | some path => do
    let user := match files.read path with
      | .ok text => UserSource.present (.ofText path.text path.name text)
      | .error _ => .missing path.text
    let registry ← lift .data (Registry.load Registry.bundledLicenses Registry.bundledExceptions user)
    note (.registryLoaded registry.licenses.length registry.exceptions.length)
    pure registry

/-- The bundled version ranges, and on top of them the rules of the settings. -/
def buildEquivalence (registry : Registry) (rules : List EquivalenceRule) :
    Reporting Equivalence := do
  let versions ← lift .data (versionTable registry bundledVersions)
  note (.versionTableBuilt versions.length)
  let base : Equivalence := ⟨[versions]⟩
  if rules.isEmpty then pure base
  else return base.register (← lift .settings (EquivalenceTable.ofRules registry rules))

/-- The guesser, trained on the titles of a registry. -/
def buildGuesser (registry : Registry) (threshold : Float) (limit : Int) :
    Reporting (Guesser Float) := do
  let model := Guesser.titleModel registry
  note (.modelTrained model.vectors.length model.terms.length)
  pure (.ofModel registry model threshold limit)

def buildInterpreter (equivalence : Equivalence) (policy : Policy) : Reporting Interpreter := do
  noteAll ((Interpreter.buildNotices equivalence policy).map .cycle)
  let interpreter ← lift .ofInterpreterFault (Interpreter.build equivalence policy)
  note (.interpreterReady policy.entries.length interpreter.parts.length)
  pure interpreter

def ofSettings (files : Files) (settings : Settings) : Reporting Engine := do
  let registry ← loadRegistry files settings.licenses
  let equivalence ← buildEquivalence registry settings.equivalences
  let guesser ← buildGuesser registry settings.threshold settings.limit
  let policy ← lift .policy (Policy.ofRules registry settings.rules)
  note (.engineReady registry.licenses.length policy.entries.length)
  let interpreter ← buildInterpreter equivalence policy
  pure ⟨registry, guesser, equivalence, interpreter⟩

/-! ## Single steps -/

def parse (engine : Engine) (text : String) : Reporting Expression :=
  lift .expression (Expression.parse engine.registry text)

def resolve? (engine : Engine) (text : FreeText) : Reporting (Option Expression) := do
  noteAll ((engine.guesser.resolve text).event? text).toList
  pure (engine.guesser.license? text)

def normalize (engine : Engine) (e : Expression) (strict : Bool) : Reporting Expression := do
  noteAll (e.freeTexts.filterMap fun text => (engine.guesser.resolve text).event? text)
  lift .unresolved (e.normalize engine.guesser.rules strict)

def readHeader (engine : Engine) (value context : String) : Reporting (Option Expression) := do
  let reading := BundleHeader.read engine.registry (BundleHeader.registered engine.registry) value
  match reading with
  | .ignored reason => note (.headerIgnored value context reason)
  | _ => pure ()
  pure reading.expression?

def expand (engine : Engine) (e : Expression) : Reporting Expression := do
  noteAll ((engine.equivalence.notices e).map .cycle)
  lift .expansion (engine.equivalence.expand e)

def evaluate (engine : Engine) (e : Option Expression) : Reporting Resolution := do
  noteAll ((e.elim [] engine.interpreter.notices).map .cycle)
  lift .expansion (engine.interpreter.evaluate? e)

/-! ## All steps -/

def check (engine : Engine) (text : String) : Reporting CheckReport := do
  let expression ← engine.parse text
  let normalized ← engine.normalize expression false
  let result ← engine.evaluate (some normalized)
  note (.checked expression result.verdict)
  let expanded ← engine.expand normalized
  pure ⟨expression, normalized, expanded, result⟩

end Engine

end Licensing
