import Licensing.Compatibility
import Licensing.Document.Json

/-! # Events

While it works, the library notes what it does. An event has a level, the part of the library that it
comes from, a name, and fields.

* `Event` — what can be noted.
* `Event.fields` — the fields of an event; `EventValue.rendered` is the plain form of a field.
* `Event.record` — an event as a table; `Event.line` is a line for readers.
* `Verbosity.admits` — which events someone wants to see.
-/

namespace Licensing

open Licensing.Document

/-! ## Levels -/

inductive Level where
  | debug
  | info
  | warning
deriving DecidableEq, Repr

def Level.word : Level → String
  | .debug => "debug"
  | .info => "info"
  | .warning => "warning"

def Level.rank : Level → Nat
  | .debug => 0
  | .info => 1
  | .warning => 2

inductive Verbosity where
  | quiet
  | normal
  | verbose
deriving DecidableEq, Repr

def Verbosity.threshold : Verbosity → Level
  | .quiet => .warning
  | .normal => .info
  | .verbose => .debug

def Verbosity.admits (verbosity : Verbosity) (level : Level) : Bool :=
  verbosity.threshold.rank ≤ level.rank

/-! ## Fields -/

inductive EventValue where
  | plain (value : Datum)
  | expression (e : Expression)
  | named (n : Named)
  | resolution (r : Resolution)

/-- The plain form: what is no plain value is printed. -/
def EventValue.rendered : EventValue → Datum
  | .plain value => value
  | .expression e => .text e.text
  | .named n => .text n.text
  | .resolution r => .text r.text

abbrev EventFields := List (String × EventValue)

def EventFields.rendered (fields : EventFields) : Table :=
  fields.map fun (name, value) => (name, value.rendered)

/-! ## Events -/

inductive Event where
  | settingsLoaded (path : String) (rules equivalences : Nat)
  | settingsWritten (path : String)
  | ruleAdded (path : String) (verdict : Verdict) (licenses : List String)
  | registryLoaded (licenses exceptions : Nat)
  | versionTableBuilt (entries : Nat)
  | modelTrained (documents terms : Nat)
  | engineReady (licenses decisions : Nat)
  | interpreterReady (entries parts : Nat)
  | cycle (notice : CycleNotice)
  | guessedByTitle (title license : String) (score : Float) (alternatives : List String)
  | guessedByUri (title : String) (uris : List String) (license : String) (score : Float)
  | notGuessed (title best : String) (score : Float)
  | checked (expression : Expression) (verdict : Verdict)
  | headerIgnored (value context reason : String)
  | corpusLoaded (path : String) (licenses : Nat)
  | textClassified (license : Option String) (best : String) (score : Float)
  | modelSaved (path : String)

namespace Event

def level : Event → Level
  | .cycle _ => .warning
  | .settingsWritten _ | .ruleAdded .. | .headerIgnored .. | .modelSaved _ => .info
  | _ => .debug

def source : Event → String
  | .settingsLoaded .. | .settingsWritten _ | .ruleAdded .. => "licensekit.config"
  | .registryLoaded .. => "licensekit.registry"
  | .versionTableBuilt _ | .cycle _ => "licensekit.equivalence"
  | .modelTrained .. => "licensekit.tfidf"
  | .engineReady .. | .checked .. => "licensekit.engine"
  | .interpreterReady .. => "licensekit.compat"
  | .guessedByTitle .. | .guessedByUri .. | .notGuessed .. => "licensekit.normalizer"
  | .headerIgnored .. => "licensekit.bundle"
  | .corpusLoaded .. | .textClassified .. => "licensekit.classifier"
  | .modelSaved _ => "licensekit.cli"

def name : Event → String
  | .settingsLoaded .. => "config_loaded"
  | .settingsWritten _ => "config_written"
  | .ruleAdded .. => "policy_rule_added"
  | .registryLoaded .. => "registry_loaded"
  | .versionTableBuilt _ => "spdx_equivalence_built"
  | .modelTrained .. => "tfidf_model_built"
  | .engineReady .. => "engine_ready"
  | .interpreterReady .. => "interpreter_ready"
  | .cycle _ => "equivalence_cycle"
  | .guessedByTitle .. => "license_guessed"
  | .guessedByUri .. => "license_guessed_by_uri"
  | .notGuessed .. => "license_not_guessed"
  | .checked .. => "license_checked"
  | .headerIgnored .. => "bundle_license_ignored"
  | .corpusLoaded .. => "corpus_loaded"
  | .textClassified .. => "text_classified"
  | .modelSaved _ => "model_saved"

def count (n : Nat) : EventValue :=
  .plain (.int n)

def text (s : String) : EventValue :=
  .plain (.text s)

def texts (ss : List String) : EventValue :=
  .plain (.list (ss.map .text))

/-- A score in percent with one decimal place. Two texts that share nothing have the score 0, which
is written as an integer. -/
def percentage (score : Float) : EventValue :=
  .plain (if score == 0 then .int 0 else .float (Decimal.roundTo 1 (score * 100)))

def fields : Event → EventFields
  | .settingsLoaded path rules equivalences =>
    [("path", text path), ("policy_rules", count rules), ("equivalence_rules", count equivalences)]
  | .settingsWritten path => [("path", text path)]
  | .ruleAdded path verdict licenses =>
    [("path", text path), ("verdict", text verdict.word), ("licenses", texts licenses)]
  | .registryLoaded licenses exceptions =>
    [("licenses", count licenses), ("exceptions", count exceptions)]
  | .versionTableBuilt entries => [("entries", count entries)]
  | .modelTrained documents terms => [("documents", count documents), ("terms", count terms)]
  | .engineReady licenses decisions =>
    [("licenses", count licenses), ("policy_entries", count decisions)]
  | .interpreterReady entries parts => [("entries", count entries), ("parts", count parts)]
  | .cycle notice =>
    [("expression", .expression notice.expression), ("visited", count notice.visited)]
  | .guessedByTitle title license score alternatives =>
    [("title", text title), ("license", text license), ("score", percentage score),
     ("alternatives", texts alternatives)]
  | .guessedByUri title uris license score =>
    [("title", text title), ("uris", texts uris), ("license", text license),
     ("score", percentage score)]
  | .notGuessed title best score =>
    [("title", text title), ("best", text best), ("score", percentage score)]
  | .checked expression verdict =>
    [("expression", .expression expression), ("verdict", text verdict.name)]
  | .headerIgnored value context reason =>
    [("value", text value), ("context", text context), ("reason", text reason)]
  | .corpusLoaded path licenses => [("corpus", text path), ("licenses", count licenses)]
  | .textClassified license best score =>
    [("license", .plain (license.elim .null .text)), ("best", text best),
     ("score", percentage score)]
  | .modelSaved path => [("path", text path)]

def record (event : Event) : Table :=
  event.fields.rendered ++
    [("event", .text event.name), ("level", .text event.level.word),
     ("logger", .text event.source)]

/-- The event on one line: its level, its name, and its fields. -/
def line (event : Event) : String :=
  let shown := event.fields.rendered.map fun (name, value) =>
    match value with
    | .text s => s!"{name}={s}"
    | other => name ++ "=" ++ Json.write other
  " ".intercalate (("[" ++ event.level.word ++ "]") :: event.name :: shown)

end Event

end Licensing
