import Licensing.CommandLine.Grid
import Licensing.CommandLine.Request
import Licensing.Document.Json
import Licensing.Engine
import Licensing.Settings.Edit

/-! # Sessions

What a request does with the files that it can see.

* `Session` — a computation that reads and changes files, notes events and may fail. What was
  changed before a failure stays changed.
* `Command.perform` — what a command prints, and its exit code.
* `Request.run` — the outcome of a request: everything that can be seen of it.
-/

namespace Licensing.CommandLine

open Licensing.Document Licensing.Similarity

/-! ## Sessions -/

/-- The files, and the events noted so far. -/
structure Progress where
  files : Files
  events : List Event := []

/-- A computation that reads and changes files, notes events and may fail. -/
abbrev Session := ExceptT Failure (StateM Progress)

namespace Session

/-- Does something that notes events and leaves the files as they are. -/
def report {α : Type} (work : Files → Reporting α) : Session α := do
  let progress ← get
  let (result, events) := (work progress.files).outcome
  set { progress with events := progress.events ++ events }
  match result with
  | .ok a => pure a
  | .error failure => throw failure

def lift {ε α : Type} (wrap : ε → Failure) (result : Except ε α) : Session α :=
  report fun _ => Reporting.lift wrap result

def note (event : Event) : Session Unit :=
  report fun _ => Reporting.note event

def files : Session Files := do
  return (← get).files

/-- Changes the files, also if this fails on the way. -/
def change {ε : Type} (wrap : ε → Failure) (edit : Files → Except ε Unit × Files) : Session Unit := do
  let (result, changed) := edit (← files)
  modify fun progress => { progress with files := changed }
  lift wrap result

end Session

/-! ## Replies -/

/-- What a command prints, and its exit code. -/
structure Reply where
  output : List String := []
  errors : List String := []
  code : Nat := 0
deriving DecidableEq, Repr

def Reply.text (text : String) : Reply :=
  { output := [text] }

def Reply.nothing (output : List String) (complaint : String) : Reply :=
  ⟨output, [complaint], 1⟩

/-! ## Settings -/

/-- The file with settings: the given one, or the usual one in the working directory. -/
def Options.settingsPath (options : Options) (files : Files) : Files.Path :=
  match options.settingsFile with
  | some text => .ofText text
  | none => files.workingDirectory.below (.ofText settingsFileName)

/-- Whether there is a file to load: the usual one need not be there, a given one must. -/
def Options.wantsFile (options : Options) (files : Files) : Except FileFault Bool :=
  if options.settingsFile.isSome then .ok true else files.lookFor (options.settingsPath files)

def loadSettings (options : Options) : Session Settings := do
  let files ← Session.files
  let path := options.settingsPath files
  if ← Session.lift .file (options.wantsFile files) then
    let settings ← Session.lift .ofLoadFault (Settings.load files path)
    Session.note (.settingsLoaded path.text settings.rules.length settings.equivalences.length)
    pure settings
  else pure {}

def startEngine (options : Options) : Session Engine := do
  let settings ← loadSettings options
  Session.report fun files => Engine.ofSettings files settings

/-! ## Results -/

def shownScore (score : Float) : String :=
  Decimal.fixed 1 (score * 100)

def guessGrid (guesses : List (Listed × Float)) : Grid :=
  ⟨[⟨"License", false⟩, ⟨"Score", true⟩, ⟨"Title", false⟩],
    guesses.map fun (entry, score) => [entry.id, shownScore score, entry.title]⟩

def candidateGrid (candidates : List (String × Float)) : Grid :=
  ⟨[⟨"License", false⟩, ⟨"Score", true⟩],
    candidates.map fun (license, score) => [license, shownScore score]⟩

/-- The lines of a report: the verdict with the normalized expression, and the reasons. -/
def CheckReport.lines (report : CheckReport) : List String :=
  (report.result.verdict.name ++ " " ++ report.normalized.text) ::
    report.result.reasons.map ("  - " ++ ·)

def CheckReport.document (report : CheckReport) : Datum :=
  .table
    [("expression", .text report.expression.text),
     ("normalized", .text report.normalized.text),
     ("expanded", .text report.expanded.text),
     ("verdict", .text report.result.verdict.word),
     ("reasons", .list (report.result.reasons.map .text))]

/-- The reply with a report; the exit code tells whether the use is allowed. -/
def CheckReport.reply (report : CheckReport) (json : Bool) : Reply :=
  { output := if json then [Json.writeIndented (document report)] else lines report
    code := if report.result.allowed then 0 else 1 }

/-! ## Classifiers -/

/-- The texts of a directory. A directory with the name of a text cannot be read. -/
def readCorpus (files : Files) (directory : Files.Path) :
    Except FileFault (List (String × String)) :=
  (files.listing directory).filterMapM fun (name, kind) =>
    match kind with
    | .file text => .ok (some (name, Files.withUnifiedLineEnds text))
    | .directory =>
      if Classifier.isTextName name then
        .error (.isDirectory (directory.below (.ofText name)).text)
      else .ok none

def trainClassifier (directory : Files.Path) (threshold : Float) : Session (Classifier Float) := do
  let texts ← Session.lift .file (readCorpus (← Session.files) directory)
  let classifier ← Session.lift .training (Classifier.ofDirectory directory.text texts threshold)
  let documents := classifier.model.vectors.length
  Session.note (.corpusLoaded directory.text documents)
  Session.note (.modelTrained documents classifier.model.terms.length)
  pure classifier

def readClassifier (file : Files.Path) (threshold : Float) : Session (Classifier Float) := do
  let text ← Session.lift .file ((← Session.files).readLines file)
  let document ← Session.lift (fun fault => .modelText (fault.message text)) (Json.read text)
  let model ← Session.lift .model (Model.ofDatum id document)
  pure ⟨model, threshold⟩

def loadClassifier (source : ClassifierSource) (threshold : Float) :
    Session (Classifier Float) :=
  match source with
  | .stored file => readClassifier (.ofText file) threshold
  | .corpus directory => trainClassifier (.ofText directory) threshold

def saveClassifier (classifier : Classifier Float) (file : String) : Session Unit := do
  let text := Json.write (classifier.model.toDatum id)
  Session.change .ofWriteFault fun files => files.write (.ofText file) (.ofString text)
  Session.note (.modelSaved file)

def classifyFile (classifier : Classifier Float) (file : String) (top : Int) : Session Reply := do
  let text ← Session.lift .file ((← Session.files).readLines (.ofText file))
  let found := classifier.classify text top
  match found.candidates with
  | [] => pure ()
  | (best, _) :: _ => Session.note (.textClassified found.license best found.score)
  let lines := (candidateGrid found.candidates).render
  match found.license with
  | some license => pure { output := lines ++ [license] }
  | none => pure (.nothing lines ("No license in the corpus matches " ++ file))

/-! ## Commands -/

def unresolvedTitle (title : String) : String :=
  "Unable to resolve license " ++ Text.quoted title

def unreadableHeader (value : String) : String :=
  "Unable to read Bundle-License " ++ Text.quoted value

def noClassifierSource : Failure :=
  .note "classify needs --corpus DIR or --model FILE"

/-- Guesses the license of a title, and shows the best guesses if some are wanted. -/
def guessTitle (engine : Engine) (title : String) (uris : List String) (candidates : Int) :
    Session Reply := do
  let found ← Session.report fun _ => engine.resolve? (.ofFound title uris)
  let lines :=
    if candidates = 0 then []
    else (guessGrid (upTo candidates (engine.guesser.rank title))).render
  match found with
  | some e => pure { output := lines ++ [e.text] }
  | none => pure (.nothing lines (unresolvedTitle title))

/-- The rule to be added, if the policy is acceptable with it. -/
def acceptRule (options : Options) (verdict : String) (licenses : List String) (reason : RawText) :
    Session NewRule := do
  let verdict ← Session.lift .verdict (Verdict.parse verdict)
  let settings ← loadSettings options
  let new : NewRule := ⟨licenses, verdict, reason⟩
  let extended := { settings with rules := settings.rules ++ [new.rule] }
  let _ ← Session.report fun files => Engine.ofSettings files extended
  pure new

/-- Adds a rule to the settings, unless the policy would not be acceptable any more. -/
def extendSettings (editor : Toml.Editor) (options : Options) (verdict : String) (licenses : List String)
    (reason : RawText) : Session Reply := do
  let new ← acceptRule options verdict licenses reason
  let path := options.settingsPath (← Session.files)
  Session.change .ofLoadFault fun files => Settings.addRule editor files path new
  Session.note (.ruleAdded path.text new.verdict licenses)
  let listed := ", ".intercalate licenses
  pure (.text s!"Added {new.verdict.name} rule for {listed} to {path.text}")

def startSettings (options : Options) (given : Option String) (force : Bool) : Session Reply := do
  let usual := options.settingsPath (← Session.files)
  let path := given.elim usual .ofText
  Session.change .ofLoadFault fun files => Settings.writeStarter files path force
  Session.note (.settingsWritten path.text)
  pure (.text ("Wrote " ++ path.text))

/-- What a command does, with an editor for settings files. -/
def Command.perform (editor : Toml.Editor) (options : Options) : Command → Session Reply
  | .parse expression normalizes => do
    let engine ← startEngine options
    let e ← Session.report fun _ => do
      let e ← engine.parse expression
      if normalizes then engine.normalize e false else pure e
    pure (.text e.text)
  | .expand expression => do
    let engine ← startEngine options
    let e ← Session.report fun _ => do
      engine.expand (← engine.normalize (← engine.parse expression) false)
    pure (.text e.text)
  | .normalize title uris candidates => do
    guessTitle (← startEngine options) title uris candidates
  | .bundle value => do
    let engine ← startEngine options
    match ← Session.report fun _ => engine.readHeader value "command line" with
    | some e => pure (.text e.text)
    | none => pure (.nothing [] (unreadableHeader value))
  | .check expression json => do
    let engine ← startEngine options
    let report ← Session.report fun _ => engine.check expression
    pure (CheckReport.reply report json)
  | .classify file source saveTo top => do
    let settings ← loadSettings options
    match source with
    | none => throw noClassifierSource
    | some source =>
      let classifier ← loadClassifier source settings.threshold
      match saveTo with
      | some target => saveClassifier classifier target
      | none => pure ()
      classifyFile classifier file top
  | .writeSettings path force => startSettings options path force
  | .addRule verdict licenses reason => extendSettings editor options verdict licenses reason

/-- The files that a command reads or writes, besides the settings. -/
def Command.files : Command → List Files.Path
  | .classify file source saveTo _ =>
    let model := match source with
      | some (.stored file) => [file]
      | _ => []
    (file :: model ++ saveTo.toList).map .ofText
  | .writeSettings path _ => path.toList.map .ofText
  | _ => []

def Command.directories : Command → List Files.Path
  | .classify _ (some (.corpus directory)) _ _ => [.ofText directory]
  | _ => []

/-! ## Requests -/

/-- Everything that can be seen of a session. -/
structure Outcome where
  output : String
  errors : String
  code : Nat
  /-- The events that are wanted. -/
  events : List Event
  files : Files
  /-- Why the session failed, if it did. -/
  failure : Option Failure := none

/-- Texts as they are printed, each with a line end behind it. -/
def printed (texts : List String) : String :=
  String.join (texts.map fun text => Screen.shown text ++ "\n")

def Failure.reply (failure : Failure) : Reply :=
  if failure.isReported then ⟨[], ["error: " ++ failure.message], 2⟩ else ⟨[], [failure.message], 1⟩

def Request.run (editor : Toml.Editor) (request : Request) (files : Files) : Outcome :=
  let (result, progress) := (request.command.perform editor request.options).run.run { files }
  let (reply, failure) := match result with
    | .ok reply => (reply, none)
    | .error failure => (Failure.reply failure, some failure)
  { output := printed reply.output
    errors := printed reply.errors
    code := reply.code
    events := progress.events.filter fun event => request.options.verbosity.admits event.level
    files := progress.files
    failure }

end Licensing.CommandLine
