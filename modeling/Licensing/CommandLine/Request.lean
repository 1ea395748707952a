import Licensing.CommandLine.Arguments
import Licensing.Event
import Licensing.Text.Integer
import Licensing.Text.Raw

/-! # Requests

What someone asks for on the command line: one of the commands, and options that apply to all of
them.

* `Command` — the commands.
* `Request.read` — the request that arguments make, or a `Stop` if there is nothing to do.
-/

namespace Licensing.CommandLine

/-! ## Commands -/

inductive ClassifierSource where
  /-- A directory of license texts. -/
  | corpus (directory : String)
  /-- A file with a stored model. -/
  | stored (file : String)
deriving DecidableEq, Repr

inductive Command where
  | parse (expression : String) (normalize : Bool)
  | normalize (title : String) (uris : List String) (candidates : Int)
  | bundle (value : String)
  | expand (expression : String)
  | check (expression : String) (json : Bool)
  | classify (file : String) (source : Option ClassifierSource) (saveTo : Option String)
      (top : Int)
  | writeSettings (path : Option String) (force : Bool)
  | addRule (verdict : String) (licenses : List String) (reason : RawText)
deriving DecidableEq, Repr

structure Options where
  verbosity : Verbosity := .normal
  /-- Events are shown as JSON. -/
  jsonLog : Bool := false
  /-- The file with settings, if it is not the usual one. -/
  settingsFile : Option String := none
deriving DecidableEq, Repr

structure Request where
  options : Options
  command : Command
deriving DecidableEq, Repr

/-- Why there is nothing to do. -/
inductive Stop where
  | help
  | version
  /-- The arguments make no request. -/
  | misuse
deriving DecidableEq, Repr

/-! ## Options of single commands -/

inductive CommandOption where
  | help
  | normalize
  | uri
  | candidates
  | json
  | corpus
  | model
  | saveModel
  | top
  | force
  | reason
deriving DecidableEq, Repr

/-- What is known about a command after its arguments have been read. -/
structure CommandValues where
  /-- The arguments in each place. -/
  places : List (List String) := []
  flags : List CommandOption := []
  uris : List String := []
  candidates : Int := 0
  top : Int := 5
  corpus : Option String := none
  model : Option String := none
  saveModel : Option String := none
  reason : String := ""

namespace CommandValues

def integer (text : String) : Except Stop Int :=
  match Text.readInteger? text with
  | some n => .ok n
  | none => .error .misuse

/-- Takes one use of arguments into account. A corpus and a model exclude each other. -/
def apply (values : CommandValues) : Use CommandOption → Except Stop CommandValues
  | .flag .help => .error .help
  | .flag key => .ok { values with flags := key :: values.flags }
  | .place texts => .ok { values with places := values.places ++ [texts] }
  | .value .uri text => .ok { values with uris := values.uris ++ [text] }
  | .value .candidates text => (integer text).map fun n => { values with candidates := n }
  | .value .top text => (integer text).map fun n => { values with top := n }
  | .value .corpus text =>
    if values.model.isSome then .error .misuse else .ok { values with corpus := some text }
  | .value .model text =>
    if values.corpus.isSome then .error .misuse else .ok { values with model := some text }
  | .value .saveModel text => .ok { values with saveModel := some text }
  | .value .reason text => .ok { values with reason := text }
  | .value _ _ => .ok values

def has (values : CommandValues) (flag : CommandOption) : Bool :=
  values.flags.contains flag

def placeAt (values : CommandValues) (index : Nat) : List String :=
  (values.places[index]?).getD []

/-- The argument in a place; an empty one counts as well. -/
def textAt (values : CommandValues) (index : Nat) : String :=
  (values.placeAt index).headD ""

end CommandValues

def filled (text : Option String) : Option String :=
  text.filter (· ≠ "")

/-- Where the classifier of a command comes from; a model is preferred. -/
def CommandValues.source? (values : CommandValues) : Option ClassifierSource :=
  match filled values.model, filled values.corpus with
  | some file, _ => some (.stored file)
  | none, some directory => some (.corpus directory)
  | none, none => none

def helpSwitch {K : Type} (key : K) : Switch K :=
  { key, names := ["-h", "--help"] }

def flagSwitch {K : Type} (key : K) (name : String) : Switch K :=
  { key, names := [name] }

def valueSwitch {K : Type} (key : K) (name : String) : Switch K :=
  { key, names := [name], takesValue := true }

/-- How a command is written, and what its values mean. -/
structure CommandForm where
  name : String
  places : List Arity
  switches : List (Switch CommandOption)
  command : CommandValues → Command

/-- The arguments of a command; each command can be asked for help. -/
def CommandForm.shape (form : CommandForm) : Shape CommandOption :=
  ⟨helpSwitch .help :: form.switches, form.places⟩

def commandForms : List CommandForm :=
  [⟨"parse", [.one], [flagSwitch .normalize "--normalize"],
      fun v => .parse (v.textAt 0) (v.has .normalize)⟩,
   ⟨"normalize", [.one], [valueSwitch .uri "--uri", valueSwitch .candidates "--candidates"],
      fun v => .normalize (v.textAt 0) v.uris v.candidates⟩,
   ⟨"bundle", [.one], [], fun v => .bundle (v.textAt 0)⟩,
   ⟨"expand", [.one], [], fun v => .expand (v.textAt 0)⟩,
   ⟨"check", [.one], [flagSwitch .json "--json"], fun v => .check (v.textAt 0) (v.has .json)⟩,
   ⟨"classify", [.one],
      [valueSwitch .corpus "--corpus", valueSwitch .model "--model",
       valueSwitch .saveModel "--save-model", valueSwitch .top "--top"],
      fun v => .classify (v.textAt 0) v.source? (filled v.saveModel) v.top⟩,
   ⟨"init", [.optional], [flagSwitch .force "--force"],
      fun v => .writeSettings (filled (v.placeAt 0).head?) (v.has .force)⟩,
   ⟨"policy-add", [.one, .several], [valueSwitch .reason "--reason"],
      fun v => .addRule (v.textAt 0) (v.placeAt 1) (.ofString v.reason)⟩]

/-- The command that arguments behind its name make, and the arguments that it has no use for. -/
def CommandForm.read (form : CommandForm) (arguments : List String) :
    Except Stop (Command × List String) := do
  let some reading := form.shape.read arguments | .error .misuse
  let values ← reading.uses.foldlM CommandValues.apply {}
  if reading.ending ≠ .complete then .error .misuse
  .ok (form.command values, reading.extras)

/-! ## Options of all commands -/

inductive GlobalOption where
  | help
  | version
  | verbose
  | quiet
  | jsonLog
  | settingsFile
deriving DecidableEq, Repr

/-- The arguments in front of the command; the command takes all that follow its name. -/
def globalShape : Shape GlobalOption :=
  ⟨[helpSwitch .help,
    flagSwitch .version "--version",
    { key := .verbose, names := ["-v", "--verbose"] },
    { key := .quiet, names := ["-q", "--quiet"] },
    flagSwitch .jsonLog "--json-log",
    valueSwitch .settingsFile "--config"], [.remainder]⟩

/-- What is known after the arguments in front of the command have been read. -/
structure GlobalValues where
  options : Options := {}
  command : List String := []

/-- Takes one use of arguments into account. Quiet and verbose exclude each other. -/
def GlobalValues.apply (values : GlobalValues) : Use GlobalOption → Except Stop GlobalValues
  | .flag .help => .error .help
  | .flag .version => .error .version
  | .flag .verbose =>
    if values.options.verbosity = .quiet then .error .misuse
    else .ok { values with options := { values.options with verbosity := .verbose } }
  | .flag .quiet =>
    if values.options.verbosity = .verbose then .error .misuse
    else .ok { values with options := { values.options with verbosity := .quiet } }
  | .flag .jsonLog => .ok { values with options := { values.options with jsonLog := true } }
  | .value .settingsFile text =>
    .ok { values with options := { values.options with settingsFile := filled (some text) } }
  | .place texts => .ok { values with command := texts }
  | .flag .settingsFile | .value _ _ => .ok values

/-- The command that arguments from its name on make, and the arguments that it has no use for. -/
def Command.read : List String → Except Stop (Command × List String)
  | [] => .error .misuse
  | name :: arguments =>
    match commandForms.find? (·.name == name) with
    | some form => form.read arguments
    | none => .error .misuse

def Request.read (arguments : List String) : Except Stop Request := do
  let some reading := globalShape.read arguments | .error .misuse
  let values ← reading.uses.foldlM GlobalValues.apply {}
  if reading.ending = .malformed then .error .misuse
  let (command, extras) ← Command.read values.command
  if !(reading.extras ++ extras).isEmpty then .error .misuse
  .ok ⟨values.options, command⟩

/-! ## Nothing to do -/

def programName : String := "licensekit"

def programVersion : String := "0.1.0"

/-- The exit code: misuse is an error. -/
def Stop.code : Stop → Nat
  | .help | .version => 0
  | .misuse => 2

def usage : String :=
  s!"usage: {programName} [options] COMMAND ...\n" ++
    String.join (commandForms.map fun form => s!"  {form.name}\n")

def Stop.output : Stop → String
  | .help => usage
  | .version => s!"{programName} {programVersion}\n"
  | .misuse => ""

def Stop.errors : Stop → String
  | .misuse => usage
  | .help | .version => ""

end Licensing.CommandLine
