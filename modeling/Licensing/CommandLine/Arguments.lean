import Licensing.Text.Alphanumeric

/-! # Arguments

The arguments of a command are options, which have names, and places, which are filled in order.
Options may stand anywhere, and their names may be shortened as long as it is clear what is meant.
Behind `--` no argument is an option.

* `Shape` — the options and places of a command.
* `Shape.classify` — whether an argument is an option.
* `Shape.read` — what the arguments are used for, in order.

An option that takes a value finds it behind `=`, directly behind a one-letter name, or in the next
argument. Options with one-letter names that take no value can be written together; letters behind
them that name no option are an argument without use.
-/

namespace Licensing.CommandLine

/-! ## Shapes -/

/-- An option: what it is for, its names, and whether it takes a value. -/
structure Switch (K : Type) where
  key : K
  names : List String
  takesValue : Bool := false

/-- How many arguments a place takes. -/
inductive Arity where
  | one
  | optional
  | several
  /-- One argument and everything behind it, options included. -/
  | remainder
deriving DecidableEq, Repr

def Arity.isRequired : Arity → Bool
  | .optional => false
  | _ => true

/-- The options and the places of a command. -/
structure Shape (K : Type) where
  switches : List (Switch K)
  places : List Arity

/-- What arguments are used for. -/
inductive Use (K : Type) where
  | flag (key : K)
  | value (key : K) (text : String)
  /-- The next place is filled. -/
  | place (texts : List String)

inductive Ending where
  | complete
  /-- A place that has to be filled is empty. -/
  | missing
  /-- An option is used in a way that it does not allow. -/
  | malformed
deriving DecidableEq, Repr

/-- What arguments are used for, and those that have no use. -/
structure Reading (K : Type) where
  uses : List (Use K)
  extras : List String
  ending : Ending

namespace Reading

variable {K : Type}

def use (reading : Reading K) (uses : List (Use K)) : Reading K :=
  { reading with uses := uses ++ reading.uses }

def skip (reading : Reading K) (texts : List String) : Reading K :=
  { reading with extras := texts ++ reading.extras }

end Reading

/-! ## Kinds of arguments -/

/-- What is written behind the name of an option in the same argument. -/
inductive Attached where
  | nothing
  | behindEquals (text : String)
  /-- Letters directly behind a one-letter name. -/
  | letters (text : String)
deriving DecidableEq, Repr

/-- An option that an argument names. -/
structure Found (K : Type) where
  switch : Switch K
  attached : Attached

inductive Mark (K : Type) where
  | plain
  /-- The argument `--`. -/
  | divider
  | switch (found : Found K)
  | unknownSwitch

def Mark.isSwitch {K : Type} : Mark K → Bool
  | .switch _ | .unknownSwitch => true
  | .plain | .divider => false

/-- Whether an argument is `--`. -/
def Mark.isDivider {K : Type} : Mark K → Bool
  | .divider => true
  | _ => false

structure Argument (K : Type) where
  text : String
  mark : Mark K

/-- The argument that parts options from the rest. -/
def dividerText : String := "--"

/-- The parts of a text in front of and behind the first equals sign. -/
def splitAtEquals? (text : String) : Option (String × String) :=
  let chars := text.toList
  if chars.contains '=' then
    some (String.ofList (chars.takeWhile (· ≠ '=')),
      String.ofList ((chars.dropWhile (· ≠ '=')).drop 1))
  else none

/-- Whether an argument is a negative number, with or without decimal places. -/
def isNegativeNumber (text : String) : Bool :=
  match text.toList with
  | '-' :: rest =>
    let whole := rest.takeWhile Text.isDecimalDigit
    match rest.dropWhile Text.isDecimalDigit with
    | [] => !whole.isEmpty
    | '.' :: places => !places.isEmpty && places.all Text.isDecimalDigit
    | _ => false
  | _ => false

namespace Shape

variable {K : Type}

def named (shape : Shape K) : List (String × Switch K) :=
  shape.switches.flatMap fun switch => switch.names.map (·, switch)

def findName? (shape : Shape K) (name : String) (attached : Attached) : Option (Found K) :=
  (shape.named.lookup name).map (⟨·, attached⟩)

def beginningWith (shape : Shape K) (written : String) (attached : Attached) : List (Found K) :=
  (shape.named.filter fun entry => written.toList.isPrefixOf entry.1.toList).map
    fun entry => ⟨entry.2, attached⟩

/-- The options that an argument can mean if it is not the full name of one. -/
def meanings (shape : Shape K) (text : String) : List (Found K) :=
  match text.toList with
  | '-' :: '-' :: _ =>
    match splitAtEquals? text with
    | some (name, value) => shape.beginningWith name (.behindEquals value)
    | none => shape.beginningWith text .nothing
  | '-' :: letter :: letters =>
    (shape.findName? (String.ofList ['-', letter]) (.letters (String.ofList letters))).toList ++
      shape.beginningWith text .nothing
  | _ => []

/-- The option that an argument names in full, perhaps with a value behind an equals sign. -/
def written? (shape : Shape K) (text : String) : Option (Found K) :=
  match shape.findName? text .nothing, splitAtEquals? text with
  | some found, _ => some found
  | none, some (name, value) => shape.findName? name (.behindEquals value)
  | none, none => none

/-- The kind of an argument in front of `--`; `none` if it can mean several options. -/
def classify (shape : Shape K) (text : String) : Option (Mark K) :=
  if text.toList.head? ≠ some '-' || text = "-" then some .plain
  else match shape.written? text, shape.meanings text with
    | some found, _ => some (.switch found)
    | none, [found] => some (.switch found)
    | none, _ :: _ :: _ => none
    | none, [] =>
      if isNegativeNumber text || text.toList.contains ' ' then some .plain
      else some .unknownSwitch

def classifyAll (shape : Shape K) : List String → Option (List (Argument K))
  | [] => some []
  | text :: rest =>
    if text = dividerText then some (⟨text, .divider⟩ :: rest.map (⟨·, .plain⟩))
    else do
      let mark ← shape.classify text
      let others ← classifyAll shape rest
      some (⟨text, mark⟩ :: others)

/-! ## Options -/

/-- What an option and the letters behind it are used for. -/
structure Usage (K : Type) where
  uses : List (Use K)
  /-- Letters without use. -/
  extras : List String := []
  /-- The number of arguments behind the option that it takes. -/
  taken : Nat := 0

/-- The usage of an option to which nothing is attached. -/
def detachedUsage (switch : Switch K) (following : List (Argument K)) : Option (Usage K) :=
  if !switch.takesValue then some { uses := [.flag switch.key] }
  else match following with
    | ⟨text, .plain⟩ :: _ => some { uses := [.value switch.key text], taken := 1 }
    | _ => none

/-- The usage of an option with an equals sign behind it, which has to take a value. -/
def valueUsage (switch : Switch K) (text : String) : Option (Usage K) :=
  if switch.takesValue then some { uses := [.value switch.key text] } else none

/-- The usage of an option with a one-letter name and the letters behind it: a value, or further
options. -/
def clusterUsage (shape : Shape K) (following : List (Argument K)) (switch : Switch K) :
    List Char → Option (Usage K)
  | [] => detachedUsage switch following
  | letter :: rest =>
    if letter = '=' then valueUsage switch (String.ofList rest)
    else if switch.takesValue then valueUsage switch (String.ofList (letter :: rest))
    else if letter = '-' then none
    else match shape.named.lookup (String.ofList ['-', letter]) with
      | none =>
        some { uses := [.flag switch.key], extras := [String.ofList ('-' :: letter :: rest)] }
      | some next => (clusterUsage shape following next rest).map fun usage =>
        { usage with uses := .flag switch.key :: usage.uses }

def usageOf (shape : Shape K) (found : Found K) (following : List (Argument K)) :
    Option (Usage K) :=
  match found.attached with
  | .nothing => detachedUsage found.switch following
  | .behindEquals text => valueUsage found.switch text
  | .letters text => shape.clusterUsage following found.switch text.toList

end Shape

/-! ## Places -/

def leadingDividers {K : Type} (arguments : List (Argument K)) : Nat :=
  (arguments.takeWhile (·.mark.isDivider)).length

/-- How many arguments a place takes, dividers included; `none` if it cannot be filled. -/
def Arity.take? {K : Type} (arity : Arity) (arguments : List (Argument K)) : Option Nat :=
  let skipped := leadingDividers arguments
  match arity, arguments.drop skipped with
  | .one, ⟨_, .plain⟩ :: rest => some (skipped + 1 + leadingDividers rest)
  | .optional, ⟨_, .plain⟩ :: rest => some (skipped + 1 + leadingDividers rest)
  | .optional, _ => some skipped
  | .several, ⟨_, .plain⟩ :: rest =>
    some (skipped + 1 + (rest.takeWhile fun argument => !argument.mark.isSwitch).length)
  | .remainder, ⟨_, .plain⟩ :: rest => some (skipped + 1 + rest.length)
  | _, _ => none

/-- What fills a place: a divider in it does not count, except in a remainder. -/
def Arity.fill {K : Type} (arity : Arity) (arguments : List (Argument K)) : Use K :=
  let texts := arguments.map Argument.text
  .place (if arity = .remainder then texts else texts.erase dividerText)

/-- Fills places one behind the other; `none` if one of them cannot be filled. -/
def fillAll? {K : Type} : List Arity → List (Argument K) → Option (List (Use K) × Nat)
  | [], _ => some ([], 0)
  | arity :: others, arguments => do
    let taken ← arity.take? arguments
    let (uses, more) ← fillAll? others (arguments.drop taken)
    some (arity.fill (arguments.take taken) :: uses, taken + more)

/-- Fills as many of the first `count` places as can be filled: their uses, and the number of
arguments that they take. -/
def fillSome {K : Type} (places : List Arity) (arguments : List (Argument K)) :
    (count : Nat) → List (Use K) × Nat
  | 0 => ([], 0)
  | count + 1 =>
    match fillAll? (places.take (count + 1)) arguments with
    | some filled => filled
    | none => fillSome places arguments count

/-! ## All arguments -/

namespace Shape

variable {K : Type}

/-- Reads arguments, with the places that are still empty. -/
def readFrom (shape : Shape K) (places : List Arity) (arguments : List (Argument K)) :
    Reading K :=
  if arguments.any (·.mark.isSwitch) then
    match arguments with
    | [] => ⟨[], [], .complete⟩
    | argument :: rest =>
      match argument.mark with
      | .unknownSwitch => (shape.readFrom places rest).skip [argument.text]
      | .switch found =>
        match shape.usageOf found rest with
        | none => ⟨[], [], .malformed⟩
        | some usage =>
          ((shape.readFrom places (rest.drop usage.taken)).use usage.uses).skip usage.extras
      | .plain | .divider =>
        let (uses, taken) := fillSome places (argument :: rest) places.length
        if 0 < taken then
          (shape.readFrom (places.drop uses.length) ((argument :: rest).drop taken)).use uses
        else
          let idle := rest.takeWhile fun other => !other.mark.isSwitch
          (shape.readFrom places (rest.drop idle.length)).skip
            (argument.text :: idle.map Argument.text)
  else
    let (uses, taken) := fillSome places arguments places.length
    let isMissing := (places.drop uses.length).any Arity.isRequired
    ⟨uses, (arguments.drop taken).map Argument.text, if isMissing then .missing else .complete⟩
termination_by arguments.length
decreasing_by all_goals simp only [List.length_drop, List.length_cons]; omega

/-- Reads arguments; `none` if one of them can mean several options. -/
def read (shape : Shape K) (arguments : List String) : Option (Reading K) :=
  (shape.classifyAll arguments).map (shape.readFrom shape.places)

end Shape

end Licensing.CommandLine
