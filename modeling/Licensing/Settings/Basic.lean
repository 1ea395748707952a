import Licensing.Document.Toml
import Licensing.Files.Basic
import Licensing.Settings.Defect

/-! # Settings

The settings of a project stand in a file. They say how similar a title has to be, name a file with
further licenses, and hold equivalence rules and policy rules.

* `Settings.ofTable` — the settings of a document; every defect of the document is reported.
* `Settings.load` — the settings of a file.
* `Settings.starter` — the text of a file to start with.
-/

namespace Licensing

open Licensing.Document

/-- An expression that stands for any of several others, not read yet. -/
structure EquivalenceRule where
  source : String
  targets : List String
deriving DecidableEq, Repr

/-- Checked settings. -/
structure Settings where
  /-- The score in percent that a guess has to exceed. -/
  threshold : Float := 42
  /-- How many guesses are checked against addresses. -/
  limit : Int := 20
  /-- A file with further licenses. -/
  licenses : Option Files.Path := none
  equivalences : List EquivalenceRule := []
  rules : List Rule := []

def settingsFileName : String := "licensekit.toml"

/-! ## Equivalence rules -/

namespace EquivalenceRule

def someText? (value : Option Datum) : Option String :=
  (value.bind Datum.asText?).filter (!Text.isAllBlank ·)

def readOne (value : Datum) : Except EquivalenceRuleDefect EquivalenceRule := do
  let some table := value.asTable? | .error (.notTable value.kindName)
  let some source := someText? (table.get? "from") | .error .missingSource
  let some targets := someTexts? (table.get? "to") | .error .badTargets
  .ok ⟨source, targets⟩

/-- The equivalence rules that can be read, and the defects of the others. -/
def readFrom (index : Nat) :
    List Datum → List EquivalenceRule × List (Nat × EquivalenceRuleDefect)
  | [] => ([], [])
  | value :: rest =>
    let (rules, defects) := readFrom (index + 1) rest
    match readOne value with
    | .ok rule => (rule :: rules, defects)
    | .error defect => (rules, (index, defect) :: defects)

end EquivalenceRule

namespace Settings

/-! ## Single settings -/

def keys : List String :=
  ["similarity_threshold", "candidate_limit", "licenses_toml", "equivalence", policyKey]

/-- The threshold: a number from 0 to 100. -/
def readThreshold (table : Table) : Except SettingsDefect Float :=
  match table.get? "similarity_threshold" with
  | none => .ok 42
  | some (.int n) =>
    if 0 ≤ n && n ≤ 100 then .ok (Float.ofInt n) else .error (.thresholdRange (toString n))
  | some (.float x) =>
    if 0 ≤ x && x ≤ 100 then .ok x else .error (.thresholdRange (Decimal.shortest x))
  | some other => .error (.thresholdKind other.kindName)

/-- The limit: an integer from 1 on. -/
def readLimit (table : Table) : Except SettingsDefect Int :=
  match table.get? "candidate_limit" with
  | none => .ok 20
  | some (.int n) => if 1 ≤ n then .ok n else .error (.limitRange n)
  | some other => .error (.limitKind other.kindName)

/-- A file that settings name, seen from the directory of the settings. -/
def fileNamed (files : Files) (path : Files.Path) (name : String) : Files.Path :=
  files.locate (path.parent.below (.ofText name))

def readLicenses (files : Files) (path : Files.Path) (table : Table) :
    Except SettingsDefect (Option Files.Path) :=
  match table.get? "licenses_toml" with
  | none => .ok none
  | some (.text name) =>
    let found := fileNamed files path name
    if files.isFile found then .ok (some found) else .error (.licensesMissing found.text)
  | some other => .error (.licensesKind other.kindName)

def readEquivalences (table : Table) : List EquivalenceRule × List SettingsDefect :=
  match ((table.get? "equivalence").getD (.list [])).asList? with
  | none => ([], [.equivalenceNotList])
  | some items =>
    let (rules, defects) := EquivalenceRule.readFrom 0 items
    (rules, defects.map fun (index, defect) => .equivalence index defect)

def readRules (table : Table) : List Rule × List SettingsDefect :=
  match ((table.get? policyKey).getD (.list [])).asList? with
  | none => ([], [.rulesNotList])
  | some items =>
    let (rules, defects) := Rule.readFrom 0 items
    (rules, defects.map fun (index, defect) => .rule index defect)

def unknownKeys (table : Table) : List SettingsDefect :=
  let unknown := SortedSet.ofList (table.keys.filter (!keys.contains ·))
  if unknown.isEmpty then [] else [.unknownKeys unknown]

def defectOf {α : Type} (found : Except SettingsDefect α) : List SettingsDefect :=
  match found with
  | .ok _ => []
  | .error defect => [defect]

/-! ## All settings -/

/-- The settings of a document at a path, or everything that is wrong with it. -/
def ofTable (files : Files) (path : Files.Path) (table : Table) :
    Except (List SettingsDefect) Settings :=
  let threshold := readThreshold table
  let limit := readLimit table
  let licenses := readLicenses files path table
  let (equivalences, equivalenceDefects) := readEquivalences table
  let (rules, ruleDefects) := readRules table
  let defects := unknownKeys table ++ defectOf threshold ++ defectOf limit ++ defectOf licenses ++
    equivalenceDefects ++ ruleDefects
  match threshold, limit, licenses with
  | .ok threshold, .ok limit, .ok licenses =>
    if defects.isEmpty then .ok ⟨threshold, limit, licenses, equivalences, rules⟩
    else .error defects
  | _, _, _ => .error defects

inductive LoadFault where
  | defects (defects : List SettingsDefect)
  | file (fault : FileFault)
  | encoding (fault : EncodingFault)
  /-- A number has more digits than a message can show. -/
  | longNumber
deriving DecidableEq, Repr

def LoadFault.ofWriteFault : WriteFault → LoadFault
  | .file fault => .file fault
  | .encoding fault => .encoding fault

/-- Whether the threshold is an integer with more digits than a message can show. -/
def hasLongThreshold (table : Table) : Bool :=
  match table.get? "similarity_threshold" with
  | some (.int n) => Nat.pow 10 integerDigits ≤ n.natAbs
  | _ => false

/-- Why the file with further licenses cannot be looked for. -/
def licensesBarrier? (files : Files) (path : Files.Path) (table : Table) : Option FileFault :=
  match table.get? "licenses_toml" with
  | some (.text name) =>
    -- The whole path is resolved before the file is looked for.
    if name.toList.contains '\x00' then some .nullCharacter
    else match files.lookFor (fileNamed files path name) with
      | .ok _ => none
      | .error fault => some fault
  | _ => none

/-- What keeps the settings of a document from being checked to the end; then no defect of them is
reported. -/
def obstacle? (files : Files) (path : Files.Path) (table : Table) : Option LoadFault :=
  if hasLongThreshold table then some .longNumber else (licensesBarrier? files path table).map .file

def load (files : Files) (path : Files.Path) : Except LoadFault Settings :=
  match files.read path with
  | .error (.missing _) => .error (.defects [.missingFile path.text])
  | .error fault => .error (.file fault)
  | .ok text =>
    match Toml.read? text with
    | none => .error (.defects [.malformed path.text])
    | some table =>
      match obstacle? files path table with
      | some fault => .error fault
      | none => (ofTable files path table).mapError .defects

/-- The file with further licenses that a settings file names, whether or not it is there. -/
def licensesNamed? (files : Files) (path : Files.Path) : Option Files.Path := do
  let text ← (files.read path).toOption
  let table ← Toml.read? text
  let name ← (← table.get? "licenses_toml").asText?
  if name.toList.contains '\x00' then none else some (fileNamed files path name)

/-! ## A file to start with -/

def starter : String :=
  String.join (([
    "# licensekit configuration.",
    "",
    "# Minimum title similarity (0-100) before a free-text license name is",
    "# mapped to a standard identifier.",
    "similarity_threshold = 42",
    "",
    "# Number of title guesses checked against the license URL.",
    "candidate_limit = 20",
    "",
    "# Extra license definitions, relative to this file:",
    "# licenses_toml = \"extra-licenses.toml\"",
    "",
    "# Extra equivalences, added to the SPDX version rules:",
    "# [[equivalence]]",
    "# from = \"Apache-1.0+\"",
    "# to = [\"Apache-2.0\"]",
    "",
    "[[policy]]",
    "verdict = \"allow\"",
    "reason = \"Permissive license\"",
    "licenses = [\"Apache-2.0\", \"MIT\", \"BSD-2-Clause\", \"BSD-3-Clause\", \"ISC\"]",
    "",
    "[[policy]]",
    "verdict = \"allow\"",
    "reason = \"Public domain is OK\"",
    "licenses = [\"CC0-1.0\"]"] : List String).map (· ++ "\n"))

/-- Writes a file to start with; a path where something stands is written to only by `force`. -/
def writeStarter (files : Files) (path : Files.Path) (force : Bool) : Except LoadFault Unit × Files :=
  if files.exists? path && !force then (.error (.defects [.alreadyThere path.text]), files)
  else
    let (written, files) := files.write path (.ofString starter)
    (written.mapError .ofWriteFault, files)

end Settings

end Licensing
