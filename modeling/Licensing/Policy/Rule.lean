import Licensing.Document.Datum
import Licensing.Policy.Verdict
import Licensing.SortedSet

/-! # Policy rules

A rule gives one verdict, and perhaps a reason, to several license expressions. In a document, rules
are tables with the keys `verdict`, `reason` and `licenses`.

* `Rule.readAll` — the rules of a document, and the defects of the others.
-/

namespace Licensing

open Licensing.Document

/-- A decision on license expressions that have not been read yet. -/
structure Rule where
  licenses : List String
  verdict : Verdict
  reason : String := ""
deriving DecidableEq, Repr

inductive RuleDefect where
  | notTable (kind : String)
  | unknownKeys (keys : List String)
  | missingVerdict
  | badVerdict (text : String)
  | reasonNotText (kind : String)
  | badLicenses
deriving DecidableEq, Repr

/-- The wording, for the rule at a position of the list called `list`. -/
def RuleDefect.message (list : String) (index : Nat) : RuleDefect → String
  | .notTable kind => s!"{list}[{index}]: expected a table, got {kind}"
  | .unknownKeys keys => s!"{list}[{index}]: unknown keys: " ++ ", ".intercalate keys
  | .missingVerdict => s!"{list}[{index}]: missing required string field \"verdict\""
  | .badVerdict text => s!"{list}[{index}].verdict: " ++ Verdict.unreadable text
  | .reasonNotText kind => s!"{list}[{index}].reason: expected string, got {kind}"
  | .badLicenses => s!"{list}[{index}].licenses: expected a non-empty list of strings"

/-- The wording for a list of rules that is no list. -/
def notRuleList (list : String) : String :=
  s!"\"{list}\" must be an array of tables ([[{list}]])."

def someTexts? (value : Option Datum) : Option (List String) :=
  match value.bind Datum.asTexts? with
  | some [] => none
  | found => found

namespace Rule

def keys : List String :=
  ["verdict", "reason", "licenses"]

/-- The fields of a rule, up to the first one that is wrong. -/
def readFields (table : Table) : Except RuleDefect Rule := do
  let some text := (table.get? "verdict").bind Datum.asText? | .error .missingVerdict
  let verdict ← (Verdict.parse text).mapError fun _ => RuleDefect.badVerdict text
  let reason := (table.get? "reason").getD (.text "")
  let some why := reason.asText? | .error (.reasonNotText reason.kindName)
  let some licenses := someTexts? (table.get? "licenses") | .error .badLicenses
  .ok ⟨licenses, verdict, why⟩

/-- One rule: the rule, if its fields can be read, and its defects. -/
def readOne (value : Datum) : Option Rule × List RuleDefect :=
  match value.asTable? with
  | none => (none, [.notTable value.kindName])
  | some table =>
    let unknown := SortedSet.ofList (table.keys.filter (!keys.contains ·))
    let unknownDefects := if unknown.isEmpty then [] else [RuleDefect.unknownKeys unknown]
    match readFields table with
    | .ok rule => (some rule, unknownDefects)
    | .error defect => (none, unknownDefects ++ [defect])

/-- The rules that can be read, and the defects of all, each with the position of its rule. -/
def readFrom (index : Nat) : List Datum → List Rule × List (Nat × RuleDefect)
  | [] => ([], [])
  | value :: rest =>
    let (rules, defects) := readFrom (index + 1) rest
    let (rule, found) := readOne value
    (rule.toList ++ rules, found.map (index, ·) ++ defects)

/-- The rules of the list called `list`, and the wordings of its defects. -/
def readAll (list : String) (value : Datum) : List Rule × List String :=
  match value.asList? with
  | none => ([], [notRuleList list])
  | some items =>
    let (rules, defects) := readFrom 0 items
    (rules, defects.map fun (index, defect) => defect.message list index)

end Rule

end Licensing
