import Licensing.Grammar.Fault
import Licensing.Policy.Rule

/-! # Defects of settings

Everything that can be wrong with a settings file. A defect keeps its cause;
`SettingsDefect.message` words it.
-/

namespace Licensing

inductive EquivalenceRuleDefect where
  | notTable (kind : String)
  | missingSource
  | badTargets
deriving DecidableEq, Repr

def EquivalenceRuleDefect.message (index : Nat) : EquivalenceRuleDefect → String
  | .notTable kind => s!"equivalence[{index}]: expected a table, got {kind}"
  | .missingSource => s!"equivalence[{index}]: missing required string field \"from\""
  | .badTargets => s!"equivalence[{index}].to: expected a non-empty list of strings"

inductive SettingsDefect where
  | missingFile (path : String)
  | malformed (path : String)
  | unknownKeys (keys : List String)
  | thresholdKind (kind : String)
  | thresholdRange (shown : String)
  | limitKind (kind : String)
  | limitRange (limit : Int)
  | licensesKind (kind : String)
  | licensesMissing (path : String)
  | equivalenceNotList
  | equivalence (index : Nat) (defect : EquivalenceRuleDefect)
  | rulesNotList
  | rule (index : Nat) (defect : RuleDefect)
  | policyNotTables (path : String)
  | alreadyThere (path : String)
  | badEquivalence (index : Nat) (cause : ParseError)
  | note (text : String)
deriving DecidableEq, Repr

def policyKey : String := "policy"

def SettingsDefect.message : SettingsDefect → String
  | .missingFile path => s!"{path}: file not found"
  | .malformed path => s!"{path}: invalid TOML: the text is no TOML document"
  | .unknownKeys keys => "unknown keys: " ++ ", ".intercalate keys
  | .thresholdKind kind => s!"similarity_threshold: expected a number, got {kind}"
  | .thresholdRange shown => s!"similarity_threshold: {shown} is outside 0..100"
  | .limitKind kind => s!"candidate_limit: expected an integer, got {kind}"
  | .limitRange limit => s!"candidate_limit: must be at least 1, got {limit}"
  | .licensesKind kind => s!"licenses_toml: expected a string, got {kind}"
  | .licensesMissing path => s!"licenses_toml: {path} does not exist"
  | .equivalenceNotList => "\"equivalence\" must be an array of tables ([[equivalence]])."
  | .equivalence index defect => defect.message index
  | .rulesNotList => notRuleList policyKey
  | .rule index defect => defect.message policyKey index
  | .policyNotTables path => s!"{path}: \"policy\" must be an array of tables ([[policy]])."
  | .alreadyThere path => s!"{path} already exists (use --force to overwrite)"
  | .badEquivalence index cause => s!"equivalence[{index}]: " ++ cause.message
  | .note text => text

def listDefects (heading : String → String) (lines : List String) : String :=
  heading (Nat.repr lines.length) ++ "\n" ++ "\n".intercalate (lines.map ("  - " ++ ·))

def SettingsDefect.listed (defects : List SettingsDefect) : String :=
  listDefects (fun count => s!"Configuration has {count} error(s):")
    (defects.map SettingsDefect.message)

end Licensing
