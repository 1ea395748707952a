import Licensing.Document.Toml.Editor
import Licensing.Settings.Basic

/-! # Editing settings

A policy rule is added to a settings file as the last one, by an editor that leaves everything else as it
was written.
-/

namespace Licensing

open Licensing.Document

/-- A rule that someone wants to have added. Its reason may hold what no file can. -/
structure NewRule where
  licenses : List String
  verdict : Verdict
  reason : RawText
deriving DecidableEq, Repr

namespace NewRule

/-- The rule for a policy, where a reason is only shown. -/
def rule (new : NewRule) : Rule :=
  ⟨new.licenses, new.verdict, new.reason.shown⟩

/-- The table of the rule: verdict, reason if there is one, licenses. -/
def entries (new : NewRule) : Toml.NewTable :=
  [("verdict", .text (.ofString new.verdict.word))] ++
    (if new.reason.isEmpty then [] else [("reason", .text new.reason)]) ++
    [("licenses", .texts (new.licenses.map .ofString))]

end NewRule

namespace Settings

def withRule (editor : Toml.Editor) (path : Files.Path) (text : String) (new : NewRule) :
    Except (List SettingsDefect) RawText :=
  (editor.withTable text policyKey new.entries).mapError fun fault =>
    match fault with
    | .malformed => [.malformed path.text]
    | .notTables => [.policyNotTables path.text]

/-- The text of the file with one more rule. A file that is not there counts as an empty one. -/
def edited (editor : Toml.Editor) (files : Files) (path : Files.Path) (new : NewRule) :
    Except LoadFault RawText := do
  let text ← if files.exists? path then (files.readLines path).mapError .file else .ok ""
  (withRule editor path text new).mapError .defects

/-- Adds a rule to a settings file, which is made if it is not there. -/
def addRule (editor : Toml.Editor) (files : Files) (path : Files.Path) (new : NewRule) :
    Except LoadFault Unit × Files :=
  match edited editor files path new with
  | .error fault => (.error fault, files)
  | .ok text =>
    let (written, files) := files.write path text
    (written.mapError .ofWriteFault, files)

end Settings

end Licensing
