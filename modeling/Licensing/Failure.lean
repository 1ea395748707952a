import Licensing.Classification
import Licensing.Compatibility
import Licensing.Registry.Defect
import Licensing.Settings.Basic

/-! # Failures

Whatever can go wrong in the library, in one type. Each part of the library has its own type of
faults; a `Failure` says which part it was.

* `Failure` — the cause.
* `Failure.message` — the wording.
-/

namespace Licensing

def DataDefect.listed (defects : List DataDefect) : String :=
  listDefects (fun count => s!"License data has {count} validation error(s):")
    (defects.map DataDefect.message)

inductive Failure where
  | expression (cause : ParseError)
  | data (defects : List DataDefect)
  | settings (defects : List SettingsDefect)
  | policy (fault : PolicyFault)
  | expansion (fault : ExpansionFault)
  | unresolved (cause : Unresolved)
  | file (fault : FileFault)
  | encoding (fault : EncodingFault)
  /-- A number has more digits than a message can show. -/
  | longNumber
  | verdict (wording : String)
  | training (wording : String)
  /-- A stored model is no JSON text. -/
  | modelText (wording : String)
  | model (cause : Similarity.StoredError)
  | note (wording : String)

namespace Failure

def message : Failure → String
  | .expression cause => cause.message
  | .data defects => DataDefect.listed defects
  | .settings defects => SettingsDefect.listed defects
  | .policy fault => fault.message
  | .expansion fault => fault.message
  | .unresolved cause => cause.message
  | .file fault => fault.message
  | .encoding fault => fault.message
  | .longNumber => "Exceeds the limit (4300 digits) for integer string conversion; " ++
      "use sys.set_int_max_str_digits() to increase the limit"
  | .model cause => cause.message
  | .verdict wording | .training wording | .modelText wording | .note wording => wording

/-- Whether a program reports the failure. The others are not expected, and end it at once. -/
def isReported : Failure → Bool
  | .expansion (.unending _) | .model (.missing _) | .file .nullCharacter | .encoding _ | .longNumber => false
  | _ => true

def ofWriteFault : WriteFault → Failure
  | .file fault => .file fault
  | .encoding fault => .encoding fault

def ofLoadFault : Settings.LoadFault → Failure
  | .defects defects => .settings defects
  | .file fault => .file fault
  | .encoding fault => .encoding fault
  | .longNumber => .longNumber

def ofInterpreterFault : InterpreterFault → Failure
  | .expansion fault => .expansion fault
  | .policy fault => .policy fault

end Failure

end Licensing
