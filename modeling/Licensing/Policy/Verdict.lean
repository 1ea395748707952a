import Licensing.Text.Blank
import Licensing.Text.Lowercase
import Licensing.Text.Quoted

/-! # Verdicts

A verdict says whether a license may be used. Verdicts are ordered: rejected is worse than unknown,
and unknown is worse than allowed.

* `Verdict.parse` — reads a verdict.
* `Verdict.rank` — the order as numbers.
-/

namespace Licensing

inductive Verdict where
  | allow
  | unknown
  | reject
deriving DecidableEq, Repr

namespace Verdict

/-- All verdicts, the best first. -/
def all : List Verdict :=
  [.allow, .unknown, .reject]

def word : Verdict → String
  | .allow => "allow"
  | .unknown => "unknown"
  | .reject => "reject"

def name : Verdict → String
  | .allow => "ALLOW"
  | .unknown => "UNKNOWN"
  | .reject => "REJECT"

/-- The order of verdicts: the better, the greater. -/
def rank : Verdict → Nat
  | .reject => 0
  | .unknown => 1
  | .allow => 2

def unreadable (text : String) : String :=
  Text.quoted text ++ " is not a valid verdict. Must be one of: " ++
    ", ".intercalate (all.map word)

/-- The verdict that a text names, in any letter case and with white space around it. -/
def parse (text : String) : Except String Verdict :=
  let name := Text.lowerString (Text.stripString text)
  match all.find? (·.word == name) with
  | some verdict => .ok verdict
  | none => .error (unreadable text)

theorem parse_word (v : Verdict) : (parse v.word).toOption = some v := by
  cases v <;> decide +kernel

end Verdict

end Licensing
