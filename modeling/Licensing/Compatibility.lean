import Licensing.Equivalence.Expand
import Licensing.Policy.Basic

/-! # Compatibility with a policy

A policy decides on more expressions than it lists. An expression that is not listed is expanded; a
choice is as good as its best alternative, a combination as bad as its worst part, and anything else
is decided by the entry whose expansion covers it.

* `Resolution` — a verdict with the reasons for it.
* `Resolution.either`, `Resolution.both` — the two ways to combine resolutions.
* `Interpreter.build` — a policy together with the index of what its entries cover.
* `Interpreter.evaluate` — the resolution of an expression.
-/

namespace Licensing

/-- A verdict and the reasons for it, in canonical order. -/
structure Resolution where
  verdict : Verdict
  reasons : List String
deriving DecidableEq, Repr

namespace Resolution

def allowed (r : Resolution) : Bool :=
  r.verdict = .allow

def text (r : Resolution) : String :=
  r.verdict.name ++ ": " ++ "; ".intercalate r.reasons

/-- The reasons, each with the verdict in front. -/
def labelled (r : Resolution) : List String :=
  r.reasons.map fun reason => r.verdict.name ++ ": " ++ reason

/-- Either may be chosen: what is allowed wins. A choice between the unknown and the rejected is
unknown, and says which is which. -/
def either (a b : Resolution) : Resolution :=
  if a.verdict = b.verdict then ⟨a.verdict, a.reasons ++ b.reasons⟩
  else if a.verdict = .allow then a
  else if b.verdict = .allow then b
  else ⟨.unknown, a.labelled ++ b.labelled⟩

/-- Both have to be complied with: what is allowed adds nothing. The unknown together with the
rejected is rejected, and says which is which. -/
def both (a b : Resolution) : Resolution :=
  if a.verdict = b.verdict then ⟨a.verdict, a.reasons ++ b.reasons⟩
  else if a.verdict = .allow then b
  else if b.verdict = .allow then a
  else ⟨.reject, a.labelled ++ b.labelled⟩

def join : Connective → Resolution → Resolution → Resolution
  | .and => both
  | .or => either

end Resolution

def Decision.resolve (decision : Decision) (e : Expression) : Resolution :=
  let detail := if decision.reason.isEmpty then decision.verdict.name else decision.reason
  ⟨decision.verdict, [e.text ++ ": " ++ detail]⟩

/-- Without any license information nothing may be used. -/
def Resolution.ofNothing : Resolution :=
  ⟨.reject, ["License is null"]⟩

/-- What is said about an expression that no entry covers. -/
def Resolution.unlisted (e : Expression) : Resolution :=
  ⟨.unknown, ["No rules found for " ++ e.text]⟩

inductive InterpreterFault where
  | expansion (fault : ExpansionFault)
  | policy (fault : PolicyFault)
deriving DecidableEq, Repr

/-- A policy, and for each alternative that its entries cover the entry that does. -/
structure Interpreter where
  equivalence : Equivalence
  policy : Policy
  parts : List (Expression × Expression)
deriving DecidableEq

namespace Interpreter

/-- Adds the alternatives that an entry covers to the index. -/
def cover (key : Expression) (parts : List (Expression × Expression)) :
    List Expression → Except PolicyFault (List (Expression × Expression))
  | [] => .ok parts
  | part :: rest =>
    match parts.lookup part with
    | some owner => .error (.overlap part owner key)
    | none => cover key (parts ++ [(part, key)]) rest

def index (equivalence : Equivalence) (parts : List (Expression × Expression))
    (key : Expression) : Except InterpreterFault (List (Expression × Expression)) := do
  let expanded ← (equivalence.expand key).mapError .expansion
  (cover key parts (expanded.operands .or)).mapError .policy

/-- The interpreter of a policy, whose entries may not cover the same alternative. -/
def build (equivalence : Equivalence) (policy : Policy) : Except InterpreterFault Interpreter := do
  let parts ← policy.keys.foldlM (index equivalence) []
  .ok ⟨equivalence, policy, parts⟩

def covering? (interpreter : Interpreter) (part : Expression) : Option Decision :=
  (interpreter.parts.lookup part).bind interpreter.policy.find?

/-- Combines the resolutions of the operands of a compound expression from left to right. -/
def fold (connective : Connective) (evaluate : Expression → Except ExpansionFault Resolution) :
    Resolution → List Expression → Except ExpansionFault Resolution
  | result, [] => .ok result
  | result, e :: rest =>
    match evaluate e with
    | .error fault => .error fault
    | .ok next => fold connective evaluate (Resolution.join connective result next) rest

/-- The resolution of an expression, with at most `depth` compound expressions inside one another. -/
def evaluateAt (interpreter : Interpreter) :
    (depth : Nat) → Expression → Except ExpansionFault Resolution
  | 0, e => .error (.unending e)
  | depth + 1, e =>
    match interpreter.policy.find? e with
    | some decision => .ok (decision.resolve e)
    | none =>
      match interpreter.equivalence.expand e with
      | .error fault => .error fault
      | .ok (.compound connective (first :: rest)) =>
        match interpreter.evaluateAt depth first with
        | .error fault => .error fault
        | .ok start => fold connective (interpreter.evaluateAt depth) start rest
      | .ok expanded =>
        match interpreter.covering? expanded with
        | some decision => .ok (decision.resolve expanded)
        | none => .ok (.unlisted e)

/-- How deep an evaluation can go before an expression repeats. -/
def depth (interpreter : Interpreter) (e : Expression) : Nat :=
  let equivalence := interpreter.equivalence
  ((e :: equivalence.values).map Expression.size).foldl (· + ·) 0 + equivalence.reach e + 1

def evaluate (interpreter : Interpreter) (e : Expression) : Except ExpansionFault Resolution :=
  interpreter.evaluateAt (interpreter.depth e) e

def evaluate? (interpreter : Interpreter) :
    Option Expression → Except ExpansionFault Resolution
  | some e => interpreter.evaluate e
  | none => .ok .ofNothing

def shown (interpreter : Interpreter) : String :=
  s!"CompatibilityInterpreter(entries={interpreter.policy.entries.length})"

/-! ## Notices -/

/-- The cycles met while operands are evaluated, up to the first one that cannot be. -/
def noticesUntilFault (evaluate : Expression → Except ExpansionFault Resolution)
    (notices : Expression → List CycleNotice) : List Expression → List CycleNotice
  | [] => []
  | e :: rest =>
    notices e ++
      match evaluate e with
      | .ok _ => noticesUntilFault evaluate notices rest
      | .error _ => []

/-- The cycles met while an expression is evaluated, in the order in which they are met. -/
def noticesAt (interpreter : Interpreter) : (depth : Nat) → Expression → List CycleNotice
  | 0, _ => []
  | depth + 1, e =>
    match interpreter.policy.find? e with
    | some _ => []
    | none =>
      interpreter.equivalence.notices e ++
        match interpreter.equivalence.expand e with
        | .ok (.compound _ operands) =>
          noticesUntilFault (interpreter.evaluateAt depth) (interpreter.noticesAt depth) operands
        | _ => []

/-- The cycles met by `evaluate`. -/
def notices (interpreter : Interpreter) (e : Expression) : List CycleNotice :=
  interpreter.noticesAt (interpreter.depth e) e

/-- The cycles met while entries are added to an index, up to the first one that cannot be. -/
def indexNotices (equivalence : Equivalence) :
    List (Expression × Expression) → List Expression → List CycleNotice
  | _, [] => []
  | parts, key :: rest =>
    equivalence.notices key ++
      match index equivalence parts key with
      | .ok extended => indexNotices equivalence extended rest
      | .error _ => []

/-- The cycles met by `build`. -/
def buildNotices (equivalence : Equivalence) (policy : Policy) : List CycleNotice :=
  indexNotices equivalence [] policy.keys

end Interpreter

end Licensing
