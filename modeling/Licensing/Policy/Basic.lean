import Licensing.Document.Toml
import Licensing.Grammar.Parse
import Licensing.Policy.Rule

/-! # Policies

A policy is an ordered collection of decisions on license expressions. It only grows: a decision is
never changed, and no expression has two.

* `Policy.register` — adds decisions on several expressions.
* `Policy.ofRules`, `Policy.ofText` — the policy of a list of rules, and of a document.
-/

namespace Licensing

/-- A verdict, and a reason that may be empty. -/
structure Decision where
  verdict : Verdict
  reason : String := ""
deriving DecidableEq, Repr

inductive PolicyFault where
  /-- An expression that has a decision is given another one. -/
  | listedTwice (e : Expression) (before now : Verdict)
  /-- The text of a license is no expression. -/
  | badExpression (cause : ParseError)
  /-- Two entries cover the same alternative. -/
  | overlap (part owner key : Expression)
  /-- The policy's document cannot be read. -/
  | unreadable (path detail : String)
  /-- The policy's document has defects. -/
  | badRules (defects : List String)
  | note (text : String)
deriving DecidableEq, Repr

def PolicyFault.message : PolicyFault → String
  | .listedTwice e before now =>
    "License " ++ e.text ++ " is listed twice in the policy: " ++ before.name ++ " and " ++ now.name
  | .badExpression cause => "Invalid license expression in policy: " ++ cause.message
  | .overlap part owner key =>
    "License " ++ part.text ++ " participates in multiple policy entries: " ++ owner.text ++
      " and " ++ key.text ++ ". Make sure policy entries do not intersect"
  | .unreadable path detail => s!"Cannot read policy file {path}: {detail}"
  | .badRules defects => "\n".intercalate defects
  | .note text => text

/-- Decisions in the order in which they were made. -/
structure Policy where
  entries : List (Expression × Decision)
deriving DecidableEq, Repr

namespace Policy

def empty : Policy :=
  ⟨[]⟩

def find? (policy : Policy) (e : Expression) : Option Decision :=
  policy.entries.lookup e

def keys (policy : Policy) : List Expression :=
  policy.entries.map Prod.fst

def push (policy : Policy) (e : Expression) (decision : Decision) : Policy :=
  ⟨policy.entries ++ [(e, decision)]⟩

/-- Sets the decision on an expression, in its place if there is one. -/
def set (policy : Policy) (e : Expression) (decision : Decision) : Policy :=
  if (policy.find? e).isSome then
    ⟨policy.entries.map fun entry => if entry.1 = e then (e, decision) else entry⟩
  else policy.push e decision

/-- Adds the decision on each expression in turn. The first expression that already has one ends it:
the result is the policy so far, and the fault if there was one. -/
def register (policy : Policy) (decision : Decision) :
    List Expression → Policy × Option PolicyFault
  | [] => (policy, none)
  | e :: rest =>
    match policy.find? e with
    | some before => (policy, some (.listedTwice e before.verdict decision.verdict))
    | none => (policy.push e decision).register decision rest

def expressionsOf (registry : Registry) (rule : Rule) : Except PolicyFault (List Expression) :=
  rule.licenses.mapM fun text => (Expression.parse registry text).mapError .badExpression

def addRule (registry : Registry) (policy : Policy) (rule : Rule) : Except PolicyFault Policy := do
  let es ← expressionsOf registry rule
  match policy.register ⟨rule.verdict, rule.reason⟩ es with
  | (extended, none) => .ok extended
  | (_, some fault) => .error fault

def ofRules (registry : Registry) (rules : List Rule) : Except PolicyFault Policy :=
  rules.foldlM (addRule registry) empty

/-- The policy of the text of a document at a path; without a text there is no such document. -/
def ofText (registry : Registry) (path : String) (text : Option String) :
    Except PolicyFault Policy := do
  let some content := text | .error (.unreadable path "there is no such file")
  let some table := Document.Toml.read? content
    | .error (.unreadable path "the text is no TOML document")
  let (rules, defects) := Rule.readAll "policy" ((table.get? "policy").getD (.list []))
  if !defects.isEmpty then .error (.badRules defects)
  ofRules registry rules

def shown (policy : Policy) : String :=
  s!"CompatibilityPolicy({policy.entries.length} entries)"

end Policy

end Licensing
