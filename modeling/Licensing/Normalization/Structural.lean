import Licensing.Decimal.Fixed
import Licensing.Expression.Build
import Licensing.Text.Quoted

/-! # Normalizing expressions

An expression is normalized by replacing the free text in it by what the text stands for.

* `LeafRules` — what free text stands for, and the proper form of exceptions.
* `Expression.normalize` — applies the rules everywhere in an expression. Strictly, free text that
  stands for nothing is an error; otherwise it stays.
-/

namespace Licensing

structure LeafRules where
  license : FreeText → Option Expression
  exception : LicenseException → LicenseException

def LeafRules.unchanged : LeafRules :=
  ⟨fun _ => none, id⟩

/-- Free text that stands for no license, with the best candidates and their scores. -/
structure Unresolved where
  title : String
  candidates : List (String × Float) := []

/-- The wording, with the scores of the first three candidates in percent. -/
def Unresolved.message (unresolved : Unresolved) : String :=
  let shown := (unresolved.candidates.take 3).map fun (name, score) =>
    name ++ " (" ++ Decimal.fixed 0 (score * 100) ++ ")"
  let hint := if shown.isEmpty then "" else "; closest candidates: " ++ ", ".intercalate shown
  "Unable to resolve license " ++ Text.quoted unresolved.title ++ hint

/-- Normalizes a simple term. If its license stands for a simple term, the license is replaced and
"or later" is kept as it was; anything else replaces the whole term. -/
def SimpleTerm.normalize (rules : LeafRules) (strict : Bool) (term : SimpleTerm) :
    Except Unresolved Expression :=
  match term.license with
  | .standard _ => .ok (.simple term)
  | .free text =>
    match rules.license text with
    | none => if strict then .error ⟨text.title, []⟩ else .ok (.simple term)
    | some (.simple found) => .ok (.simple (term.withLicense found.license))
    | some other => .ok other

namespace Expression

mutual

/-- Normalizes all free text in an expression, the operands in canonical order. A license that
carries an exception is replaced by a simple term only. -/
def normalize (rules : LeafRules) (strict : Bool) : Expression → Except Unresolved Expression
  | .sentinel name => .ok (.sentinel name)
  | .simple term => term.normalize rules strict
  | .withException term exception =>
    (term.normalize rules strict).map fun found =>
      match found with
      | .simple replaced => .withException replaced (rules.exception exception)
      | _ => .withException term (rules.exception exception)
  | .compound connective operands =>
    (normalizeAll rules strict operands).map fun found =>
      (combine? connective found).getD (.compound connective operands)

def normalizeAll (rules : LeafRules) (strict : Bool) :
    List Expression → Except Unresolved (List Expression)
  | [] => .ok []
  | e :: es => do
    let first ← e.normalize rules strict
    let rest ← normalizeAll rules strict es
    .ok (first :: rest)

end

mutual

/-- The free text that a normalization looks at, in the order in which it does. -/
def freeTexts : Expression → List FreeText
  | .sentinel _ => []
  | .simple term => term.freeText?.toList
  | .withException term _ => term.freeText?.toList
  | .compound _ operands => allFreeTexts operands

def allFreeTexts : List Expression → List FreeText
  | [] => []
  | e :: es => e.freeTexts ++ allFreeTexts es

end

end Expression

end Licensing
