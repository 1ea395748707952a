import Licensing.Named

/-! # License expressions

An expression says under which terms a work may be used.

* `SimpleTerm` — one license, exactly or with any later version.
* `Expression` — a sentinel (nothing is known, or there is no license), a simple term, a simple term
  with an exception, or several operands joined by a `Connective`.
* `weight`, `text` — how deep an expression is, and how it is written.
* `labels` — the licenses that it mentions.

The operands of a compound expression form a set. `Licensing.Expression.Build` makes compound
expressions with their operands in canonical order, each once, so that equal sets are equal values.
-/

namespace Licensing

/-- One license: the exact version, or that version and all later ones. -/
inductive SimpleTerm where
  | exact (license : License)
  | orLater (license : License)
deriving DecidableEq, Repr

inductive Connective where
  /-- Every operand has to be complied with. -/
  | and
  /-- Any one operand may be chosen. -/
  | or
deriving DecidableEq, Repr

inductive Expression where
  | sentinel (name : String)
  | simple (term : SimpleTerm)
  | withException (term : SimpleTerm) (exception : LicenseException)
  | compound (connective : Connective) (operands : List Expression)
deriving Repr, Inhabited

namespace Expression

/-- There is no license. -/
def none : Expression :=
  .sentinel "NONE"

/-- Nothing is known about the license. -/
def noAssertion : Expression :=
  .sentinel "NOASSERTION"

/-- Exactly the given license. -/
abbrev just (license : License) : Expression :=
  .simple (.exact license)

/-- The given license or any later version. -/
abbrev orLater (license : License) : Expression :=
  .simple (.orLater license)

end Expression

def SimpleTerm.license : SimpleTerm → License
  | .exact license => license
  | .orLater license => license

def SimpleTerm.withLicense (term : SimpleTerm) (license : License) : SimpleTerm :=
  match term with
  | .exact _ => .exact license
  | .orLater _ => .orLater license

/-- The license of a term, if it is free text. -/
def SimpleTerm.freeText? (term : SimpleTerm) : Option FreeText :=
  match term.license with
  | .standard _ => none
  | .free text => some text

def Connective.word : Connective → String
  | .and => "AND"
  | .or => "OR"

/-! ## Equality -/

namespace Expression

mutual

def decEq : (a b : Expression) → Decidable (a = b)
  | .sentinel a, .sentinel b => decidable_of_iff (a = b) (by simp)
  | .sentinel _, .simple _ => isFalse nofun
  | .sentinel _, .withException .. => isFalse nofun
  | .sentinel _, .compound .. => isFalse nofun
  | .simple _, .sentinel _ => isFalse nofun
  | .simple a, .simple b => decidable_of_iff (a = b) (by simp)
  | .simple _, .withException .. => isFalse nofun
  | .simple _, .compound .. => isFalse nofun
  | .withException .., .sentinel _ => isFalse nofun
  | .withException .., .simple _ => isFalse nofun
  | .withException a x, .withException b y => decidable_of_iff (a = b ∧ x = y) (by simp)
  | .withException .., .compound .. => isFalse nofun
  | .compound .., .sentinel _ => isFalse nofun
  | .compound .., .simple _ => isFalse nofun
  | .compound .., .withException .. => isFalse nofun
  | .compound c as, .compound d bs =>
    have := decEqList as bs
    decidable_of_iff (c = d ∧ as = bs) (by simp)

def decEqList : (as bs : List Expression) → Decidable (as = bs)
  | [], [] => isTrue rfl
  | [], _ :: _ => isFalse nofun
  | _ :: _, [] => isFalse nofun
  | a :: as, b :: bs =>
    have := decEq a b
    have := decEqList as bs
    decidable_of_iff (a = b ∧ as = bs) (by simp)

end

instance : DecidableEq Expression := decEq

end Expression

/-! ## Weight -/

/-- An exact license weighs one, an or-later license two. -/
def SimpleTerm.weight : SimpleTerm → Nat
  | .exact _ => 1
  | .orLater _ => 2

namespace Expression

mutual

/-- How deep an expression is: a sentinel weighs nothing, an exception adds one to its license, and
a compound expression weighs one more than its heaviest operand. -/
def weight : Expression → Nat
  | .sentinel _ => 0
  | .simple term => term.weight
  | .withException term _ => term.weight + 1
  | .compound _ operands => greatestWeight operands + 1

def greatestWeight : List Expression → Nat
  | [] => 0
  | e :: es => max e.weight (greatestWeight es)

end

end Expression

namespace Expression

mutual

def size : Expression → Nat
  | .compound _ operands => totalSize operands + 1
  | _ => 1

def totalSize : List Expression → Nat
  | [] => 0
  | e :: es => e.size + totalSize es

end

end Expression

/-! ## Text -/

/-- The written form: a plus sign means "or later". -/
def SimpleTerm.text : SimpleTerm → String
  | .exact license => license.text
  | .orLater license => license.text ++ "+"

namespace Expression

/-- Whether the expression is joined by `OR`. -/
def isChoice : Expression → Bool
  | .compound .or _ => true
  | _ => false

/-- Puts parentheses around an operand that binds more loosely than its connective. -/
def parenthesized (connective : Connective) (choice : Bool) (text : String) : String :=
  if connective = .and && choice then "(" ++ text ++ ")" else text

mutual

/-- The written form. `AND` binds tighter than `OR`, so only an `OR` below an `AND` needs
parentheses. -/
def text : Expression → String
  | .sentinel name => name
  | .simple term => term.text
  | .withException term exception => term.text ++ " WITH " ++ exception.text
  | .compound connective operands =>
    (" " ++ connective.word ++ " ").intercalate (operandTexts connective operands)

def operandTexts (connective : Connective) : List Expression → List String
  | [] => []
  | e :: es => parenthesized connective e.isChoice e.text :: operandTexts connective es

end

def kindName : Expression → String
  | .sentinel _ => "Sentinel"
  | .simple (.exact _) => "JustLicense"
  | .simple (.orLater _) => "OrLaterLicense"
  | .withException .. => "WithException"
  | .compound .and _ => "Conjunction"
  | .compound .or _ => "Disjunction"

mutual

/-- The identifiers and titles of the licenses that an expression mentions, in reading order.
Exceptions and sentinels name no license. -/
def labels : Expression → List String
  | .sentinel _ => []
  | .simple term => [term.license.label]
  | .withException term _ => [term.license.label]
  | .compound _ operands => operandLabels operands

def operandLabels : List Expression → List String
  | [] => []
  | e :: es => e.labels ++ operandLabels es

end

/-- The set of the `labels`. -/
def labelSet (e : Expression) : List String :=
  SortedSet.ofList e.labels

end Expression

end Licensing
