import Licensing.Equivalence.Table
import Licensing.Equivalence.Walk

/-! # Expansion

An expression is expanded by following the tables to the expressions that stand for nothing else;
the expansion is the choice between those. An expression with an exception also stands for whatever
its license expands to, with the exception attached to each alternative.

* `Equivalence.lookup` — what an expression stands for directly.
* `Equivalence.expand` — what it stands for in the end.
* `Equivalence.notices` — cycles without an end that were met on the way.

Tables can be such that the license of an expression with an exception leads back to itself. Then
there is no expansion, and the answer is `ExpansionFault.unending`. The bounds `depth` and `reach`
are large enough for every expansion that has an end: no license has to be expanded inside its own
expansion, and no walk has more expressions to visit than can be written with the parts of the
tables.
-/

namespace Licensing

inductive ExpansionFault where
  /-- One of the alternatives of a license cannot carry the exception. -/
  | cannotCarry (term : SimpleTerm) (expanded operand : Expression) (exception : LicenseException)
  /-- The license expands to something that is no choice of licenses. -/
  | notAlternatives (term : SimpleTerm) (expanded : Expression)
  /-- The expansion leads back to itself without end. -/
  | unending (e : Expression)
deriving DecidableEq, Repr

def ExpansionFault.message : ExpansionFault → String
  | .cannotCarry term expanded operand exception =>
    "Unexpected output for expand(" ++ term.text ++ "): " ++ expanded.text ++ ". Operand " ++
      operand.text ++ " cannot carry exception " ++ exception.text
  | .notAlternatives term expanded =>
    "Unexpected output for expand(" ++ term.text ++ "): " ++ expanded.text ++
      ". Expected a license, an or-later license or a disjunction of them"
  | .unending e => "The expansion of " ++ e.text ++ " has no end"

/-- A cycle that leads nowhere: the expression, and the number of expressions visited. -/
structure CycleNotice where
  expression : Expression
  visited : Nat
deriving DecidableEq, Repr

namespace Equivalence

/-- Attaches an exception to every alternative that a license expands to. -/
def distribute (term : SimpleTerm) (exception : LicenseException) (expanded : Expression) :
    Except ExpansionFault (List Expression) :=
  match expanded with
  | .simple t => .ok [.withException t exception]
  | .compound .or operands => operands.mapM fun operand =>
    match operand with
    | .simple t => .ok (.withException t exception)
    | _ => .error (.cannotCarry term expanded operand exception)
  | _ => .error (.notAlternatives term expanded)

/-! ## Expanding with a given look-up -/

/-- The walk from what an expression stands for directly; `none` if it stands for nothing else. -/
def walkFrom (next : Expression → Except ExpansionFault (List Expression)) (fuel : Nat)
    (e : Expression) : Except ExpansionFault (Option (Walk ExpansionFault)) :=
  match next e with
  | .error fault => .error fault
  | .ok [] => .ok none
  | .ok start => .ok (some (walk next (.unending e) fuel start start))

/-- The choice between the ends of a walk; without ends the expression itself. -/
def expandWith (next : Expression → Except ExpansionFault (List Expression)) (fuel : Nat)
    (e : Expression) : Except ExpansionFault Expression :=
  match walkFrom next fuel e with
  | .error fault => .error fault
  | .ok none => .ok e
  | .ok (some found) =>
    match found.fault with
    | some fault => .error fault
    | none => .ok ((Expression.combine? .or found.terminals).getD e)

/-- The look-up in which licenses with exceptions may be expanded inside one another `depth` times,
and each walk may visit `fuel` expressions. -/
def lookupAt (equivalence : Equivalence) (fuel : Nat) :
    (depth : Nat) → Expression → Except ExpansionFault (List Expression)
  | 0, .withException term exception => .error (.unending (.withException term exception))
  | depth + 1, .withException term exception =>
    match expandWith (lookupAt equivalence fuel depth) fuel (.simple term) with
    | .error fault => .error fault
    | .ok expanded =>
      let known := equivalence.direct (.withException term exception)
      if expanded = .simple term then .ok known
      else (distribute term exception expanded).map (SortedSet.union · known)
  | _, e => .ok (equivalence.direct e)

/-! ## Bounds -/

/-- The simple terms that can come to carry an exception. -/
def carriers (e : Expression) : List SimpleTerm :=
  (e.operands .or).filterMap fun operand =>
    match operand with
    | .simple term => some term
    | .withException term _ => some term
    | .sentinel _ | .compound .. => none

def hasException : Expression → Bool
  | .withException .. => true
  | _ => false

/-- How often licenses can be expanded inside one another before one of them repeats. -/
def depth (equivalence : Equivalence) (e : Expression) : Nat :=
  ((e :: equivalence.values).flatMap carriers).length + 1

def reach (equivalence : Equivalence) (e : Expression) : Nat :=
  let all := e :: equivalence.values
  all.length + (all.flatMap carriers).length * (all.filter hasException).length

/-! ## Look-up and expansion -/

/-- What an expression stands for directly, in canonical order. -/
def lookup (equivalence : Equivalence) (e : Expression) :
    Except ExpansionFault (List Expression) :=
  equivalence.lookupAt (equivalence.reach e) (equivalence.depth e) e

/-- What an expression stands for in the end. -/
def expand (equivalence : Equivalence) (e : Expression) : Except ExpansionFault Expression :=
  let fuel := equivalence.reach e
  expandWith (equivalence.lookupAt fuel (equivalence.depth e)) fuel e

/-! ## Notices -/

/-- The cycles met by an expansion, given those that each look-up meets. -/
def noticesWith (next : Expression → Except ExpansionFault (List Expression))
    (below : Expression → List CycleNotice) (fuel : Nat) (e : Expression) : List CycleNotice :=
  below e ++
    match walkFrom next fuel e with
    | .ok (some found) =>
      found.visited.flatMap below ++
        if found.fault.isNone && found.terminals.isEmpty then [⟨e, found.visited.length⟩] else []
    | _ => []

def lookupNotices (equivalence : Equivalence) (fuel : Nat) :
    (depth : Nat) → Expression → List CycleNotice
  | depth + 1, .withException term _ =>
    noticesWith (lookupAt equivalence fuel depth) (lookupNotices equivalence fuel depth) fuel
      (.simple term)
  | _, _ => []

/-- The cycles met by the expansion of an expression, in the order in which they are met. -/
def notices (equivalence : Equivalence) (e : Expression) : List CycleNotice :=
  let fuel := equivalence.reach e
  let depth := equivalence.depth e
  noticesWith (equivalence.lookupAt fuel depth) (equivalence.lookupNotices fuel depth) fuel e

end Equivalence

end Licensing
