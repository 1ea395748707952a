import Licensing.Expression.Order

/-! # Building compound expressions

`AND` and `OR` are the two operations of an algebra of sets of terms: an operand that is itself
joined by the same connective is replaced by its own operands, operands that occur twice count once,
and an operand that remains alone stands for itself.

* `operands` — an expression as the set of operands of a connective.
* `combine`, `combine?` — joins expressions.
* `compound?`, `attach?`, `laterThan?` — the constructors, for operands that may be unsuitable.
* `Canonical` — the form that all of them produce; `canonical_of_combine?` says so for joining.
-/

namespace Licensing

inductive BuildError where
  /-- Nothing was given to join. -/
  | noOperand (connective : Connective)
  /-- A compound expression was asked for, with fewer than two different operands. -/
  | tooFewOperands (connective : Connective) (count : Nat)
  /-- An exception belongs to a simple term only. -/
  | notSimple (actual : Expression)
  /-- "Or later" belongs to an exact license only. -/
  | notExact (actual : Expression)
deriving DecidableEq, Repr

def BuildError.message : BuildError → String
  | .noOperand .and => "and_() requires at least one operand"
  | .noOperand .or => "or_() requires at least one operand"
  | .tooFewOperands .and count => s!"Conjunction needs at least two distinct operands, got {count}"
  | .tooFewOperands .or count => s!"Disjunction needs at least two distinct operands, got {count}"
  | .notSimple actual =>
    "WITH requires a simple license on the left, got " ++ actual.kindName ++ ": [" ++
      actual.text ++ "]"
  | .notExact actual =>
    "or later requires a license, got " ++ actual.kindName ++ ": [" ++ actual.text ++ "]"

namespace Expression

/-- The operands that a connective joins in an expression; an expression that is not joined by it
is its own only operand. -/
def operands (connective : Connective) (e : Expression) : List Expression :=
  match e with
  | .compound c es => if c = connective then es else [e]
  | _ => [e]

def operandSet (connective : Connective) (es : List Expression) : List Expression :=
  SortedSet.ofList (es.flatMap (operands connective))

/-- Joins expressions; nothing is not an expression. -/
def combine? (connective : Connective) (es : List Expression) : Option Expression :=
  match operandSet connective es with
  | [] => .none
  | [e] => some e
  | es => some (.compound connective es)

def combine (connective : Connective) (e : Expression) (es : List Expression) : Expression :=
  (combine? connective (e :: es)).getD e

/-- Both expressions have to be complied with. -/
def and (a b : Expression) : Expression :=
  combine .and a [b]

/-- Either expression may be chosen. -/
def or (a b : Expression) : Expression :=
  combine .or a [b]

/-- Joins expressions; an error if there are none. -/
def joined (connective : Connective) (es : List Expression) : Except BuildError Expression :=
  match combine? connective es with
  | some e => .ok e
  | .none => .error (.noOperand connective)

/-- The compound expression over exactly the given operands, if they are two at least. -/
def compound? (connective : Connective) (es : List Expression) : Except BuildError Expression :=
  match operandSet connective es with
  | a :: b :: rest => .ok (.compound connective (a :: b :: rest))
  | few => .error (.tooFewOperands connective few.length)

def attach? (e : Expression) (exception : LicenseException) : Except BuildError Expression :=
  match e with
  | .simple term => .ok (.withException term exception)
  | _ => .error (.notSimple e)

/-- An exact license or any later version of it. -/
def laterThan? (e : Expression) : Except BuildError Expression :=
  match e with
  | .simple (.exact license) => .ok (.orLater license)
  | _ => .error (.notExact e)

/-! ## Canonical form -/

mutual

/-- Every compound expression has at least two operands, in canonical order and each once, and none
of them is joined by the same connective. -/
def Canonical : Expression → Prop
  | .compound connective es =>
    2 ≤ es.length ∧ SortedSet.Sorted es ∧
      AllCanonical es ∧ ∀ e ∈ es, ∀ ds, e ≠ .compound connective ds
  | _ => True

def AllCanonical : List Expression → Prop
  | [] => True
  | e :: es => e.Canonical ∧ AllCanonical es

end

theorem allCanonical_iff {es : List Expression} : AllCanonical es ↔ ∀ e ∈ es, e.Canonical := by
  induction es with
  | nil => simp [AllCanonical]
  | cons e es ih => simp [AllCanonical, ih]

theorem canonical_compound_iff {connective : Connective} {es : List Expression} :
    (Expression.compound connective es).Canonical ↔
      2 ≤ es.length ∧ SortedSet.Sorted es ∧ (∀ e ∈ es, e.Canonical) ∧
        ∀ e ∈ es, ∀ ds, e ≠ .compound connective ds := by
  simp [Canonical, allCanonical_iff]

/-- The operands of a canonical expression are canonical, and joined by no connective or another. -/
theorem Canonical.of_mem_operands {e : Expression} (canonical : e.Canonical)
    {connective : Connective} {d : Expression} (member : d ∈ e.operands connective) :
    d.Canonical ∧ ∀ ds, d ≠ .compound connective ds := by
  unfold operands at member
  split at member
  · rename_i other es
    split at member
    · rename_i same
      subst same
      obtain ⟨_, _, parts, flat⟩ := canonical_compound_iff.mp canonical
      exact ⟨parts d member, flat d member⟩
    · rename_i different
      obtain rfl := List.mem_singleton.mp member
      refine ⟨canonical, fun ds same => different ?_⟩
      injection same
  · rename_i simple
    obtain rfl := List.mem_singleton.mp member
    exact ⟨canonical, fun ds same => simple connective ds same⟩

/-- Joining canonical expressions gives a canonical one. -/
theorem canonical_of_combine? {connective : Connective} {es : List Expression} {e : Expression}
    (parts : ∀ d ∈ es, d.Canonical) (joined : combine? connective es = some e) : e.Canonical := by
  have operandsOf (d : Expression) (member : d ∈ operandSet connective es) :
      d.Canonical ∧ ∀ ds, d ≠ .compound connective ds := by
    obtain ⟨a, inEs, inOperands⟩ := List.mem_flatMap.mp (SortedSet.mem_ofList.mp member)
    exact (parts a inEs).of_mem_operands inOperands
  unfold combine? at joined
  split at joined
  · cases joined
  · rename_i d only
    cases joined
    exact (operandsOf e (by simp [only])).1
  · rename_i set nonempty several
    cases joined
    refine canonical_compound_iff.mpr ⟨?_, SortedSet.sorted_ofList _, ?_, ?_⟩
    · match found : operandSet connective es with
      | [] => exact absurd found nonempty
      | [d] => exact absurd found (several d)
      | _ :: _ :: _ => simp
    · exact fun d member => (operandsOf d member).1
    · exact fun d member => (operandsOf d member).2

end Expression

end Licensing
