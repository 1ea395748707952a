import Licensing.Proofs.Expression.Algebra
import Licensing.Proofs.Grammar.Scanning

/-! # Printed expressions

The printed form of an expression is a text of the grammar.  `AND` binds tighter than `OR`, so the
operands of a canonical compound expression bind more tightly than their connective as soon as the
choices below an `AND` are in parentheses; `writes_text` is the induction over the expression.

* `Expression.Legible` — every name in the expression stands for itself when it is read.
* `Expression.Printable` — canonical and legible expressions.
* `Expression.parse_text` — a printed expression is read as itself.
-/

namespace Licensing

/-! ## Expressions that can be printed -/

/-- The license is what its printed name designates. -/
structure Registry.KnowsLicense (registry : Registry) (license : License) : Prop where
  name : IsName license.text
  reads : (registry.readLicense license.text).named = license

/-- The exception is what its printed name designates. -/
structure Registry.KnowsException (registry : Registry) (exception : LicenseException) : Prop where
  name : IsName exception.text
  reads : (registry.readException exception.text).named = exception

instance (registry : Registry) (license : License) : Decidable (registry.KnowsLicense license) :=
  decidable_of_iff (IsName license.text ∧ (registry.readLicense license.text).named = license)
    ⟨fun ⟨name, reads⟩ => ⟨name, reads⟩, fun knows => ⟨knows.1, knows.2⟩⟩

instance (registry : Registry) (exception : LicenseException) :
    Decidable (registry.KnowsException exception) :=
  decidable_of_iff
    (IsName exception.text ∧ (registry.readException exception.text).named = exception)
    ⟨fun ⟨name, reads⟩ => ⟨name, reads⟩, fun knows => ⟨knows.1, knows.2⟩⟩

namespace Expression

mutual

/-- Every sentinel is one that can be read, and all licenses and exceptions are what their printed
names designate. -/
def Legible (registry : Registry) : Expression → Prop
  | .sentinel name => Postfix.isSentinel name = true
  | .simple term => registry.KnowsLicense term.license
  | .withException term exception =>
    registry.KnowsLicense term.license ∧ registry.KnowsException exception
  | .compound _ operands => AllLegible registry operands

def AllLegible (registry : Registry) : List Expression → Prop
  | [] => True
  | e :: es => e.Legible registry ∧ AllLegible registry es

end

variable {registry : Registry}

theorem allLegible_iff {es : List Expression} :
    AllLegible registry es ↔ ∀ e ∈ es, e.Legible registry := by
  induction es with
  | nil => simp [AllLegible]
  | cons e es ih => simp [AllLegible, ih]

/-- An expression is legible if its operands are, under either connective. -/
theorem legible_iff_operands (connective : Connective) (e : Expression) :
    e.Legible registry ↔ ∀ d ∈ e.operands connective, d.Legible registry := by
  cases joined_or_alone connective e with
  | inl joined =>
    obtain ⟨ds, rfl⟩ := joined
    rw [operands_compound, Legible, allLegible_iff]
  | inr alone => simp [operands_eq_singleton alone]

/-- Expressions as they are built, whose names stand for themselves. -/
structure Printable (registry : Registry) (e : Expression) : Prop where
  canonical : e.Canonical
  legible : e.Legible registry

theorem Printable.of_mem_operands {e : Expression} (printable : e.Printable registry)
    {connective : Connective} {d : Expression} (member : d ∈ e.operands connective) :
    d.Printable registry where
  canonical := (printable.canonical.of_mem_operands member).1
  legible := (legible_iff_operands connective e).mp printable.legible d member

theorem Printable.combine {a b : Expression} (left : a.Printable registry)
    (right : b.Printable registry) (connective : Connective) :
    (Expression.combine connective a [b]).Printable registry where
  canonical := left.canonical.combine (by simpa using right.canonical)
  legible := by
    refine (legible_iff_operands connective _).mpr fun d member => ?_
    cases (left.canonical.mem_operands_combine right.canonical d).mp member with
    | inl inLeft => exact (left.of_mem_operands inLeft).legible
    | inr inRight => exact (right.of_mem_operands inRight).legible

/-! ## Printing -/

/-- How tightly the loosest operator of a printed expression binds. -/
def looseness : Expression → Nat
  | .compound connective _ => (Symbol.join connective).rank
  | _ => Symbol.withException.rank

/-- An operand as it is printed below a connective. -/
def operandText (connective : Connective) (e : Expression) : String :=
  parenthesized connective e.isChoice e.text

theorem operandTexts_eq_map (connective : Connective) (es : List Expression) :
    operandTexts connective es = es.map (operandText connective) := by
  induction es with
  | nil => rfl
  | cons e es ih => simp [operandTexts, operandText, ih]

theorem text_compound (connective : Connective) (es : List Expression) :
    (compound connective es).text =
      (" " ++ connective.word ++ " ").intercalate (es.map (operandText connective)) := by
  rw [text, operandTexts_eq_map]

theorem rank_join_or_le (e : Expression) : (Symbol.join .or).rank ≤ e.looseness := by
  cases e with
  | compound connective es => cases connective <;> simp [looseness, Symbol.rank]
  | _ => simp [looseness, Symbol.rank]

/-- An operand of a connective binds more tightly, or is printed in parentheses. -/
theorem writes_operandText {connective : Connective} {e : Expression}
    (alone : ∀ ds, e ≠ .compound connective ds) (writes : Writes registry e.looseness e.text e) :
    Writes registry ((Symbol.join connective).rank + 1) (operandText connective e) e := by
  unfold operandText parenthesized
  split
  next => exact Writes.parentheses (writes.loosen (rank_join_or_le e))
  next bare =>
    -- Without parentheses it is no choice, and no operand of its own connective either.
    refine writes.loosen ?_
    cases e with
    | compound other ds =>
      cases connective <;> cases other <;> simp_all [looseness, Symbol.rank, isChoice]
    | _ => cases connective <;> simp [looseness, Symbol.rank]

theorem writes_license {license : License} (knows : registry.KnowsLicense license)
    (level : Nat) : Writes registry level license.text (.just license) := by
  have writes : Writes registry level license.text (.just (registry.readLicense license.text).named) :=
    Writes.license knows.name
  rwa [knows.reads] at writes

/-- The text of an exact license or of any later version. -/
theorem writes_term {term : SimpleTerm} (knows : registry.KnowsLicense term.license) :
    Writes registry Symbol.orLater.rank term.text (.simple term) := by
  cases term with
  | exact license => exact writes_license knows _
  | orLater license => exact (writes_license knows _).orLater (Nat.le_refl _)

/-- The printed form of an expression is a text of the grammar for it. -/
theorem writes_text (e : Expression) (printable : e.Printable registry) :
    Writes registry e.looseness e.text e := by
  match e with
  | .sentinel name =>
    have special : Postfix.isSentinel name = true := by simpa [Legible] using printable.legible
    exact Writes.sentinel special
  | .simple term =>
    have knows : registry.KnowsLicense term.license := by simpa [Legible] using printable.legible
    have le : Symbol.withException.rank ≤ Symbol.orLater.rank := by decide
    exact (writes_term knows).loosen le
  | .withException term exception =>
    have knows := printable.legible
    simp only [Legible] at knows
    have writes := (writes_term knows.1).withException (Nat.le_refl _) knows.2.name
    rw [knows.2.reads] at writes
    exact writes
  | .compound connective (a :: es) =>
    obtain ⟨_, _, _, flat⟩ := canonical_compound_iff.mp printable.canonical
    have operand (d : Expression) (member : d ∈ a :: es) :
        Writes registry ((Symbol.join connective).rank + 1) (operandText connective d) d := by
      have inside : d ∈ (compound connective (a :: es)).operands connective := by
        rw [operands_compound]
        exact member
      exact writes_operandText (flat d member) (writes_text d (printable.of_mem_operands inside))
    -- The printed operands are joined one by one, and that is the expression again.
    have first := (operand a (by simp)).loosen (Nat.le_succ _)
    have all := holds_of_intercalate (P := Writes registry (Symbol.join connective).rank)
      (Q := Writes registry ((Symbol.join connective).rank + 1)) (Writes.join (Nat.le_refl _)) first
      fun d member => operand d (.tail _ member)
    rw [List.map_id', foldl_combine_eq_compound printable.canonical] at all
    rw [text_compound]
    exact all
  | .compound connective [] => exact absurd printable.canonical (by simp [Canonical])
termination_by sizeOf e
decreasing_by
  have := List.sizeOf_lt_of_mem member
  simp only [Expression.compound.sizeOf_spec]
  omega

/-- What is printed is read as the expression that was printed. -/
theorem Printable.parse_text {e : Expression} (printable : e.Printable registry) :
    Expression.parse registry e.text = .ok e :=
  parse_of_writes ((writes_text e printable).loosen (rank_join_or_le e))

/-- Different expressions are printed differently. -/
theorem Printable.eq_of_text_eq {a b : Expression} (left : a.Printable registry)
    (right : b.Printable registry) (same : a.text = b.text) : a = b := by
  have parsed := left.parse_text
  rw [same, right.parse_text] at parsed
  exact (Except.ok.inj parsed).symm

end Expression

end Licensing
