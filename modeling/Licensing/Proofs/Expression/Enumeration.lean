import Licensing.Proofs.Expression.Nodes
import Licensing.Proofs.Grammar.Printing

/-! # Printing, whatever the order of sets

The operands of a compound expression are a set, and a set may be enumerated in any order.  To print them,
they are sorted by their weight and their printed form, and operands that agree in both stay in the order in
which they were enumerated.

* `Prints` — the printed forms of an expression under all enumerations, at every depth.
* `Untied` — different operands of a node differ in their weight or their printed form.
* `prints_iff` — the printed form of a canonical expression without ties.
-/

namespace Licensing.Expression

/-! ## Sorting -/

/-- Lightest first, and those of one weight by the printed form. -/
def precedes (shown : Expression → String) (a b : Expression) : Bool :=
  (compareLex (compareOn weight) (compareOn shown) a b).isLE

/-- Operands in the order in which they are printed; the sort is stable. -/
def arranged (shown : Expression → String) (enumeration : List Expression) : List Expression :=
  enumeration.mergeSort (precedes shown)

theorem pairwise_arranged (shown : Expression → String) (enumeration : List Expression) :
    (arranged shown enumeration).Pairwise fun a b => precedes shown a b = true := by
  apply List.pairwise_mergeSort
  · intro a b c
    exact Std.TransCmp.isLE_trans
  · intro a b
    have swapped : compareLex (compareOn weight) (compareOn shown) b a =
        (compareLex (compareOn weight) (compareOn shown) a b).swap := Std.OrientedCmp.eq_swap
    rw [precedes, precedes, swapped]
    cases compareLex (compareOn weight) (compareOn shown) a b <;> rfl

theorem precedes_antisymm {shown : Expression → String} {a b : Expression}
    (before : precedes shown a b = true) (behind : precedes shown b a = true) :
    a.weight = b.weight ∧ shown a = shown b := by
  have same := Std.OrientedCmp.isLE_antisymm before behind
  simp only [compareLex, compareOn, Ordering.then_eq_eq] at same
  exact ⟨Std.LawfulEqOrd.eq_of_compare same.1, Std.LawfulEqOrd.eq_of_compare same.2⟩

/-- The canonical order refines the one in which operands are printed. -/
theorem precedes_of_compare {shown : Expression → String} {a b : Expression}
    (left : shown a = a.text) (right : shown b = b.text) (less : compare a b = .lt) :
    precedes shown a b = true := by
  have less : compareLex (compareOn weight) (compareLex (compareOn text) (compareOn code)) a b = .lt :=
    less
  simp only [compareLex, compareOn, Ordering.then_eq_lt] at less
  simp only [precedes, compareLex, compareOn, left, right, Ordering.isLE_then_iff_or]
  obtain first | ⟨same, second | ⟨same', -⟩⟩ := less
  · exact .inl first
  · exact .inr ⟨same, by rw [second]; rfl⟩
  · exact .inr ⟨same, by rw [same']; rfl⟩

theorem arranged_of_sorted {shown : Expression → String} {es : List Expression}
    (sorted : SortedSet.Sorted es) (texts : ∀ d ∈ es, shown d = d.text) : arranged shown es = es := by
  apply List.mergeSort_of_pairwise
  exact sorted.imp_of_mem fun left right less =>
    precedes_of_compare (texts _ left) (texts _ right) less

/-! ## Printed forms -/

/-- `Prints e s` — some enumerations of the operands, at every depth of `e`, give the printed form `s`. -/
inductive Prints : Expression → String → Prop
  | sentinel {name : String} : Prints (.sentinel name) name
  | simple {term : SimpleTerm} : Prints (.simple term) term.text
  | withException {term : SimpleTerm} {exception : LicenseException} :
      Prints (.withException term exception) (term.text ++ " WITH " ++ exception.text)
  | compound {connective : Connective} {es enumeration : List Expression}
      {shown : Expression → String} (perm : enumeration.Perm es)
      (printed : ∀ d ∈ es, Prints d (shown d)) :
      Prints (.compound connective es) ((" " ++ connective.word ++ " ").intercalate
        ((arranged shown enumeration).map fun d => parenthesized connective d.isChoice (shown d)))

/-- No two different operands of a node have the same weight and the same printed form. -/
def Untied (e : Expression) : Prop :=
  ∀ connective es, compound connective es ∈ e.nodes →
    ∀ a ∈ es, ∀ b ∈ es, a.weight = b.weight → a.text = b.text → a = b

theorem Untied.of_mem_nodes {d e : Expression} (untied : e.Untied) (inside : d ∈ e.nodes) :
    d.Untied := by
  intro connective es node
  exact untied connective es (nodes_subset node inside)

theorem Untied.of_operand {d : Expression} {connective : Connective} {es : List Expression}
    (untied : (compound connective es).Untied) (member : d ∈ es) : d.Untied :=
  untied.of_mem_nodes (mem_nodes_of_operand member)

/-- Without ties, sorting undoes the enumeration. -/
theorem arranged_eq {connective : Connective} {es enumeration : List Expression}
    {shown : Expression → String} (canonical : (compound connective es).Canonical)
    (untied : (compound connective es).Untied) (perm : enumeration.Perm es)
    (texts : ∀ d ∈ es, shown d = d.text) : arranged shown enumeration = es := by
  have sorted := (canonical_compound_iff.mp canonical).2.1
  have all : (arranged shown enumeration).Perm es := (List.mergeSort_perm _ _).trans perm
  refine all.eq_of_pairwise ?_ (pairwise_arranged shown enumeration)
    (sorted.imp_of_mem fun left right less => precedes_of_compare (texts _ left) (texts _ right) less)
  intro a b left right before behind
  have inside : a ∈ es := all.mem_iff.mp left
  obtain ⟨weights, forms⟩ := precedes_antisymm before behind
  rw [texts a inside, texts b right] at forms
  exact untied connective es (mem_nodes_self _) a inside b right weights forms

/-- The canonical order is one of the enumerations. -/
theorem prints_text (e : Expression) (canonical : e.Canonical) : e.Prints e.text := by
  match e with
  | .sentinel _ => exact .sentinel
  | .simple _ => exact .simple
  | .withException .. => exact .withException
  | .compound connective es =>
    obtain ⟨-, sorted, parts, -⟩ := canonical_compound_iff.mp canonical
    have printed (d : Expression) (member : d ∈ es) : d.Prints d.text := prints_text d (parts d member)
    have whole := @Prints.compound connective es es text (List.Perm.refl es) printed
    rw [arranged_of_sorted sorted fun _ _ => rfl] at whole
    rw [text_compound]
    exact whole
termination_by sizeOf e
decreasing_by
  have := List.sizeOf_lt_of_mem member
  simp only [Expression.compound.sizeOf_spec]
  omega

theorem Prints.eq_text {e : Expression} {s : String} (prints : e.Prints s) (canonical : e.Canonical)
    (untied : e.Untied) : s = e.text := by
  induction prints with
  | sentinel | simple | withException => simp [text]
  | @compound connective es enumeration shown perm _ ih =>
    obtain ⟨-, -, parts, -⟩ := canonical_compound_iff.mp canonical
    have texts (d : Expression) (member : d ∈ es) : shown d = d.text :=
      ih d member (parts d member) (untied.of_operand member)
    rw [arranged_eq canonical untied perm texts, text_compound]
    refine congrArg _ (List.map_congr_left fun d member => ?_)
    rw [texts d member, operandText]

theorem prints_iff {e : Expression} (canonical : e.Canonical) (untied : e.Untied) (s : String) :
    e.Prints s ↔ s = e.text := by
  refine ⟨fun prints => prints.eq_text canonical untied, ?_⟩
  rintro rfl
  exact prints_text e canonical

/-! ## Ties -/

/-- Tied operands stay in the order of the enumeration. -/
theorem arranged_of_tie {shown : Expression → String} {a b : Expression}
    (weights : a.weight = b.weight) (forms : shown a = shown b) : arranged shown [a, b] = [a, b] := by
  have before : precedes shown a b = true := by
    simp [precedes, compareLex, compareOn, weights, forms, Std.ReflCmp.compare_self]
  apply List.mergeSort_of_pairwise
  simpa using before

theorem prints_of_tie (connective : Connective) {a b : Expression} (left : a.Canonical)
    (right : b.Canonical) (weights : a.weight = b.weight) (forms : a.text = b.text) :
    (compound connective [a, b]).Prints ((" " ++ connective.word ++ " ").intercalate
        [operandText connective a, operandText connective b]) ∧
      (compound connective [a, b]).Prints ((" " ++ connective.word ++ " ").intercalate
        [operandText connective b, operandText connective a]) := by
  have printed : ∀ d ∈ [a, b], d.Prints d.text := by
    simpa using ⟨prints_text a left, prints_text b right⟩
  constructor
  · have whole := @Prints.compound connective [a, b] [a, b] text (.refl _) printed
    rwa [arranged_of_tie weights forms] at whole
  · have whole := @Prints.compound connective [a, b] [b, a] text (.swap ..) printed
    rwa [arranged_of_tie weights.symm forms.symm] at whole

/-! ## Expressions that can be read back -/

theorem Printable.of_mem_nodes {registry : Registry} {d e : Expression}
    (printable : e.Printable registry) (inside : d ∈ e.nodes) : d.Printable registry := by
  match e with
  | .sentinel _ | .simple _ | .withException .. =>
    simp only [nodes, List.mem_singleton] at inside
    exact inside ▸ printable
  | .compound connective es =>
    obtain rfl | ⟨operand, member, deeper⟩ := mem_nodes_compound.mp inside
    · exact printable
    · have part : operand.Printable registry :=
        printable.of_mem_operands (by rw [operands_compound]; exact member)
      exact part.of_mem_nodes deeper
termination_by sizeOf e

/-- Expressions that are read back as themselves have no ties. -/
theorem Printable.untied {registry : Registry} {e : Expression} (printable : e.Printable registry) :
    e.Untied := by
  intro connective es node a left b right _ same
  have operand (d : Expression) (member : d ∈ es) : d.Printable registry :=
    (printable.of_mem_nodes node).of_mem_nodes (mem_nodes_of_operand member)
  exact (operand a left).eq_of_text_eq (operand b right) same

end Licensing.Expression
