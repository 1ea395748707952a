import Licensing.Expression.Build

/-! # The nodes of an expression

An expression has as many nodes as its `size` says (`length_nodes`), and what is below one of its nodes is
one of its nodes as well (`nodes_subset`).
-/

namespace Licensing.Expression

mutual

/-- The expression and everything below it. -/
def nodes : Expression → List Expression
  | .compound connective es => .compound connective es :: operandNodes es
  | e => [e]

def operandNodes : List Expression → List Expression
  | [] => []
  | e :: es => e.nodes ++ operandNodes es

end

theorem mem_operandNodes {d : Expression} {es : List Expression} :
    d ∈ operandNodes es ↔ ∃ e ∈ es, d ∈ e.nodes := by
  induction es with
  | nil => simp [operandNodes]
  | cons e es ih => simp [operandNodes, ih]

theorem mem_nodes_compound {d : Expression} {connective : Connective} {es : List Expression} :
    d ∈ (compound connective es).nodes ↔ d = .compound connective es ∨ ∃ e ∈ es, d ∈ e.nodes := by
  simp [nodes, mem_operandNodes]

theorem mem_nodes_self (e : Expression) : e ∈ e.nodes := by
  cases e <;> simp [nodes]

theorem nodes_eq_singleton {e : Expression} (single : ∀ connective es, e ≠ compound connective es) :
    e.nodes = [e] := by
  match e with
  | .compound connective es => exact absurd rfl (single connective es)
  | .sentinel _ | .simple _ | .withException .. => rfl

theorem mem_nodes_of_operand {d : Expression} {connective : Connective} {es : List Expression}
    (member : d ∈ es) : d ∈ (compound connective es).nodes :=
  mem_nodes_compound.mpr (.inr ⟨d, member, mem_nodes_self d⟩)

theorem mem_nodes_of_mem_operands {d e : Expression} {connective : Connective}
    (member : d ∈ e.operands connective) : d ∈ e.nodes := by
  unfold operands at member
  split at member
  next =>
    split at member
    next => exact mem_nodes_of_operand member
    next => exact List.mem_singleton.mp member ▸ mem_nodes_self _
  next => exact List.mem_singleton.mp member ▸ mem_nodes_self _

/-- Whatever joins them, operands are below some alternative of what they are joined to. -/
theorem exists_alternative_of_operand {d : Expression} {connective : Connective}
    {es : List Expression} (member : d ∈ es) :
    ∃ p ∈ (compound connective es).operands .or, d ∈ p.nodes := by
  cases connective with
  | or => exact ⟨d, by simpa [operands] using member, mem_nodes_self d⟩
  -- A combination by `AND` is its own only alternative.
  | and => exact ⟨.compound .and es, by simp [operands], mem_nodes_of_operand member⟩

mutual

theorem length_nodes (e : Expression) : e.nodes.length = e.size := by
  match e with
  | .sentinel _ | .simple _ | .withException .. => simp [nodes, size]
  | .compound connective es => simp [nodes, size, length_operandNodes es]

theorem length_operandNodes (es : List Expression) : (operandNodes es).length = totalSize es := by
  match es with
  | [] => simp [operandNodes, totalSize]
  | e :: es => simp [operandNodes, totalSize, length_nodes e, length_operandNodes es]

end

theorem size_lt_of_operand {d : Expression} {connective : Connective} {es : List Expression}
    (member : d ∈ es) : d.size < (compound connective es).size := by
  simp only [size]
  induction es with
  | nil => cases member
  | cons e es ih =>
    simp only [totalSize]
    cases List.mem_cons.mp member with
    | inl same =>
      subst same
      omega
    | inr later =>
      have smaller := ih later
      omega

/-- Induction over the operands of compound expressions. -/
@[elab_as_elim]
theorem induction {motive : Expression → Prop}
    (single : ∀ e, (∀ connective es, e ≠ compound connective es) → motive e)
    (compound : ∀ connective es, (∀ d ∈ es, motive d) → motive (.compound connective es))
    (e : Expression) : motive e := by
  match e with
  | .sentinel _ | .simple _ | .withException .. => exact single _ (by simp)
  | .compound connective es => exact compound connective es fun d member => induction single compound d
termination_by e.size
decreasing_by exact size_lt_of_operand member

theorem nodes_subset {c d e : Expression} (below : c ∈ d.nodes) (inside : d ∈ e.nodes) :
    c ∈ e.nodes := by
  match e with
  | .sentinel _ | .simple _ | .withException .. =>
    simp only [nodes, List.mem_singleton] at inside
    exact inside ▸ below
  | .compound connective es =>
    obtain rfl | ⟨operand, member, deeper⟩ := mem_nodes_compound.mp inside
    · exact below
    · exact mem_nodes_compound.mpr (.inr ⟨operand, member, nodes_subset below deeper⟩)
termination_by sizeOf e

theorem Canonical.of_mem_nodes {d e : Expression} (canonical : e.Canonical) (inside : d ∈ e.nodes) :
    d.Canonical := by
  match e with
  | .sentinel _ | .simple _ | .withException .. =>
    simp only [nodes, List.mem_singleton] at inside
    exact inside ▸ canonical
  | .compound connective es =>
    obtain rfl | ⟨operand, member, deeper⟩ := mem_nodes_compound.mp inside
    · exact canonical
    · exact ((canonical_compound_iff.mp canonical).2.2.1 operand member).of_mem_nodes deeper
termination_by sizeOf e

end Licensing.Expression
