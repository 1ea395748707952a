import Licensing.Expression.Build

/-! # The algebra of operand sets

A canonical expression is determined by the set of its operands under either connective, and joining
canonical expressions unites these sets.  Everything that is said about `combine` follows from these
two facts:

* `Canonical.ext_operands` — equal operand sets make equal expressions.
* `Canonical.mem_operands_combine` — the operands of a combination.
* `foldl_combine_eq_combine` — joining one by one is joining all at once.
* `foldl_combine_eq_compound` — joining the operands of a compound expression one by one gives the
  expression back.
-/

namespace Licensing.Expression

variable {connective : Connective}

/-! ## Operands -/

@[simp] theorem operands_compound (connective : Connective) (es : List Expression) :
    (compound connective es).operands connective = es := by
  simp [operands]

theorem operands_eq_singleton {e : Expression} (other : ∀ ds, e ≠ .compound connective ds) :
    e.operands connective = [e] := by
  unfold operands
  split
  next c ds =>
    split
    next same => exact absurd (by rw [same]) (other ds)
    next => rfl
  next => rfl

theorem mem_operands_alone {d e : Expression} (other : ∀ ds, e ≠ .compound connective ds) :
    d ∈ e.operands connective ↔ d = e := by
  rw [operands_eq_singleton other, List.mem_singleton]

/-- An expression is joined by a connective, or is its own only operand. -/
theorem joined_or_alone (connective : Connective) (e : Expression) :
    (∃ ds, e = .compound connective ds) ∨ ∀ ds, e ≠ .compound connective ds := by
  by_cases joined : ∃ ds, e = .compound connective ds
  · exact .inl joined
  · exact .inr fun ds same => joined ⟨ds, same⟩

theorem mem_operandSet {es : List Expression} {d : Expression} :
    d ∈ operandSet connective es ↔ ∃ e ∈ es, d ∈ e.operands connective := by
  simp [operandSet, SortedSet.mem_ofList]

theorem canonical_of_single {e : Expression} (single : ∀ connective es, e ≠ compound connective es) :
    e.Canonical := by
  match e with
  | .compound connective es => exact absurd rfl (single connective es)
  | .sentinel _ | .simple _ | .withException .. => simp [Canonical]

theorem Canonical.sorted_operands {e : Expression} (canonical : e.Canonical)
    (connective : Connective) : SortedSet.Sorted (e.operands connective) := by
  cases joined_or_alone connective e with
  | inl joined =>
    obtain ⟨ds, rfl⟩ := joined
    rw [operands_compound]
    exact (canonical_compound_iff.mp canonical).2.1
  | inr alone =>
    rw [operands_eq_singleton alone]
    exact List.pairwise_singleton _ e

theorem Canonical.operands_ne_nil {e : Expression} (canonical : e.Canonical)
    (connective : Connective) : e.operands connective ≠ [] := by
  cases joined_or_alone connective e with
  | inl joined =>
    obtain ⟨ds, rfl⟩ := joined
    have several := (canonical_compound_iff.mp canonical).1
    rw [operands_compound]
    intro empty
    simp [empty] at several
  | inr alone => simp [operands_eq_singleton alone]

/-- A compound expression has two operands at least, so a list with one member comes from that
member alone. -/
theorem Canonical.ext_operands (connective : Connective) {a b : Expression} (left : a.Canonical)
    (right : b.Canonical) (same : ∀ d, d ∈ a.operands connective ↔ d ∈ b.operands connective) :
    a = b := by
  have lists : a.operands connective = b.operands connective :=
    SortedSet.eq_of_mem_iff (left.sorted_operands _) (right.sorted_operands _) same
  cases joined_or_alone connective a with
  | inl joined =>
    obtain ⟨ds, rfl⟩ := joined
    cases joined_or_alone connective b with
    | inl joined' =>
      obtain ⟨ds', rfl⟩ := joined'
      simpa using lists
    | inr alone =>
      -- Two operands at least on one side, and only one on the other.
      rw [operands_compound, operands_eq_singleton alone] at lists
      have several := (canonical_compound_iff.mp left).1
      simp [lists] at several
  | inr alone =>
    cases joined_or_alone connective b with
    | inl joined =>
      obtain ⟨ds, rfl⟩ := joined
      rw [operands_compound, operands_eq_singleton alone] at lists
      have several := (canonical_compound_iff.mp right).1
      simp [← lists] at several
    | inr alone' =>
      rw [operands_eq_singleton alone, operands_eq_singleton alone'] at lists
      simpa using lists

/-! ## Combinations -/

/-- A combination has the operands of everything that it joins. -/
theorem mem_operands_of_combine? {es : List Expression} {e : Expression}
    (parts : ∀ d ∈ es, d.Canonical) (joined : combine? connective es = some e) (d : Expression) :
    d ∈ e.operands connective ↔ ∃ a ∈ es, d ∈ a.operands connective := by
  rw [← mem_operandSet]
  unfold combine? at joined
  split at joined
  next => cases joined
  next only single =>
    cases joined
    -- What remains alone is an operand of a canonical expression, so it has no operands to merge.
    have member : e ∈ operandSet connective es := by simp [single]
    obtain ⟨a, inEs, inOperands⟩ := mem_operandSet.mp member
    rw [operands_eq_singleton ((parts a inEs).of_mem_operands inOperands).2, single]
  next =>
    cases joined
    rw [operands_compound]

/-- A combination depends on the set of what it joins only. -/
theorem combine?_congr {ds es : List Expression} (same : ∀ d, d ∈ ds ↔ d ∈ es) :
    combine? connective ds = combine? connective es := by
  have sets : operandSet connective ds = operandSet connective es := by
    refine SortedSet.eq_of_mem_iff (SortedSet.sorted_ofList _) (SortedSet.sorted_ofList _) fun d => ?_
    rw [mem_operandSet, mem_operandSet]
    simp only [same]
  simp only [combine?, sets]

/-- Something that has operands can be joined. -/
theorem combine?_isSome (connective : Connective) {es : List Expression} {e : Expression}
    (member : e ∈ es) (canonical : e.Canonical) : (combine? connective es).isSome := by
  obtain ⟨d, inOperands⟩ := List.exists_mem_of_ne_nil _ (canonical.operands_ne_nil connective)
  have inSet : d ∈ operandSet connective es := mem_operandSet.mpr ⟨e, member, inOperands⟩
  unfold combine?
  split
  next empty => simp [empty] at inSet
  next => rfl
  next => rfl

theorem Canonical.combine?_eq_some {e : Expression} (canonical : e.Canonical)
    (es : List Expression) : combine? connective (e :: es) = some (combine connective e es) := by
  have first : e ∈ e :: es := List.mem_cons_self
  obtain ⟨joined, found⟩ := Option.isSome_iff_exists.mp (combine?_isSome connective first canonical)
  simp [combine, found]

theorem Canonical.combine {e : Expression} {es : List Expression} (canonical : e.Canonical)
    (parts : ∀ d ∈ es, d.Canonical) : (combine connective e es).Canonical := by
  have all : ∀ d ∈ e :: es, d.Canonical := by
    intro d member
    cases List.mem_cons.mp member with
    | inl same => exact same ▸ canonical
    | inr later => exact parts d later
  exact canonical_of_combine? all (canonical.combine?_eq_some es)

theorem Canonical.mem_operands_combine {a b : Expression} (left : a.Canonical)
    (right : b.Canonical) (d : Expression) :
    d ∈ (Expression.combine connective a [b]).operands connective ↔
      d ∈ a.operands connective ∨ d ∈ b.operands connective := by
  have parts : ∀ e ∈ [a, b], e.Canonical := by
    intro e member
    simp only [List.mem_cons, List.not_mem_nil, or_false] at member
    cases member with
    | inl same => exact same ▸ left
    | inr same => exact same ▸ right
  rw [mem_operands_of_combine? parts (left.combine?_eq_some [b])]
  simp

/-! ## Joining one by one -/

/-- Joining several expressions from left to right. -/
theorem canonical_foldl_combine {a : Expression} {es : List Expression} (canonical : a.Canonical)
    (parts : ∀ d ∈ es, d.Canonical) :
    (es.foldl (fun e d => Expression.combine connective e [d]) a).Canonical := by
  induction es generalizing a with
  | nil => exact canonical
  | cons e es ih =>
    refine ih (canonical.combine fun d member => ?_) fun d member => parts d (.tail _ member)
    exact parts d (by simp at member; simp [member])

theorem mem_operands_foldl_combine {a : Expression} {es : List Expression}
    (canonical : a.Canonical) (parts : ∀ d ∈ es, d.Canonical) (d : Expression) :
    d ∈ (es.foldl (fun e d => Expression.combine connective e [d]) a).operands connective ↔
      d ∈ a.operands connective ∨ ∃ e ∈ es, d ∈ e.operands connective := by
  induction es generalizing a with
  | nil => simp
  | cons e es ih =>
    have head : e.Canonical := parts e (by simp)
    have next : (Expression.combine connective a [e]).Canonical :=
      canonical.combine (by simpa using head)
    have step := ih next fun d member => parts d (.tail _ member)
    rw [List.foldl_cons, step, canonical.mem_operands_combine head]
    simp [or_assoc]

theorem foldl_combine_eq_combine {a : Expression} {es : List Expression} (canonical : a.Canonical)
    (parts : ∀ d ∈ es, d.Canonical) :
    es.foldl (fun e d => Expression.combine connective e [d]) a =
      Expression.combine connective a es := by
  have all : ∀ d ∈ a :: es, d.Canonical := by simpa using ⟨canonical, parts⟩
  refine Canonical.ext_operands connective (canonical_foldl_combine canonical parts)
    (canonical.combine parts) fun d => ?_
  rw [mem_operands_foldl_combine canonical parts,
    mem_operands_of_combine? all (canonical.combine?_eq_some es)]
  simp

theorem foldl_combine_eq_compound {a : Expression} {es : List Expression}
    (canonical : (Expression.compound connective (a :: es)).Canonical) :
    es.foldl (fun e d => Expression.combine connective e [d]) a = .compound connective (a :: es) := by
  obtain ⟨_, _, parts, flat⟩ := canonical_compound_iff.mp canonical
  have operand (d : Expression) (member : d ∈ a :: es) : d.operands connective = [d] :=
    operands_eq_singleton (flat d member)
  have first : a.Canonical := parts a (by simp)
  have others : ∀ d ∈ es, d.Canonical := fun d member => parts d (.tail _ member)
  refine Canonical.ext_operands connective (canonical_foldl_combine first others) canonical fun d => ?_
  rw [mem_operands_foldl_combine first others, operands_compound, operand a (by simp)]
  constructor
  · rintro (inFirst | ⟨e, member, inOperands⟩)
    · exact List.mem_cons.mpr (.inl (List.mem_singleton.mp inFirst))
    · rw [operand e (.tail _ member)] at inOperands
      exact List.mem_singleton.mp inOperands ▸ .tail _ member
  · intro member
    cases List.mem_cons.mp member with
    | inl same => exact .inl (by simp [same])
    | inr later => exact .inr ⟨d, later, by simp [operand d (.tail _ later)]⟩

/-- The operands of a compound expression are joined to nothing else. -/
theorem combine?_operands {es : List Expression} (canonical : (compound connective es).Canonical) :
    combine? connective es = some (.compound connective es) := by
  obtain ⟨several, _, parts, _⟩ := canonical_compound_iff.mp canonical
  match es with
  | [] => simp at several
  | a :: es =>
    obtain ⟨first, others⟩ := List.forall_mem_cons.mp parts
    rw [first.combine?_eq_some, ← foldl_combine_eq_combine first others, foldl_combine_eq_compound canonical]

end Licensing.Expression
