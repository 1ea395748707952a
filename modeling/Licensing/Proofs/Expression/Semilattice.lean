import Licensing.Proofs.Expression.Nodes
import Licensing.Proofs.Grammar.RoundTrip

/-! # The semilattices of expressions

Whatever is built from licenses, by constructors, by operators and by reading texts, is canonical
(`Built.canonical`), although each of these merges operands only one level deep: the operands of a canonical
expression are not joined by its connective themselves (`operandSet_operandSet`).

A combination of canonical expressions is the canonical expression with all their operands
(`joined_eq_ok_iff`).  So `AND` and `OR` are semilattices, and a `Grouping`, with groups inside groups, has
the same value as the set of its members (`joined_members`).
-/

namespace Licensing.Expression

variable {connective : Connective}

/-! ## Expressions that can be built -/

/-- Everything that can be made of licenses, by any sequence of constructors, operators and readings. -/
inductive Built : Expression → Prop
  | sentinel (name : String) : Built (.sentinel name)
  | just (license : License) : Built (.just license)
  | orLater {e later : Expression} (base : Built e) (made : e.laterThan? = .ok later) : Built later
  | withException {e whole : Expression} {exception : LicenseException} (base : Built e)
      (made : e.attach? exception = .ok whole) : Built whole
  | joined {connective : Connective} {es : List Expression} {e : Expression}
      (parts : ∀ d ∈ es, Built d) (made : joined connective es = .ok e) : Built e
  | compound {connective : Connective} {es : List Expression} {e : Expression}
      (parts : ∀ d ∈ es, Built d) (made : compound? connective es = .ok e) : Built e
  | and {a b : Expression} (left : Built a) (right : Built b) : Built (a.and b)
  | or {a b : Expression} (left : Built a) (right : Built b) : Built (a.or b)
  | read {registry : Registry} {text : String} {e : Expression}
      (parsed : Expression.parse registry text = .ok e) : Built e

/-- Every compound expression inside has two different operands at least, and none that is joined by its own
connective. -/
def Flat (e : Expression) : Prop :=
  ∀ connective es, compound connective es ∈ e.nodes →
    2 ≤ es.length ∧ es.Nodup ∧ ∀ d ∈ es, ∀ ds, d ≠ .compound connective ds

theorem Canonical.flat {e : Expression} (canonical : e.Canonical) : e.Flat := by
  intro connective es node
  obtain ⟨several, sorted, -, flat⟩ := canonical_compound_iff.mp (canonical.of_mem_nodes node)
  exact ⟨several, sorted.nodup, flat⟩

theorem attach?_eq_ok {e whole : Expression} {exception : LicenseException} :
    e.attach? exception = .ok whole ↔ ∃ term, e = .simple term ∧ whole = .withException term exception := by
  cases e <;> simp [attach?, eq_comm]

theorem joined_eq_ok {es : List Expression} {e : Expression} :
    joined connective es = .ok e ↔ combine? connective es = some e := by
  unfold joined
  split
  next found => simp [found]
  next none => simp [none]

/-- A compound expression over several operands is their combination. -/
theorem joined_of_compound? {es : List Expression} {e : Expression}
    (made : compound? connective es = .ok e) : joined connective es = .ok e := by
  rw [joined_eq_ok]
  unfold compound? at made
  split at made
  next set =>
    cases made
    simp [combine?, set]
  next => cases made

theorem Built.canonical {e : Expression} (built : e.Built) : e.Canonical := by
  induction built with
  | sentinel | just => trivial
  | @orLater e _ _ made =>
    unfold laterThan? at made
    split at made
    next => cases made; trivial
    next => cases made
  | withException _ made =>
    obtain ⟨term, -, rfl⟩ := attach?_eq_ok.mp made
    trivial
  | joined _ made ih => exact canonical_of_combine? ih (joined_eq_ok.mp made)
  | compound _ made ih => exact canonical_of_combine? ih (joined_eq_ok.mp (joined_of_compound? made))
  | and _ _ left right => exact left.combine (by simpa using right)
  | or _ _ left right => exact left.combine (by simpa using right)
  | read parsed => exact (printable_of_parse parsed).canonical

/-! ## Combinations -/

/-- Merging what has been merged changes nothing: one level is enough. -/
theorem operandSet_operandSet {es : List Expression} (parts : ∀ d ∈ es, d.Canonical) :
    operandSet connective (operandSet connective es) = operandSet connective es := by
  refine SortedSet.eq_of_mem_iff (SortedSet.sorted_ofList _) (SortedSet.sorted_ofList _) fun d => ?_
  -- What has been merged is an operand of a canonical expression, and so no operands can be taken out of it.
  have alone (a : Expression) (member : a ∈ operandSet connective es) : a.operands connective = [a] := by
    obtain ⟨e, inEs, inOperands⟩ := mem_operandSet.mp member
    exact operands_eq_singleton ((parts e inEs).of_mem_operands inOperands).2
  rw [mem_operandSet]
  constructor
  · rintro ⟨a, member, inOperands⟩
    rw [alone a member, List.mem_singleton] at inOperands
    exact inOperands ▸ member
  · intro member
    exact ⟨d, member, by simp [alone d member]⟩

/-- A combination is the canonical expression that has the operands of all its parts. -/
theorem joined_eq_ok_iff {es : List Expression} (parts : ∀ d ∈ es, d.Canonical) {e : Expression} :
    joined connective es = .ok e ↔
      e.Canonical ∧ ∀ d, d ∈ e.operands connective ↔ ∃ a ∈ es, d ∈ a.operands connective := by
  rw [joined_eq_ok]
  constructor
  · intro made
    exact ⟨canonical_of_combine? parts made, mem_operands_of_combine? parts made⟩
  · rintro ⟨canonical, operands⟩
    obtain ⟨d, member⟩ := List.exists_mem_of_ne_nil _ (canonical.operands_ne_nil connective)
    obtain ⟨a, inEs, -⟩ := (operands d).mp member
    obtain ⟨whole, made⟩ := Option.isSome_iff_exists.mp (combine?_isSome connective inEs (parts a inEs))
    have same : whole = e := by
      refine Canonical.ext_operands connective (canonical_of_combine? parts made) canonical fun d => ?_
      rw [operands, mem_operands_of_combine? parts made]
    rw [made, same]

theorem exists_joined (connective : Connective) {es : List Expression} (nonempty : es ≠ [])
    (parts : ∀ d ∈ es, d.Canonical) : ∃ e, joined connective es = .ok e := by
  obtain ⟨a, inEs⟩ := List.exists_mem_of_ne_nil _ nonempty
  obtain ⟨e, made⟩ := Option.isSome_iff_exists.mp (combine?_isSome connective inEs (parts a inEs))
  exact ⟨e, joined_eq_ok.mpr made⟩

theorem joined_eq_error_iff {es : List Expression} (parts : ∀ d ∈ es, d.Canonical) {fault : BuildError} :
    joined connective es = .error fault ↔ es = [] ∧ fault = .noOperand connective := by
  by_cases empty : es = []
  · subst empty
    show Except.error (BuildError.noOperand connective) = .error fault ↔ _
    simp [eq_comm]
  · obtain ⟨e, made⟩ := exists_joined connective empty parts
    simp [made, empty]

theorem joined_congr {ds es : List Expression} (same : ∀ d, d ∈ ds ↔ d ∈ es) :
    joined connective ds = joined connective es := by
  rw [joined, joined, combine?_congr same]

theorem Canonical.joined_cons {a : Expression} (canonical : a.Canonical) (es : List Expression) :
    joined connective (a :: es) = .ok (Expression.combine connective a es) :=
  joined_eq_ok.mpr (canonical.combine?_eq_some es)

/-! ## Groups -/

/-- Expressions in groups, and groups inside groups; no group is empty. -/
inductive Grouping where
  | single (e : Expression)
  | group (first : Grouping) (others : List Grouping)

namespace Grouping

mutual

/-- Every group is joined by the connective. -/
def expression (connective : Connective) : Grouping → Expression
  | single e => e
  | group first others =>
    Expression.combine connective (first.expression connective) (expressions connective others)

def expressions (connective : Connective) : List Grouping → List Expression
  | [] => []
  | g :: gs => g.expression connective :: expressions connective gs

end

mutual

/-- The expressions in the groups, at any depth. -/
def members : Grouping → List Expression
  | single e => [e]
  | group first others => first.members ++ allMembers others

def allMembers : List Grouping → List Expression
  | [] => []
  | g :: gs => g.members ++ allMembers gs

end

theorem forall_members_cons {g : Grouping} {gs : List Grouping} :
    (∀ e ∈ g.members ++ allMembers gs, e.Canonical) ↔
      (∀ e ∈ g.members, e.Canonical) ∧ ∀ e ∈ allMembers gs, e.Canonical := by
  simp only [List.mem_append, or_imp, forall_and]

mutual

/-- However its members are grouped, a grouping has the operands of all of them. -/
theorem operands_expression (g : Grouping) (parts : ∀ e ∈ g.members, e.Canonical) :
    (g.expression connective).Canonical ∧ ∀ d, d ∈ (g.expression connective).operands connective ↔
      ∃ e ∈ g.members, d ∈ e.operands connective := by
  match g with
  | single e => simpa [expression, members] using parts e (by simp [members])
  | group first others =>
    rw [members, forall_members_cons] at parts
    obtain ⟨head, inHead⟩ := operands_expression first parts.1
    obtain ⟨rest, inRest⟩ := operands_expressions others parts.2
    -- The group is joined as a whole, whatever its parts have been joined from.
    have all : ∀ e ∈ first.expression connective :: expressions connective others, e.Canonical :=
      List.forall_mem_cons.mpr ⟨head, rest⟩
    obtain ⟨canonical, operands⟩ := (joined_eq_ok_iff all).mp (head.joined_cons _)
    refine ⟨canonical, fun d => ?_⟩
    simp only [expression, operands, members, List.mem_cons, or_and_right, exists_or,
      exists_eq_left, inHead, inRest, List.mem_append]

theorem operands_expressions (gs : List Grouping) (parts : ∀ e ∈ allMembers gs, e.Canonical) :
    (∀ e ∈ expressions connective gs, e.Canonical) ∧
      ∀ d, (∃ e ∈ expressions connective gs, d ∈ e.operands connective) ↔
        ∃ e ∈ allMembers gs, d ∈ e.operands connective := by
  match gs with
  | [] => simp [expressions, allMembers]
  | g :: gs =>
    rw [allMembers, forall_members_cons] at parts
    obtain ⟨head, inHead⟩ := operands_expression g parts.1
    obtain ⟨rest, inRest⟩ := operands_expressions gs parts.2
    refine ⟨List.forall_mem_cons.mpr ⟨head, rest⟩, fun d => ?_⟩
    simp only [expressions, allMembers, List.mem_cons, or_and_right, exists_or, exists_eq_left,
      inHead, inRest, List.mem_append]

end

/-- Groups do not matter: the members can be joined all at once. -/
theorem joined_members (connective : Connective) {g : Grouping} (parts : ∀ e ∈ g.members, e.Canonical) :
    joined connective g.members = .ok (g.expression connective) :=
  (joined_eq_ok_iff parts).mpr (g.operands_expression parts)

/-- Neither groups nor order nor repetitions matter. -/
theorem expression_congr {g h : Grouping} (parts : ∀ e ∈ h.members, e.Canonical)
    (same : ∀ e, e ∈ g.members ↔ e ∈ h.members) : g.expression connective = h.expression connective := by
  have whole := joined_members connective fun e member => parts e ((same e).mp member)
  rw [joined_congr same, joined_members connective parts] at whole
  exact (Except.ok.inj whole).symm

end Grouping

/-! ## The laws -/

/-- What makes a connective a semilattice on the expressions that can be built, over any number of operands. -/
structure Semilattice (connective : Connective) : Prop where
  /-- One level of merging is enough. -/
  flat {es : List Expression} (parts : ∀ d ∈ es, d.Built) :
    operandSet connective (operandSet connective es) = operandSet connective es
  /-- Only nothing at all cannot be joined. -/
  fails {es : List Expression} (parts : ∀ d ∈ es, d.Built) (fault : BuildError) :
    joined connective es = .error fault ↔ es = [] ∧ fault = .noOperand connective
  /-- A combination has the operands of all its parts. -/
  union {es : List Expression} (parts : ∀ d ∈ es, d.Built) (some : es ≠ []) :
    ∃ e, joined connective es = .ok e ∧ e.Built ∧
      ∀ d, d ∈ e.operands connective ↔ ∃ a ∈ es, d ∈ a.operands connective
  /-- Two operands can be joined by the operator. -/
  pair {a b : Expression} (left : a.Built) (right : b.Built) :
    joined connective [a, b] = .ok (combine connective a [b])
  comm {a b : Expression} (left : a.Built) (right : b.Built) :
    combine connective a [b] = combine connective b [a]
  assoc {a b c : Expression} (left : a.Built) (middle : b.Built) (right : c.Built) :
    combine connective (combine connective a [b]) [c] = combine connective a [combine connective b [c]]
  idem {a : Expression} (built : a.Built) : combine connective a [a] = a
  /-- Groups, order and repetitions of the operands do not matter. -/
  regroup {g : Grouping} {es : List Expression} (parts : ∀ d ∈ es, d.Built)
    (same : ∀ d, d ∈ g.members ↔ d ∈ es) : joined connective es = .ok (g.expression connective)

theorem semilattice (connective : Connective) : Semilattice connective := by
  have canonical {es : List Expression} (parts : ∀ d ∈ es, d.Built) (d : Expression) (member : d ∈ es) :
      d.Canonical := (parts d member).canonical
  -- The two sides of each law are groupings of the same members.
  exact {
    flat := fun parts => operandSet_operandSet (canonical parts)
    fails := fun parts _ => joined_eq_error_iff (canonical parts)
    union := by
      intro es parts some
      obtain ⟨e, made⟩ := exists_joined connective some (canonical parts)
      exact ⟨e, made, .joined parts made, ((joined_eq_ok_iff (canonical parts)).mp made).2⟩
    pair := fun left _ => left.canonical.joined_cons _
    comm := by
      intro a b left right
      refine Grouping.expression_congr (g := .group (.single a) [.single b])
        (h := .group (.single b) [.single a]) ?_ fun e => ?_
      · simpa [Grouping.members, Grouping.allMembers] using ⟨right.canonical, left.canonical⟩
      · simp [Grouping.members, Grouping.allMembers, or_comm]
    assoc := by
      intro a b c left middle right
      refine Grouping.expression_congr (g := .group (.group (.single a) [.single b]) [.single c])
        (h := .group (.single a) [.group (.single b) [.single c]]) ?_ fun e => ?_
      · simpa [Grouping.members, Grouping.allMembers] using
          ⟨left.canonical, middle.canonical, right.canonical⟩
      · simp [Grouping.members, Grouping.allMembers]
    idem := by
      intro a built
      refine Grouping.expression_congr (g := .group (.single a) [.single a]) (h := .single a) ?_ fun e => ?_
      · simpa [Grouping.members] using built.canonical
      · simp [Grouping.members, Grouping.allMembers]
    regroup := by
      intro g es parts same
      rw [← joined_congr same]
      exact Grouping.joined_members connective fun d member => canonical parts d ((same d).mp member) }

/-- Everything that can be built is flat, an exception is attached to simple terms only, and both connectives
are semilattices. -/
theorem built_semilattice :
    (∀ e : Expression, e.Built → e.Flat) ∧
      (∀ (e : Expression) (exception : LicenseException),
        (∃ whole, e.attach? exception = .ok whole) ↔ ∃ term, e = .simple term) ∧
      ∀ connective, Semilattice connective := by
  refine ⟨fun e built => built.canonical.flat, fun e exception => ?_, semilattice⟩
  simp only [attach?_eq_ok]
  constructor
  · rintro ⟨_, term, same, -⟩
    exact ⟨term, same⟩
  · rintro ⟨term, same⟩
    exact ⟨_, term, same, rfl⟩

/-- A text with a repeated alternative, joined with its own parts in groups. -/
theorem built_semilattice_of_nested_groups :
    let a : Expression := .just (.free ⟨"A", []⟩)
    let b : Expression := .just (.free ⟨"B", []⟩)
    let c : Expression := .just (.free ⟨"C", []⟩)
    let x : LicenseException := .free ⟨"x", []⟩
    let e : Expression := a.and (a.or b)
    let g : Grouping := .group (.group (.single (a.or b)) [.single c]) [.single a, .single e, .single c]
    Expression.parse ⟨[], []⟩ "A and (B or A or B)" = .ok e ∧ e.Flat ∧
      (¬ ∃ whole, e.attach? x = .ok whole) ∧
      joined .and [e, a, c, a.or b] = .ok (g.expression .and) ∧
      g.expression .and = .compound .and [a, c, a.or b] := by
  intro a b c x e g
  obtain ⟨flat, simple, laws⟩ := built_semilattice
  have read : Expression.parse ⟨[], []⟩ "A and (B or A or B)" = .ok e :=
    Outcome.toOption_eq_some.mp (by decide +kernel)
  have parts : ∀ d ∈ [e, a, c, a.or b], d.Built := by
    simp only [List.forall_mem_cons]
    exact ⟨.read read, .just _, .just _, .or (.just _) (.just _), List.forall_mem_nil _⟩
  have same (d : Expression) : d ∈ g.members ↔ d ∈ [e, a, c, a.or b] := by
    simp only [g, Grouping.members, Grouping.allMembers, List.append_nil, List.cons_append,
      List.nil_append, List.mem_cons, List.not_mem_nil]
    grind
  have compound : e = .compound .and [a, .compound .or [a, b]] := by decide +kernel
  refine ⟨read, flat e (.read read), fun attached => ?_, (laws .and).regroup parts same, by decide +kernel⟩
  obtain ⟨term, same⟩ := (simple e x).mp attached
  cases compound.symm.trans same

end Licensing.Expression
