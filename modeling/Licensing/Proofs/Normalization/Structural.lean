import Licensing.Normalization.Structural
import Licensing.Proofs.Expression.Algebra
import Licensing.Proofs.Expression.Nodes
import Licensing.Proofs.Outcome

/-! # What normalization keeps

Normalization replaces leaves and joins what it gets for operands again.  A property that an expression has
exactly if its operands have it, under either connective, is not lost by joining; so whatever holds of the
leaves that come out holds of the whole (`holds_of_normalize`).

* `OfOperands` — properties of this kind.
* `Settled` — no free text stands for anything.
* `normalize_eq_self` — an expression in which nothing stands for anything is left as it is.
-/

namespace Licensing.Expression

variable {rules : LeafRules} {strict : Bool} {connective : Connective}

/-! ## Properties of operands -/

/-- An expression has the property exactly if its operands have, under either connective. -/
def OfOperands (P : Expression → Prop) : Prop :=
  ∀ connective e, P e ↔ ∀ d ∈ e.operands connective, P d

theorem OfOperands.compound {P : Expression → Prop} (closed : OfOperands P) {es : List Expression} :
    P (.compound connective es) ↔ ∀ d ∈ es, P d := by
  rw [closed connective, operands_compound]

/-- Joining loses no property of the operands. -/
theorem OfOperands.of_combine? {P : Expression → Prop} (closed : OfOperands P) {es : List Expression}
    {e : Expression} (canonical : ∀ d ∈ es, d.Canonical) (parts : ∀ d ∈ es, P d)
    (joined : combine? connective es = some e) : P e := by
  rw [closed connective]
  intro d member
  obtain ⟨a, inside, operand⟩ := (mem_operands_of_combine? canonical joined d).mp member
  exact (closed connective a).mp (parts a inside) d operand

/-! ## Free text -/

theorem mem_allFreeTexts {text : FreeText} {es : List Expression} :
    text ∈ allFreeTexts es ↔ ∃ e ∈ es, text ∈ e.freeTexts := by
  induction es with
  | nil => simp [allFreeTexts]
  | cons e es ih => simp [allFreeTexts, ih]

/-- Free text of an expression is free text of some operand. -/
theorem ofOperands_freeTexts (P : FreeText → Prop) : OfOperands fun e => ∀ text ∈ e.freeTexts, P text := by
  intro connective e
  cases joined_or_alone connective e with
  | inl joined =>
    obtain ⟨ds, rfl⟩ := joined
    simp only [freeTexts, mem_allFreeTexts, operands_compound]
    constructor
    · exact fun all d member text inside => all text ⟨d, member, inside⟩
    · rintro all text ⟨d, member, inside⟩
      exact all d member text inside
  | inr alone => simp [operands_eq_singleton alone]

/-- No free text in the expression stands for anything. -/
def Settled (rules : LeafRules) (e : Expression) : Prop :=
  ∀ text ∈ e.freeTexts, rules.license text = Option.none

theorem ofOperands_settled : OfOperands (Settled rules) :=
  ofOperands_freeTexts _

/-! ## Normalizing -/

theorem normalizeAll_eq_mapM (es : List Expression) :
    normalizeAll rules strict es = es.mapM (normalize rules strict) := by
  induction es with
  | nil => rfl
  | cons e es ih =>
    rw [Outcome.mapM_cons, ← ih]
    rfl

/-- Whatever holds of the leaves that come out holds of the whole, and joining keeps canonical order. -/
theorem holds_of_normalize {P Q : Expression → Prop} (closed : OfOperands P) (closed' : OfOperands Q)
    (leaf : ∀ d r, (∀ connective es, d ≠ .compound connective es) → Q d →
      d.normalize rules strict = .ok r → r.Canonical ∧ P r) {e r : Expression} (canonical : e.Canonical)
    (start : Q e) (normalized : e.normalize rules strict = .ok r) : r.Canonical ∧ P r := by
  -- Below a compound expression everything is canonical and has `Q` again, so the hypotheses pass down.
  induction e using Expression.induction generalizing r with
  | single e single => exact leaf e r single start normalized
  | compound connective es ih =>
    obtain ⟨several, -, parts, -⟩ := canonical_compound_iff.mp canonical
    rw [normalize, normalizeAll_eq_mapM] at normalized
    obtain ⟨found, ran, rfl⟩ := Outcome.map_eq_ok.mp normalized
    have all (d : Expression) (member : d ∈ found) : d.Canonical ∧ P d := by
      obtain ⟨c, inside, same⟩ := Outcome.exists_of_mem_mapM ran member
      exact ih c inside (parts c inside) (closed'.compound.mp start c inside) same
    -- There are operands, and so there is something to join.
    obtain ⟨first, inside⟩ := List.exists_mem_of_length_pos (Nat.lt_of_lt_of_le Nat.two_pos several)
    obtain ⟨d, member, -⟩ := Outcome.exists_mem_of_mapM ran inside
    obtain ⟨joined, join⟩ := Option.isSome_iff_exists.mp (combine?_isSome connective member (all d member).1)
    rw [join, Option.getD_some]
    exact ⟨canonical_of_combine? (fun d member => (all d member).1) join,
      closed.of_combine? (fun d member => (all d member).1) (fun d member => (all d member).2) join⟩

theorem normalize_simple_eq_self {term : SimpleTerm}
    (settled : ∀ text, term.freeText? = some text → rules.license text = Option.none) :
    term.normalize rules false = .ok (.simple term) := by
  unfold SimpleTerm.normalize
  split
  next => rfl
  next text free =>
    have nothing : rules.license text = Option.none := settled text (by simp [SimpleTerm.freeText?, free])
    simp [nothing]

/-- Where no free text stands for anything, and exceptions are kept, nothing changes. -/
theorem normalize_eq_self {e : Expression} (exceptions : rules.exception = id) (canonical : e.Canonical)
    (settled : e.Settled rules) : e.normalize rules false = .ok e := by
  induction e using Expression.induction with
  | single e single =>
    match e with
    | .compound connective es => exact absurd rfl (single connective es)
    | .sentinel _ => rfl
    | .simple term => exact normalize_simple_eq_self (by simpa [Settled, freeTexts] using settled)
    | .withException term exception =>
      have same : term.normalize rules false = .ok (.simple term) :=
        normalize_simple_eq_self (by simpa [Settled, freeTexts] using settled)
      simp [normalize, same, exceptions, Except.map]
  | compound connective es ih =>
    obtain ⟨-, -, parts, -⟩ := canonical_compound_iff.mp canonical
    have operands (d : Expression) (member : d ∈ es) : d.normalize rules false = .ok (id d) :=
      ih d member (parts d member) (ofOperands_settled.compound.mp settled d member)
    rw [normalize, normalizeAll_eq_mapM, Outcome.mapM_eq_map operands, List.map_id]
    show Except.ok ((combine? connective es).getD _) = _
    rw [combine?_operands canonical, Option.getD_some]

/-- Unless free text has to be resolved, normalization succeeds. -/
theorem exists_normalize (rules : LeafRules) (e : Expression) : ∃ r, e.normalize rules false = .ok r := by
  have leaf (term : SimpleTerm) : ∃ r, term.normalize rules false = .ok r := by
    unfold SimpleTerm.normalize
    split
    next => exact ⟨_, rfl⟩
    next text _ =>
      split
      next => exact ⟨_, rfl⟩
      next => exact ⟨_, rfl⟩
      next => exact ⟨_, rfl⟩
  induction e using Expression.induction with
  | single e single =>
    match e with
    | .compound connective es => exact absurd rfl (single connective es)
    | .sentinel _ => exact ⟨_, rfl⟩
    | .simple term => exact leaf term
    | .withException term exception =>
      obtain ⟨found, same⟩ := leaf term
      exact ⟨_, Outcome.map_eq_ok.mpr ⟨found, same, rfl⟩⟩
  | compound connective es ih =>
    obtain ⟨found, ran⟩ := Outcome.exists_mapM_iff.mpr ih
    rw [← normalizeAll_eq_mapM] at ran
    exact ⟨_, Outcome.map_eq_ok.mpr ⟨found, ran, rfl⟩⟩

end Licensing.Expression
