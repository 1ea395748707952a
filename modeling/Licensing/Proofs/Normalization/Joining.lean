import Licensing.Proofs.Expression.Semilattice
import Licensing.Proofs.Normalization.Structural

/-! # Normalizing what was joined

Joining merges operands before they are normalized, and what they become is merged again.  Neither loses an
operand: under either connective, a normal form has the operands of the normal forms of its operands
(`mem_operands_of_normalize`).  So normalization commutes with joining.

* `Normalizes` — normalization that may keep a compound expression whose operands do not change.
* `normalize_combine` — normal forms can be joined before or after.
-/

namespace Licensing

/-- What the rules put in place of free text is in canonical form. -/
def LeafRules.Canonical (rules : LeafRules) : Prop :=
  ∀ text e, rules.license text = some e → e.Canonical

/-! ## Terms -/

/-- What a term can become. -/
inductive SimpleTerm.Becomes (rules : LeafRules) (term : SimpleTerm) : Expression → Prop
  | listed {id : String} (license : term.license = .standard id) : Becomes rules term (.simple term)
  | kept {text : FreeText} (license : term.license = .free text) (nothing : rules.license text = none) :
      Becomes rules term (.simple term)
  | replaced {text : FreeText} {found : SimpleTerm} (license : term.license = .free text)
      (stands : rules.license text = some (.simple found)) :
      Becomes rules term (.simple (term.withLicense found.license))
  | expanded {text : FreeText} {found : Expression} (license : term.license = .free text)
      (stands : rules.license text = some found) (other : ∀ simple, found ≠ .simple simple) :
      Becomes rules term found

theorem SimpleTerm.becomes_of_normalize {rules : LeafRules} {strict : Bool} {term : SimpleTerm}
    {r : Expression} (normalized : term.normalize rules strict = .ok r) : term.Becomes rules r := by
  unfold SimpleTerm.normalize at normalized
  split at normalized
  next id standard =>
    cases normalized
    exact .listed standard
  next text free =>
    split at normalized
    next nothing =>
      split at normalized
      next => cases normalized
      next =>
        cases normalized
        exact .kept free nothing
    next found stands =>
      cases normalized
      exact .replaced free stands
    next found other stands =>
      cases normalized
      exact .expanded free stands other

namespace Expression

variable {rules : LeafRules} {strict : Bool} {connective : Connective}

/-! ## Canonical results -/

theorem canonical_of_becomes (sound : rules.Canonical) {term : SimpleTerm} {r : Expression}
    (becomes : term.Becomes rules r) : r.Canonical := by
  cases becomes with
  | listed | kept | replaced => simp [Canonical]
  | @expanded text _ _ stands => exact sound text r stands

theorem canonical_of_normalize (sound : rules.Canonical) {e r : Expression} (canonical : e.Canonical)
    (normalized : e.normalize rules strict = .ok r) : r.Canonical := by
  have leaf (d r : Expression) (single : ∀ connective es, d ≠ .compound connective es) (_ : True)
      (normalized : d.normalize rules strict = .ok r) : r.Canonical ∧ True := by
    match d with
    | .compound connective es => exact absurd rfl (single connective es)
    | .sentinel _ =>
      cases normalized
      simp [Canonical]
    | .simple _ => exact ⟨canonical_of_becomes sound (SimpleTerm.becomes_of_normalize normalized), trivial⟩
    | .withException _ _ =>
      obtain ⟨found, -, rfl⟩ := Outcome.map_eq_ok.mp normalized
      cases found <;> simp [Canonical]
  exact (holds_of_normalize (P := fun _ => True) (Q := fun _ => True) (fun _ _ => by simp)
    (fun _ _ => by simp) leaf canonical trivial normalized).1

/-! ## Operands -/

/-- A compound expression has a normal form exactly if its operands have. -/
theorem normalize_compound_eq_ok_iff (sound : rules.Canonical) {es : List Expression}
    (canonical : (compound connective es).Canonical) {r : Expression} :
    (compound connective es).normalize rules strict = .ok r ↔
      ∃ found, es.mapM (normalize rules strict) = .ok found ∧ joined connective found = .ok r := by
  obtain ⟨several, -, parts, -⟩ := canonical_compound_iff.mp canonical
  rw [normalize, normalizeAll_eq_mapM]
  constructor
  · intro normalized
    obtain ⟨found, ran, rfl⟩ := Outcome.map_eq_ok.mp normalized
    obtain ⟨first, inside⟩ := List.exists_mem_of_length_pos (Nat.lt_of_lt_of_le Nat.two_pos several)
    obtain ⟨d, member, same⟩ := Outcome.exists_mem_of_mapM ran inside
    have canonical' := canonical_of_normalize sound (parts first inside) same
    obtain ⟨whole, made⟩ := Option.isSome_iff_exists.mp (combine?_isSome connective member canonical')
    exact ⟨found, ran, by rw [joined_eq_ok, made, Option.getD_some]⟩
  · rintro ⟨found, ran, made⟩
    exact Outcome.map_eq_ok.mpr ⟨found, ran, by rw [joined_eq_ok.mp made, Option.getD_some]⟩

/-- A normal form has the operands of the normal forms of the operands. -/
theorem mem_operands_of_normalize (sound : rules.Canonical) (connective : Connective) {e r : Expression}
    (canonical : e.Canonical) (normalized : e.normalize rules strict = .ok r) (d : Expression) :
    d ∈ r.operands connective ↔
      ∃ a ∈ e.operands connective, ∃ n, a.normalize rules strict = .ok n ∧ d ∈ n.operands connective := by
  cases joined_or_alone connective e with
  | inl compound =>
    obtain ⟨es, rfl⟩ := compound
    obtain ⟨found, ran, made⟩ := (normalize_compound_eq_ok_iff sound canonical).mp normalized
    have parts (n : Expression) (member : n ∈ found) : n.Canonical := by
      obtain ⟨a, inside, same⟩ := Outcome.exists_of_mem_mapM ran member
      exact canonical_of_normalize sound ((canonical_compound_iff.mp canonical).2.2.1 a inside) same
    rw [mem_operands_of_combine? parts (joined_eq_ok.mp made), operands_compound]
    constructor
    · rintro ⟨n, member, operand⟩
      obtain ⟨a, inside, same⟩ := Outcome.exists_of_mem_mapM ran member
      exact ⟨a, inside, n, same, operand⟩
    · rintro ⟨a, inside, n, same, operand⟩
      obtain ⟨n', member, same'⟩ := Outcome.exists_mem_of_mapM ran inside
      cases same.symm.trans same'
      exact ⟨n, member, operand⟩
  | inr alone => simp [operands_eq_singleton alone, normalized]

theorem exists_normalize_iff_operands (sound : rules.Canonical) (connective : Connective) {e : Expression}
    (canonical : e.Canonical) :
    (∃ r, e.normalize rules strict = .ok r) ↔
      ∀ d ∈ e.operands connective, ∃ r, d.normalize rules strict = .ok r := by
  cases joined_or_alone connective e with
  | inl compound =>
    obtain ⟨es, rfl⟩ := compound
    rw [operands_compound, ← Outcome.exists_mapM_iff]
    constructor
    · rintro ⟨r, normalized⟩
      obtain ⟨found, ran, -⟩ := (normalize_compound_eq_ok_iff sound canonical).mp normalized
      exact ⟨found, ran⟩
    · rintro ⟨found, ran⟩
      rw [← normalizeAll_eq_mapM] at ran
      exact ⟨_, Outcome.map_eq_ok.mpr ⟨found, ran, rfl⟩⟩
  | inr alone => simp [operands_eq_singleton alone]

/-- What was joined has a normal form exactly if both parts have, and then it is made of theirs. -/
theorem normalize_combine_eq_ok_iff (sound : rules.Canonical) {a b : Expression} (left : a.Canonical)
    (right : b.Canonical) {r : Expression} :
    (combine connective a [b]).normalize rules strict = .ok r ↔
      ∃ x y, a.normalize rules strict = .ok x ∧ b.normalize rules strict = .ok y ∧
        r = combine connective x [y] := by
  have whole : (combine connective a [b]).Canonical := left.combine (by simpa using right)
  have made {x y r : Expression} (first : a.normalize rules strict = .ok x)
      (second : b.normalize rules strict = .ok y)
      (normalized : (combine connective a [b]).normalize rules strict = .ok r) :
      r = combine connective x [y] := by
    have canonicalX := canonical_of_normalize sound left first
    have canonicalY := canonical_of_normalize sound right second
    -- Both sides have the operands that the operands of `a` and of `b` become.
    refine Canonical.ext_operands connective (canonical_of_normalize sound whole normalized)
      (canonicalX.combine (by simpa using canonicalY)) fun d => ?_
    simp only [mem_operands_of_normalize sound connective whole normalized,
      left.mem_operands_combine right, canonicalX.mem_operands_combine canonicalY,
      mem_operands_of_normalize sound connective left first,
      mem_operands_of_normalize sound connective right second, or_and_right, exists_or]
  have parts : (∃ r, (combine connective a [b]).normalize rules strict = .ok r) ↔
      (∃ x, a.normalize rules strict = .ok x) ∧ ∃ y, b.normalize rules strict = .ok y := by
    simp only [exists_normalize_iff_operands sound connective whole, left.mem_operands_combine right,
      exists_normalize_iff_operands sound connective left,
      exists_normalize_iff_operands sound connective right, or_imp, forall_and]
  constructor
  · intro normalized
    obtain ⟨⟨x, first⟩, y, second⟩ := parts.mp ⟨r, normalized⟩
    exact ⟨x, y, first, second, made first second normalized⟩
  · rintro ⟨x, y, first, second, rfl⟩
    obtain ⟨r, normalized⟩ := parts.mpr ⟨⟨x, first⟩, y, second⟩
    rwa [← made first second normalized]

/-! ## Keeping what does not change -/

/-- A normalization that may keep a compound expression whose operands do not change.  Whether it does is left
open at every node: an operand can be equal to what it was and still be another object. -/
inductive Normalizes (rules : LeafRules) (strict : Bool) : Expression → Expression → Prop
  | single {e r : Expression} (single : ∀ connective es, e ≠ .compound connective es)
      (normalized : e.normalize rules strict = .ok r) : Normalizes rules strict e r
  | kept {connective : Connective} {es : List Expression} (same : ∀ d ∈ es, Normalizes rules strict d d) :
      Normalizes rules strict (.compound connective es) (.compound connective es)
  | rebuilt {connective : Connective} {es : List Expression} {image : Expression → Expression}
      {r : Expression} (operands : ∀ d ∈ es, Normalizes rules strict d (image d))
      (made : joined connective (es.map image) = .ok r) :
      Normalizes rules strict (.compound connective es) r

/-- Keeping an expression and joining its operands again come to the same. -/
theorem normalizes_iff (sound : rules.Canonical) {e r : Expression} (canonical : e.Canonical) :
    Normalizes rules strict e r ↔ e.normalize rules strict = .ok r := by
  constructor
  · intro normalizes
    induction normalizes with
    | single _ normalized => exact normalized
    | @kept connective es _ ih =>
      obtain ⟨-, -, parts, -⟩ := canonical_compound_iff.mp canonical
      have ran : es.mapM (normalize rules strict) = .ok (es.map id) :=
        Outcome.mapM_eq_map fun d member => ih d member (parts d member)
      rw [List.map_id] at ran
      exact (normalize_compound_eq_ok_iff sound canonical).mpr
        ⟨es, ran, joined_eq_ok.mpr (combine?_operands canonical)⟩
    | @rebuilt connective es image r _ made ih =>
      obtain ⟨-, -, parts, -⟩ := canonical_compound_iff.mp canonical
      exact (normalize_compound_eq_ok_iff sound canonical).mpr
        ⟨es.map image, Outcome.mapM_eq_map fun d member => ih d member (parts d member), made⟩
  · intro normalized
    induction e using Expression.induction generalizing r with
    | single e single => exact .single single normalized
    | compound connective es ih =>
      obtain ⟨-, -, parts, -⟩ := canonical_compound_iff.mp canonical
      obtain ⟨found, ran, made⟩ := (normalize_compound_eq_ok_iff sound canonical).mp normalized
      let image (d : Expression) : Expression := (d.normalize rules strict).toOption.getD d
      have becomes (d : Expression) (member : d ∈ es) : d.normalize rules strict = .ok (image d) := by
        obtain ⟨n, -, same⟩ := Outcome.exists_mem_of_mapM ran member
        simp [image, same, Except.toOption]
      cases ran.symm.trans (Outcome.mapM_eq_map becomes)
      exact .rebuilt (fun d member => ih d member (parts d member) (becomes d member)) made

/-! ## The main statement -/

/-- Normal forms can be joined before or after, by either connective.  Leniently there always are normal forms;
strictly, what was joined has one exactly if both parts have.  Nothing of this depends on what is kept on the way. -/
theorem normalize_combine (sound : rules.Canonical) (connective : Connective) {a b : Expression}
    (left : a.Canonical) (right : b.Canonical) :
    (∃ x y, a.normalize rules false = .ok x ∧ b.normalize rules false = .ok y ∧
      (combine connective a [b]).normalize rules false = .ok (combine connective x [y])) ∧
    ∀ strict r, Normalizes rules strict (combine connective a [b]) r ↔
      ∃ x y, Normalizes rules strict a x ∧ Normalizes rules strict b y ∧ r = combine connective x [y] := by
  constructor
  · obtain ⟨x, first⟩ := exists_normalize rules a
    obtain ⟨y, second⟩ := exists_normalize rules b
    exact ⟨x, y, first, second, (normalize_combine_eq_ok_iff sound left right).mpr ⟨x, y, first, second, rfl⟩⟩
  · intro strict r
    have whole : (combine connective a [b]).Canonical := left.combine (by simpa using right)
    rw [normalizes_iff sound whole, normalize_combine_eq_ok_iff sound left right]
    simp only [normalizes_iff sound left, normalizes_iff sound right]

/-- Two titles that stand for several licenses, one of them for a part of the other: what is joined has three
operands before and after, but not the same. -/
theorem normalize_combine_of_merged_operands :
    let mit : Expression := .just (.standard "MIT")
    let isc : Expression := .just (.standard "ISC")
    let q : Expression := .just (.free ⟨"Q", []⟩)
    let x : Expression := .just (.free ⟨"X", []⟩)
    let y : Expression := .just (.free ⟨"Y", []⟩)
    let rules : LeafRules :=
      ⟨fun text => if text.title = "X" then some (mit.and isc) else if text.title = "Y" then some mit else .none, id⟩
    rules.Canonical ∧ (q.and x).Canonical ∧ (x.and y).Canonical ∧
      (q.and x).and (x.and y) = .compound .and [q, x, y] ∧
      (q.and x).normalize rules false = .ok (.compound .and [isc, mit, q]) ∧
      (x.and y).normalize rules false = .ok (.compound .and [isc, mit]) ∧
      ((q.and x).and (x.and y)).normalize rules false = .ok (.compound .and [isc, mit, q]) := by
  intro mit isc q x y rules
  have single (license : License) : (Expression.just license).Canonical := canonical_of_single (by simp)
  have sound : rules.Canonical := by
    intro text e stands
    simp only [rules] at stands
    split at stands
    next => exact Option.some.inj stands ▸ (single _).combine (by simpa using single _)
    next =>
      split at stands
      next => exact Option.some.inj stands ▸ single _
      next => cases stands
  have left : (q.and x).Canonical := (single _).combine (by simpa using single _)
  have right : (x.and y).Canonical := (single _).combine (by simpa using single _)
  obtain ⟨⟨first, second, forFirst, forSecond, forBoth⟩, -⟩ := normalize_combine sound .and left right
  have former : (q.and x).normalize rules false = .ok (.compound .and [isc, mit, q]) :=
    Outcome.toOption_eq_some.mp (by decide +kernel)
  have latter : (x.and y).normalize rules false = .ok (.compound .and [isc, mit]) :=
    Outcome.toOption_eq_some.mp (by decide +kernel)
  cases former.symm.trans forFirst
  cases latter.symm.trans forSecond
  refine ⟨sound, left, right, by decide +kernel, former, latter, ?_⟩
  have merged : combine .and (.compound .and [isc, mit, q]) [.compound .and [isc, mit]] =
    .compound .and [isc, mit, q] := by decide +kernel
  exact merged ▸ forBoth

end Expression

end Licensing
