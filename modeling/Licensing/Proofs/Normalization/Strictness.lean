import Licensing.Proofs.Normalization.Remainder

/-! # Strict normalization

Strictly, the first free text that stands for nothing is an error; without such free text nothing is strict
about normalization (`normalize_strict`).  So where a strict normalization succeeds, everything stands for
something.  Still free text can be left: an exception belongs to a simple term, and a license that carries one
stays as it is if it stands for anything else.

* `LeafRules.strictly` — what strictness adds to an outcome.
* `normalize_strict_agrees` — strict against lenient normalization.
* `normalize_strict_remainder` — the free text that a strict normalization leaves.
-/

namespace Licensing

namespace LeafRules

variable {α β : Type} {rules : LeafRules}

/-- The error of the first free text that stands for nothing. -/
def unresolved? (rules : LeafRules) (texts : List FreeText) : Option Unresolved :=
  (texts.find? fun text => (rules.license text).isNone).map fun text => ⟨text.title, []⟩

/-- An outcome, unless some free text stands for nothing. -/
def strictly (rules : LeafRules) (texts : List FreeText) (outcome : Except Unresolved α) : Except Unresolved α :=
  match rules.unresolved? texts with
  | some fault => .error fault
  | none => outcome

theorem unresolved?_append (texts more : List FreeText) :
    rules.unresolved? (texts ++ more) = (rules.unresolved? texts).or (rules.unresolved? more) := by
  simp [unresolved?, List.find?_append, Option.map_or]

theorem map_strictly (f : α → β) (texts : List FreeText) (outcome : Except Unresolved α) :
    (rules.strictly texts outcome).map f = rules.strictly texts (outcome.map f) := by
  unfold strictly
  cases rules.unresolved? texts <;> rfl

/-- Outcomes one after the other, of which the first cannot fail otherwise. -/
theorem strictly_bind {γ : Type} (texts more : List FreeText) (a : α) (outcome : Except Unresolved β)
    (next : α → β → Except Unresolved γ) :
    (rules.strictly texts (.ok a) >>= fun a => rules.strictly more outcome >>= next a) =
      rules.strictly (texts ++ more) (outcome >>= next a) := by
  unfold strictly
  rw [unresolved?_append]
  cases rules.unresolved? texts with
  | some fault => rfl
  | none => cases rules.unresolved? more <;> rfl

theorem strictly_cases (texts : List FreeText) (outcome : Except Unresolved α) :
    (∃ text ∈ texts, rules.license text = none ∧ rules.strictly texts outcome = .error ⟨text.title, []⟩) ∨
      (∀ text ∈ texts, ∃ found, rules.license text = some found) ∧ rules.strictly texts outcome = outcome := by
  unfold strictly unresolved?
  cases first : texts.find? fun text => (rules.license text).isNone with
  | some text =>
    exact .inl ⟨text, List.mem_of_find?_eq_some first, by simpa using List.find?_some first, rfl⟩
  | none =>
    refine .inr ⟨fun text member => Option.isSome_iff_exists.mp ?_, rfl⟩
    simpa [Option.isSome_iff_ne_none] using List.find?_eq_none.mp first text member

end LeafRules

theorem SimpleTerm.normalize_strict (rules : LeafRules) (term : SimpleTerm) :
    term.normalize rules true = rules.strictly term.freeText?.toList (term.normalize rules false) := by
  unfold SimpleTerm.normalize SimpleTerm.freeText? LeafRules.strictly LeafRules.unresolved?
  cases term.license with
  | standard id => rfl
  | free text =>
    cases stands : rules.license text with
    | none => simp [stands]
    | some found => cases found <;> simp [stands]

namespace Expression

variable {rules : LeafRules}

mutual

/-- Strictness adds an error for free text that stands for nothing, and changes nothing else. -/
theorem normalize_strict (rules : LeafRules) (e : Expression) :
    e.normalize rules true = rules.strictly e.freeTexts (e.normalize rules false) := by
  match e with
  | .sentinel _ => rfl
  | .simple term => exact term.normalize_strict rules
  | .withException term exception =>
    rw [normalize, normalize, term.normalize_strict, LeafRules.map_strictly, freeTexts]
  | .compound connective es =>
    rw [normalize, normalize, normalizeAll_strict, LeafRules.map_strictly, freeTexts]

theorem normalizeAll_strict (rules : LeafRules) (es : List Expression) :
    normalizeAll rules true es = rules.strictly (allFreeTexts es) (normalizeAll rules false es) := by
  match es with
  | [] => rfl
  | e :: es =>
    -- Leniently nothing fails, so strictness adds the first failure.
    obtain ⟨n, first⟩ := exists_normalize rules e
    rw [normalizeAll, normalizeAll, normalize_strict rules e, normalizeAll_strict rules es, first, allFreeTexts]
    exact LeafRules.strictly_bind ..

end

/-! ## Strict and lenient -/

/-- Some free text in the expression, at whatever depth, stands for nothing. -/
def Unresolvable (rules : LeafRules) (e : Expression) : Prop :=
  ∃ text, e.Mentions (.free text) ∧ rules.license text = Option.none

theorem unresolvable_iff {e : Expression} :
    e.Unresolvable rules ↔ ∃ text ∈ e.freeTexts, rules.license text = Option.none := by
  simp only [Unresolvable, mem_freeTexts_iff]

theorem unresolvable_compound {connective : Connective} {es : List Expression} :
    (compound connective es).Unresolvable rules ↔ ∃ d ∈ es, d.Unresolvable rules := by
  simp only [Unresolvable, mentions_compound]
  constructor
  · rintro ⟨text, ⟨d, member, mentions⟩, nothing⟩
    exact ⟨d, member, text, mentions, nothing⟩
  · rintro ⟨d, member, text, mentions, nothing⟩
    exact ⟨text, ⟨d, member, mentions⟩, nothing⟩

theorem normalize_strict_cases (rules : LeafRules) (e : Expression) :
    (e.Unresolvable rules ∧ ∃ fault, e.normalize rules true = .error fault) ∨
      ¬ e.Unresolvable rules ∧ e.normalize rules true = e.normalize rules false := by
  rw [normalize_strict, unresolvable_iff]
  obtain ⟨text, member, nothing, failed⟩ | ⟨resolved, same⟩ :=
    LeafRules.strictly_cases e.freeTexts (e.normalize rules false)
  · exact .inl ⟨⟨text, member, nothing⟩, _, failed⟩
  · refine .inr ⟨?_, same⟩
    rintro ⟨text, member, nothing⟩
    obtain ⟨found, stands⟩ := resolved text member
    cases nothing.symm.trans stands

theorem normalize_strict_eq_ok_iff {e r : Expression} :
    e.normalize rules true = .ok r ↔ ¬ e.Unresolvable rules ∧ e.normalize rules false = .ok r := by
  obtain ⟨unresolvable, fault, failed⟩ | ⟨resolved, same⟩ := normalize_strict_cases rules e
  · simp [unresolvable, failed]
  · simp [resolved, same]

/-- Strictness looks at all operands, whatever is kept on the way. -/
theorem normalizes_strict_iff {e r : Expression} :
    Normalizes rules true e r ↔ ¬ e.Unresolvable rules ∧ Normalizes rules false e r := by
  constructor
  · intro normalizes
    -- A node that is kept has been looked through all the same: its operands were normalized before.
    induction normalizes with
    | single single normalized =>
      obtain ⟨resolved, lenient⟩ := normalize_strict_eq_ok_iff.mp normalized
      exact ⟨resolved, .single single lenient⟩
    | kept _ ih =>
      rw [unresolvable_compound]
      refine ⟨?_, .kept fun d member => (ih d member).2⟩
      rintro ⟨d, member, unresolvable⟩
      exact (ih d member).1 unresolvable
    | rebuilt _ made ih =>
      rw [unresolvable_compound]
      refine ⟨?_, .rebuilt (fun d member => (ih d member).2) made⟩
      rintro ⟨d, member, unresolvable⟩
      exact (ih d member).1 unresolvable
  · rintro ⟨resolved, normalizes⟩
    induction normalizes with
    | single single normalized => exact .single single (normalize_strict_eq_ok_iff.mpr ⟨resolved, normalized⟩)
    | kept _ ih =>
      rw [unresolvable_compound] at resolved
      exact .kept fun d member => ih d member fun unresolvable => resolved ⟨d, member, unresolvable⟩
    | rebuilt _ made ih =>
      rw [unresolvable_compound] at resolved
      exact .rebuilt (fun d member => ih d member fun unresolvable => resolved ⟨d, member, unresolvable⟩) made

/-- Strict normalization fails exactly if some free text stands for nothing, and else comes to what lenient
normalization does.  This does not depend on what is kept on the way. -/
theorem normalize_strict_agrees (rules : LeafRules) (e : Expression) :
    ((∃ fault, e.normalize rules true = .error fault) ↔ e.Unresolvable rules) ∧
      (¬ e.Unresolvable rules → ∃ r, e.normalize rules true = .ok r ∧ e.normalize rules false = .ok r) ∧
      ∀ r, Normalizes rules true e r ↔ ¬ e.Unresolvable rules ∧ Normalizes rules false e r := by
  obtain ⟨r, lenient⟩ := exists_normalize rules e
  refine ⟨?_, fun resolved => ?_, fun r => normalizes_strict_iff⟩
  · obtain ⟨unresolvable, failed⟩ | ⟨resolved, same⟩ := normalize_strict_cases rules e
    · exact iff_of_true failed unresolvable
    · refine iff_of_false ?_ resolved
      rintro ⟨fault, failed⟩
      cases failed.symm.trans (same.trans lenient)
  · exact ⟨r, normalize_strict_eq_ok_iff.mpr ⟨resolved, lenient⟩, lenient⟩

/-! ## What is left -/

/-- The free text of a term that carries an exception and stands for something that cannot carry one. -/
def Unattachable (rules : LeafRules) (e : Expression) (text : FreeText) : Prop :=
  ∃ term exception found, .withException term exception ∈ e.nodes ∧ term.license = .free text ∧
    rules.license text = some found ∧ ∀ other, found ≠ .simple other

/-- In what replaces a resolved term no free text is left. -/
theorem not_mentions_of_becomes {term : SimpleTerm} {n : Expression} {text : FreeText}
    (plain : ∀ text found, rules.license text = some found → found.freeTexts = [])
    (resolved : ∀ text, term.license = .free text → ∃ found, rules.license text = some found)
    (becomes : term.Becomes rules n) : ¬ n.Mentions (.free text) := by
  have none {old : FreeText} {found : Expression} (stands : rules.license old = some found) :
      ¬ found.Mentions (.free text) := by
    rw [← mem_freeTexts_iff, plain old found stands]
    exact List.not_mem_nil
  cases becomes with
  | listed license => simp [license]
  | kept license nothing =>
    obtain ⟨found, stands⟩ := resolved _ license
    cases nothing.symm.trans stands
  | @replaced _ found license stands =>
    have license' : (term.withLicense found.license).license = found.license := by cases term <;> rfl
    simpa [license'] using none stands
  | expanded license stands other => exact none stands

/-- A resolved term that carries an exception keeps its free text exactly if that stands for no simple term. -/
theorem mentions_of_normalize_attached {term : SimpleTerm} {exception : LicenseException} {n : Expression}
    {text : FreeText} (plain : ∀ text found, rules.license text = some found → found.freeTexts = [])
    (resolved : ∀ text, term.license = .free text → ∃ found, rules.license text = some found)
    (normalized : (withException term exception).normalize rules false = .ok n) :
    n.Mentions (.free text) ↔ term.license = .free text ∧
      ∃ found, rules.license text = some found ∧ ∀ other, found ≠ .simple other := by
  obtain ⟨replacing, same, rfl⟩ := Outcome.map_eq_ok.mp normalized
  have becomes := SimpleTerm.becomes_of_normalize same
  have none : ¬ replacing.Mentions (.free text) := not_mentions_of_becomes plain resolved becomes
  cases becomes with
  | listed license => simp [license]
  | kept license nothing =>
    obtain ⟨found, stands⟩ := resolved _ license
    cases nothing.symm.trans stands
  | @replaced old found license stands =>
    refine ⟨fun mentions => absurd (by simpa using mentions) none, ?_⟩
    rintro ⟨license', found', stands', other⟩
    cases license.symm.trans license'
    cases stands.symm.trans stands'
    exact absurd rfl (other found)
  | @expanded old found license stands other =>
    split
    next simple => exact absurd rfl (other simple)
    next =>
      rw [mentions_withException]
      refine ⟨fun license' => ⟨license', ?_⟩, And.left⟩
      cases license.symm.trans license'
      exact ⟨replacing, stands, other⟩

/-- Strict normalization, where free text stands for expressions without free text or for nothing: it fails at free
text that stands for nothing, or it leaves exactly the free text that carries an exception and stands for something
that cannot carry it. -/
theorem normalize_strict_remainder (sound : rules.Canonical)
    (plain : ∀ text found, rules.license text = some found → found.freeTexts = []) {e : Expression}
    (canonical : e.Canonical) :
    (∃ text ∈ e.freeTexts, rules.license text = .none ∧ e.normalize rules true = .error ⟨text.title, []⟩) ∨
      ∃ r, e.normalize rules true = .ok r ∧ ∀ text, text ∈ r.freeTexts ↔ e.Unattachable rules text := by
  rw [normalize_strict]
  obtain failed | ⟨resolved, same⟩ := LeafRules.strictly_cases e.freeTexts (e.normalize rules false)
  · exact .inl failed
  obtain ⟨r, normalized⟩ := exists_normalize rules e
  refine .inr ⟨r, same.trans normalized, fun text => ?_⟩
  -- Every term of the expression is resolved, because its free text is free text of the whole.
  have resolvedTerm {leaf : Expression} (below : leaf ∈ e.nodes) {license : License}
      (mentions : leaf.Mentions license) (text : FreeText) (free : license = .free text) :
      ∃ found, rules.license text = some found :=
    resolved text (mem_freeTexts_iff.mpr (free ▸ mentions.of_mem_nodes below))
  rw [mem_freeTexts_iff, mentions_of_normalize sound canonical normalized]
  constructor
  · rintro ⟨leaf, below, single, n, becomes, mentions⟩
    match leaf with
    | .compound connective es => exact absurd rfl (single connective es)
    | .sentinel _ =>
      cases becomes
      exact absurd mentions mentions_sentinel
    | .simple term =>
      exact absurd mentions (not_mentions_of_becomes plain (resolvedTerm below (mentions_simple.mpr rfl))
        (SimpleTerm.becomes_of_normalize becomes))
    | .withException term exception =>
      obtain ⟨free, found, stands, other⟩ := (mentions_of_normalize_attached plain
        (resolvedTerm below (mentions_withException.mpr rfl)) becomes).mp mentions
      exact ⟨term, exception, found, below, free, stands, other⟩
  · rintro ⟨term, exception, found, below, rest⟩
    obtain ⟨n, becomes⟩ := exists_normalize rules (.withException term exception)
    exact ⟨_, below, by simp, n, becomes, (mentions_of_normalize_attached plain
      (resolvedTerm below (mentions_withException.mpr rfl)) becomes).mpr ⟨rest.1, found, rest.2⟩⟩

/-- Every title stands for a choice, and no choice can carry an exception. -/
theorem normalize_strict_remainder_beside_choice :
    let choice : Expression := (just (.standard "ISC")).or (just (.standard "MIT"))
    let rules : LeafRules := ⟨fun _ => some choice, id⟩
    let x : Expression := .withException (.orLater (.free ⟨"X", []⟩)) (.standard "Classpath-exception-2.0")
    let e := x.and (.orLater (.free ⟨"Y", []⟩))
    (∀ text found, rules.license text = some found → found.Canonical ∧ found.freeTexts = []) ∧ e.Canonical ∧
      e.normalize rules true = .ok (x.and choice) ∧
      ∀ text, text ∈ (x.and choice).freeTexts ↔ e.Unattachable rules text := by
  intro choice rules x e
  have single (license : License) : (just license).Canonical := canonical_of_single (by simp)
  have stands (text : FreeText) (found : Expression) (stands : rules.license text = some found) :
      found.Canonical ∧ found.freeTexts = [] := by
    obtain rfl := Option.some.inj stands
    exact ⟨(single _).combine (by simpa using single _), by decide +kernel⟩
  have canonical : e.Canonical := by
    refine Canonical.combine ?_ ?_ <;> simp [x, Canonical]
  have becomes : e.normalize rules true = .ok (x.and choice) := Outcome.toOption_eq_some.mp (by decide +kernel)
  obtain ⟨text, -, nothing, -⟩ | ⟨r, normalized, left⟩ := normalize_strict_remainder
    (fun text found same => (stands text found same).1) (fun text found same => (stands text found same).2) canonical
  · cases nothing
  · cases becomes.symm.trans normalized
    exact ⟨stands, canonical, becomes, left⟩

/-- A title that stands for a choice of listed licenses: strictly there is no error, and still the title is left. -/
theorem normalize_strict_keeps_attached :
    let rules : LeafRules := ⟨fun _ => some ((just (.standard "ISC")).or (just (.standard "MIT"))), id⟩
    let e : Expression := .withException (.exact (.free ⟨"X", []⟩)) (.standard "Classpath-exception-2.0")
    (∀ text found, rules.license text = some found → found.Canonical ∧ found.freeTexts = []) ∧ e.Canonical ∧
      e.normalize rules true = .ok e ∧ e.freeTexts = [⟨"X", []⟩] := by
  intro rules e
  have single (license : License) : (just license).Canonical := canonical_of_single (by simp)
  refine ⟨fun text found stands => ?_, by simp [e, Canonical],
    Outcome.toOption_eq_some.mp (by decide +kernel), by decide +kernel⟩
  obtain rfl := Option.some.inj stands
  exact ⟨(single _).combine (by simpa using single _), by decide +kernel⟩

end Expression

end Licensing
