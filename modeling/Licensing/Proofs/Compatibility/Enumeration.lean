import Mathlib.Tactic.Choose
import Licensing.Proofs.Compatibility.Evaluation
import Licensing.Proofs.Equivalence.Bounds
import Licensing.Proofs.Expression.Enumeration

/-! # Evaluating, whatever the order of sets

Reasons quote the printed forms of expressions, and operands are evaluated in the order in which they are
printed.  `Yields` has the resolutions of an expression under all enumerations of operand sets.

* `Yields.verdict_unique` — the verdict is the same for all enumerations.
* `Yields.evaluates` — without ties, so are the reasons.
* `yields_of_tie` — with ties they are not.
-/

namespace Licensing

/-- What a decision says about an expression with the given printed form. -/
def Decision.resolveAs (decision : Decision) (printed : String) : Resolution :=
  let detail := if decision.reason.isEmpty then decision.verdict.name else decision.reason
  ⟨decision.verdict, [printed ++ ": " ++ detail]⟩

theorem Decision.resolve_eq (decision : Decision) (e : Expression) :
    decision.resolve e = decision.resolveAs e.text :=
  rfl

/-! ## Verdicts of several resolutions -/

theorem Resolution.foldl_join_verdict (connective : Connective) (start : Resolution)
    (rs : List Resolution) :
    (∀ r ∈ start :: rs, connective.Bounds (rs.foldl (join connective) start).verdict r.verdict) ∧
      ∃ r ∈ start :: rs, (rs.foldl (join connective) start).verdict = r.verdict := by
  induction rs generalizing start with
  | nil => simp [Connective.Bounds.refl]
  | cons next rs ih =>
    obtain ⟨bounds, r, member, same⟩ := ih (join connective start next)
    obtain ⟨left, right⟩ := bounds_join connective start next
    have first := bounds _ List.mem_cons_self
    rw [List.foldl_cons]
    constructor
    · intro r member
      simp only [List.mem_cons] at member
      obtain rfl | rfl | later := member
      · exact first.trans left
      · exact first.trans right
      · exact bounds r (.tail _ later)
    · cases List.mem_cons.mp member with
      | inr later => exact ⟨r, by simp [later], same⟩
      | inl joined =>
        rw [same, joined]
        obtain here | here := join_verdict connective start next
        · exact ⟨start, by simp, here⟩
        · exact ⟨next, by simp, here⟩

namespace Interpreter

variable {interpreter : Interpreter} {e : Expression} {r s : Resolution}

/-! ## Resolutions under all enumerations -/

/-- What is said about an expression that is no compound one after its expansion, given how both are
printed. -/
def ascribeAs (interpreter : Interpreter) (printed : String) (own : Expression)
    (ownPrinted : String) : Resolution :=
  match interpreter.covering? own with
  | some decision => decision.resolveAs ownPrinted
  | none => ⟨.unknown, ["No rules found for " ++ printed]⟩

theorem ascribe_eq (interpreter : Interpreter) (e own : Expression) :
    interpreter.ascribe e own = interpreter.ascribeAs e.text own own.text := by
  unfold ascribe ascribeAs
  cases interpreter.covering? own <;> rfl

theorem verdict_ascribeAs (printed printed' : String) (own : Expression)
    (ownPrinted ownPrinted' : String) :
    (interpreter.ascribeAs printed own ownPrinted).verdict =
      (interpreter.ascribeAs printed' own ownPrinted').verdict := by
  unfold ascribeAs
  split <;> rfl

/-- `Yields interpreter e r` — some enumerations of operands, at every depth of `e` and of what is evaluated
for it, give the resolution `r`. -/
inductive Yields (interpreter : Interpreter) : Expression → Resolution → Prop
  | listed {e : Expression} {decision : Decision} {printed : String}
      (entry : interpreter.policy.find? e = some decision) (prints : e.Prints printed) :
      Yields interpreter e (decision.resolveAs printed)
  | compound {e first : Expression} {connective : Connective} {es enumeration rest : List Expression}
      {shown : Expression → String} {results : Expression → Resolution}
      (unlisted : interpreter.policy.find? e = none)
      (expanded : interpreter.equivalence.expand e = .ok (.compound connective es))
      (perm : enumeration.Perm es) (prints : ∀ d ∈ es, d.Prints (shown d))
      (order : Expression.arranged shown enumeration = first :: rest)
      (operands : ∀ d ∈ es, Yields interpreter d (results d)) :
      Yields interpreter e ((rest.map results).foldl (Resolution.join connective) (results first))
  | alone {e own : Expression} {printed ownPrinted : String}
      (unlisted : interpreter.policy.find? e = none)
      (expanded : interpreter.equivalence.expand e = .ok own)
      (single : ∀ connective es, own ≠ .compound connective es) (prints : e.Prints printed)
      (ownPrints : own.Prints ownPrinted) :
      Yields interpreter e (interpreter.ascribeAs printed own ownPrinted)

theorem mem_arranged {first d : Expression} {es enumeration rest : List Expression}
    {shown : Expression → String} (perm : enumeration.Perm es)
    (order : Expression.arranged shown enumeration = first :: rest) : d ∈ first :: rest ↔ d ∈ es := by
  rw [← order, Expression.arranged, (List.mergeSort_perm _ _).mem_iff, perm.mem_iff]

/-- The verdict of a compound expression is the one of an operand, and bounds those of all others. -/
theorem compound_verdict (connective : Connective) (results : Expression → Resolution)
    {first : Expression} {es enumeration rest : List Expression} {shown : Expression → String}
    (perm : enumeration.Perm es) (order : Expression.arranged shown enumeration = first :: rest) :
    let whole := (rest.map results).foldl (Resolution.join connective) (results first)
    (∀ d ∈ es, connective.Bounds whole.verdict (results d).verdict) ∧
      ∃ d ∈ es, whole.verdict = (results d).verdict := by
  intro whole
  obtain ⟨bounds, r, member, same⟩ :=
    Resolution.foldl_join_verdict connective (results first) (rest.map results)
  rw [← List.map_cons] at bounds member
  constructor
  · intro d inside
    exact bounds _ (List.mem_map_of_mem ((mem_arranged perm order).mpr inside))
  · obtain ⟨d, listed, rfl⟩ := List.mem_map.mp member
    exact ⟨d, (mem_arranged perm order).mp listed, same⟩

theorem Yields.verdict_unique (left : Yields interpreter e r) (right : Yields interpreter e s) :
    r.verdict = s.verdict := by
  induction left generalizing s with
  | listed entry _ =>
    cases right with
    | listed entry' _ => rw [Option.some.inj (entry.symm.trans entry')]; rfl
    | compound unlisted _ _ _ _ _ | alone unlisted _ _ _ _ => simp [entry] at unlisted
  | @compound e first connective _ _ _ _ results unlisted expanded perm _ order _ ih =>
    cases right with
    | listed entry _ => simp [unlisted] at entry
    | @compound _ _ _ _ _ _ _ results' _ expanded' perm' _ order' operands' =>
      cases Except.ok.inj (expanded.symm.trans expanded')
      obtain ⟨bounds, d, inside, same⟩ := compound_verdict connective results perm order
      obtain ⟨bounds', d', inside', same'⟩ := compound_verdict connective results' perm' order'
      -- Each of the two verdicts is the one of an operand, which bounds the other.
      apply Verdict.eq_of_bounds
      · rw [same', ← ih d' inside' (operands' d' inside')]
        exact bounds d' inside'
      · rw [same, ih d inside (operands' d inside)]
        exact bounds' d inside
    | alone _ expanded' single _ _ =>
      exact absurd (Except.ok.inj (expanded'.symm.trans expanded)) (single _ _)
  | alone unlisted expanded single _ _ =>
    cases right with
    | listed entry _ => simp [unlisted] at entry
    | compound _ expanded' _ _ _ _ =>
      exact absurd (Except.ok.inj (expanded.symm.trans expanded')) (single _ _)
    | alone _ expanded' _ _ _ =>
      obtain rfl := Except.ok.inj (expanded.symm.trans expanded')
      exact verdict_ascribeAs _ _ _ _ _

/-! ## Evaluations are enumerations -/

mutual

theorem Evaluates.yields (tables : interpreter.equivalence.Canonical) {e : Expression}
    {r : Resolution} : Evaluates interpreter e r → e.Canonical → Yields interpreter e r
  | .listed entry, canonical => .listed entry (e.prints_text canonical)
  | @Evaluates.compound _ _ first connective rest start _ unlisted expanded head tail, canonical => by
    have whole := tables.expand canonical expanded
    obtain ⟨-, sorted, parts, -⟩ := Expression.canonical_compound_iff.mp whole
    have operands : ∀ d ∈ first :: rest,
        ∃ operand, Evaluates interpreter d operand ∧ Yields interpreter d operand := by
      intro d member
      cases List.mem_cons.mp member with
      | inl same => exact same ▸ ⟨start, head, head.yields tables (parts first List.mem_cons_self)⟩
      | inr later => exact tail.yields tables (fun d member => parts d (.tail _ member)) d later
    -- An enumeration assigns a resolution to each operand, by itself and not by its place.
    have inhabited : Nonempty Resolution := ⟨start⟩
    choose! results evaluated yielded using operands
    obtain rfl := head.unique (evaluated first List.mem_cons_self)
    rw [tail.eq_foldl fun d member => evaluated d (.tail _ member)]
    exact .compound unlisted expanded (.refl _) (fun d member => d.prints_text (parts d member))
      (Expression.arranged_of_sorted sorted fun _ _ => rfl) yielded
  | @Evaluates.alone _ _ own unlisted expanded single, canonical => by
    have whole := tables.expand canonical expanded
    have alone : ∀ connective es, own ≠ .compound connective es := by
      rintro connective es rfl
      cases es with
      | nil => exact whole.operands_ne_nil connective (Expression.operands_compound connective [])
      | cons first rest => exact single connective first rest rfl
    rw [ascribe_eq]
    exact .alone unlisted expanded alone (e.prints_text canonical) (own.prints_text whole)

theorem Folds.yields (tables : interpreter.equivalence.Canonical) {connective : Connective}
    {rest : List Expression} {start r : Resolution} : Folds interpreter connective start rest r →
    (∀ d ∈ rest, d.Canonical) →
    ∀ d ∈ rest, ∃ operand, Evaluates interpreter d operand ∧ Yields interpreter d operand
  | .done, _, _, member => nomatch member
  | .next head tail, parts, d, member => by
    cases List.mem_cons.mp member with
    | inl same => exact same ▸ ⟨_, head, head.yields tables (parts _ List.mem_cons_self)⟩
    | inr later => exact tail.yields tables (fun d member => parts d (.tail _ member)) d later

end

/-! ## Without ties -/

/-- What is evaluated or printed in an evaluation of `e`. -/
inductive Meets (interpreter : Interpreter) : Expression → Expression → Prop
  | itself {e : Expression} : Meets interpreter e e
  | expansion {e own : Expression} (unlisted : interpreter.policy.find? e = none)
      (expanded : interpreter.equivalence.expand e = .ok own) : Meets interpreter e own
  | operand {e d c : Expression} {connective : Connective} {es : List Expression}
      (unlisted : interpreter.policy.find? e = none)
      (expanded : interpreter.equivalence.expand e = .ok (.compound connective es))
      (member : d ∈ es) (below : Meets interpreter d c) : Meets interpreter e c

theorem Yields.evaluates (tables : interpreter.equivalence.Canonical)
    (yields : Yields interpreter e r) (canonical : e.Canonical)
    (untied : ∀ d, interpreter.Meets e d → d.Untied) : Evaluates interpreter e r := by
  induction yields with
  | @listed e decision printed entry prints =>
    rw [prints.eq_text canonical (untied e .itself), ← decision.resolve_eq]
    exact .listed entry
  | @compound e first connective es _ rest shown results unlisted expanded perm prints order _ ih =>
    have whole := tables.expand canonical expanded
    have own := untied _ (.expansion unlisted expanded)
    have parts := (Expression.canonical_compound_iff.mp whole).2.2.1
    have texts (d : Expression) (member : d ∈ es) : shown d = d.text :=
      (prints d member).eq_text (parts d member) (own.of_operand member)
    rw [Expression.arranged_eq whole own perm texts] at order
    subst order
    have known (d : Expression) (member : d ∈ first :: rest) : Evaluates interpreter d (results d) :=
      ih d member (parts d member) fun c below => untied c (.operand unlisted expanded member below)
    exact .compound unlisted expanded (known first List.mem_cons_self)
      (folds_of_results (fun d member => known d (.tail _ member)) connective _)
  | @alone e own _ _ unlisted expanded single prints ownPrints =>
    have whole := tables.expand canonical expanded
    rw [prints.eq_text canonical (untied e .itself),
      ownPrints.eq_text whole (untied own (.expansion unlisted expanded)), ← ascribe_eq]
    exact .alone unlisted expanded fun connective first rest => single connective (first :: rest)

section Printable

variable {registry : Registry}
variable (values : ∀ d ∈ interpreter.equivalence.values, d.Printable registry)

include values

theorem knowsLicense_of_mem_terms {root : Expression} (printable : root.Printable registry)
    {term : SimpleTerm} (member : term ∈ interpreter.equivalence.terms root) :
    registry.KnowsLicense term.license := by
  obtain ⟨d, inAll, inCarriers⟩ := List.mem_flatMap.mp member
  have whole : d.Printable registry := by
    cases List.mem_cons.mp inAll with
    | inl same => exact same ▸ printable
    | inr value => exact values d value
  obtain ⟨operand, inOperands, carries⟩ := List.mem_filterMap.mp inCarriers
  have part := (whole.of_mem_operands inOperands).legible
  split at carries
  next =>
    cases carries
    simpa [Expression.Legible] using part
  next =>
    cases carries
    simp only [Expression.Legible] at part
    exact part.1
  next => cases carries
  next => cases carries

theorem printable_of_meetable {root : Expression} (printable : root.Printable registry)
    {d : Expression} (met : d ∈ interpreter.equivalence.meetable root) : d.Printable registry := by
  have known (c : Expression) (member : c ∈ root :: interpreter.equivalence.values) :
      c.Printable registry := by
    cases List.mem_cons.mp member with
    | inl same => exact same ▸ printable
    | inr value => exact values c value
  obtain inAll | ⟨term, exception, other, rfl, inTerms, source⟩ :=
    Equivalence.mem_meetable.mp met
  · exact known d inAll
  · have source := (known _ source).legible
    simp only [Expression.Legible] at source
    refine ⟨by simp [Expression.Canonical], ?_⟩
    simp only [Expression.Legible]
    exact ⟨knowsLicense_of_mem_terms values printable inTerms, source.2⟩

theorem printable_of_expand {root own : Expression} (printable : root.Printable registry)
    (expanded : interpreter.equivalence.expand root = .ok own) : own.Printable registry := by
  have tables : interpreter.equivalence.Canonical := fun d member => (values d member).canonical
  have closed := Equivalence.closed_lookupAt tables printable.canonical
    (interpreter.equivalence.reach root) (interpreter.equivalence.depth root)
  have known : root ∈ interpreter.equivalence.meetable root :=
    Equivalence.mem_meetable.mpr (.inl (by simp))
  obtain rfl | ⟨terminals, inside, joined⟩ := Equivalence.expandWith_eq_ok closed (.inl known) expanded
  · exact printable
  · have ends (t : Expression) (member : t ∈ terminals) : t.Printable registry :=
      printable_of_meetable values printable (inside member)
    refine ⟨tables.expand printable.canonical expanded, ?_⟩
    refine (Expression.legible_iff_operands .or own).mpr fun p operand => ?_
    obtain ⟨t, member, inOperands⟩ :=
      (Expression.mem_operands_of_combine? (fun t member => (ends t member).canonical) joined p).mp
        operand
    exact ((ends t member).of_mem_operands inOperands).legible

/-- Where all names are read back as themselves, nothing that is met has a tie. -/
theorem untied_of_printable {d : Expression} (printable : e.Printable registry)
    (meets : interpreter.Meets e d) : d.Untied := by
  induction meets with
  | itself => exact printable.untied
  | expansion _ expanded => exact (printable_of_expand values printable expanded).untied
  | operand _ expanded member _ ih =>
    have whole := printable_of_expand values printable expanded
    exact ih (whole.of_mem_nodes (Expression.mem_nodes_of_operand member))

end Printable

/-- The verdict is the same for all enumerations.  Where no two different operands of a node agree in their
weight and their printed form, so are the printed form and the reasons. -/
theorem enumeration_irrelevant (tables : interpreter.equivalence.Canonical) (canonical : e.Canonical) :
    (∀ r s, Yields interpreter e r → Yields interpreter e s → r.verdict = s.verdict) ∧
    (e.Untied → ∀ printed, e.Prints printed ↔ printed = e.text) ∧
    ((∀ d, interpreter.Meets e d → d.Untied) → ∀ r, interpreter.evaluate e = .ok r →
      ∀ s, Yields interpreter e s ↔ s = r) := by
  refine ⟨fun _ _ left right => left.verdict_unique right, Expression.prints_iff canonical, ?_⟩
  intro untied r evaluated s
  have run := evaluates_of_evaluate evaluated
  constructor
  · intro yields
    exact (yields.evaluates tables canonical untied).unique run
  · rintro rfl
    exact run.yields tables canonical

/-- A license to be complied with, and a choice between versions of another one. -/
theorem enumeration_irrelevant_of_readable :
    let mit : Expression := .just (.standard "MIT")
    let a : Expression := .just (.standard "A-1")
    let later : Expression := .orLater (.standard "A-1")
    let interpreter : Interpreter :=
      ⟨⟨[[(later, [a, .just (.standard "A-2")])]]⟩,
        ⟨[(mit, ⟨.allow, "fine"⟩), (a, ⟨.reject, ""⟩)]⟩, [(mit, mit), (a, a)]⟩
    let e := mit.and later
    let r : Resolution := ⟨.unknown, ["REJECT: A-1: REJECT", "UNKNOWN: No rules found for A-2"]⟩
    interpreter.equivalence.Canonical ∧ e.Canonical ∧ (∀ d, interpreter.Meets e d → d.Untied) ∧
      interpreter.evaluate e = .ok r ∧ ∀ s, Yields interpreter e s ↔ s = r := by
  intro mit a later interpreter e r
  let registry : Registry := ⟨["MIT", "A-1", "A-2"].map fun id => { id := id }, []⟩
  have simple (term : SimpleTerm) (knows : registry.KnowsLicense term.license) :
      (Expression.simple term).Printable registry :=
    ⟨by simp [Expression.Canonical], by simpa only [Expression.Legible] using knows⟩
  have values : ∀ d ∈ interpreter.equivalence.values, d.Printable registry := by
    intro d member
    have known : d = a ∨ d = .just (.standard "A-2") := by
      simpa [interpreter, Equivalence.values, EquivalenceTable.values] using member
    obtain rfl | rfl := known
    · exact simple _ (by decide)
    · exact simple _ (by decide)
  have printable : e.Printable registry :=
    (simple _ (by decide)).combine (simple _ (by decide)) .and
  have tables : interpreter.equivalence.Canonical := fun d member => (values d member).canonical
  have untied (d : Expression) (meets : interpreter.Meets e d) : d.Untied :=
    untied_of_printable values printable meets
  have evaluated : interpreter.evaluate e = .ok r := Outcome.toOption_eq_some.mp (by decide +kernel)
  obtain ⟨-, -, same⟩ := enumeration_irrelevant tables printable.canonical
  exact ⟨tables, printable.canonical, untied, evaluated, same untied r evaluated⟩

/-! ## With ties -/

/-- Two tied operands are evaluated in the order in which they are enumerated. -/
theorem yields_of_tie {connective : Connective} {a b : Expression} {first second : Decision}
    (unlisted : interpreter.policy.find? (.compound connective [a, b]) = none)
    (expanded : interpreter.equivalence.expand (.compound connective [a, b]) =
      .ok (.compound connective [a, b]))
    (left : a.Canonical) (right : b.Canonical) (weights : a.weight = b.weight)
    (forms : a.text = b.text) (entry : interpreter.policy.find? a = some first)
    (entry' : interpreter.policy.find? b = some second) :
    Yields interpreter (.compound connective [a, b])
        (Resolution.join connective (first.resolve a) (second.resolve b)) ∧
      Yields interpreter (.compound connective [a, b])
        (Resolution.join connective (second.resolve b) (first.resolve a)) := by
  let results (d : Expression) : Resolution := if d = a then first.resolve a else second.resolve b
  have atA : results a = first.resolve a := by simp [results]
  have atB : results b = second.resolve b := by
    by_cases same : b = a
    · subst same
      rw [entry] at entry'
      simp [results, Option.some.inj entry']
    · simp [results, same]
  have prints : ∀ d ∈ [a, b], d.Prints d.text := by
    simpa using ⟨a.prints_text left, b.prints_text right⟩
  have operands : ∀ d ∈ [a, b], Yields interpreter d (results d) := by
    have onA := Yields.listed entry (a.prints_text left)
    have onB := Yields.listed entry' (b.prints_text right)
    rw [← Decision.resolve_eq] at onA onB
    simpa [atA, atB] using ⟨onA, onB⟩
  rw [← atA, ← atB]
  constructor
  · exact .compound unlisted expanded (.refl _) prints (Expression.arranged_of_tie weights forms)
      operands
  · exact .compound unlisted expanded (.swap ..) prints
      (Expression.arranged_of_tie weights.symm forms.symm) operands

/-- A listed exception and free text can have the same name; an `OR` and a license with later versions can
have the same printed form. -/
theorem enumeration_matters_for_ties :
    let listed : Expression := .withException (.exact (.standard "")) (.standard "")
    let free : Expression := .withException (.exact (.standard "")) (.free ⟨"", []⟩)
    let policy : Policy := ⟨[(listed, ⟨.allow, "listed"⟩), (free, ⟨.allow, "free text"⟩)]⟩
    let choice : Expression := Expression.or (.just (.free ⟨"A", []⟩)) (.just (.free ⟨"B+", []⟩))
    let later : Expression := .orLater (.free ⟨"A OR B", []⟩)
    (∃ interpreter, build ⟨[]⟩ policy = .ok interpreter ∧
      interpreter.evaluate (listed.or free) =
        .ok ⟨.allow, [" WITH : listed", " WITH : free text"]⟩ ∧
      Yields interpreter (listed.or free) ⟨.allow, [" WITH : listed", " WITH : free text"]⟩ ∧
      Yields interpreter (listed.or free) ⟨.allow, [" WITH : free text", " WITH : listed"]⟩) ∧
    (choice.and later).Prints "A OR B+ AND (A OR B+)" ∧
    (choice.and later).Prints "(A OR B+) AND A OR B+" := by
  intro listed free policy choice later
  have pair : listed.or free = .compound .or [listed, free] := by decide +kernel
  have pair' : choice.and later = .compound .and [later, choice] := by decide +kernel
  have canonical (license : License) : (Expression.just license).Canonical := by
    simp [Expression.Canonical]
  constructor
  · let interpreter : Interpreter := ⟨⟨[]⟩, policy, [(listed, listed), (free, free)]⟩
    have built : build ⟨[]⟩ policy = .ok interpreter := Outcome.toOption_eq_some.mp (by decide +kernel)
    have expanded : interpreter.equivalence.expand (.compound .or [listed, free]) =
        .ok (.compound .or [listed, free]) := Outcome.toOption_eq_some.mp (by decide +kernel)
    have yields := @yields_of_tie interpreter .or listed free ⟨.allow, "listed"⟩ ⟨.allow, "free text"⟩
      (by decide +kernel) expanded (by simp [listed, Expression.Canonical])
      (by simp [free, Expression.Canonical]) (by decide +kernel) (by decide +kernel)
      (by decide +kernel) (by decide +kernel)
    have joined : Resolution.join .or (Decision.resolve ⟨.allow, "listed"⟩ listed)
        (Decision.resolve ⟨.allow, "free text"⟩ free) =
          ⟨.allow, [" WITH : listed", " WITH : free text"]⟩ := by decide +kernel
    have joined' : Resolution.join .or (Decision.resolve ⟨.allow, "free text"⟩ free)
        (Decision.resolve ⟨.allow, "listed"⟩ listed) =
          ⟨.allow, [" WITH : free text", " WITH : listed"]⟩ := by decide +kernel
    rw [joined, joined'] at yields
    rw [pair]
    exact ⟨interpreter, built, Outcome.toOption_eq_some.mp (by decide +kernel), yields⟩
  · have both : choice.Canonical := (canonical _).combine (by simp [canonical])
    have alone : later.Canonical := by simp [later, Expression.Canonical]
    rw [pair']
    have printed := Expression.prints_of_tie .and alone both (by decide +kernel) (by decide +kernel)
    exact printed

end Interpreter

end Licensing
