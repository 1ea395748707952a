import Licensing.Proofs.Equivalence.Distribution
import Licensing.Proofs.Equivalence.Locality

/-! # Registering a further table

A further table adds to what an expression stands for: what the tables list stays listed.  An expression with
an exception also stands for the alternatives of its license, and these are the ends of an expansion, not
entries.  Where the further table leads on from an end, the end is replaced by what it leads to, and so is
the equivalent that carries the exception (`lookup_register`).

* `Distributes` — the equivalents that come from the expansion of the license.
* `LooksUp.mem_iff` — what a look-up finds, in terms of entries and of these.
* `SimpleTables.part_kept_iff` — over simple terms, an alternative is kept exactly if the further table has
  nothing to say about it.
-/

namespace Licensing.Equivalence

variable {equivalence : Equivalence} {overlay : EquivalenceTable} {e d : Expression}

/-! ## What a look-up finds -/

/-- The expression `d` is an alternative that the license of `e` expands to, with the exception of `e`. -/
def Distributes (equivalence : Equivalence) (e d : Expression) : Prop :=
  ∃ term part exception expanded, e = .withException term exception ∧
    d = .withException part exception ∧ Expands equivalence (.simple term) (.ok expanded) ∧
    expanded ≠ .simple term ∧ .simple part ∈ expanded.operands .or

theorem mem_distribute {term : SimpleTerm} {exception : LicenseException} {expanded : Expression}
    {carrying : List Expression} (attached : distribute term exception expanded = .ok carrying) :
    d ∈ carrying ↔
      ∃ part, d = .withException part exception ∧ .simple part ∈ expanded.operands .or := by
  refine ⟨exists_operand_of_distribute attached, ?_⟩
  rintro ⟨part, rfl, operand⟩
  unfold distribute at attached
  split at attached
  next =>
    cases attached
    obtain ⟨⟩ := List.mem_singleton.mp operand
    exact List.mem_singleton_self _
  next operands =>
    rw [Expression.operands_compound] at operand
    obtain ⟨carrier, inside, found⟩ := Outcome.exists_mem_of_mapM attached operand
    cases found
    exact inside
  next => cases attached

/-- A look-up finds what the tables list, and what the expansion of the license distributes to. -/
theorem LooksUp.mem_iff {found : List Expression} (run : LooksUp equivalence e (.ok found)) :
    d ∈ found ↔ d ∈ equivalence.direct e ∨ Distributes equivalence e d := by
  match e with
  | .withException term exception =>
    obtain ⟨outcome, inside, same⟩ := run.inside
    cases outcome with
    | error fault => cases same
    | ok expanded =>
      simp only [Equivalence.carried] at same
      split at same
      next unchanged =>
        cases same
        refine ⟨.inl, Or.rec id ?_⟩
        rintro ⟨_, _, _, expanded', ⟨⟩, -, inside', changed, -⟩
        obtain rfl := Except.ok.inj (inside.unique inside')
        exact absurd unchanged changed
      next changed =>
        obtain ⟨carrying, attached, rfl⟩ := Outcome.map_eq_ok.mp same.symm
        rw [SortedSet.mem_union, or_comm, mem_distribute attached]
        refine or_congr_right ⟨?_, ?_⟩
        · rintro ⟨part, rfl, operand⟩
          exact ⟨term, part, exception, expanded, rfl, rfl, inside, changed, operand⟩
        · rintro ⟨_, part, _, expanded', ⟨⟩, rfl, inside', -, operand⟩
          obtain rfl := Except.ok.inj (inside.unique inside')
          exact ⟨part, rfl, operand⟩
  | .sentinel _ | .simple _ | .compound .. =>
    cases run.plain rfl
    refine ⟨.inl, Or.rec id ?_⟩
    rintro ⟨_, _, _, _, ⟨⟩, -⟩

/-! ## Tables of simple terms -/

namespace SimpleTables

section Stack

variable (simple : SimpleTables equivalence) (single : IsSimple e)

include simple single

theorem lookup_of_simple : equivalence.lookup e = .ok (equivalence.direct e) :=
  (lookup_eq_ok_iff simple.canonical).mpr (.direct single.plain)

theorem simple_of_reaches (reached : Reaches equivalence.lookup e d) : IsSimple d := by
  induction reached with
  | step found member =>
    cases (simple.lookup_of_simple single).symm.trans found
    exact simple.values _ (direct_subset_values _ member)
  | tail _ found member met =>
    cases (simple.lookup_of_simple met).symm.trans found
    exact simple.values _ (direct_subset_values _ member)

/-- The alternatives of an expansion that has changed its term are the ends that the term leads to. -/
theorem changed_part_iff {expanded : Expression} (ended : equivalence.expand e = .ok expanded) :
    expanded ≠ e ∧ d ∈ expanded.operands .or ↔
      Reaches equivalence.lookup e d ∧ equivalence.lookup d = .ok [] := by
  constructor
  · rintro ⟨changed, part⟩
    obtain ⟨t, reached, leaf, operand⟩ :=
      (mem_operands_expand simple.canonical single.canonical ended changed d).mp part
    obtain ⟨term, rfl⟩ := simple.simple_of_reaches single reached
    obtain rfl := List.mem_singleton.mp operand
    exact ⟨reached, leaf⟩
  · rintro ⟨reached, leaf⟩
    obtain ⟨-, ⟨terminals, ends⟩, choices⟩ :=
      expand_eq_choice_of_ends simple.canonical single.canonical ended
    have inside : d ∈ terminals := (ends d).mpr ⟨reached, leaf⟩
    have joined := (choices terminals ends).2 (List.ne_nil_of_mem inside)
    have part : d ∈ expanded.operands .or := by
      refine (Expression.mem_operands_of_combine? ?_ joined d).mpr ⟨d, inside, ?_⟩
      · exact fun t member => canonical_of_reaches simple.canonical single.canonical ((ends t).mp member).1
      · obtain ⟨term, rfl⟩ := simple.simple_of_reaches single reached
        exact List.mem_singleton_self _
    refine ⟨?_, part⟩
    rintro rfl
    -- A term alone is its own only alternative, and an end leads nowhere.
    obtain ⟨term, rfl⟩ := single
    obtain rfl := List.mem_singleton.mp part
    exact not_reaches_of_leaf leaf reached

end Stack

theorem distributes_iff (simple : SimpleTables equivalence) {term part : SimpleTerm}
    {exception : LicenseException} :
    Distributes equivalence (.withException term exception) (.withException part exception) ↔
      Reaches equivalence.lookup (.simple term) (.simple part) ∧
        equivalence.lookup (.simple part) = .ok [] := by
  have single : IsSimple (.simple term) := ⟨term, rfl⟩
  obtain ⟨expanded, ended⟩ := simple.exists_expand single.canonical
  have run := (expands_iff simple.canonical single.canonical _).mpr ⟨ended, settled_ok expanded⟩
  rw [← simple.changed_part_iff single ended]
  constructor
  · rintro ⟨_, _, _, expanded', ⟨⟩, ⟨⟩, run', changed, operand⟩
    obtain rfl := Except.ok.inj (run.unique run')
    exact ⟨changed, operand⟩
  · rintro ⟨changed, operand⟩
    exact ⟨term, part, exception, expanded, rfl, rfl, run, changed, operand⟩

theorem of_register (simple : SimpleTables (equivalence.register overlay)) :
    SimpleTables equivalence where
  keys := fun table member => simple.keys table (List.mem_append_left _ member)
  values := by
    intro d member
    obtain ⟨table, inTables, inside⟩ := List.mem_flatMap.mp member
    exact simple.values d (List.mem_flatMap.mpr ⟨table, List.mem_append_left _ inTables, inside⟩)

section Overlay

variable (simple : SimpleTables (equivalence.register overlay))

include simple

theorem reaches_register (single : IsSimple e) (reached : Reaches equivalence.lookup e d) :
    Reaches (equivalence.register overlay).lookup e d := by
  have before := simple.of_register
  induction reached with
  | step found member =>
    cases (before.lookup_of_simple single).symm.trans found
    exact .step (simple.lookup_of_simple single) (mem_direct_register.mpr (.inl member))
  | tail reached found member ih =>
    have single' := before.simple_of_reaches single reached
    cases (before.lookup_of_simple single').symm.trans found
    exact .tail ih (simple.lookup_of_simple single') (mem_direct_register.mpr (.inl member))

/-- An alternative of a license is kept exactly if the further table has nothing to say about it. -/
theorem part_kept_iff {term part : SimpleTerm} {exception : LicenseException}
    (distributed : Distributes equivalence (.withException term exception)
      (.withException part exception)) :
    Distributes (equivalence.register overlay) (.withException term exception)
      (.withException part exception) ↔ overlay.find (.simple part) = [] := by
  have before := simple.of_register
  have single : IsSimple (.simple part) := ⟨part, rfl⟩
  obtain ⟨reached, leaf⟩ := before.distributes_iff.mp distributed
  rw [before.lookup_of_simple single, Except.ok.injEq] at leaf
  rw [simple.distributes_iff, and_iff_right (simple.reaches_register ⟨term, rfl⟩ reached),
    simple.lookup_of_simple single, Except.ok.injEq]
  simp only [List.eq_nil_iff_forall_not_mem, mem_direct_register, leaf, List.not_mem_nil, false_or]

end Overlay

end SimpleTables

/-! ## What a further table adds and takes away -/

/-- What the tables list stays; so what is lost by a further table has come from the expansion of the license
and does no longer.  Nothing changes if the table adds nothing to the entries that the look-up consults, and
over simple terms nothing is lost if it has no entry for an alternative of the license. -/
theorem lookup_register {known found : List Expression} (before : equivalence.lookup e = .ok known)
    (after : (equivalence.register overlay).lookup e = .ok found) :
    (hasException e = false → known ⊆ found) ∧ equivalence.direct e ⊆ found ∧
      (known ⊆ found ↔ ∀ d, Distributes equivalence e d →
        d ∈ equivalence.direct e ∨ d ∈ overlay.find e ∨ Distributes (equivalence.register overlay) e d) ∧
      ((∀ c, Consults equivalence e c → overlay.find c ⊆ equivalence.direct c) → found = known) ∧
      (SimpleTables (equivalence.register overlay) → (known ⊆ found ↔ ∀ part exception,
        Distributes equivalence e (.withException part exception) → overlay.find (.simple part) = [])) := by
  have run := looksUp_of_eq_ok (looksUp_of_lookupAt _ _) before
  have run' := looksUp_of_eq_ok (looksUp_of_lookupAt _ _) after
  have listed : equivalence.direct e ⊆ found := fun d member =>
    run'.mem_iff.mpr (.inl (mem_direct_register.mpr (.inl member)))
  have kept : known ⊆ found ↔ ∀ d, Distributes equivalence e d →
      d ∈ equivalence.direct e ∨ d ∈ overlay.find e ∨
        Distributes (equivalence.register overlay) e d := by
    simp only [← or_assoc, ← mem_direct_register, ← run'.mem_iff]
    constructor
    · exact fun inside d distributed => inside (run.mem_iff.mpr (.inr distributed))
    · exact fun all d member => (run.mem_iff.mp member).elim (@listed d) (all d)
  refine ⟨fun plain => ?_, listed, kept, fun silent => ?_, fun simple => ?_⟩
  · cases run.plain plain
    exact listed
  · have agree (c : Expression) (consults : Consults equivalence e c) :
        (equivalence.register overlay).direct c = equivalence.direct c := by
      refine direct_ext fun d => mem_direct_register.trans ⟨?_, .inl⟩
      exact Or.rec id (@silent c consults d)
    exact Except.ok.inj (run'.unique (run.congr agree))
  · rw [kept]
    constructor
    · intro all part exception distributed
      obtain ⟨term, _, _, _, rfl, ⟨⟩, -⟩ := id distributed
      have unlisted := simple.direct_withException term exception
      simp only [List.eq_nil_iff_forall_not_mem, mem_direct_register, not_or] at unlisted
      obtain inTables | inOverlay | still := all _ distributed
      · exact absurd inTables (unlisted _).1
      · exact absurd inOverlay (unlisted _).2
      · exact (simple.part_kept_iff distributed).mp still
    · intro silent d distributed
      obtain ⟨term, part, exception, _, rfl, rfl, -⟩ := id distributed
      exact .inr (.inr ((simple.part_kept_iff distributed).mpr (silent part exception distributed)))

/-- A further table adds `C` to the alternatives of `A` or later, and says nothing about the others. -/
theorem lookup_register_of_further_alternative :
    let a : License := .free ⟨"A", []⟩
    let b : License := .free ⟨"B", []⟩
    let c : License := .free ⟨"C", []⟩
    let x : LicenseException := .free ⟨"x", []⟩
    let equivalence : Equivalence :=
      ⟨[[(.orLater a, [.just a, .orLater b]), (.orLater b, [.just b])]]⟩
    let overlay : EquivalenceTable := [(.orLater a, [.just c]), (.just c, [])]
    let e : Expression := .withException (.orLater a) x
    let known : List Expression := [.withException (.exact a) x, .withException (.exact b) x]
    let found : List Expression := known ++ [.withException (.exact c) x]
    equivalence.lookup e = .ok known ∧ (equivalence.register overlay).lookup e = .ok found ∧
      known ⊆ found ∧ SimpleTables (equivalence.register overlay) ∧
      ∀ part exception, Distributes equivalence e (.withException part exception) →
        overlay.find (.simple part) = [] := by
  intro a b c x equivalence overlay e known found
  have before : equivalence.lookup e = .ok known := Outcome.toOption_eq_some.mp (by decide +kernel)
  have after : (equivalence.register overlay).lookup e = .ok found :=
    Outcome.toOption_eq_some.mp (by decide +kernel)
  have simple : SimpleTables (equivalence.register overlay) := by decide +kernel
  have inside : known ⊆ found := List.subset_append_left ..
  obtain ⟨-, -, -, -, exact⟩ := lookup_register before after
  exact ⟨before, after, inside, simple, (exact simple).mp inside⟩

/-- `A` stands for `B`, and the further table leads on from `B` to `C`. -/
theorem lookup_register_of_longer_expansion :
    let a : SimpleTerm := .exact (.free ⟨"A", []⟩)
    let b : SimpleTerm := .exact (.free ⟨"B", []⟩)
    let c : SimpleTerm := .exact (.free ⟨"C", []⟩)
    let x : LicenseException := .free ⟨"x", []⟩
    let equivalence : Equivalence := ⟨[[(.simple a, [.simple b])]]⟩
    let overlay : EquivalenceTable := [(.simple b, [.simple c])]
    equivalence.lookup (.withException a x) = .ok [.withException b x] ∧
      (equivalence.register overlay).lookup (.withException a x) = .ok [.withException c x] ∧
      ¬ [Expression.withException b x] ⊆ [.withException c x] := by
  intro a b c x equivalence overlay
  have before : equivalence.lookup (.withException a x) = .ok [.withException b x] :=
    Outcome.toOption_eq_some.mp (by decide +kernel)
  have after : (equivalence.register overlay).lookup (.withException a x) = .ok [.withException c x] :=
    Outcome.toOption_eq_some.mp (by decide +kernel)
  exact ⟨before, after, by decide +kernel⟩

end Licensing.Equivalence
