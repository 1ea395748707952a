import Licensing.Proofs.Equivalence.Termination

/-! # Expansions are closures

The expansion of an expression is the choice between everything that it leads to and that stands for
nothing else, and the expression itself if there is no such thing (`expand_eq_choice_of_ends`).

The walk of an expansion loses nothing because whatever has been seen is either still queued or has been
explored (`Walks.exists_explored`), so that at the end all that was seen is closed under look-up.  It
invents nothing because look-ups lead from what is queued to what is queued (`Walks.ends_spec`).  The
expression that is expanded is not seen at the start, which is no exception to this: it is visited if a
cycle leads back to it.
-/

namespace Licensing.Equivalence

variable {equivalence : Equivalence}

/-! ## What a walk explores -/

/-- The look-up of `c` leads to members of `all` only, and `c` is one of the ends if it leads nowhere. -/
def Explored (equivalence : Equivalence) (all terminals : List Expression) (c : Expression) : Prop :=
  ∃ successors, LooksUp equivalence c (.ok successors) ∧ successors ⊆ all ∧
    (successors = [] → c ∈ terminals)

theorem mem_collect {e t : Expression} {terminal : Bool} {terminals : List Expression} :
    t ∈ collect e terminal terminals ↔ (terminal = true ∧ t = e) ∨ t ∈ terminals := by
  cases terminal <;> simp [collect]

theorem subset_append_fresh (seen successors : List Expression) :
    successors ⊆ seen ++ fresh seen successors := by
  intro c member
  by_cases known : c ∈ seen
  · exact List.mem_append_left _ known
  · exact List.mem_append_right _ (List.mem_filter.mpr ⟨member, by simpa using known⟩)

theorem Explored.collect {all terminals : List Expression} {c e : Expression} {terminal : Bool}
    (explored : Explored equivalence all terminals c) :
    Explored equivalence all (collect e terminal terminals) c := by
  obtain ⟨successors, found, inside, ends⟩ := explored
  exact ⟨successors, found, inside, fun empty => mem_collect.mpr (.inr (ends empty))⟩

/-- A walk explores its queue, and everything that comes to be seen on the way. -/
theorem Walks.exists_explored {queue seen : List Expression}
    {r : Except ExpansionFault (List Expression)} :
    Walks equivalence queue seen r → ∀ terminals, r = .ok terminals →
      ∃ all, seen ⊆ all ∧ (∀ c ∈ all, c ∈ seen ∨ Explored equivalence all terminals c) ∧
        ∀ c ∈ queue, Explored equivalence all terminals c
  | .done, terminals, _ => ⟨seen, List.Subset.refl _, fun _ known => .inl known, by simp⟩
  | .fault _, _, same => nomatch same
  | @Walks.visit _ e queue _ successors _ head rest, _, same => by
    obtain ⟨terminals, below, rfl⟩ := Outcome.map_eq_ok.mp same
    obtain ⟨all, seenInside, others, queued⟩ := rest.exists_explored terminals below
    -- The rest of the walk has seen, and queued, what the look-up of `e` leads to for the first time.
    obtain ⟨old, new⟩ := List.append_subset.mp seenInside
    have first : Explored equivalence all (collect e successors.isEmpty terminals) e := by
      refine ⟨successors, head, List.Subset.trans (subset_append_fresh ..) seenInside, ?_⟩
      rintro rfl
      exact mem_collect.mpr (.inl ⟨rfl, rfl⟩)
    refine ⟨all, old, ?_, ?_⟩
    · intro c member
      obtain seenOrNew | explored := others c member
      · cases List.mem_append.mp seenOrNew with
        | inl known => exact .inl known
        | inr fresh => exact .inr (queued c (List.mem_append_right _ fresh)).collect
      · exact .inr explored.collect
    · intro c member
      cases List.mem_cons.mp member with
      | inl same => exact same ▸ first
      | inr later => exact (queued c (List.mem_append_left _ later)).collect

/-- The ends of a walk stand for nothing else, and have every property that look-ups pass on. -/
theorem Walks.ends_spec {P : Expression → Prop}
    (passed : ∀ c successors, P c → LooksUp equivalence c (.ok successors) → ∀ d ∈ successors, P d)
    {queue seen : List Expression} {r : Except ExpansionFault (List Expression)} :
    Walks equivalence queue seen r → (∀ c ∈ queue, P c) → ∀ terminals, r = .ok terminals →
      ∀ t ∈ terminals, P t ∧ LooksUp equivalence t (.ok [])
  | .done, _, terminals, same => by
    cases same
    simp
  | .fault _, _, _, same => nomatch same
  | @Walks.visit _ e queue seen successors _ head rest, queued, _, same => by
    obtain ⟨terminals, below, rfl⟩ := Outcome.map_eq_ok.mp same
    have first : P e := queued e (by simp)
    have inside : ∀ c ∈ queue ++ fresh seen successors, P c := by
      intro c member
      cases List.mem_append.mp member with
      | inl later => exact queued c (.tail _ later)
      | inr new => exact passed e successors first head c (fresh_subset _ _ new)
    intro t member
    obtain ⟨terminal, rfl⟩ | later := mem_collect.mp member
    · rw [List.isEmpty_iff] at terminal
      exact ⟨first, terminal ▸ head⟩
    · exact rest.ends_spec passed inside terminals below t later

/-! ## Reached expressions -/

theorem mem_values_of_looksUp {c d : Expression} {successors : List Expression}
    (found : LooksUp equivalence c (.ok successors)) (member : d ∈ successors)
    (plain : hasException d = false) : d ∈ equivalence.values := by
  match c with
  | .sentinel _ | .simple _ | .compound .. =>
    cases found.plain rfl
    exact direct_subset_values _ member
  | .withException term exception =>
    obtain ⟨outcome, -, same⟩ := found.inside
    cases outcome with
    | error fault => cases same
    | ok expanded =>
      simp only [carried] at same
      split at same
      next =>
        cases same
        exact direct_subset_values _ member
      next =>
        obtain ⟨carrying, attached, rfl⟩ := Outcome.map_eq_ok.mp same.symm
        cases SortedSet.mem_union.mp member with
        | inr known => exact direct_subset_values _ known
        | inl carries =>
          -- What is added to the values of the tables carries the exception.
          obtain ⟨carrier, rfl, -⟩ := exists_operand_of_distribute attached carries
          simp [hasException] at plain

theorem expand_of_leaf {e : Expression} (leaf : equivalence.lookup e = .ok []) :
    equivalence.expand e = .ok e := by
  -- Both start with the same bounds.
  have start : equivalence.lookupAt (equivalence.reach e) (equivalence.depth e) e = .ok [] := leaf
  simp only [expand, expandWith_eq, start]

theorem direct_eq_nil {e : Expression}
    (unlisted : ∀ table ∈ equivalence.tables, ∀ entry ∈ table, entry.1 ≠ e) :
    equivalence.direct e = [] := by
  have nothing : equivalence.tables.flatMap (·.find e) = [] := by
    refine List.flatMap_eq_nil_iff.mpr fun table member => ?_
    have missing : table.lookup e = none := by
      refine List.lookup_eq_none_iff.mpr fun entry inTable => ?_
      simpa using (unlisted table member entry inTable).symm
    rw [EquivalenceTable.find, missing]
    rfl
  rw [direct, nothing]
  rfl

theorem expand_of_unlisted {e : Expression} (plain : hasException e = false)
    (unlisted : ∀ table ∈ equivalence.tables, ∀ entry ∈ table, entry.1 ≠ e) :
    equivalence.expand e = .ok e := by
  apply expand_of_leaf
  rw [lookup, lookupAt_plain _ _ plain, direct_eq_nil unlisted]

theorem not_reaches_of_leaf {e c : Expression} (leaf : equivalence.lookup e = .ok []) :
    ¬ Reaches equivalence.lookup e c := by
  intro reached
  induction reached with
  | step found member =>
    cases leaf.symm.trans found
    cases member
  | tail _ _ _ none => exact none

section Tables

variable (tables : equivalence.Canonical) {e : Expression} (canonical : e.Canonical)

include tables

theorem lookup_eq_ok_iff {c : Expression} {successors : List Expression} :
    equivalence.lookup c = .ok successors ↔ LooksUp equivalence c (.ok successors) := by
  rw [looksUp_iff tables]
  exact ⟨fun found => ⟨found, settled_ok _⟩, And.left⟩

theorem mem_values_of_reaches {c : Expression} (reached : Reaches equivalence.lookup e c)
    (plain : hasException c = false) : c ∈ equivalence.values := by
  cases reached with
  | step found member =>
    exact mem_values_of_looksUp ((lookup_eq_ok_iff tables).mp found) member plain
  | tail _ found member =>
    exact mem_values_of_looksUp ((lookup_eq_ok_iff tables).mp found) member plain

include canonical

theorem meetable_of_reaches {c : Expression} (reached : Reaches equivalence.lookup e c) :
    c ∈ equivalence.meetable e := by
  -- Every look-up has a bound of its own, and no bound leads out of what can be met.
  have closed (d : Expression) := closed_lookupAt tables canonical (equivalence.reach d)
    (equivalence.depth d)
  induction reached with
  | step found member =>
    exact (closed e _ _ (.inl (mem_meetable.mpr (.inl (by simp)))) found).1 member
  | tail _ found member met => exact (closed _ _ _ (.inl met) found).1 member

theorem canonical_of_reaches {c : Expression} (reached : Reaches equivalence.lookup e c) :
    c.Canonical :=
  tables.of_meetable canonical (meetable_of_reaches tables canonical reached)

/-! ## The closure -/

/-- An expansion that succeeds has looked up everything that its expression leads to, and chooses between
the ends of it. -/
theorem exists_ends_of_expand {expanded : Expression} (ended : equivalence.expand e = .ok expanded) :
    ∃ terminals, expanded = choiceOr e terminals ∧
      (∀ c, c = e ∨ Reaches equivalence.lookup e c →
        ∃ successors, equivalence.lookup c = .ok successors) ∧
      ∀ t, t ∈ terminals ↔ Reaches equivalence.lookup e t ∧ equivalence.lookup t = .ok [] := by
  simp only [lookup_eq_ok_iff tables]
  have run := (expands_iff tables canonical _).mpr ⟨ended, settled_ok expanded⟩
  obtain ⟨fault, -, same⟩ | ⟨first, same⟩ | ⟨start, outcome, first, -, walk, same⟩ := run.start
  · cases same
  · cases same
    -- Nothing is walked: `e` stands for nothing else.
    have nothing (c : Expression) : ¬ Reaches equivalence.lookup e c :=
      not_reaches_of_leaf ((lookup_eq_ok_iff tables).mpr first)
    refine ⟨[], rfl, ?_, fun t => by simp [nothing t]⟩
    rintro c (rfl | reached)
    · exact ⟨_, first⟩
    · exact absurd reached (nothing c)
  · obtain ⟨terminals, below, rfl⟩ := Outcome.map_eq_ok.mp same.symm
    have begins : equivalence.lookup e = .ok start := (lookup_eq_ok_iff tables).mpr first
    have onward (c : Expression) (successors : List Expression)
        (reached : Reaches equivalence.lookup e c) (found : LooksUp equivalence c (.ok successors))
        (d : Expression) (member : d ∈ successors) : Reaches equivalence.lookup e d :=
      .tail reached ((lookup_eq_ok_iff tables).mpr found) member
    have sound := walk.ends_spec onward (fun c queued => .step begins queued) terminals below
    obtain ⟨all, seen, others, queued⟩ := walk.exists_explored terminals below
    -- All that was seen is explored at the end, so it holds whatever can be reached.
    have explored (c : Expression) (member : c ∈ all) : Explored equivalence all terminals c :=
      (others c member).elim (queued c) id
    have inside (c : Expression) (reached : Reaches equivalence.lookup e c) : c ∈ all := by
      induction reached with
      | step found member =>
        cases ((lookup_eq_ok_iff tables).mp found).unique first
        exact seen member
      | tail _ found member met =>
        obtain ⟨successors, found', within, -⟩ := explored _ met
        cases ((lookup_eq_ok_iff tables).mp found).unique found'
        exact within member
    refine ⟨terminals, rfl, ?_, fun t => ⟨sound t, ?_⟩⟩
    · rintro c (rfl | reached)
      · exact ⟨start, first⟩
      · obtain ⟨successors, found, -⟩ := explored c (inside c reached)
        exact ⟨successors, found⟩
    · rintro ⟨reached, leaf⟩
      obtain ⟨successors, found, -, ends⟩ := explored t (inside t reached)
      exact ends (Except.ok.inj (found.unique leaf))

theorem mem_operands_expand {expanded : Expression} (ended : equivalence.expand e = .ok expanded)
    (changed : expanded ≠ e) (p : Expression) :
    p ∈ expanded.operands .or ↔
      ∃ t, Reaches equivalence.lookup e t ∧ equivalence.lookup t = .ok [] ∧ p ∈ t.operands .or := by
  obtain ⟨terminals, rfl, -, ends⟩ := exists_ends_of_expand tables canonical ended
  unfold choiceOr at changed ⊢
  cases joined : Expression.combine? .or terminals with
  | none => simp [joined] at changed
  | some choice =>
    have parts (t : Expression) (member : t ∈ terminals) : t.Canonical :=
      canonical_of_reaches tables canonical ((ends t).mp member).1
    rw [Option.getD_some, Expression.mem_operands_of_combine? parts joined]
    simp only [ends, and_assoc]

/-- What can be reached from `e` can be looked up, and the expansion of `e` is the choice between those
reachable expressions that stand for nothing else; without any, it is `e`. -/
theorem expand_eq_choice_of_ends {expanded : Expression}
    (ended : equivalence.expand e = .ok expanded) :
    (∀ c, c = e ∨ Reaches equivalence.lookup e c →
      ∃ successors, equivalence.lookup c = .ok successors) ∧
    (∃ terminals : List Expression, ∀ t,
      t ∈ terminals ↔ Reaches equivalence.lookup e t ∧ equivalence.lookup t = .ok []) ∧
    ∀ terminals : List Expression,
      (∀ t, t ∈ terminals ↔ Reaches equivalence.lookup e t ∧ equivalence.lookup t = .ok []) →
      (terminals = [] → expanded = e) ∧
        (terminals ≠ [] → Expression.combine? .or terminals = some expanded) := by
  obtain ⟨found, rfl, lookups, ends⟩ := exists_ends_of_expand tables canonical ended
  -- The walk lists the ends in the order in which it comes to them; a choice is the same for any order.
  refine ⟨lookups, ⟨found, ends⟩, fun terminals members => ?_⟩
  have same : Expression.combine? .or found = Expression.combine? .or terminals :=
    Expression.combine?_congr fun t => (ends t).trans (members t).symm
  rw [choiceOr, same]
  refine ⟨?_, fun nonempty => ?_⟩
  · rintro rfl
    rfl
  · obtain ⟨t, member⟩ := List.exists_mem_of_ne_nil terminals nonempty
    have reached := ((members t).mp member).1
    have joins := Expression.combine?_isSome .or member (canonical_of_reaches tables canonical reached)
    obtain ⟨choice, joined⟩ := Option.isSome_iff_exists.mp joins
    simp [joined]

end Tables

/-- `A` and `B` lead to one another, `C` leads to itself, and `D` is reached on two ways.  `A` with an
exception leads to itself, to `F`, and to what `A` expands to with that exception. -/
theorem expand_with_cycles_and_diamond :
    let a : SimpleTerm := .exact (.free ⟨"A", []⟩)
    let b : Expression := .just (.free ⟨"B", []⟩)
    let c : Expression := .just (.free ⟨"C", []⟩)
    let d : SimpleTerm := .exact (.free ⟨"D", []⟩)
    let e : SimpleTerm := .exact (.free ⟨"E", []⟩)
    let f : Expression := .just (.free ⟨"F", []⟩)
    let x : LicenseException := .free ⟨"x", []⟩
    let equivalence : Equivalence :=
      ⟨[[(.simple a, [b, c]), (b, [.simple a, .simple d]), (c, [c, .simple d, .simple e])],
        [(.withException a x, [.withException a x, f])]]⟩
    let expanded := (f.or (.withException d x)).or (.withException e x)
    equivalence.Canonical ∧ (Expression.withException a x).Canonical ∧
      equivalence.expand (.withException a x) = .ok expanded ∧
      ∃ terminals : List Expression,
        (∀ t, t ∈ terminals ↔ Reaches equivalence.lookup (.withException a x) t ∧
          equivalence.lookup t = .ok []) ∧
        Expression.combine? .or terminals = some expanded := by
  intro a b c d e f x equivalence expanded
  have tables : equivalence.Canonical := by
    simp [equivalence, b, c, f, Canonical, values, EquivalenceTable.values, Expression.Canonical]
  have canonical : (Expression.withException a x).Canonical := by simp [Expression.Canonical]
  have ended : equivalence.expand (.withException a x) = .ok expanded :=
    Outcome.toOption_eq_some.mp (by decide +kernel)
  have changed : expanded ≠ .withException a x := by decide +kernel
  obtain ⟨-, ⟨terminals, ends⟩, choices⟩ := expand_eq_choice_of_ends tables canonical ended
  obtain ⟨alone, joined⟩ := choices terminals ends
  exact ⟨tables, canonical, ended, terminals, ends, joined fun empty => changed (alone empty)⟩

end Licensing.Equivalence
