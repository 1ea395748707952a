import Mathlib.Data.List.ProdSigma
import Licensing.Proofs.Equivalence.Nesting
import Licensing.Proofs.Expression.Algebra

/-! # What expansions can meet

All expressions that an expansion meets are written with the parts of its tables: they are values of
the tables, or licenses from there that carry an exception from there.  `meetable` lists them; its
length is the bound that a walk is given, and `exists_visit_of_expandWith` says that the bound is
never what stops a walk.

The invariant of a walk is that queued and seen expressions are meetable, that none is seen twice,
and that the fuel pays for all expressions that are not seen yet or still queued.
-/

namespace Licensing.Equivalence

variable {equivalence : Equivalence} {root : Expression}

/-- Tables over canonical expressions. -/
def Canonical (equivalence : Equivalence) : Prop :=
  ∀ e ∈ equivalence.values, e.Canonical

/-! ## Meetable expressions -/

/-- The licenses that can be given an exception in the expansion of `root`. -/
def terms (equivalence : Equivalence) (root : Expression) : List SimpleTerm :=
  (root :: equivalence.values).flatMap carriers

/-- An expression with an exception, on another license. -/
def transfer (term : SimpleTerm) : Expression → Expression
  | .withException _ exception => .withException term exception
  | e => e

/-- All expressions that the expansion of `root` can meet. -/
def meetable (equivalence : Equivalence) (root : Expression) : List Expression :=
  let all := root :: equivalence.values
  all ++ (equivalence.terms root ×ˢ all.filter hasException).map fun pair =>
    transfer pair.1 pair.2

theorem length_meetable (equivalence : Equivalence) (root : Expression) :
    (equivalence.meetable root).length = equivalence.reach root := by
  simp only [meetable, reach, terms, List.length_append, List.length_map, List.length_product]

theorem withException_of_hasException {e : Expression} (carries : hasException e = true) :
    ∃ term exception, e = .withException term exception := by
  match e with
  | .withException term exception => exact ⟨term, exception, rfl⟩

theorem mem_meetable {e : Expression} :
    e ∈ equivalence.meetable root ↔
      e ∈ root :: equivalence.values ∨
      ∃ term exception other, e = .withException term exception ∧ term ∈ equivalence.terms root ∧
        .withException other exception ∈ root :: equivalence.values := by
  simp only [meetable, List.mem_append, List.mem_map, Prod.exists, List.mem_product,
    List.mem_filter]
  refine or_congr_right ⟨?_, ?_⟩
  · rintro ⟨term, found, ⟨inTerms, inAll, carries⟩, rfl⟩
    obtain ⟨other, exception, rfl⟩ := withException_of_hasException carries
    exact ⟨term, exception, other, rfl, inTerms, inAll⟩
  · rintro ⟨term, exception, other, rfl, inTerms, inAll⟩
    exact ⟨term, .withException other exception, ⟨inTerms, inAll, rfl⟩, rfl⟩

theorem mem_meetable_of_mem_values {e : Expression} (member : e ∈ equivalence.values) :
    e ∈ equivalence.meetable root :=
  mem_meetable.mpr (.inl (.tail _ member))

theorem mem_terms_of_meetable {term : SimpleTerm} {exception : LicenseException}
    (met : .withException term exception ∈ equivalence.meetable root) :
    term ∈ equivalence.terms root := by
  obtain inAll | ⟨_, _, _, same, inTerms, -⟩ := mem_meetable.mp met
  · exact List.mem_flatMap.mpr ⟨_, inAll, by simp [carriers, Expression.operands]⟩
  · cases same
    exact inTerms

/-- An exception of a meetable expression can be met on every license. -/
theorem transfer_meetable {term other : SimpleTerm} {exception : LicenseException}
    (met : .withException other exception ∈ equivalence.meetable root)
    (inTerms : term ∈ equivalence.terms root) :
    .withException term exception ∈ equivalence.meetable root := by
  obtain inAll | ⟨_, _, source, same, -, inAll⟩ := mem_meetable.mp met
  · exact mem_meetable.mpr (.inr ⟨term, exception, other, rfl, inTerms, inAll⟩)
  · cases same
    exact mem_meetable.mpr (.inr ⟨term, exception, source, rfl, inTerms, inAll⟩)

theorem Canonical.of_meetable (tables : equivalence.Canonical) (start : root.Canonical)
    {e : Expression} (met : e ∈ equivalence.meetable root) : e.Canonical := by
  obtain inAll | ⟨term, exception, _, rfl, -, -⟩ := mem_meetable.mp met
  · cases List.mem_cons.mp inAll with
    | inl same => exact same ▸ start
    | inr inValues => exact tables e inValues
  · simp [Expression.Canonical]

theorem mem_terms_of_operand {term : SimpleTerm} {e : Expression}
    (met : e ∈ equivalence.meetable root) (operand : .simple term ∈ e.operands .or) :
    term ∈ equivalence.terms root := by
  obtain inAll | ⟨_, _, _, rfl, -, -⟩ := mem_meetable.mp met
  · exact List.mem_flatMap.mpr ⟨e, inAll, List.mem_filterMap.mpr ⟨_, operand, rfl⟩⟩
  · simp [Expression.operands] at operand

/-! ## Look-ups stay among them -/

theorem direct_subset_values (e : Expression) : equivalence.direct e ⊆ equivalence.values := by
  intro found member
  obtain ⟨table, inTables, inEntry⟩ := List.mem_flatMap.mp (SortedSet.mem_ofList.mp member)
  refine List.mem_flatMap.mpr ⟨table, inTables, ?_⟩
  cases entry : table.lookup e with
  | none => simp [EquivalenceTable.find, entry] at inEntry
  | some values =>
    obtain ⟨before, behind, rfl, -⟩ := List.lookup_eq_some_iff.mp entry
    simp only [EquivalenceTable.find, entry, Option.getD_some] at inEntry
    simp [EquivalenceTable.values, inEntry]

theorem exists_operand_of_distribute {term : SimpleTerm} {exception : LicenseException}
    {expanded e : Expression} {carrying : List Expression}
    (attached : distribute term exception expanded = .ok carrying) (member : e ∈ carrying) :
    ∃ carrier, e = .withException carrier exception ∧ .simple carrier ∈ expanded.operands .or := by
  unfold distribute at attached
  split at attached
  next carrier =>
    cases attached
    exact ⟨carrier, List.mem_singleton.mp member, by simp [Expression.operands]⟩
  next operands =>
    obtain ⟨operand, inOperands, found⟩ := Outcome.exists_of_mem_mapM attached member
    split at found
    next carrier =>
      cases found
      exact ⟨carrier, rfl, by simpa using inOperands⟩
    next => cases found
  next => cases attached

theorem fresh_subset (seen successors : List Expression) : fresh seen successors ⊆ successors :=
  fun _ member => (List.mem_filter.mp member).1

theorem nodup_append_fresh {seen successors : List Expression} (once : seen.Nodup)
    (distinct : successors.Nodup) : (seen ++ fresh seen successors).Nodup := by
  refine List.nodup_append.mpr ⟨once, distinct.filter _, ?_⟩
  intro a old b new same
  have unseen := (List.mem_filter.mp new).2
  subst same
  simp [old] at unseen

/-- Look-ups lead from members of a list, and from expressions without an exception, to members of
the list, and to none of them twice. -/
def Closed (next : Expression → Except ExpansionFault (List Expression))
    (domain : List Expression) : Prop :=
  ∀ e successors, e ∈ domain ∨ hasException e = false → next e = .ok successors →
    successors ⊆ domain ∧ successors.Nodup

section Walking

variable {next : Expression → Except ExpansionFault (List Expression)} {domain : List Expression}
variable (closed : Closed next domain)

include closed

theorem ends_subset {mark : ExpansionFault} {fuel : Nat} {queue seen terminals : List Expression}
    (queued : queue ⊆ domain) (ended : ends (walk next mark fuel queue seen) = .ok terminals) :
    terminals ⊆ domain := by
  induction fuel generalizing queue seen terminals with
  | zero =>
    cases queue with
    | nil =>
      cases ended
      exact List.nil_subset domain
    | cons e queue => cases ended
  | succ fuel ih =>
    cases queue with
    | nil =>
      cases ended
      exact List.nil_subset domain
    | cons e queue =>
      obtain ⟨first, others⟩ := List.cons_subset.mp queued
      cases found : next e with
      | error fault =>
        simp only [walk, found] at ended
        cases ended
      | ok successors =>
        simp only [walk, found, ends_visit] at ended
        obtain ⟨rest, below, rfl⟩ := Outcome.map_eq_ok.mp ended
        have new : fresh seen successors ⊆ domain :=
          List.Subset.trans (fresh_subset ..) (closed e successors (.inl first) found).1
        have inside := ih (List.append_subset.mpr ⟨others, new⟩) below
        unfold collect
        split
        next => exact List.cons_subset.mpr ⟨first, inside⟩
        next => exact inside

theorem expandWith_eq_ok {fuel : Nat} {e expanded : Expression}
    (admitted : e ∈ domain ∨ hasException e = false)
    (ended : expandWith next fuel e = .ok expanded) :
    expanded = e ∨ ∃ terminals ⊆ domain, Expression.combine? .or terminals = some expanded := by
  rw [expandWith_eq] at ended
  cases found : next e with
  | error fault => simp [found] at ended
  | ok start =>
    cases start with
    | nil =>
      simp only [found, Except.ok.injEq] at ended
      exact .inl ended.symm
    | cons head rest =>
      simp only [found] at ended
      obtain ⟨terminals, below, rfl⟩ := Outcome.map_eq_ok.mp ended
      have inside := ends_subset closed (closed e _ admitted found).1 below
      unfold choiceOr
      cases joined : Expression.combine? .or terminals with
      | none => exact .inl rfl
      | some choice => exact .inr ⟨terminals, inside, joined⟩

end Walking

theorem closed_lookupAt (tables : equivalence.Canonical) (start : root.Canonical)
    (fuel depth : Nat) :
    Closed (equivalence.lookupAt fuel depth) (equivalence.meetable root) := by
  have plain (e : Expression) :
      equivalence.direct e ⊆ equivalence.meetable root ∧ (equivalence.direct e).Nodup :=
    ⟨fun _ member => mem_meetable_of_mem_values (direct_subset_values e member),
      (SortedSet.sorted_ofList _).nodup⟩
  induction depth with
  | zero =>
    intro e successors admitted found
    match e with
    | .withException term exception => cases found
    | .sentinel _ | .simple _ | .compound .. =>
      cases found
      exact plain _
  | succ depth ih =>
    intro e successors admitted found
    match e with
    | .withException term exception =>
      have met := admitted.resolve_right (by simp [hasException])
      rw [lookupAt_withException] at found
      cases inside : expandWith (equivalence.lookupAt fuel depth) fuel (.simple term) with
      | error fault =>
        rw [inside] at found
        cases found
      | ok expanded =>
        simp only [inside, carried] at found
        split at found
        next =>
          cases found
          exact plain _
        next different =>
          obtain ⟨carrying, attached, rfl⟩ := Outcome.map_eq_ok.mp found
          refine ⟨?_, (SortedSet.sorted_union carrying (SortedSet.sorted_ofList _)).nodup⟩
          intro e' member
          cases SortedSet.mem_union.mp member with
          | inr known => exact (plain _).1 known
          | inl carries =>
            -- The license that takes over the exception is an operand of some end of the walk.
            obtain ⟨carrier, rfl, operand⟩ := exists_operand_of_distribute attached carries
            obtain same | ⟨terminals, within, joined⟩ := expandWith_eq_ok ih (.inr rfl) inside
            · exact absurd same different
            · have parts (d : Expression) (end' : d ∈ terminals) : d.Canonical :=
                tables.of_meetable start (within end')
              obtain ⟨d, end', operand⟩ :=
                (Expression.mem_operands_of_combine? parts joined _).mp operand
              exact transfer_meetable met (mem_terms_of_operand (within end') operand)
    | .sentinel _ | .simple _ | .compound .. =>
      cases found
      exact plain _

/-- The expansion of a canonical expression is canonical. -/
theorem Canonical.expand (tables : equivalence.Canonical) (start : root.Canonical)
    {expanded : Expression} (ended : equivalence.expand root = .ok expanded) :
    expanded.Canonical := by
  have known : root ∈ equivalence.meetable root := mem_meetable.mpr (.inl (by simp))
  obtain rfl | ⟨terminals, inside, joined⟩ :=
    expandWith_eq_ok (closed_lookupAt tables start _ _) (.inl known) ended
  · exact start
  · exact Expression.canonical_of_combine? (fun d end' => tables.of_meetable start (inside end'))
      joined

/-! ## Walks never run out -/

section Fuel

variable {next : Expression → Except ExpansionFault (List Expression)} {domain : List Expression}
variable (closed : Closed next domain)
variable (sound : ∀ e, Settled (next e) → LooksUp equivalence e (next e))

include closed sound

/-- A walk with enough fuel stops before its end only where a look-up fails. -/
theorem exists_fault_of_walk {mark fault : ExpansionFault} {fuel : Nat}
    {queue seen : List Expression} (queued : queue ⊆ domain) (met : seen ⊆ domain)
    (once : seen.Nodup) (enough : domain.length + queue.length ≤ fuel + seen.length)
    (stopped : ends (walk next mark fuel queue seen) = .error fault) :
    ∃ e ∈ domain, ∃ queue' seen', Advances equivalence queue seen (e :: queue') seen' ∧
      next e = .error fault := by
  induction fuel generalizing queue seen with
  | zero =>
    cases queue with
    | nil => cases stopped
    | cons e queue =>
      -- More expressions would have been seen than there are.
      have few := once.length_le_of_subset met
      simp only [List.length_cons] at enough
      omega
  | succ fuel ih =>
    cases queue with
    | nil => cases stopped
    | cons e queue =>
      obtain ⟨first, others⟩ := List.cons_subset.mp queued
      cases found : next e with
      | error other =>
        simp only [walk, found] at stopped
        cases stopped
        exact ⟨e, first, queue, seen, .here, found⟩
      | ok successors =>
        simp only [walk, found, ends_visit] at stopped
        obtain ⟨inside, distinct⟩ := closed e successors (.inl first) found
        have new : fresh seen successors ⊆ domain := List.Subset.trans (fresh_subset ..) inside
        -- What is queued is seen at the same time, and one unit of fuel pays for the head.
        have paid : domain.length + (queue ++ fresh seen successors).length ≤
            fuel + (seen ++ fresh seen successors).length := by
          simp only [List.length_append, List.length_cons] at enough ⊢
          omega
        obtain ⟨e', met', queue', seen', advances, failed⟩ :=
          ih (List.append_subset.mpr ⟨others, new⟩) (List.append_subset.mpr ⟨met, new⟩)
            (nodup_append_fresh once distinct) paid (Outcome.map_eq_error.mp stopped)
        have head := looksUp_of_eq_ok sound found
        exact ⟨e', met', queue', seen', .visit head advances, failed⟩

/-- An expansion with enough fuel fails only where a look-up of something that it visits fails. -/
theorem exists_visit_of_expandWith {fault : ExpansionFault} {fuel : Nat} {e : Expression}
    (admitted : e ∈ domain ∨ hasException e = false) (enough : domain.length ≤ fuel)
    (failed : expandWith next fuel e = .error fault) :
    ∃ c, (c = e ∨ c ∈ domain) ∧ Visits equivalence e c ∧ next c = .error fault := by
  rw [expandWith_eq] at failed
  cases found : next e with
  | error other =>
    simp only [found, Except.error.injEq] at failed
    exact ⟨e, .inl rfl, .itself, by rw [found, failed]⟩
  | ok start =>
    cases start with
    | nil => simp [found] at failed
    | cons head rest =>
      simp only [found] at failed
      obtain ⟨inside, distinct⟩ := closed e _ admitted found
      have first := looksUp_of_eq_ok sound found
      obtain ⟨c, met, queue, seen, advances, reason⟩ :=
        exists_fault_of_walk closed sound inside inside distinct (by omega)
          (Outcome.map_eq_error.mp failed)
      exact ⟨c, .inr met, .queued first advances, reason⟩

end Fuel

end Licensing.Equivalence
