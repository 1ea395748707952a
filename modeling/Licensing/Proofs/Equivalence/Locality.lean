import Licensing.Proofs.Equivalence.Nesting

/-! # The entries that a run consults

A look-up asks the tables for the entry of its expression, and for an expression with an exception also for
every entry that the expansion of the license asks for.  Nothing else in the tables matters: stacks of tables
that say the same about all these expressions have the same runs (`LooksUp.congr`, `Expands.congr`).  So a
run is determined by what the tables together say about each expression, and neither by their order nor by
their number.

* `Consults` — the expressions whose entries a look-up asks for.
* `direct_ext`, `mem_direct_register` — what several tables say together.
-/

namespace Licensing.Equivalence

variable {equivalence other : Equivalence} {e : Expression}

/-! ## What the tables say together -/

theorem mem_direct_iff {d : Expression} :
    d ∈ equivalence.direct e ↔ ∃ table ∈ equivalence.tables, d ∈ table.find e := by
  rw [direct, SortedSet.mem_ofList, List.mem_flatMap]

/-- Entries are sets: only their members count. -/
theorem direct_ext (same : ∀ d, d ∈ other.direct e ↔ d ∈ equivalence.direct e) :
    other.direct e = equivalence.direct e :=
  SortedSet.eq_of_mem_iff (SortedSet.sorted_ofList _) (SortedSet.sorted_ofList _) same

theorem mem_direct_register {table : EquivalenceTable} {d : Expression} :
    d ∈ (equivalence.register table).direct e ↔ d ∈ equivalence.direct e ∨ d ∈ table.find e := by
  simp only [mem_direct_iff, register, List.mem_append, List.mem_singleton, or_and_right, exists_or,
    exists_eq_left]

/-! ## Runs of other tables -/

/-- The look-up of an expression consults the entry of `c`. -/
inductive Consults (equivalence : Equivalence) : Expression → Expression → Prop
  | itself {e : Expression} : Consults equivalence e e
  | inside {term : SimpleTerm} {exception : LicenseException} {v c : Expression}
      (visits : Visits equivalence (.simple term) v) (deeper : Consults equivalence v c) :
      Consults equivalence (.withException term exception) c

theorem carried_congr {term : SimpleTerm} {exception : LicenseException}
    {outcome : Except ExpansionFault Expression}
    (same : other.direct (.withException term exception) =
      equivalence.direct (.withException term exception)) :
    other.carried term exception outcome = equivalence.carried term exception outcome := by
  cases outcome with
  | error fault => rfl
  | ok expanded => simp only [carried, same]

mutual

/-- Tables that agree on all entries that a look-up consults have the same look-up. -/
theorem LooksUp.congr {e : Expression} {r : Except ExpansionFault (List Expression)} :
    LooksUp equivalence e r →
      (∀ c, Consults equivalence e c → other.direct c = equivalence.direct c) → LooksUp other e r
  | .direct plain, agree => agree e .itself ▸ .direct plain
  | .carried inside, agree => by
    rw [← carried_congr (agree _ .itself)]
    exact .carried (inside.congr fun v visits c deeper => agree c (.inside visits deeper))

theorem Walks.congr {queue seen : List Expression} {r : Except ExpansionFault (List Expression)} :
    Walks equivalence queue seen r →
      (∀ v queue' seen', Advances equivalence queue seen (v :: queue') seen' →
        ∀ c, Consults equivalence v c → other.direct c = equivalence.direct c) →
      Walks other queue seen r
  | .done, _ => .done
  | .fault head, agree => .fault (head.congr (agree _ _ _ .here))
  | .visit head rest, agree =>
    .visit (head.congr (agree _ _ _ .here))
      (rest.congr fun v queue' seen' advances => agree v queue' seen' (.visit head advances))

/-- Tables that agree on all entries that an expansion consults have the same expansion. -/
theorem Expands.congr {e : Expression} {r : Except ExpansionFault Expression} :
    Expands equivalence e r →
      (∀ v, Visits equivalence e v →
        ∀ c, Consults equivalence v c → other.direct c = equivalence.direct c) →
      Expands other e r
  | .fault start, agree => .fault (start.congr (agree _ .itself))
  | .itself start, agree => .itself (start.congr (agree _ .itself))
  | .walk first nonempty rest, agree =>
    .walk (first.congr (agree _ .itself)) nonempty
      (rest.congr fun v _ _ advances => agree v (.queued first advances))

end

end Licensing.Equivalence
