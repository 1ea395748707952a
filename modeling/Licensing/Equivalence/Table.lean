import Licensing.Expression.Build

/-! # Equivalence tables

A table says which expressions an expression stands for. Several tables are consulted together.

* `EquivalenceTable.put`, `EquivalenceTable.add` — set or extend an entry.
* `Equivalence` — the tables in the order of registration.
* `Equivalence.direct` — what all tables together say about an expression.
-/

namespace Licensing

/-- Entries, no key twice. -/
abbrev EquivalenceTable := List (Expression × List Expression)

namespace EquivalenceTable

/-- What the table says about an expression; nothing if it has no entry. -/
def find (table : EquivalenceTable) (key : Expression) : List Expression :=
  (table.lookup key).getD []

/-- Changes the entry of a key, in its place; a new entry starts empty and comes last. -/
def change (key : Expression) (update : List Expression → List Expression) :
    EquivalenceTable → EquivalenceTable
  | [] => [(key, update [])]
  | (k, values) :: rest =>
    if k = key then (k, update values) :: rest else (k, values) :: change key update rest

def put (table : EquivalenceTable) (key : Expression) (values : List Expression) :
    EquivalenceTable :=
  change key (fun _ => values) table

def add (table : EquivalenceTable) (key : Expression) (values : List Expression) :
    EquivalenceTable :=
  change key (· ++ values) table

def values (table : EquivalenceTable) : List Expression :=
  table.flatMap Prod.snd

theorem find_change (table : EquivalenceTable) (key other : Expression)
    (update : List Expression → List Expression) :
    find (change key update table) other =
      if other = key then update (find table key) else find table other := by
  induction table with
  | nil =>
    by_cases same : other = key
    · simp [change, find, same]
    · have : (other == key) = false := by simpa using same
      simp [change, find, List.lookup_cons, same, this]
  | cons entry rest ih =>
    obtain ⟨k, values⟩ := entry
    unfold change
    by_cases here : k = key
    · subst here
      by_cases same : other = k
      · simp [find, same]
      · have : (other == k) = false := by simpa using same
        simp [find, List.lookup_cons, same, this]
    · have notKey : (key == k) = false := by simpa using Ne.symm here
      rw [if_neg here]
      by_cases first : other = k
      · subst first
        simp [find, here]
      · have : (other == k) = false := by simpa using first
        simpa [find, List.lookup_cons, this, notKey] using ih

theorem find_put_self (table : EquivalenceTable) (key : Expression) (values : List Expression) :
    find (put table key values) key = values := by
  simp [put, find_change]

end EquivalenceTable

/-- Tables in the order of registration. -/
structure Equivalence where
  tables : List EquivalenceTable
deriving DecidableEq

namespace Equivalence

def register (equivalence : Equivalence) (table : EquivalenceTable) : Equivalence :=
  ⟨equivalence.tables ++ [table]⟩

/-- What the tables together say about an expression, in canonical order. -/
def direct (equivalence : Equivalence) (e : Expression) : List Expression :=
  SortedSet.ofList (equivalence.tables.flatMap (·.find e))

def values (equivalence : Equivalence) : List Expression :=
  equivalence.tables.flatMap EquivalenceTable.values

def shown (equivalence : Equivalence) : String :=
  s!"LicenseEquivalence(tables={equivalence.tables.length})"

end Equivalence

end Licensing
