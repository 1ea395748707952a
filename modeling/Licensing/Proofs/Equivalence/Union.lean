import Mathlib.Data.List.Dedup
import Licensing.Proofs.Equivalence.Locality
import Licensing.Proofs.Equivalence.Termination

/-! # Uniting tables

Tables are consulted together, so neither their order matters nor how their entries are spread over them.
Two stacks that say the same about every expression answer alike: they have the same look-ups and the same
expansions, with the same values and the same faults, and leave the same ones without an end
(`Alike.of_entries`).

* `EquivalenceTable.united` — the table with all entries of several tables, those of one key united.
* `Alike` — stacks of tables that answer alike.
-/

namespace Licensing

namespace EquivalenceTable

variable {tables : List EquivalenceTable} {key d : Expression}

/-- The expressions that a table has entries for. -/
def keys (table : EquivalenceTable) : List Expression :=
  table.map Prod.fst

/-- The single table of all entries; entries with the same key are united. -/
def united (tables : List EquivalenceTable) : EquivalenceTable :=
  (tables.flatMap keys).dedup.map fun key => (key, tables.flatMap (·.find key))

theorem find_eq_nil {table : EquivalenceTable} (unlisted : key ∉ table.keys) : table.find key = [] := by
  have missing : table.lookup key = none := by
    refine List.lookup_eq_none_iff.mpr fun entry member => ?_
    have other : entry.1 ≠ key := fun same => unlisted (same ▸ List.mem_map_of_mem member)
    simpa using other.symm
  rw [find, missing]
  rfl

theorem find_of_keys (keys : List Expression) (entry : Expression → List Expression) (key : Expression) :
    find (keys.map fun k => (k, entry k)) key = if key ∈ keys then entry key else [] := by
  induction keys with
  | nil => rfl
  | cons k keys ih =>
    by_cases here : key = k
    · subst here
      simp [find]
    · have other : (key == k) = false := by simpa using here
      simpa [find, List.lookup_cons, other, here] using ih

theorem nodup_keys_united (tables : List EquivalenceTable) : (united tables).keys.Nodup := by
  have same : (united tables).keys = (tables.flatMap keys).dedup := by
    simp [united, keys, List.map_map, Function.comp_def]
  exact same ▸ List.nodup_dedup _

theorem mem_find_united : d ∈ (united tables).find key ↔ ∃ table ∈ tables, d ∈ table.find key := by
  simp only [united, find_of_keys, List.mem_dedup]
  split
  next => exact List.mem_flatMap
  next unlisted =>
    -- A key without an entry in any table stands for nothing.
    refine iff_of_false List.not_mem_nil ?_
    rintro ⟨table, member, inside⟩
    have absent : key ∉ table.keys := fun listed => unlisted (List.mem_flatMap.mpr ⟨table, member, listed⟩)
    rw [find_eq_nil absent] at inside
    cases inside

theorem mem_values_of_mem_find {table : EquivalenceTable} (member : d ∈ table.find key) :
    d ∈ table.values := by
  have inside : d ∈ (Equivalence.mk [table]).direct key :=
    Equivalence.mem_direct_iff.mpr ⟨table, List.mem_singleton_self _, member⟩
  simpa [Equivalence.values] using Equivalence.direct_subset_values key inside

end EquivalenceTable

namespace Equivalence

open EquivalenceTable (united)

variable {equivalence other : Equivalence}

theorem Canonical.of_united {tables : List EquivalenceTable} (canonical : (Equivalence.mk tables).Canonical) :
    (Equivalence.mk [united tables]).Canonical := by
  intro d member
  obtain ⟨key, -, inside⟩ : ∃ key ∈ (tables.flatMap EquivalenceTable.keys).dedup,
      d ∈ tables.flatMap (·.find key) := by
    simpa [values, united, EquivalenceTable.values, List.flatMap_map] using member
  obtain ⟨table, inTables, found⟩ := List.mem_flatMap.mp inside
  exact canonical d
    (List.mem_flatMap.mpr ⟨table, inTables, EquivalenceTable.mem_values_of_mem_find found⟩)

theorem Canonical.of_perm {tables tables' : List EquivalenceTable}
    (canonical : (Equivalence.mk tables).Canonical) (perm : tables'.Perm tables) :
    (Equivalence.mk tables').Canonical :=
  fun d member => canonical d ((perm.flatMap_right EquivalenceTable.values).mem_iff.mp member)

/-! ## Stacks that answer alike -/

/-- Two stacks of tables answer alike: a look-up or an expansion has an outcome with both or with neither, and
it is the same value or the same fault. -/
structure Alike (other equivalence : Equivalence) : Prop where
  looksUp : ∀ e r, LooksUp other e r ↔ LooksUp equivalence e r
  expands : ∀ e r, Expands other e r ↔ Expands equivalence e r
  lookup : ∀ e r, Settled r → (other.lookup e = r ↔ equivalence.lookup e = r)
  expand : ∀ e, e.Canonical → ∀ r, Settled r → (other.expand e = r ↔ equivalence.expand e = r)

/-- A run consults entries only, so stacks that say the same have the same runs. -/
theorem Alike.of_direct (tables : other.Canonical) (tables' : equivalence.Canonical)
    (same : ∀ e, other.direct e = equivalence.direct e) : Alike other equivalence := by
  have looksUp (e : Expression) (r : Except ExpansionFault (List Expression)) :
      LooksUp other e r ↔ LooksUp equivalence e r :=
    ⟨fun run => run.congr fun c _ => (same c).symm, fun run => run.congr fun c _ => same c⟩
  have expands (e : Expression) (r : Except ExpansionFault Expression) :
      Expands other e r ↔ Expands equivalence e r :=
    ⟨fun run => run.congr fun _ _ c _ => (same c).symm, fun run => run.congr fun _ _ c _ => same c⟩
  refine ⟨looksUp, expands, fun e r settled => ?_, fun e canonical r settled => ?_⟩
  · have runs := looksUp e r
    rwa [looksUp_iff tables, looksUp_iff tables', and_iff_left settled, and_iff_left settled] at runs
  · have runs := expands e r
    rwa [expands_iff tables canonical, expands_iff tables' canonical, and_iff_left settled,
      and_iff_left settled] at runs

theorem Alike.of_entries (tables : other.Canonical) (tables' : equivalence.Canonical)
    (same : ∀ key d, (∃ table ∈ other.tables, d ∈ table.find key) ↔
      ∃ table ∈ equivalence.tables, d ∈ table.find key) : Alike other equivalence := by
  refine .of_direct tables tables' fun e => direct_ext fun d => ?_
  rw [mem_direct_iff, mem_direct_iff]
  exact same e d

theorem Alike.of_perm {tables tables' : List EquivalenceTable}
    (canonical : (Equivalence.mk tables).Canonical) (perm : tables'.Perm tables) :
    Alike ⟨tables'⟩ ⟨tables⟩ :=
  .of_entries (canonical.of_perm perm) canonical fun _ _ => by simp only [perm.mem_iff]

theorem Alike.united {tables : List EquivalenceTable} (canonical : (Equivalence.mk tables).Canonical) :
    Alike ⟨[united tables]⟩ ⟨tables⟩ := by
  refine .of_entries canonical.of_united canonical fun key d => ?_
  simp only [List.mem_singleton, exists_eq_left, EquivalenceTable.mem_find_united]

end Equivalence

end Licensing
