import Licensing.Document.Toml
import Mathlib.Data.List.Nodup
import Mathlib.Data.Option.Basic

/-! # Keys of a document

No table of a document that has been read has a key twice, at any depth.  Values are read with that property, and
each statement keeps it: what a statement changes is one table, by a key that is set in its place.

* `Datum.Distinct` — no table has a key twice.
* `Toml.keeps_updateAt?` — a change of one table keeps the property of all.
* `Toml.distinct_of_read?` — what is read has the property.
-/

namespace Licensing.Document

/-- No table has a key twice, at any depth. -/
inductive Datum.Distinct : Datum → Prop where
  | scalar {value : Datum} (plain : Toml.isContainer value = false) : Distinct value
  | list {items : List Datum} (inside : ∀ item ∈ items, Distinct item) : Distinct (.list items)
  | table {entries : Table} (nodup : (Table.keys entries).Nodup) (inside : ∀ row ∈ entries, Distinct row.2) :
      Distinct (.table entries)

theorem Datum.distinct_list_iff {items : List Datum} :
    (Datum.list items).Distinct ↔ ∀ item ∈ items, item.Distinct := by
  refine ⟨fun distinct => ?_, .list⟩
  cases distinct with
  | scalar plain => cases plain
  | list inside => exact inside

theorem Datum.distinct_table_iff {entries : Table} :
    (Datum.table entries).Distinct ↔ (Table.keys entries).Nodup ∧ ∀ row ∈ entries, row.2.Distinct := by
  refine ⟨fun distinct => ?_, fun ⟨nodup, inside⟩ => .table nodup inside⟩
  cases distinct with
  | scalar plain => cases plain
  | table nodup inside => exact ⟨nodup, inside⟩

theorem Datum.distinct_append_singleton {items : List Datum} {last : Datum} (inside : ∀ item ∈ items, item.Distinct)
    (distinct : last.Distinct) : (Datum.list (items ++ [last])).Distinct :=
  .list (List.forall_mem_append.mpr ⟨inside, List.forall_mem_singleton.mpr distinct⟩)

theorem Datum.distinct_noEntries : (Datum.table []).Distinct :=
  distinct_table_iff.mpr ⟨List.nodup_nil, by simp⟩

namespace Table

variable {entries : Table} {key : String} {value : Datum}

theorem isSome_get?_iff : (get? entries key).isSome = true ↔ key ∈ keys entries := by
  simp [get?, keys]

theorem keys_put (entries : Table) (key : String) (value : Datum) :
    (put entries key value).keys = if key ∈ keys entries then keys entries else keys entries ++ [key] := by
  induction entries with
  | nil => rfl
  | cons row entries ih =>
    by_cases same : row.1 = key
    · simp [put, keys, same]
    · have other : key ≠ row.1 := fun equal => same equal.symm
      have step : put (row :: entries) key value = row :: put entries key value := by simp [put, same]
      have keysStep (rows : Table) : keys (row :: rows) = row.1 :: keys rows := rfl
      rw [step, keysStep, ih, keysStep]
      split <;> simp_all

theorem mem_put {row : String × Datum} (member : row ∈ put entries key value) : row = (key, value) ∨ row ∈ entries := by
  induction entries with
  | nil => exact .inl (by simpa [put] using member)
  | cons first entries ih =>
    unfold put at member
    split at member
    next =>
      cases List.mem_cons.mp member with
      | inl here => exact .inl here
      | inr later => exact .inr (.tail _ later)
    next =>
      cases List.mem_cons.mp member with
      | inl here => exact .inr (here ▸ List.mem_cons_self)
      | inr later => exact (ih later).imp_right (.tail _)

theorem distinct_put (before : (Datum.table entries).Distinct) (distinct : value.Distinct) :
    (Datum.table (put entries key value)).Distinct := by
  obtain ⟨nodup, inside⟩ := Datum.distinct_table_iff.mp before
  refine .table ?_ fun row member => ?_
  · rw [keys_put]
    split
    next => exact nodup
    next fresh =>
      refine List.nodup_append.mpr ⟨nodup, by simp, fun old inside new last => ?_⟩
      exact fun same => fresh (List.mem_singleton.mp last ▸ same ▸ inside)
  · obtain rfl | old := mem_put member
    · exact distinct
    · exact inside row old

theorem distinct_of_get? (before : (Datum.table entries).Distinct) (found : get? entries key = some value) :
    value.Distinct := by
  obtain ⟨row, member, rfl⟩ := Option.map_eq_some_iff.mp found
  exact (Datum.distinct_table_iff.mp before).2 row (List.mem_of_find?_eq_some member)

end Table

namespace Toml

/-! ## Tables under construction -/

/-- A change of a table by which no table gets a key twice. -/
def Keeps (change : Table → Option Table) : Prop :=
  ∀ before after, change before = some after → (Datum.table before).Distinct → (Datum.table after).Distinct

variable {key : String} {value : Datum}

theorem keeps_some : Keeps some := by
  rintro before _ ⟨⟩ distinct
  exact distinct

theorem keeps_putNew? (new : value.Distinct) : Keeps (putNew? key value) := by
  intro before after changed distinct
  unfold putNew? at changed
  split at changed
  next => cases changed
  next =>
    cases changed
    exact Table.distinct_put distinct new

theorem keeps_addItem? : Keeps (addItem? key) := by
  intro before after changed distinct
  unfold addItem? at changed
  split at changed
  next =>
    cases changed
    exact Table.distinct_put distinct (.list (by simpa using Datum.distinct_noEntries))
  next items found =>
    cases changed
    have old := Datum.distinct_list_iff.mp (Table.distinct_of_get? distinct found)
    exact Table.distinct_put distinct (Datum.distinct_append_singleton old Datum.distinct_noEntries)
  next => cases changed

theorem keeps_updateAt? {change : Table → Option Table} (keeps : Keeps change) (intoLists : Bool)
    (path : List String) : Keeps (updateAt? intoLists change path) := by
  -- The tables on the path are changed from the last to the first, each in its place in the one before.
  induction path with
  | nil => exact keeps
  | cons key path ih =>
    intro before after changed distinct
    unfold updateAt? at changed
    split at changed
    next =>
      obtain ⟨inner, inside, rfl⟩ := Option.map_eq_some_iff.mp changed
      exact Table.distinct_put distinct (ih _ _ inside Datum.distinct_noEntries)
    next old found =>
      obtain ⟨inner, inside, rfl⟩ := Option.map_eq_some_iff.mp changed
      exact Table.distinct_put distinct (ih _ _ inside (Table.distinct_of_get? distinct found))
    next items found =>
      have old := Datum.distinct_list_iff.mp (Table.distinct_of_get? distinct found)
      split at changed
      next =>
        split at changed
        next last atEnd =>
          obtain ⟨inner, inside, rfl⟩ := Option.map_eq_some_iff.mp changed
          have front : ∀ item ∈ items.dropLast, item.Distinct :=
            fun item member => old item (List.dropLast_subset items member)
          have new := ih _ _ inside (old _ (List.mem_of_getLast? atEnd))
          exact Table.distinct_put distinct (Datum.distinct_append_singleton front new)
        next => cases changed
      next => cases changed
    next => cases changed

/-! ## Values -/

theorem plain_of_readWord? {words : List (String × Datum)} {text after : List Char}
    (plain : ∀ word ∈ words, isContainer word.2 = false) (read : readWord? words text = some (value, after)) :
    isContainer value = false := by
  obtain ⟨⟨word, meant⟩, member, found⟩ := List.exists_of_findSome?_eq_some read
  dsimp only at found
  split at found
  next =>
    cases found
    exact plain _ member
  next => cases found

theorem plain_of_readBased? {text after : List Char} (read : readBased? text = some (value, after)) :
    isContainer value = false := by
  unfold readBased? at read
  dsimp only at read
  split at read
  case h_4 => cases read
  all_goals
    obtain ⟨digits, -, same⟩ := Option.map_eq_some_iff.mp read
    cases same
    rfl

theorem plain_of_readDecimal? {text after : List Char} (read : readDecimal? text = some (value, after)) :
    isContainer value = false := by
  simp only [readDecimal?, Option.bind_eq_bind] at read
  split at read
  all_goals
    obtain ⟨whole, -, read⟩ := Option.bind_eq_some_iff.mp read
    split at read
    next =>
      obtain ⟨_, -, same⟩ := Option.bind_eq_some_iff.mp read
      cases same
      rfl
    next =>
      cases read
      rfl

theorem plain_of_readDated? {text after : List Char} (read : readDated? text = some (some (value, after))) :
    isContainer value = false := by
  simp only [readDated?, Option.bind_eq_bind, Option.bind_eq_some_iff] at read
  obtain ⟨date, -, read⟩ := read
  split at read
  next => cases read
  next => split at read <;> cases read <;> rfl

theorem plain_of_readScalar? {text after : List Char} (read : readScalar? text = some (value, after)) :
    isContainer value = false := by
  unfold readScalar? at read
  split at read
  next found word =>
    exact plain_of_readWord? (by decide) (read ▸ word)
  next =>
    split at read
    next found dated => exact plain_of_readDated? (read ▸ dated)
    next =>
      simp only [Option.orElse_eq_orElse, Option.orElse_eq_or, Option.or_eq_some_iff] at read
      obtain time | ⟨-, based | ⟨-, decimal | ⟨-, word⟩⟩⟩ := read
      · obtain ⟨found, -, same⟩ := Option.map_eq_some_iff.mp time
        cases same
        rfl
      · exact plain_of_readBased? based
      · exact plain_of_readDecimal? decimal
      · refine plain_of_readWord? (fun word member => ?_) word
        obtain ⟨special, -, rfl⟩ := List.mem_map.mp member
        rfl

/-- What is read with some fuel has no key twice. -/
structure ReadDistinct (fuel : Nat) : Prop where
  ofValue : ∀ text value after, readValue? fuel text = some (value, after) → value.Distinct
  ofItems : ∀ text items after, readItems? fuel text = some (items, after) → ∀ item ∈ items, item.Distinct
  ofPairs : ∀ marks table text whole after, readPairs? fuel marks table text = some (whole, after) →
    (Datum.table table).Distinct → (Datum.table whole).Distinct

namespace ReadDistinct

variable {fuel : Nat} (inner : ReadDistinct fuel) {text after : List Char}

include inner

theorem value_succ (read : readValue? (fuel + 1) text = some (value, after)) : value.Distinct := by
  unfold readValue? at read
  split at read
  next rest =>
    obtain ⟨⟨items, _⟩, inside, same⟩ := Option.bind_eq_some_iff.mp read
    cases same
    exact .list (inner.ofItems _ _ _ inside)
  next rest =>
    split at read
    next =>
      cases read
      exact Datum.distinct_noEntries
    next =>
      obtain ⟨⟨table, _⟩, inside, same⟩ := Option.bind_eq_some_iff.mp read
      cases same
      exact inner.ofPairs _ _ _ _ _ inside Datum.distinct_noEntries
  next =>
    split at read
    next =>
      obtain ⟨found, -, same⟩ := Option.map_eq_some_iff.mp read
      cases same
      exact .scalar rfl
    next => exact .scalar (plain_of_readScalar? read)
  next => cases read

theorem items_succ {items : List Datum} (read : readItems? (fuel + 1) text = some (items, after)) :
    ∀ item ∈ items, item.Distinct := by
  simp only [readItems?, Option.bind_eq_bind, Option.bind_eq_some_iff] at read
  obtain ⟨start, -, read⟩ := read
  split at read
  next =>
    cases read
    simp
  next =>
    obtain ⟨⟨item, _⟩, first, read⟩ := Option.bind_eq_some_iff.mp read
    obtain ⟨behind, -, read⟩ := Option.bind_eq_some_iff.mp read
    have here := inner.ofValue _ _ _ first
    split at read
    next =>
      cases read
      simpa using here
    next =>
      obtain ⟨⟨others, _⟩, rest, same⟩ := Option.bind_eq_some_iff.mp read
      cases same
      exact List.forall_mem_cons.mpr ⟨here, inner.ofItems _ _ _ rest⟩
    next => cases read

theorem pairs_succ {marks : Marks} {table whole : Table}
    (read : readPairs? (fuel + 1) marks table text = some (whole, after)) (distinct : (Datum.table table).Distinct) :
    (Datum.table whole).Distinct := by
  simp only [readPairs?, Option.bind_eq_bind, Option.bind_eq_some_iff] at read
  obtain ⟨_, -, _, -, ⟨value, _⟩, inside, _, -, stem, -, longer, changed, read⟩ := read
  have next := keeps_updateAt? (keeps_putNew? (inner.ofValue _ _ _ inside)) _ _ _ _ changed distinct
  split at read
  next =>
    cases read
    exact next
  next => exact inner.ofPairs _ _ _ _ _ read next
  next => cases read

end ReadDistinct

theorem readDistinct (fuel : Nat) : ReadDistinct fuel := by
  induction fuel with
  | zero =>
    refine ⟨?_, ?_, ?_⟩
    · rintro _ _ _ ⟨⟩
    · rintro _ _ _ ⟨⟩
    · rintro _ _ _ _ _ ⟨⟩
  | succ fuel ih => exact ⟨fun _ _ _ => ih.value_succ, fun _ _ _ => ih.items_succ, fun _ _ _ _ _ => ih.pairs_succ⟩

/-! ## Statements -/

/-- The table of a draft has no key twice. -/
def Draft.Distinct (draft : Draft) : Prop :=
  (Datum.table draft.table).Distinct

theorem Draft.distinct_empty : Draft.empty.Distinct :=
  Datum.distinct_noEntries

variable {draft next : Draft} {path : List String}

theorem Draft.distinct_assign? (distinct : draft.Distinct) (new : value.Distinct)
    (done : draft.assign? path value = some next) : next.Distinct := by
  simp only [assign?, Option.bind_eq_bind, Option.bind_eq_some_iff] at done
  obtain ⟨_, -, _, -, stem, -, table, changed, same⟩ := done
  cases same
  exact keeps_updateAt? (keeps_putNew? new) _ _ _ _ changed distinct

theorem Draft.distinct_openTable? (distinct : draft.Distinct) (done : draft.openTable? path = some next) :
    next.Distinct := by
  simp only [openTable?, Option.bind_eq_bind, Option.bind_eq_some_iff] at done
  obtain ⟨_, -, table, changed, same⟩ := done
  cases same
  exact keeps_updateAt? keeps_some _ _ _ _ changed distinct

theorem Draft.distinct_openItem? (distinct : draft.Distinct) (done : draft.openItem? path = some next) :
    next.Distinct := by
  simp only [openItem?, Option.bind_eq_bind, Option.bind_eq_some_iff] at done
  obtain ⟨_, -, stem, -, table, changed, same⟩ := done
  cases same
  exact keeps_updateAt? keeps_addItem? _ _ _ _ changed distinct

theorem distinct_readStatement? {text after : List Char} (distinct : draft.Distinct)
    (read : readStatement? draft text = some (next, after)) : next.Distinct := by
  unfold readStatement? at read
  split at read
  next =>
    obtain ⟨_, -, read⟩ := Option.bind_eq_some_iff.mp read
    dsimp only at read
    split at read
    next =>
      obtain ⟨opened, done, same⟩ := Option.bind_eq_some_iff.mp read
      cases same
      exact Draft.distinct_openItem? distinct done
    next => cases read
  next =>
    simp only [Option.bind_eq_bind, Option.bind_eq_some_iff] at read
    obtain ⟨_, -, opened, done, _, -, same⟩ := read
    cases same
    exact Draft.distinct_openTable? distinct done
  next =>
    simp only [Option.bind_eq_bind, Option.bind_eq_some_iff] at read
    obtain ⟨_, -, _, -, ⟨value, _⟩, inside, assigned, done, same⟩ := read
    cases same
    exact Draft.distinct_assign? distinct ((readDistinct _).ofValue _ _ _ inside) done

theorem distinct_readStatements? {fuel : Nat} {text : List Char} (distinct : draft.Distinct)
    (read : readStatements? fuel draft text = some next) : next.Distinct := by
  induction fuel generalizing draft text with
  | zero => cases read
  | succ fuel ih =>
    unfold readStatements? at read
    split at read
    next =>
      cases read
      exact distinct
    next => exact ih distinct read
    next =>
      -- A statement or none, and then the end of its line.
      split at read
      all_goals
        obtain ⟨⟨changed, after⟩, done, read⟩ := Option.bind_eq_some_iff.mp read
        obtain ⟨behind, -, ended⟩ := Option.bind_eq_some_iff.mp read
        have kept : changed.Distinct := by
          first
            | exact distinct_readStatement? distinct done
            | exact (Prod.mk.inj (Option.some.inj done)).1 ▸ distinct
        split at ended
        next =>
          cases ended
          exact kept
        next => exact ih kept ended
        next => cases ended

/-- No table of a document has a key twice. -/
theorem distinct_of_read? {text : String} {table : Table} (read : read? text = some table) :
    (Datum.table table).Distinct := by
  obtain ⟨draft, done, rfl⟩ := Option.map_eq_some_iff.mp read
  exact distinct_readStatements? Draft.distinct_empty done

end Toml

end Licensing.Document
