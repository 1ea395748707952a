import Licensing.Proofs.Registry.Entries

/-! # Adding entries to a list

An entry that is put into a list takes the place of the entry with its identifier, or comes last.  So a list that
gets further entries keeps its order, with the new identifiers behind the old ones, and holds the further entries
and those of the old ones that are not replaced.

* `Listed.ids_foldl_put`, `Listed.find?_foldl_put` — the identifiers and the entries of the longer list.
* `Registry.Merges`, `Registry.merges_of_lists` — what becomes of a list in one document and a list in another one on
  top of it.
-/

namespace Licensing

open Document (Datum Table)

namespace Listed

theorem find?_cons (first : Listed) (rest : List Listed) (id : String) :
    find? (first :: rest) id = if first.id = id then some first else find? rest id := by
  by_cases same : first.id = id
  · simp [find?, same]
  · simp [find?, same]

theorem find?_put (entries : List Listed) (entry : Listed) (id : String) :
    find? (put entries entry) id = if entry.id = id then some entry else find? entries id := by
  induction entries with
  | nil => exact find?_cons entry [] id
  | cons first rest ih =>
    by_cases same : first.id = entry.id
    · have step : put (first :: rest) entry = entry :: rest := by simp [put, same]
      rw [step, find?_cons, find?_cons, same]
      split <;> rfl
    · have step : put (first :: rest) entry = first :: put rest entry := by simp [put, same]
      rw [step, find?_cons, find?_cons, ih]
      by_cases here : entry.id = id
      · rw [if_pos here, if_pos here, if_neg (here ▸ same)]
      · rw [if_neg here, if_neg here]

theorem ids_put (entries : List Listed) (entry : Listed) : (put entries entry).map Listed.id =
    if entry.id ∈ entries.map Listed.id then entries.map Listed.id else entries.map Listed.id ++ [entry.id] := by
  induction entries with
  | nil => simp [put]
  | cons first rest ih =>
    by_cases same : first.id = entry.id
    · simp [put, same]
    · have other : entry.id ≠ first.id := fun equal => same equal.symm
      have step : put (first :: rest) entry = first :: put rest entry := by simp [put, same]
      rw [step, List.map_cons, ih]
      split <;> simp_all

theorem find?_eq_none_iff {entries : List Listed} {id : String} :
    find? entries id = none ↔ id ∉ entries.map Listed.id := by
  simp [find?]

theorem find?_of_mem {entries : List Listed} (nodup : (entries.map Listed.id).Nodup) {entry : Listed}
    (member : entry ∈ entries) : find? entries entry.id = some entry := by
  induction entries with
  | nil => cases member
  | cons first rest ih =>
    obtain ⟨fresh, nodup⟩ := List.nodup_cons.mp nodup
    rw [find?_cons]
    cases List.mem_cons.mp member with
    | inl same => rw [same, if_pos rfl]
    | inr later =>
      have other : first.id ≠ entry.id := fun same => fresh (same ▸ List.mem_map_of_mem later)
      rw [if_neg other, ih nodup later]

theorem ids_foldl_put {entries new : List Listed} (nodup : (new.map Listed.id).Nodup) :
    (new.foldl put entries).map Listed.id =
      entries.map Listed.id ++ (new.map Listed.id).filter (· ∉ entries.map Listed.id) := by
  induction new generalizing entries with
  | nil => simp
  | cons entry new ih =>
    obtain ⟨fresh, nodup⟩ := List.nodup_cons.mp nodup
    rw [List.foldl_cons, ih nodup, ids_put, List.map_cons]
    by_cases old : entry.id ∈ entries.map Listed.id
    · rw [if_pos old, List.filter_cons_of_neg (by simpa using old)]
    · rw [if_neg old, List.filter_cons_of_pos (by simpa using old), List.append_assoc, List.singleton_append]
      refine congrArg (entries.map Listed.id ++ entry.id :: ·) (List.filter_congr fun id member => ?_)
      -- The entry is among the old ones now, which no later entry notices.
      have other : id ≠ entry.id := fun same => fresh (same ▸ member)
      simp [other]

theorem find?_foldl_put {entries new : List Listed} (nodup : (new.map Listed.id).Nodup) (id : String) :
    find? (new.foldl put entries) id = (find? new id).or (find? entries id) := by
  induction new generalizing entries with
  | nil => simp [find?]
  | cons entry new ih =>
    obtain ⟨fresh, nodup⟩ := List.nodup_cons.mp nodup
    rw [List.foldl_cons, ih nodup, find?_put, find?_cons]
    by_cases here : entry.id = id
    · -- No later entry has this identifier, so the entry stays.
      rw [if_pos here, if_pos here, find?_eq_none_iff.mpr (here ▸ fresh), Option.none_or, Option.some_or]
    · rw [if_neg here, if_neg here]

end Listed

namespace Registry

/-! ## Lists of documents -/

variable {provider : String} {table base user : Table} {entries : List Listed}

theorem ids_of_lists (lists : List.Forall₂ (Lists provider) table entries) : entries.map Listed.id = table.keys := by
  induction lists with
  | nil => rfl
  | cons first _ ih => exact List.cons_eq_cons.mpr ⟨first.id, ih⟩

/-- The list of a document with a user's list on top of it. -/
structure Merges (base user : Table) (entries : List Listed) : Prop where
  /-- Identifiers keep their places, and new ones follow. -/
  order : entries.map Listed.id = base.keys ++ user.keys.filter (· ∉ base.keys)
  /-- An entry is found under its identifier. -/
  keyed : ∀ entry ∈ entries, Listed.find? entries entry.id = some entry
  ofUser : ∀ row ∈ user, ∃ entry ∈ entries, Lists "user" row entry
  ofBase : ∀ row ∈ base, row.1 ∉ user.keys → ∃ entry ∈ entries, Lists "SPDX" row entry

theorem merges_of_lists {old new : List Listed} (distinct : base.keys.Nodup) (distinct' : user.keys.Nodup)
    (lists : List.Forall₂ (Lists "SPDX") base old) (lists' : List.Forall₂ (Lists "user") user new) :
    Merges base user (new.foldl Listed.put old) := by
  have ids := ids_of_lists lists
  have ids' := ids_of_lists lists'
  have order : (new.foldl Listed.put old).map Listed.id = base.keys ++ user.keys.filter (· ∉ base.keys) := by
    rw [Listed.ids_foldl_put (ids' ▸ distinct'), ids, ids']
  have found (id : String) : Listed.find? (new.foldl Listed.put old) id =
      (Listed.find? new id).or (Listed.find? old id) := Listed.find?_foldl_put (ids' ▸ distinct') id
  have nodup : ((new.foldl Listed.put old).map Listed.id).Nodup := by
    rw [order]
    refine List.nodup_append.mpr ⟨distinct, distinct'.filter _, fun id inBase other inUser => ?_⟩
    rintro rfl
    exact of_decide_eq_true (List.mem_filter.mp inUser).2 inBase
  refine ⟨order, fun entry member => Listed.find?_of_mem nodup member, fun row member => ?_, fun row member other => ?_⟩
  · obtain ⟨entry, inNew, listed⟩ := exists_of_forall₂ lists' member
    have here : Listed.find? (new.foldl Listed.put old) entry.id = some entry := by
      rw [found, Listed.find?_of_mem (ids' ▸ distinct') inNew, Option.some_or]
    exact ⟨entry, List.mem_of_find?_eq_some here, listed⟩
  · obtain ⟨entry, inOld, listed⟩ := exists_of_forall₂ lists member
    have missing : Listed.find? new entry.id = none := by rwa [Listed.find?_eq_none_iff, ids', listed.id]
    have here : Listed.find? (new.foldl Listed.put old) entry.id = some entry := by
      rw [found, missing, Option.none_or, Listed.find?_of_mem (ids ▸ distinct) inOld]
    exact ⟨entry, List.mem_of_find?_eq_some here, listed⟩

/-- An entry that is left when a user's list is put on top of a list. -/
def Remains (base user : Table) (row : String × Datum) : Prop :=
  row ∈ user ∨ row ∈ base ∧ row.1 ∉ user.keys

/-- The title of an entry is not blank. -/
def HasTitle (row : String × Datum) : Prop :=
  ∀ title uris, Describes row title uris → ∃ c ∈ title.toList, Text.isBlank c = false

namespace Merges

variable (merges : Merges base user entries)

include merges

theorem mem_ids_iff {id : String} : id ∈ entries.map Listed.id ↔ id ∈ base.keys ∨ id ∈ user.keys := by
  rw [merges.order, List.mem_append, List.mem_filter]
  by_cases old : id ∈ base.keys <;> simp [old]

theorem exists_entry {row : String × Datum} (remains : Remains base user row) :
    ∃ entry ∈ entries, ∃ provider, Lists provider row entry := by
  obtain inUser | ⟨inBase, other⟩ := remains
  · obtain ⟨entry, member, listed⟩ := merges.ofUser row inUser
    exact ⟨entry, member, _, listed⟩
  · obtain ⟨entry, member, listed⟩ := merges.ofBase row inBase other
    exact ⟨entry, member, _, listed⟩

/-- Nothing else is listed. -/
theorem exists_row {entry : Listed} (member : entry ∈ entries) :
    ∃ row, Remains base user row ∧ ∃ provider, Lists provider row entry := by
  have known : entry.id ∈ base.keys ∨ entry.id ∈ user.keys := merges.mem_ids_iff.mp (List.mem_map_of_mem member)
  obtain ⟨row, remains, same⟩ : ∃ row, Remains base user row ∧ row.1 = entry.id := by
    by_cases inUser : entry.id ∈ user.keys
    · obtain ⟨row, inside, same⟩ := List.mem_map.mp inUser
      exact ⟨row, .inl inside, same⟩
    · obtain ⟨row, inside, same⟩ := List.mem_map.mp (known.resolve_right inUser)
      exact ⟨row, .inr ⟨inside, same ▸ inUser⟩, same⟩
  obtain ⟨other, member', provider, listed⟩ := merges.exists_entry remains
  -- Both entries are found under the same identifier.
  have found := merges.keyed other member'
  rw [listed.id, same, merges.keyed entry member] at found
  cases found
  exact ⟨row, remains, provider, listed⟩

theorem titled_iff : (∀ entry ∈ entries, isTitled entry = true) ↔ ∀ row, Remains base user row → HasTitle row := by
  constructor
  · intro titled row remains title uris describes
    obtain ⟨entry, member, provider, listed⟩ := merges.exists_entry remains
    obtain ⟨rfl, -⟩ := describes.unique listed.describes
    simpa [isTitled, Text.isAllBlank] using titled entry member
  · intro titled entry member
    obtain ⟨row, remains, provider, listed⟩ := merges.exists_row member
    simpa [isTitled, Text.isAllBlank] using titled row remains _ _ listed.describes

end Merges

end Registry

end Licensing
