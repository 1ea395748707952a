import Licensing.Proofs.Document.Lines

/-! # Appending a table

A table is appended to the text of a document, and what comes out is read later as a document of its own.
`Editor.Faithful` says of one document that nothing is lost on the way.  The editor of sections is faithful to every
document that starts with the appended table (`faithful_empty`).

* `Gains` — one more table in an array of tables.
* `Editor.Faithful` — the appended table is read as such.
* `Datum.same` — compares what is read, so that `Editor.Faithful` can be checked for a given document.
-/

namespace Licensing.Document

/-! ## Comparing values -/

mutual

/-- Whether two values are the same.  A floating point number is the same as nothing: its equality is not
decidable. -/
def Datum.same : Datum → Datum → Bool
  | .null, .null => true
  | .bool a, .bool b => a == b
  | .int a, .int b => a == b
  | .text a, .text b => a == b
  | .moment a, .moment b => a == b
  | .list items, .list others => Datum.sameItems items others
  | .table entries, .table others => Datum.sameEntries entries others
  | _, _ => false

def Datum.sameItems : List Datum → List Datum → Bool
  | [], [] => true
  | item :: items, other :: others => Datum.same item other && Datum.sameItems items others
  | _, _ => false

def Datum.sameEntries : List (String × Datum) → List (String × Datum) → Bool
  | [], [] => true
  | (key, value) :: entries, (name, other) :: others =>
    key == name && Datum.same value other && Datum.sameEntries entries others
  | _, _ => false

end

mutual

theorem Datum.eq_of_same : ∀ {value other : Datum}, value.same other = true → value = other
  | .null, .null, _ => rfl
  | .bool a, .bool b, h => by simpa [Datum.same] using h
  | .int a, .int b, h => by simpa [Datum.same] using h
  | .text a, .text b, h => by simpa [Datum.same] using h
  | .moment a, .moment b, h => by simpa [Datum.same] using h
  | .list items, .list others, h => by
    rw [Datum.same] at h
    rw [eq_of_sameItems h]
  | .table entries, .table others, h => by
    rw [Datum.same] at h
    rw [eq_of_sameEntries h]

theorem Datum.eq_of_sameItems : ∀ {items others : List Datum}, sameItems items others = true → items = others
  | [], [], _ => rfl
  | item :: items, other :: others, h => by
    simp only [sameItems, Bool.and_eq_true] at h
    rw [eq_of_same h.1, eq_of_sameItems h.2]

theorem Datum.eq_of_sameEntries : ∀ {entries others : List (String × Datum)},
    sameEntries entries others = true → entries = others
  | [], [], _ => rfl
  | (key, value) :: entries, (name, other) :: others, h => by
    simp only [sameEntries, Bool.and_eq_true, beq_iff_eq] at h
    obtain ⟨⟨rfl, same⟩, more⟩ := h
    rw [eq_of_same same, eq_of_sameEntries more]

end

namespace Toml

/-! ## One more table -/

/-- A table has gained one more table in the array under a key, and is the same otherwise. -/
structure Gains (name : String) (item before after : Table) : Prop where
  others : ∀ key ≠ name, after.get? key = before.get? key
  listed : ∃ items, (before.get? name).getD (.list []) = .list items ∧
    after.get? name = some (.list (items ++ [.table item]))

/-- What an editor has to do with the document of a text, which is read as `table`, when it adds a table to the array
`key`. -/
structure Editor.Faithful (editor : Editor) (text : String) (table : Table) (key : String) (entries : NewTable) :
    Prop where
  /-- What is written is read as before, with one more item. -/
  gains : ∀ edited item, editor.withTable text key entries = .ok edited → entries.table? = some item →
    ∃ after extended, edited.text? = some after ∧ read? after = some extended ∧ Gains key item table extended
  /-- Surrogates are written as they are. -/
  surrogates : ∀ edited, editor.withTable text key entries = .ok edited → entries.table? = none → edited.text? = none

theorem read?_of_same {text : String} {table : Table}
    (same : (read? text).any (Datum.sameEntries · table) = true) : read? text = some table := by
  obtain ⟨found, read, same⟩ := (Option.any_eq_true _ _).mp same
  rw [read, Datum.eq_of_sameEntries same]

/-! ## New tables -/

namespace NewTable

variable {entries : NewTable} {table : Table}

theorem table?_cons (key : String) (value : NewValue) (entries : NewTable) :
    table? ((key, value) :: entries) = value.datum?.bind fun datum => entries.table?.map ((key, datum) :: ·) := by
  simp only [table?, List.mapM_cons]
  cases value.datum? with
  | none => rfl
  | some datum => cases entries.mapM fun entry => entry.2.datum?.map (entry.1, ·) <;> rfl

theorem exists_lines (proper : entries.table? = some table) (bare : ∀ entry ∈ entries, IsBare entry.1) :
    ∃ lines, entries.written = .ofString (String.join (lines.map (· ++ "\n"))) ∧
      List.Forall₂ WritesEntry lines table := by
  induction entries generalizing table with
  | nil =>
    cases proper
    exact ⟨[], rfl, .nil⟩
  | cons entry entries ih =>
    obtain ⟨key, value⟩ := entry
    obtain ⟨datum, first, others⟩ := Option.bind_eq_some_iff.mp (table?_cons key value entries ▸ proper)
    obtain ⟨rest, found, rfl⟩ := Option.map_eq_some_iff.mp others
    obtain ⟨bareKey, bareKeys⟩ := List.forall_mem_cons.mp bare
    obtain ⟨lines, same, written⟩ := ih found bareKeys
    obtain ⟨text, sameText, reads⟩ := NewValue.exists_readsAs first
    refine ⟨(key ++ " = " ++ text) :: lines, ?_, .cons ⟨text, rfl, bareKey, reads⟩ written⟩
    have whole : NewTable.written ((key, value) :: entries) =
        RawText.ofString (key ++ " = ") ++ value.written ++ RawText.ofString "\n" ++ NewTable.written entries := rfl
    rw [whole, same, sameText]
    simp [RawText.ofString, RawText.ofChars, String.toList_join]

theorem keys_of_table? (proper : entries.table? = some table) : table.keys = entries.map Prod.fst := by
  induction entries generalizing table with
  | nil =>
    cases proper
    rfl
  | cons entry entries ih =>
    obtain ⟨key, value⟩ := entry
    obtain ⟨datum, -, others⟩ := Option.bind_eq_some_iff.mp (table?_cons key value entries ▸ proper)
    obtain ⟨rest, found, rfl⟩ := Option.map_eq_some_iff.mp others
    simp only [Table.keys, List.map_cons] at ih ⊢
    rw [ih found]

theorem text?_written (surrogates : entries.table? = none) : entries.written.text? = none := by
  rw [← Option.not_isSome_iff_eq_none, RawText.isSome_text?_iff]
  intro proper
  refine Option.not_isSome_iff_eq_none.mpr surrogates (RawText.isSome_mapM_iff.mpr fun entry listed => ?_)
  rw [Option.isSome_map]
  refine (NewValue.isSome_text?_written entry.2).mp (RawText.isSome_text?_iff.mpr fun point inside => ?_)
  exact proper point (List.mem_flatMap.mpr
    ⟨entry, listed, List.mem_append_left _ (List.mem_append_right _ inside)⟩)

end NewTable

/-! ## New documents -/

theorem withTable_empty (key : String) (entries : NewTable) : sectionEditor.withTable "" key entries =
    .ok (RawText.ofString ("\n[[" ++ key ++ "]]\n") ++ entries.written) := by
  have parsed : sectionEditor.parse "" = some ⟨[], [.plain []]⟩ := rfl
  have start : sectionEditor.withKey ⟨[], [.plain []]⟩ key =
      ⟨[key], [.plain [], .plain ['\n'], .tables key key.toList []]⟩ := rfl
  simp only [Editor.withTable, parsed, start]
  simp [sectionEditor, Block.isTables, addElement?, Block.text, RawText.ofString, RawText.ofChars]

/-- The editor is faithful to a new document, whatever is written into it. -/
theorem faithful_empty {key : String} (bareKey : IsBare key) {entries : NewTable}
    (bare : ∀ entry ∈ entries, IsBare entry.1) (distinct : (entries.map Prod.fst).Nodup) :
    sectionEditor.Faithful "" [] key entries where
  gains edited item added proper := by
    rw [withTable_empty] at added
    cases added
    obtain ⟨lines, same, written⟩ := NewTable.exists_lines proper bare
    rw [← NewTable.keys_of_table? proper] at distinct
    refine ⟨_, _, RawText.text?_eq_some_iff.mpr ?_, read?_item written distinct bareKey,
      fun name other => ?_, [], rfl, ?_⟩
    · rw [same]
      simp [RawText.ofString, RawText.ofChars]
    · simp [Table.get?, Ne.symm other]
    · simp [Table.get?]
  surrogates edited added improper := by
    rw [withTable_empty] at added
    cases added
    have none := NewTable.text?_written improper
    rw [← Option.not_isSome_iff_eq_none, RawText.isSome_text?_iff] at none ⊢
    exact fun proper => none fun point inside => proper point (List.mem_append_right _ inside)

end Toml

end Licensing.Document
