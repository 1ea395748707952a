import Licensing.Proofs.Document.Kinds
import Licensing.Proofs.Pairing
import Licensing.Registry.Load

/-! # Entries of a list

What makes an entry of a list of licenses or exceptions well formed, what is wrong with it otherwise, and that a list
is read entry by entry: the well-formed entries are kept, and each of the others is reported once, both in the order
of the document.

* `Registry.Describes`, `Registry.Faulty` — an entry that can be read, and one with a defect.
* `Registry.readEntry_eq_ok_iff`, `Registry.readEntry_eq_error_iff` — reading finds out which.
* `Registry.lists_readEntries`, `Registry.reports_readEntries` — the two results of reading a list.
-/

namespace Licensing

open Document (Datum Table)

namespace Registry

/-! ## Single entries -/

/-- The text of an identifier. -/
def Identifying (id : String) : Prop :=
  id ≠ "" ∧ ∀ c ∈ id.toList, Text.isBlank c = false

theorem isIdentifier_iff {id : String} : isIdentifier id = true ↔ Identifying id := by
  simp [isIdentifier, Identifying]

/-- The references of an entry, which may be left out. -/
def RefersTo (info : Table) (uris : List String) : Prop :=
  info.get? "see_also" = none ∧ uris = [] ∨ info.get? "see_also" = some (.list (uris.map .text))

/-- An entry is a table under an identifier, with a title and with references that are texts. -/
structure Describes (row : String × Datum) (title : String) (uris : List String) : Prop where
  identifying : Identifying row.1
  table : ∃ info : Table, row.2 = .table info ∧ info.get? "name" = some (.text title) ∧ RefersTo info uris

def WellFormed (row : String × Datum) : Prop :=
  ∃ title uris, Describes row title uris

/-- What is wrong with an entry, the first thing that is. -/
inductive Faulty : String × Datum → EntryDefect → Prop where
  | notTable {id : String} {value : Datum} (other : value.asTable? = none) :
      Faulty (id, value) (.notTable value.kindName)
  | badIdentifier {id : String} {info : Table} (other : ¬ Identifying id) :
      Faulty (id, .table info) .badIdentifier
  | missingName {id : String} {info : Table} (identifying : Identifying id) (missing : info.get? "name" = none) :
      Faulty (id, .table info) .missingName
  | nameNotText {id : String} {info : Table} {name : Datum} (identifying : Identifying id)
      (found : info.get? "name" = some name) (other : name.asText? = none) :
      Faulty (id, .table info) (.nameNotText name.kindName)
  | referencesNotList {id title : String} {info : Table} {references : Datum} (identifying : Identifying id)
      (named : info.get? "name" = some (.text title)) (found : info.get? "see_also" = some references)
      (other : references.asList? = none) :
      Faulty (id, .table info) (.referencesNotList references.kindName)
  | referencesNotTexts {id title : String} {info : Table} {items : List Datum} {item : Datum}
      (identifying : Identifying id) (named : info.get? "name" = some (.text title))
      (found : info.get? "see_also" = some (.list items)) (member : item ∈ items) (other : item.asText? = none) :
      Faulty (id, .table info) .referencesNotTexts

variable {row : String × Datum} {title : String} {uris : List String} {defect : EntryDefect}

theorem readEntry_of_describes (describes : Describes row title uris) : readEntry row.1 row.2 = .ok (title, uris) := by
  obtain ⟨id, value⟩ := row
  obtain ⟨identifying, info, same, name, references⟩ := describes
  obtain rfl : value = .table info := same
  have identifier := isIdentifier_iff.mpr identifying
  obtain ⟨missing, rfl⟩ | found := references
  · simp [readEntry, Datum.asTable?, Datum.asText?, identifier, name, missing, Datum.asList?, Datum.asTexts?]
  · have texts : (Datum.list (uris.map .text)).asTexts? = some uris := Datum.asTexts?_eq_some_iff.mpr rfl
    simp [readEntry, Datum.asTable?, Datum.asText?, identifier, name, found, Datum.asList?, texts]

theorem readEntry_of_faulty (faulty : Faulty row defect) : readEntry row.1 row.2 = .error defect := by
  cases faulty with
  | notTable other => simp [readEntry, other]
  | badIdentifier other =>
    have identifier := Bool.not_eq_true _ ▸ mt isIdentifier_iff.mp other
    simp [readEntry, Datum.asTable?, identifier, bind, Except.bind]
  | missingName identifying missing =>
    have identifier := isIdentifier_iff.mpr identifying
    simp [readEntry, Datum.asTable?, identifier, missing]
  | nameNotText identifying found other =>
    have identifier := isIdentifier_iff.mpr identifying
    simp [readEntry, Datum.asTable?, identifier, found, other]
  | referencesNotList identifying named found other =>
    have identifier := isIdentifier_iff.mpr identifying
    simp [readEntry, Datum.asTable?, Datum.asText?, identifier, named, found, other, bind, Except.bind]
  | referencesNotTexts identifying named found member other =>
    have identifier := isIdentifier_iff.mpr identifying
    have texts := Datum.asTexts?_eq_none_iff.mpr ⟨_, member, other⟩
    simp [readEntry, Datum.asTable?, Datum.asText?, Datum.asList?, identifier, named, found, texts]

theorem describes_or_faulty (row : String × Datum) :
    (∃ title uris, Describes row title uris) ∨ ∃ defect, Faulty row defect := by
  obtain ⟨id, value⟩ := row
  -- The checks in the order of the reading; a fault assumes that those before it were passed.
  cases table : value.asTable? with
  | none => exact .inr ⟨_, .notTable table⟩
  | some info =>
    obtain rfl := Datum.asTable?_eq_some_iff.mp table
    by_cases identifying : Identifying id
    · cases named : info.get? "name" with
      | none => exact .inr ⟨_, .missingName identifying named⟩
      | some name =>
        cases text : name.asText? with
        | none => exact .inr ⟨_, .nameNotText identifying named text⟩
        | some title =>
          obtain rfl := Datum.asText?_eq_some_iff.mp text
          cases found : info.get? "see_also" with
          | none => exact .inl ⟨title, [], identifying, info, rfl, named, .inl ⟨found, rfl⟩⟩
          | some references =>
            cases list : references.asList? with
            | none => exact .inr ⟨_, .referencesNotList identifying named found list⟩
            | some items =>
              obtain rfl := Datum.asList?_eq_some_iff.mp list
              cases texts : (Datum.list items).asTexts? with
              | none =>
                obtain ⟨item, member, other⟩ := Datum.asTexts?_eq_none_iff.mp texts
                exact .inr ⟨_, .referencesNotTexts identifying named found member other⟩
              | some uris =>
                obtain rfl := Datum.asTexts?_eq_some_iff.mp texts
                exact .inl ⟨title, uris, identifying, info, rfl, named, .inr found⟩
    · exact .inr ⟨_, .badIdentifier identifying⟩

theorem readEntry_eq_ok_iff : readEntry row.1 row.2 = .ok (title, uris) ↔ Describes row title uris := by
  refine ⟨fun read => ?_, readEntry_of_describes⟩
  obtain ⟨title', uris', describes⟩ | ⟨defect, faulty⟩ := describes_or_faulty row
  · cases (readEntry_of_describes describes).symm.trans read
    exact describes
  · cases (readEntry_of_faulty faulty).symm.trans read

theorem readEntry_eq_error_iff : readEntry row.1 row.2 = .error defect ↔ Faulty row defect := by
  refine ⟨fun read => ?_, readEntry_of_faulty⟩
  obtain ⟨title, uris, describes⟩ | ⟨defect', faulty⟩ := describes_or_faulty row
  · cases (readEntry_of_describes describes).symm.trans read
  · cases (readEntry_of_faulty faulty).symm.trans read
    exact faulty

theorem Describes.unique {title' : String} {uris' : List String} (describes : Describes row title uris)
    (describes' : Describes row title' uris') : title = title' ∧ uris = uris' := by
  have same := (readEntry_of_describes describes).symm.trans (readEntry_of_describes describes')
  simpa using same

/-! ## Lists of entries -/

theorem wellFormed_iff : WellFormed row ↔ (readEntry row.1 row.2).isOk = true := by
  constructor
  · rintro ⟨title, uris, describes⟩
    rw [readEntry_of_describes describes]
    rfl
  · intro read
    cases found : readEntry row.1 row.2 with
    | ok entry => exact ⟨entry.1, entry.2, readEntry_eq_ok_iff.mp found⟩
    | error defect => simp [found, Except.isOk, Except.toBool] at read

instance : DecidablePred WellFormed := fun _ => decidable_of_iff _ wellFormed_iff.symm

/-- What is listed for an entry of a document. -/
structure Lists (provider : String) (row : String × Datum) (entry : Listed) : Prop where
  id : entry.id = row.1
  describes : Describes row entry.title entry.uris
  provider : entry.provider = provider

/-- One defect for each entry that is not well formed, in the order of the document. -/
def Reports (list : String) (table : Table) (defects : List DataDefect) : Prop :=
  List.Forall₂ (fun row defect => ∃ cause, Faulty row cause ∧ defect = .entry list row.1 cause)
    (table.filter (¬ WellFormed ·)) defects

/-- What the reading of a list makes of its first entry. -/
theorem readEntries_cons (list provider : String) (row : String × Datum) (table : Table) :
    (∃ entry, Lists provider row entry ∧ WellFormed row ∧ readEntries list provider (row :: table) =
      (entry :: (readEntries list provider table).1, (readEntries list provider table).2)) ∨
    ∃ cause, Faulty row cause ∧ ¬ WellFormed row ∧ readEntries list provider (row :: table) =
      ((readEntries list provider table).1, .entry list row.1 cause :: (readEntries list provider table).2) := by
  obtain ⟨title, uris, describes⟩ | ⟨cause, faulty⟩ := describes_or_faulty row
  · refine .inl ⟨⟨row.1, title, uris, provider⟩, ⟨rfl, describes, rfl⟩, ⟨title, uris, describes⟩, ?_⟩
    simp only [readEntries, readEntry_of_describes describes]
  · refine .inr ⟨cause, faulty, ?_, ?_⟩
    · simp [wellFormed_iff, readEntry_of_faulty faulty, Except.isOk, Except.toBool]
    · simp only [readEntries, readEntry_of_faulty faulty]

theorem lists_readEntries (list provider : String) (table : Table) :
    List.Forall₂ (Lists provider) (table.filter (WellFormed ·)) (readEntries list provider table).1 := by
  induction table with
  | nil => exact .nil
  | cons row table ih =>
    obtain ⟨entry, listed, wellFormed, read⟩ | ⟨cause, -, malformed, read⟩ := readEntries_cons list provider row table
    · rw [read, List.filter_cons_of_pos (by simpa using wellFormed)]
      exact .cons listed ih
    · rw [read, List.filter_cons_of_neg (by simpa using malformed)]
      exact ih

theorem reports_readEntries (list provider : String) (table : Table) :
    Reports list table (readEntries list provider table).2 := by
  unfold Reports
  induction table with
  | nil => exact .nil
  | cons row table ih =>
    obtain ⟨entry, -, wellFormed, read⟩ | ⟨cause, faulty, malformed, read⟩ := readEntries_cons list provider row table
    · rw [read, List.filter_cons_of_neg (by simpa using wellFormed)]
      exact ih
    · rw [read, List.filter_cons_of_pos (by simpa using malformed)]
      exact .cons ⟨cause, faulty, rfl⟩ ih

theorem exists_row_of_mem {list provider : String} {table : Table} {entry : Listed}
    (member : entry ∈ (readEntries list provider table).1) : ∃ row ∈ table, Lists provider row entry := by
  have lists := lists_readEntries list provider table
  obtain ⟨row, kept, listed⟩ := exists_of_forall₂_right lists member
  exact ⟨row, List.mem_of_mem_filter kept, listed⟩

/-- Exactly the lists of well-formed entries have no defects. -/
theorem Reports.eq_nil_iff {list : String} {table : Table} {defects : List DataDefect}
    (reports : Reports list table defects) : defects = [] ↔ ∀ row ∈ table, WellFormed row := by
  have lengths := reports.length_eq
  rw [← List.length_eq_zero_iff, ← lengths, List.length_eq_zero_iff, List.filter_eq_nil_iff]
  simp

theorem lists_of_wellFormed {list provider : String} {table : Table} (sound : ∀ row ∈ table, WellFormed row) :
    List.Forall₂ (Lists provider) table (readEntries list provider table).1 := by
  have listed := lists_readEntries list provider table
  rwa [List.filter_eq_self.mpr (by simpa using sound)] at listed

end Registry

end Licensing
