import Licensing.Proofs.Document.Appending
import Licensing.Proofs.Document.Keys
import Licensing.Proofs.Outcome
import Licensing.Proofs.Registry.Merging

/-! # Loading from documents

A registry is loaded from two lists and a user's document with up to two more.  Loading succeeds exactly if the
documents are well formed (`Structured`) and go together (`Consistent`); the registry is then the lists with the
user's lists on top of them (`Merges`).  If they are not well formed, every entry with a defect is reported.

* `Registry.load_eq_ok_iff`, `Registry.load_eq_error` — loading in terms of what the documents hold.
* `Registry.structured_iff`, `Registry.consistent_iff` — when there are no defects.
* `Registry.Parsed.distinct` — no list that is read from a text has a key twice.
* `Registry.load_consistent` — the main statement.
-/

namespace Licensing

open Document (Datum Table)

/-- The table of the user's document; without a document there are no entries. -/
def UserSource.table? : UserSource → Option Table
  | .absent => some []
  | .missing _ => none
  | .present source => source.table

def UserSource.name : UserSource → String
  | .absent => ""
  | .missing path => path
  | .present source => source.name

namespace Registry

/-! ## Documents -/

/-- The tables of the three documents. -/
structure Documents where
  licenses : Table
  exceptions : Table
  user : Table

/-- The documents are there and have been read. -/
structure Parsed (licenses exceptions : Source) (user : UserSource) (documents : Documents) : Prop where
  licenses : licenses.table = some documents.licenses
  exceptions : exceptions.table = some documents.exceptions
  user : user.table? = some documents.user

/-- A table under a key, which may be left out. -/
def Section (table : Table) (key : String) (rows : Table) : Prop :=
  table.get? key = none ∧ rows = [] ∨ table.get? key = some (.table rows)

theorem subtable?_eq_some_iff {table rows : Table} {key : String} :
    subtable? table key = some rows ↔ Section table key rows := by
  unfold subtable? Section
  cases table.get? key with
  | none => simp [Datum.asTable?, eq_comm]
  | some value => cases value <;> simp [Datum.asTable?]

/-- No list has a key twice. -/
structure Documents.Distinct (documents : Documents) : Prop where
  licenses : documents.licenses.keys.Nodup
  exceptions : documents.exceptions.keys.Nodup
  user : ∀ key rows, Section documents.user key rows → rows.keys.Nodup

/-- Documents that have been read have no key twice. -/
theorem Documents.distinct_of_tables {documents : Documents} (licenses : (Datum.table documents.licenses).Distinct)
    (exceptions : (Datum.table documents.exceptions).Distinct) (user : (Datum.table documents.user).Distinct) :
    documents.Distinct := by
  refine ⟨(Datum.distinct_table_iff.mp licenses).1, (Datum.distinct_table_iff.mp exceptions).1,
    fun key rows found => ?_⟩
  obtain ⟨-, rfl⟩ | found := found
  · exact List.nodup_nil
  · exact (Datum.distinct_table_iff.mp (Table.distinct_of_get? user found)).1

/-- The documents are well formed: all entries are, and the user's document has nothing but two tables of them. -/
structure Structured (documents : Documents) (userLicenses userExceptions : Table) : Prop where
  licenses : ∀ row ∈ documents.licenses, WellFormed row
  exceptions : ∀ row ∈ documents.exceptions, WellFormed row
  keys : ∀ key ∈ documents.user.keys, key ∈ ["licenses", "exceptions"]
  licensesOfUser : Section documents.user "licenses" userLicenses
  exceptionsOfUser : Section documents.user "exceptions" userExceptions
  userLicenses : ∀ row ∈ userLicenses, WellFormed row
  userExceptions : ∀ row ∈ userExceptions, WellFormed row

/-- The documents go together: no identifier names a license and an exception, and no title is blank. -/
structure Consistent (documents : Documents) (userLicenses userExceptions : Table) : Prop where
  apart : ∀ id, id ∈ documents.licenses.keys ∨ id ∈ userLicenses.keys →
    ¬ (id ∈ documents.exceptions.keys ∨ id ∈ userExceptions.keys)
  licenseTitles : ∀ row, Remains documents.licenses userLicenses row → HasTitle row
  exceptionTitles : ∀ row, Remains documents.exceptions userExceptions row → HasTitle row

/-- What the documents hold, and what is wrong with them. -/
def assembled (licenses exceptions : Source) (user : UserSource) (documents : Documents) :
    Registry × List DataDefect :=
  let listed := readEntries licenses.name "SPDX" documents.licenses
  let listed' := readEntries exceptions.name "SPDX" documents.exceptions
  let merged := mergeUser ⟨listed.1, listed'.1⟩ user.name documents.user
  (merged.1, listed.2 ++ listed'.2 ++ merged.2)

variable {licenses exceptions : Source} {user : UserSource} {documents : Documents} {registry : Registry}

theorem load_eq (parsed : Parsed licenses exceptions user documents) : load licenses exceptions user =
    let (whole, found) := assembled licenses exceptions user documents
    if !found.isEmpty then .error found else if !whole.defects.isEmpty then .error whole.defects else .ok whole := by
  obtain ⟨foundLicenses, foundExceptions, foundUser⟩ := parsed
  cases user with
  | absent =>
    obtain ⟨licenseTable, exceptionTable, userTable⟩ := documents
    cases foundUser
    simp only [load, tableOf, foundLicenses, foundExceptions]
    rfl
  | missing path => cases foundUser
  | present source =>
    have found : source.table = some documents.user := foundUser
    simp only [load, tableOf, foundLicenses, foundExceptions, found]
    rfl

theorem checked_eq_ok_iff {found wrong : List DataDefect} {whole : Registry} :
    (if !found.isEmpty then Except.error found else if !wrong.isEmpty then .error wrong else .ok whole) = .ok registry ↔
      found = [] ∧ wrong = [] ∧ whole = registry := by
  cases found with
  | cons defect found => simp
  | nil => cases wrong <;> simp

theorem load_eq_ok_iff (parsed : Parsed licenses exceptions user documents) :
    load licenses exceptions user = .ok registry ↔ (assembled licenses exceptions user documents).2 = [] ∧
      (assembled licenses exceptions user documents).1.defects = [] ∧
      (assembled licenses exceptions user documents).1 = registry := by
  rw [load_eq parsed]
  exact checked_eq_ok_iff

theorem tableOf_eq_ok_iff {source : Source} {table : Table} :
    tableOf source = .ok table ↔ source.table = some table := by
  unfold tableOf
  cases source.table <;> simp

theorem exists_parsed_of_load (loaded : load licenses exceptions user = .ok registry) :
    ∃ documents, Parsed licenses exceptions user documents := by
  obtain ⟨licenseTable, foundLicenses, loaded⟩ := Outcome.bind_eq_ok.mp loaded
  obtain ⟨exceptionTable, foundExceptions, loaded⟩ := Outcome.bind_eq_ok.mp loaded
  rw [tableOf_eq_ok_iff] at foundLicenses foundExceptions
  cases user with
  | absent => exact ⟨⟨licenseTable, exceptionTable, []⟩, foundLicenses, foundExceptions, rfl⟩
  | missing path =>
    -- A file that is not there is a defect, so nothing is loaded.
    obtain ⟨none, -⟩ := checked_eq_ok_iff.mp loaded
    simp at none
  | present source =>
    obtain ⟨_, merged, -⟩ := Outcome.bind_eq_ok.mp loaded
    obtain ⟨table, found, -⟩ := Outcome.map_eq_ok.mp merged
    exact ⟨⟨licenseTable, exceptionTable, table⟩, foundLicenses, foundExceptions, tableOf_eq_ok_iff.mp found⟩

theorem load_eq_error (parsed : Parsed licenses exceptions user documents)
    (found : (assembled licenses exceptions user documents).2 ≠ []) :
    load licenses exceptions user = .error (assembled licenses exceptions user documents).2 := by
  rw [load_eq parsed]
  simp [found]

/-! ## Documents that are not well formed -/

theorem ofList_eq_nil_iff {texts : List String} : SortedSet.ofList texts = [] ↔ texts = [] := by
  simp only [List.eq_nil_iff_forall_not_mem, SortedSet.mem_ofList]

/-- The keys that a user's document may not have are reported together. -/
inductive ReportsKeys (name : String) (table : Table) : List DataDefect → Prop where
  | known (known : ∀ key ∈ table.keys, key ∈ ["licenses", "exceptions"]) : ReportsKeys name table []
  | unknown {unknown : List String} (some : unknown ≠ []) (sorted : SortedSet.Sorted unknown)
      (member : ∀ key, key ∈ unknown ↔ key ∈ table.keys ∧ key ∉ ["licenses", "exceptions"]) :
      ReportsKeys name table [.unknownKeys name unknown]

/-- The defects of a user's document, whose entries are looked at if they stand in tables. -/
inductive ReportsUser (name : String) (table : Table) : List DataDefect → Prop where
  | tables {licenses exceptions : Table} {keys licenseDefects exceptionDefects : List DataDefect}
      (reportsKeys : ReportsKeys name table keys)
      (licensesOfUser : Section table "licenses" licenses) (exceptionsOfUser : Section table "exceptions" exceptions)
      (reportsLicenses : Reports (name ++ ":licenses") licenses licenseDefects)
      (reportsExceptions : Reports (name ++ ":exceptions") exceptions exceptionDefects) :
      ReportsUser name table (keys ++ licenseDefects ++ exceptionDefects)
  | noTables {keys : List DataDefect} (reportsKeys : ReportsKeys name table keys)
      (other : ¬ ∃ licenses exceptions, Section table "licenses" licenses ∧ Section table "exceptions" exceptions) :
      ReportsUser name table (keys ++ [.notTables name])

/-- The defect of the keys, if there is one. -/
def keyDefects (name : String) (table : Table) : List DataDefect :=
  let unknown := SortedSet.ofList (table.keys.filter (!userKeys.contains ·))
  if unknown.isEmpty then [] else [.unknownKeys name unknown]

theorem reportsKeys_keyDefects (name : String) (table : Table) : ReportsKeys name table (keyDefects name table) := by
  have member (key : String) : key ∈ SortedSet.ofList (table.keys.filter (!userKeys.contains ·)) ↔
      key ∈ table.keys ∧ key ∉ ["licenses", "exceptions"] := by
    simp [SortedSet.mem_ofList, userKeys]
  unfold keyDefects
  dsimp only
  split
  next none =>
    refine .known fun key inTable => Decidable.byContradiction fun other => ?_
    have inside := (member key).mpr ⟨inTable, other⟩
    rw [List.isEmpty_iff.mp none] at inside
    cases inside
  next some => exact .unknown (by simpa using some) (SortedSet.sorted_ofList _) member

theorem mergeUser_of_tables {name : String} {table rows rows' : Table} (found : Section table "licenses" rows)
    (found' : Section table "exceptions" rows') (listed : Registry) : mergeUser listed name table =
      (⟨(readEntries (name ++ ":licenses") "user" rows).1.foldl Listed.put listed.licenses,
        (readEntries (name ++ ":exceptions") "user" rows').1.foldl Listed.put listed.exceptions⟩,
        keyDefects name table ++ (readEntries (name ++ ":licenses") "user" rows).2 ++
          (readEntries (name ++ ":exceptions") "user" rows').2) := by
  rw [mergeUser, subtable?_eq_some_iff.mpr found, subtable?_eq_some_iff.mpr found']
  rfl

theorem mergeUser_of_noTables {name : String} {table : Table}
    (other : ¬ ∃ rows rows', Section table "licenses" rows ∧ Section table "exceptions" rows') (listed : Registry) :
    mergeUser listed name table = (listed, keyDefects name table ++ [.notTables name]) := by
  simp only [← subtable?_eq_some_iff] at other
  unfold mergeUser
  dsimp only
  split
  next rows rows' found found' => exact absurd ⟨rows, rows', found, found'⟩ other
  next => rfl

theorem reportsUser_mergeUser (listed : Registry) (name : String) (table : Table) :
    ReportsUser name table (mergeUser listed name table).2 := by
  by_cases tables : ∃ rows rows', Section table "licenses" rows ∧ Section table "exceptions" rows'
  · obtain ⟨rows, rows', found, found'⟩ := tables
    rw [mergeUser_of_tables found found']
    exact .tables (reportsKeys_keyDefects ..) found found' (reports_readEntries ..) (reports_readEntries ..)
  · rw [mergeUser_of_noTables tables]
    exact .noTables (reportsKeys_keyDefects ..) tables

theorem Section.unique {table rows rows' : Table} {key : String} (found : Section table key rows)
    (found' : Section table key rows') : rows = rows' :=
  Option.some.inj ((subtable?_eq_some_iff.mpr found).symm.trans (subtable?_eq_some_iff.mpr found'))

theorem ReportsKeys.eq_nil_iff {name : String} {table : Table} {defects : List DataDefect}
    (reports : ReportsKeys name table defects) :
    defects = [] ↔ ∀ key ∈ table.keys, key ∈ ["licenses", "exceptions"] := by
  cases reports with
  | known known => simpa using known
  | unknown some sorted member =>
    obtain ⟨key, inside⟩ := List.exists_mem_of_ne_nil _ some
    obtain ⟨inTable, other⟩ := (member key).mp inside
    simp only [List.cons_ne_nil, false_iff]
    exact fun known => other (known key inTable)

theorem ReportsUser.eq_nil_iff {name : String} {table : Table} {defects : List DataDefect}
    (reports : ReportsUser name table defects) : defects = [] ↔
      (∀ key ∈ table.keys, key ∈ ["licenses", "exceptions"]) ∧ ∃ rows rows', Section table "licenses" rows ∧
        Section table "exceptions" rows' ∧ (∀ row ∈ rows, WellFormed row) ∧ ∀ row ∈ rows', WellFormed row := by
  cases reports with
  | tables reportsKeys found found' reportsLicenses reportsExceptions =>
    rw [List.append_eq_nil_iff, List.append_eq_nil_iff, reportsKeys.eq_nil_iff, reportsLicenses.eq_nil_iff,
      reportsExceptions.eq_nil_iff]
    constructor
    · rintro ⟨⟨known, sound⟩, sound'⟩
      exact ⟨known, _, _, found, found', sound, sound'⟩
    · rintro ⟨known, _, _, other, other', sound, sound'⟩
      exact ⟨⟨known, found.unique other ▸ sound⟩, found'.unique other' ▸ sound'⟩
  | noTables reportsKeys other =>
    simp only [List.append_eq_nil_iff, List.cons_ne_nil, and_false, false_iff]
    rintro ⟨-, rows, rows', found, found', -⟩
    exact other ⟨rows, rows', found, found'⟩

/-- Nothing is reported exactly if the documents are well formed. -/
theorem structured_iff : (assembled licenses exceptions user documents).2 = [] ↔
    ∃ userLicenses userExceptions, Structured documents userLicenses userExceptions := by
  have reportsUser := reportsUser_mergeUser ⟨(readEntries licenses.name "SPDX" documents.licenses).1,
    (readEntries exceptions.name "SPDX" documents.exceptions).1⟩ user.name documents.user
  rw [assembled, List.append_eq_nil_iff, List.append_eq_nil_iff, (reports_readEntries ..).eq_nil_iff,
    (reports_readEntries ..).eq_nil_iff, reportsUser.eq_nil_iff]
  constructor
  · rintro ⟨⟨sound, sound'⟩, known, rows, rows', found, found', userSound, userSound'⟩
    exact ⟨rows, rows', sound, sound', known, found, found', userSound, userSound'⟩
  · rintro ⟨rows, rows', structured⟩
    exact ⟨⟨structured.licenses, structured.exceptions⟩, structured.keys, rows, rows', structured.licensesOfUser,
      structured.exceptionsOfUser, structured.userLicenses, structured.userExceptions⟩

/-! ## Documents that go together -/

theorem defects_eq_nil_iff : registry.defects = [] ↔
    (∀ id, id ∈ registry.licenses.map Listed.id → id ∉ registry.exceptions.map Listed.id) ∧
      (∀ entry ∈ registry.licenses, isTitled entry = true) ∧ ∀ entry ∈ registry.exceptions, isTitled entry = true := by
  simp only [defects, List.append_eq_nil_iff, List.map_eq_nil_iff, ofList_eq_nil_iff, List.filter_eq_nil_iff,
    Registry.findException?, Option.not_isSome_iff_eq_none, Listed.find?_eq_none_iff, Bool.not_eq_true',
    Bool.not_eq_false, and_assoc]

variable {userLicenses userExceptions : Table}

theorem merges_assembled (distinct : documents.Distinct)
    (structured : Structured documents userLicenses userExceptions) :
    Merges documents.licenses userLicenses (assembled licenses exceptions user documents).1.licenses ∧
      Merges documents.exceptions userExceptions (assembled licenses exceptions user documents).1.exceptions := by
  rw [assembled, mergeUser_of_tables structured.licensesOfUser structured.exceptionsOfUser]
  exact ⟨merges_of_lists distinct.licenses (distinct.user _ _ structured.licensesOfUser)
      (lists_of_wellFormed structured.licenses) (lists_of_wellFormed structured.userLicenses),
    merges_of_lists distinct.exceptions (distinct.user _ _ structured.exceptionsOfUser)
      (lists_of_wellFormed structured.exceptions) (lists_of_wellFormed structured.userExceptions)⟩

theorem consistent_iff (distinct : documents.Distinct)
    (structured : Structured documents userLicenses userExceptions) :
    (assembled licenses exceptions user documents).1.defects = [] ↔
      Consistent documents userLicenses userExceptions := by
  obtain ⟨merges, merges'⟩ := @merges_assembled licenses exceptions user _ _ _ distinct structured
  simp only [defects_eq_nil_iff, merges.mem_ids_iff, merges'.mem_ids_iff, merges.titled_iff, merges'.titled_iff]
  exact ⟨fun ⟨apart, titles, titles'⟩ => ⟨apart, titles, titles'⟩,
    fun ⟨apart, titles, titles'⟩ => ⟨apart, titles, titles'⟩⟩

/-! ## Documents that are read from texts -/

section Texts

variable {licensesPath licensesName licensesText exceptionsPath exceptionsName exceptionsText userPath userName
  userText : String}

theorem parsed_ofText (licensesRead : Document.Toml.read? licensesText = some documents.licenses)
    (exceptionsRead : Document.Toml.read? exceptionsText = some documents.exceptions)
    (userRead : Document.Toml.read? userText = some documents.user) :
    Parsed (.ofText licensesPath licensesName licensesText) (.ofText exceptionsPath exceptionsName exceptionsText)
      (.present (.ofText userPath userName userText)) documents :=
  ⟨licensesRead, exceptionsRead, userRead⟩

theorem Parsed.distinct (parsed : Parsed (.ofText licensesPath licensesName licensesText)
    (.ofText exceptionsPath exceptionsName exceptionsText) (.present (.ofText userPath userName userText)) documents) :
    documents.Distinct :=
  Documents.distinct_of_tables (Document.Toml.distinct_of_read? parsed.licenses)
    (Document.Toml.distinct_of_read? parsed.exceptions) (Document.Toml.distinct_of_read? parsed.user)

end Texts

/-! ## Loading -/

/-- Documents make a registry exactly if they are well formed and go together.  Each entry is then found under its
identifier, in the order of the documents, with what the user's document says of it or else the other document.  Of
documents that are not well formed, every entry with a defect is reported once, in the order of the documents. -/
theorem load_consistent (parsed : Parsed licenses exceptions user documents) (distinct : documents.Distinct) :
    ((∃ registry, load licenses exceptions user = .ok registry) ↔
      ∃ userLicenses userExceptions, Structured documents userLicenses userExceptions ∧
        Consistent documents userLicenses userExceptions) ∧
    (∀ registry, load licenses exceptions user = .ok registry →
      ∃ userLicenses userExceptions, Section documents.user "licenses" userLicenses ∧
        Section documents.user "exceptions" userExceptions ∧
        Merges documents.licenses userLicenses registry.licenses ∧
        Merges documents.exceptions userExceptions registry.exceptions) ∧
    ((¬ ∃ userLicenses userExceptions, Structured documents userLicenses userExceptions) →
      ∃ licenseDefects exceptionDefects userDefects,
        load licenses exceptions user = .error (licenseDefects ++ exceptionDefects ++ userDefects) ∧
        Reports licenses.name documents.licenses licenseDefects ∧
        Reports exceptions.name documents.exceptions exceptionDefects ∧
        ReportsUser user.name documents.user userDefects) := by
  simp only [load_eq_ok_iff parsed]
  refine ⟨⟨?_, ?_⟩, ?_, fun malformed => ?_⟩
  · rintro ⟨registry, found, wrong, -⟩
    obtain ⟨userLicenses, userExceptions, structured⟩ := structured_iff.mp found
    exact ⟨userLicenses, userExceptions, structured, (consistent_iff distinct structured).mp wrong⟩
  · rintro ⟨userLicenses, userExceptions, structured, consistent⟩
    exact ⟨_, structured_iff.mpr ⟨_, _, structured⟩, (consistent_iff distinct structured).mpr consistent, rfl⟩
  · rintro registry ⟨found, -, rfl⟩
    obtain ⟨userLicenses, userExceptions, structured⟩ := structured_iff.mp found
    exact ⟨userLicenses, userExceptions, structured.licensesOfUser, structured.exceptionsOfUser,
      merges_assembled distinct structured⟩
  · exact ⟨_, _, _, load_eq_error parsed (mt structured_iff.mp malformed), reports_readEntries ..,
      reports_readEntries .., reportsUser_mergeUser ..⟩

theorem load_consistent_of_two_users :
    let licenses := Source.ofText "/l" "licenses.toml" "[MIT]\nname = 'MIT License'\n[ISC]\nname = 'ISC'\n"
    let exceptions := Source.ofText "/e" "exceptions.toml" "[GCC]\nname = 'GCC exception'\n"
    let user := Source.ofText "/u" "own.toml"
      "[licenses.Own]\nname = 'Own License'\n[licenses.MIT]\nname = 'Their MIT'\nsee_also = ['http://own.org']\n"
    let other := Source.ofText "/u" "own.toml" "[licenses.Own]\nname = 1\n[more]\n"
    (∃ registry, load licenses exceptions (.present user) = .ok registry ∧
      Merges [("MIT", .table [("name", .text "MIT License")]), ("ISC", .table [("name", .text "ISC")])]
        [("Own", .table [("name", .text "Own License")]),
          ("MIT", .table [("name", .text "Their MIT"), ("see_also", .list [.text "http://own.org"])])]
        registry.licenses) ∧
    ∃ licenseDefects exceptionDefects userDefects,
      load licenses exceptions (.present other) = .error (licenseDefects ++ exceptionDefects ++ userDefects) ∧
      ReportsUser "own.toml" [("licenses", .table [("Own", .table [("name", .int 1)])]), ("more", .table [])]
        userDefects := by
  have licensesRead : Document.Toml.read? "[MIT]\nname = 'MIT License'\n[ISC]\nname = 'ISC'\n" =
      some [("MIT", .table [("name", .text "MIT License")]), ("ISC", .table [("name", .text "ISC")])] :=
    Document.Toml.read?_of_same (by decide +kernel)
  have exceptionsRead : Document.Toml.read? "[GCC]\nname = 'GCC exception'\n" =
      some [("GCC", .table [("name", .text "GCC exception")])] :=
    Document.Toml.read?_of_same (by decide +kernel)
  have userRead : Document.Toml.read?
      "[licenses.Own]\nname = 'Own License'\n[licenses.MIT]\nname = 'Their MIT'\nsee_also = ['http://own.org']\n" =
      some [("licenses", .table [("Own", .table [("name", .text "Own License")]),
        ("MIT", .table [("name", .text "Their MIT"), ("see_also", .list [.text "http://own.org"])])])] :=
    Document.Toml.read?_of_same (by decide +kernel)
  have otherRead : Document.Toml.read? "[licenses.Own]\nname = 1\n[more]\n" =
      some [("licenses", .table [("Own", .table [("name", .int 1)])]), ("more", .table [])] :=
    Document.Toml.read?_of_same (by decide +kernel)
  intro licenses exceptions user other
  have parsed : Parsed licenses exceptions (.present user) ⟨_, _, _⟩ :=
    parsed_ofText licensesRead exceptionsRead userRead
  have parsed' : Parsed licenses exceptions (.present other) ⟨_, _, _⟩ :=
    parsed_ofText licensesRead exceptionsRead otherRead
  constructor
  · have loaded : (load licenses exceptions (.present user)).isOk = true := by decide +kernel
    cases loads : load licenses exceptions (.present user) with
    | error defects => simp [loads, Except.isOk, Except.toBool] at loaded
    | ok registry =>
      obtain ⟨_, _, found, -, merges, -⟩ := (load_consistent parsed parsed.distinct).2.1 _ loads
      exact ⟨_, rfl, found.unique (.inr rfl) ▸ merges⟩
  · have fails := (load_consistent parsed' parsed'.distinct).2.2 (by
      rintro ⟨_, _, structured⟩
      exact absurd (structured.keys "more" (by decide)) (by decide))
    obtain ⟨_, _, _, failed, -, -, reports⟩ := fails
    exact ⟨_, _, _, failed, reports⟩

end Registry

end Licensing
