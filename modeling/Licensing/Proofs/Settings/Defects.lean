import Licensing.Proofs.Settings.Entries
import Licensing.Proofs.Settings.Extending

/-! # Everything that is wrong with settings

Settings are checked place by place: the set of their keys, each setting, the two lists, and each entry of a list.  The
report goes through the places in order and has the lines of each of them (`Settings.report_eq_flatMap`), so that no
defect hides another one; and a place has lines exactly if something is wrong there (`Settings.linesAt_ne_nil_iff`).

* `Settings.Wrong` — what can be wrong at a place, in terms of the document.
* `Settings.load_report` — loading settings reports all of that and nothing else.
-/

namespace Licensing

open Document (Datum Table)

/-! ## Places -/

/-- A place of a settings file, which is checked by itself. -/
inductive Place where
  | keys
  | threshold
  | limit
  | licenses
  | equivalences
  | equivalence (index : Nat)
  | rules
  | rule (index : Nat)
deriving DecidableEq

/-- What the line of a defect starts with. -/
def Place.label : Place → String
  | .keys => "unknown keys: "
  | .threshold => "similarity_threshold: "
  | .limit => "candidate_limit: "
  | .licenses => "licenses_toml: "
  | .equivalences => "\"equivalence\" "
  | .equivalence index => s!"equivalence[{index}]"
  | .rules => "\"policy\" "
  | .rule index => s!"policy[{index}]"

namespace SettingsDefect

/-- The place of a defect, if it is one of what a document holds. -/
def place? : SettingsDefect → Option Place
  | .unknownKeys _ => some .keys
  | .thresholdKind _ | .thresholdRange _ => some .threshold
  | .limitKind _ | .limitRange _ => some .limit
  | .licensesKind _ | .licensesMissing _ => some .licenses
  | .equivalenceNotList => some .equivalences
  | .equivalence index _ => some (.equivalence index)
  | .rulesNotList => some .rules
  | .rule index _ => some (.rule index)
  | .missingFile _ | .malformed _ | .policyNotTables _ | .alreadyThere _ | .badEquivalence .. | .note _ => none

theorem exists_message_eq {defect : SettingsDefect} {place : Place} (located : defect.place? = some place) :
    ∃ rest, defect.message = place.label ++ rest := by
  cases defect with
  | missingFile | malformed | policyNotTables | alreadyThere | badEquivalence | note => cases located
  | unknownKeys keys =>
    cases located
    exact ⟨_, rfl⟩
  | thresholdKind kind =>
    cases located
    exact ⟨"expected a number, got " ++ kind, rfl⟩
  | thresholdRange shown =>
    cases located
    exact ⟨shown ++ " is outside 0..100", String.append_assoc ..⟩
  | limitKind kind =>
    cases located
    exact ⟨"expected an integer, got " ++ kind, rfl⟩
  | limitRange limit =>
    cases located
    exact ⟨"must be at least 1, got " ++ toString limit, rfl⟩
  | licensesKind kind =>
    cases located
    exact ⟨"expected a string, got " ++ kind, rfl⟩
  | licensesMissing path =>
    cases located
    exact ⟨path ++ " does not exist", String.append_assoc ..⟩
  | equivalenceNotList =>
    cases located
    exact ⟨"must be an array of tables ([[equivalence]]).", rfl⟩
  | equivalence index cause =>
    cases located
    exact cause.exists_message_eq index
  | rulesNotList =>
    cases located
    exact ⟨"must be an array of tables ([[policy]]).", rfl⟩
  | rule index cause =>
    cases located
    exact cause.exists_message_eq policyKey index

end SettingsDefect

namespace Settings

variable {files : Files} {path : Files.Path} {table : Table} {settings : Settings} {place : Place}
  {defects : List SettingsDefect}

/-! ## The report -/

/-- The lines of a whole document. -/
def report (files : Files) (path : Files.Path) (table : Table) : List SettingsDefect :=
  unknownKeys table ++ defectOf (readThreshold table) ++ defectOf (readLimit table) ++
    defectOf (readLicenses files path table) ++ (readEquivalences table).2 ++ (readRules table).2

theorem ofTable_eq_error_iff :
    ofTable files path table = .error defects ↔ defects = report files path table ∧ defects ≠ [] := by
  have refused {lines : List SettingsDefect} (nonempty : lines ≠ []) :
      (.error lines : Except (List SettingsDefect) Settings) = .error defects ↔ defects = lines ∧ defects ≠ [] := by
    constructor
    · rintro ⟨⟩
      exact ⟨rfl, nonempty⟩
    · rintro ⟨rfl, -⟩
      rfl
  unfold ofTable report
  dsimp only
  cases readThreshold table with
  | error defect => exact refused (by simp [defectOf])
  | ok threshold =>
    cases readLimit table with
    | error defect => exact refused (by simp [defectOf])
    | ok limit =>
      cases readLicenses files path table with
      | error defect => exact refused (by simp [defectOf])
      | ok licenses =>
        dsimp only
        split
        next none =>
          rw [List.isEmpty_iff.mp none]
          simp
        next lines => exact refused (List.isEmpty_iff.not.mp lines)

/-- The entries of a list in a document, none where there is no list. -/
def entriesOf (table : Table) (key : String) : List Datum :=
  ((table.get? key).bind Datum.asList?).getD []

/-- Whether a key is left out or has a list. -/
def isList (table : Table) (key : String) : Bool :=
  ((table.get? key).getD (.list [])).asList?.isSome

/-- The places of a document. -/
def places (table : Table) : List Place :=
  [.keys, .threshold, .limit, .licenses, .equivalences] ++
    (entriesOf table "equivalence").zipIdx.map (fun row => .equivalence row.2) ++
    .rules :: (entriesOf table policyKey).zipIdx.map fun row => .rule row.2

/-- The lines of a place. -/
def linesAt (files : Files) (path : Files.Path) (table : Table) : Place → List SettingsDefect
  | .keys => unknownKeys table
  | .threshold => defectOf (readThreshold table)
  | .limit => defectOf (readLimit table)
  | .licenses => defectOf (readLicenses files path table)
  | .equivalences => if isList table "equivalence" then [] else [.equivalenceNotList]
  | .equivalence index => ((entriesOf table "equivalence")[index]?.toList.flatMap EquivalenceRule.faults).map
      (.equivalence index)
  | .rules => if isList table policyKey then [] else [.rulesNotList]
  | .rule index => ((entriesOf table policyKey)[index]?.toList.flatMap fun item => (Rule.readOne item).2).map
      (.rule index)

theorem isList_or_not (table : Table) (key : String) :
    isList table key = true ∧ ((table.get? key).getD (.list [])).asList? = some (entriesOf table key) ∨
      isList table key = false ∧ ((table.get? key).getD (.list [])).asList? = none ∧ entriesOf table key = [] := by
  unfold isList entriesOf
  cases table.get? key with
  | none => exact .inl ⟨rfl, rfl⟩
  | some value => cases list : value.asList? <;> simp [list]

/-- What is wrong with an entry is found again under its position. -/
theorem map_faults_eq {δ : Type} (faults : Datum → List δ) (line : Nat → δ → SettingsDefect) (items : List Datum) :
    (items.zipIdx.flatMap fun row => (faults row.1).map (row.2, ·)).map (fun row => line row.1 row.2) =
      items.zipIdx.flatMap fun row => (items[row.2]?.toList.flatMap faults).map (line row.2) := by
  rw [List.map_flatMap]
  refine List.flatMap_congr fun row member => ?_
  rw [List.mem_zipIdx_iff_getElem?.mp member]
  simp

theorem readEquivalences_eq (files : Files) (path : Files.Path) (table : Table) :
    (readEquivalences table).2 = linesAt files path table .equivalences ++
      (entriesOf table "equivalence").zipIdx.flatMap fun row => linesAt files path table (.equivalence row.2) := by
  unfold readEquivalences linesAt
  obtain ⟨list, items⟩ | ⟨other, items, none⟩ := isList_or_not table "equivalence"
  · simp only [items, EquivalenceRule.readFrom_eq, list, if_true, List.nil_append]
    exact map_faults_eq EquivalenceRule.faults .equivalence _
  · simp [items, other, none]

theorem readRules_eq (files : Files) (path : Files.Path) (table : Table) :
    (readRules table).2 = linesAt files path table .rules ++
      (entriesOf table policyKey).zipIdx.flatMap fun row => linesAt files path table (.rule row.2) := by
  unfold readRules linesAt
  obtain ⟨list, items⟩ | ⟨other, items, none⟩ := isList_or_not table policyKey
  · simp only [items, Rule.readFrom_eq, list, if_true, List.nil_append]
    exact map_faults_eq (fun item => (Rule.readOne item).2) .rule _
  · simp [items, other, none]

/-- The report has the lines of each place. -/
theorem report_eq_flatMap : report files path table = (places table).flatMap (linesAt files path table) := by
  rw [report, readEquivalences_eq files path, readRules_eq files path, places]
  simp [List.flatMap_map, linesAt]

theorem mem_defectOf {α : Type} {found : Except SettingsDefect α} {defect : SettingsDefect} :
    defect ∈ defectOf found ↔ found = .error defect := by
  cases found <;> simp [defectOf, eq_comm]

/-- A line belongs to one place only. -/
theorem place_of_mem_linesAt {defect : SettingsDefect} (listed : defect ∈ linesAt files path table place) :
    defect.place? = some place := by
  cases place with
  | keys =>
    simp only [linesAt, unknownKeys] at listed
    split at listed
    · cases listed
    · rw [List.mem_singleton.mp listed]
      rfl
  | threshold | limit | licenses =>
    have failed := mem_defectOf.mp listed
    simp only [readThreshold, readLimit, readLicenses] at failed
    split at failed <;> (try split at failed) <;> cases failed <;> rfl
  | equivalences | rules =>
    simp only [linesAt] at listed
    split at listed
    · cases listed
    · rw [List.mem_singleton.mp listed]
      rfl
  | equivalence index | rule index =>
    obtain ⟨cause, -, rfl⟩ := List.mem_map.mp listed
    rfl

/-! ## What can be wrong -/

/-- A number from 0 to 100. -/
def IsThreshold (value : Datum) : Prop :=
  (∃ n : Int, value = .int n ∧ 0 ≤ n ∧ n ≤ 100) ∨ ∃ x : Float, value = .float x ∧ 0 ≤ x ∧ x ≤ 100

/-- An integer from 1 on. -/
def IsLimit (value : Datum) : Prop :=
  ∃ n : Int, value = .int n ∧ 1 ≤ n

/-- The name of a file that is there. -/
def NamesFile (files : Files) (path : Files.Path) (value : Datum) : Prop :=
  ∃ name, value = .text name ∧ files.isFile (fileNamed files path name) = true

/-- What is wrong at a place: a key that no settings have, a setting with a value that it cannot have, a list that is
none, or an entry that describes no rule. -/
def Wrong (files : Files) (path : Files.Path) (table : Table) : Place → Prop
  | .keys => ∃ key, (table.get? key).isSome = true ∧ key ∉ keys
  | .threshold => ∃ value, table.get? "similarity_threshold" = some value ∧ ¬ IsThreshold value
  | .limit => ∃ value, table.get? "candidate_limit" = some value ∧ ¬ IsLimit value
  | .licenses => ∃ value, table.get? "licenses_toml" = some value ∧ ¬ NamesFile files path value
  | .equivalences => ∃ value, table.get? "equivalence" = some value ∧ ¬ ∃ items, value = .list items
  | .equivalence index => ∃ items item, table.get? "equivalence" = some (.list items) ∧ items[index]? = some item ∧
      ¬ ∃ rule, EquivalenceRule.Describes item rule
  | .rules => ∃ value, table.get? policyKey = some value ∧ ¬ ∃ items, value = .list items
  | .rule index => ∃ items item, table.get? policyKey = some (.list items) ∧ items[index]? = some item ∧
      ¬ ∃ rule, Rule.Describes item rule

theorem defectOf_eq_nil_iff {α : Type} {found : Except SettingsDefect α} :
    defectOf found = [] ↔ ∃ value, found = .ok value := by
  cases found <;> simp [defectOf]

theorem isList_eq_false_iff {key : String} :
    isList table key = false ↔ ∃ value, table.get? key = some value ∧ ¬ ∃ items, value = .list items := by
  unfold isList
  cases table.get? key with
  | none => simp [Datum.asList?]
  | some value => simp [← Datum.asList?_eq_some_iff, Option.eq_none_iff_forall_ne_some]

theorem getElem?_entriesOf_eq_some_iff {key : String} {index : Nat} {item : Datum} :
    (entriesOf table key)[index]? = some item ↔
      ∃ items, table.get? key = some (.list items) ∧ items[index]? = some item := by
  unfold entriesOf
  cases table.get? key with
  | none => simp
  | some value => cases list : value.asList? <;> simp [← Datum.asList?_eq_some_iff, list]

theorem mem_zipIdx_entriesOf {key : String} {index : Nat} {items : List Datum} {item : Datum}
    (listed : table.get? key = some (.list items)) (found : items[index]? = some item) :
    (item, index) ∈ (entriesOf table key).zipIdx :=
  List.mk_mem_zipIdx_iff_getElem?.mpr (getElem?_entriesOf_eq_some_iff.mpr ⟨items, listed, found⟩)

/-- An entry has lines if it is not sound. -/
theorem linesOfEntry_ne_nil_iff {δ : Type} {faults : Datum → List δ} {Sound : Datum → Prop}
    (spec : ∀ item, faults item = [] ↔ Sound item) (line : δ → SettingsDefect) {key : String} {index : Nat} :
    ((entriesOf table key)[index]?.toList.flatMap faults).map line ≠ [] ↔
      ∃ items item, table.get? key = some (.list items) ∧ items[index]? = some item ∧ ¬ Sound item := by
  rw [ne_eq, List.map_eq_nil_iff, List.flatMap_eq_nil_iff]
  constructor
  · intro lines
    obtain ⟨item, lines⟩ := not_forall.mp lines
    obtain ⟨entry, faulty⟩ := Classical.not_imp.mp lines
    obtain ⟨items, listed, found⟩ := getElem?_entriesOf_eq_some_iff.mp (Option.mem_toList.mp entry)
    exact ⟨items, item, listed, found, mt (spec item).mpr faulty⟩
  · rintro ⟨items, item, listed, found, unsound⟩ faultless
    have entry := getElem?_entriesOf_eq_some_iff.mpr ⟨items, listed, found⟩
    exact unsound ((spec item).mp (faultless item (Option.mem_toList.mpr entry)))

theorem exists_readThreshold_iff : (∃ x, readThreshold table = .ok x) ↔
    ∀ value, table.get? "similarity_threshold" = some value → IsThreshold value := by
  unfold readThreshold
  cases table.get? "similarity_threshold" with
  | none => simp
  | some value =>
    cases value with
    | int n => by_cases within : 0 ≤ n ∧ n ≤ 100 <;> simp [IsThreshold, within]
    | float x => by_cases within : 0 ≤ x ∧ x ≤ 100 <;> simp [IsThreshold, within]
    | _ => simp [IsThreshold]

theorem exists_readLimit_iff : (∃ n, readLimit table = .ok n) ↔
    ∀ value, table.get? "candidate_limit" = some value → IsLimit value := by
  unfold readLimit
  cases table.get? "candidate_limit" with
  | none => simp
  | some value =>
    cases value with
    | int n => by_cases within : 1 ≤ n <;> simp [IsLimit, within]
    | _ => simp [IsLimit]

theorem exists_readLicenses_iff : (∃ found, readLicenses files path table = .ok found) ↔
    ∀ value, table.get? "licenses_toml" = some value → NamesFile files path value := by
  unfold readLicenses
  cases table.get? "licenses_toml" with
  | none => simp
  | some value =>
    cases value with
    | text name => by_cases there : files.isFile (fileNamed files path name) = true <;> simp [NamesFile, there]
    | _ => simp [NamesFile]

/-- A place has lines exactly if something is wrong there. -/
theorem linesAt_ne_nil_iff : linesAt files path table place ≠ [] ↔ Wrong files path table place := by
  cases place with
  | keys =>
    rw [linesAt, ne_eq, unknownKeys_eq_nil_iff]
    simp [Wrong]
  | threshold =>
    rw [linesAt, ne_eq, defectOf_eq_nil_iff, exists_readThreshold_iff]
    simp [Wrong]
  | limit =>
    rw [linesAt, ne_eq, defectOf_eq_nil_iff, exists_readLimit_iff]
    simp [Wrong]
  | licenses =>
    rw [linesAt, ne_eq, defectOf_eq_nil_iff, exists_readLicenses_iff]
    simp [Wrong]
  | equivalences | rules =>
    rw [linesAt, Wrong, ← isList_eq_false_iff]
    split <;> simp_all
  | equivalence index =>
    exact linesOfEntry_ne_nil_iff (fun _ => EquivalenceRule.faults_eq_nil_iff) (.equivalence index)
  | rule index => exact linesOfEntry_ne_nil_iff (fun _ => Rule.faults_eq_nil_iff) (.rule index)

theorem mem_places_of_wrong (wrong : Wrong files path table place) : place ∈ places table := by
  cases place with
  | keys | threshold | limit | licenses | equivalences | rules => simp [places]
  | equivalence index | rule index =>
    obtain ⟨items, item, listed, found, -⟩ := wrong
    simpa [places] using ⟨item, mem_zipIdx_entriesOf listed found⟩

/-- The lines of a place are those of the report that belong there. -/
theorem mem_linesAt_iff {defect : SettingsDefect} : defect ∈ linesAt files path table place ↔
    defect ∈ report files path table ∧ defect.place? = some place := by
  simp only [report_eq_flatMap, List.mem_flatMap]
  constructor
  · intro listed
    have wrong := linesAt_ne_nil_iff.mp (List.ne_nil_of_mem listed)
    exact ⟨⟨place, mem_places_of_wrong wrong, listed⟩, place_of_mem_linesAt listed⟩
  · rintro ⟨⟨place', -, listed⟩, located⟩
    obtain rfl : place = place' := Option.some.inj (located.symm.trans (place_of_mem_linesAt listed))
    exact listed

theorem exists_line_iff : (∃ defect ∈ report files path table, defect.place? = some place) ↔
    Wrong files path table place := by
  rw [← linesAt_ne_nil_iff, ne_eq, List.eq_nil_iff_forall_not_mem]
  simp only [mem_linesAt_iff, not_forall, not_not]

theorem exists_place_of_mem_report {defect : SettingsDefect} (listed : defect ∈ report files path table) :
    ∃ place, defect.place? = some place := by
  rw [report_eq_flatMap] at listed
  obtain ⟨place, -, listed⟩ := List.mem_flatMap.mp listed
  exact ⟨place, place_of_mem_linesAt listed⟩

/-- The report is empty exactly if nothing is wrong. -/
theorem report_eq_nil_iff : report files path table = [] ↔ ∀ place, ¬ Wrong files path table place := by
  constructor
  · intro none place wrong
    obtain ⟨defect, listed, -⟩ := exists_line_iff.mpr wrong
    rw [none] at listed
    cases listed
  · intro sound
    refine List.eq_nil_iff_forall_not_mem.mpr fun defect listed => ?_
    obtain ⟨place, located⟩ := exists_place_of_mem_report listed
    exact sound place (exists_line_iff.mp ⟨defect, listed, located⟩)

theorem mem_of_unknownKeys_mem_report {unknown : List String} (listed : .unknownKeys unknown ∈ report files path table)
    {key : String} : key ∈ unknown ↔ (table.get? key).isSome = true ∧ key ∉ keys := by
  have line : .unknownKeys unknown ∈ linesAt files path table .keys := mem_linesAt_iff.mpr ⟨listed, rfl⟩
  simp only [linesAt, unknownKeys] at line
  split at line
  · cases line
  · cases List.mem_singleton.mp line
    simp [SortedSet.mem_ofList, Document.Table.isSome_get?_iff]

/-! ## Rules -/

/-- Without defects there is one equivalence rule for each entry. -/
theorem describes_of_readEquivalences {equivalences : List EquivalenceRule}
    (read : readEquivalences table = (equivalences, [])) :
    List.Forall₂ EquivalenceRule.Describes (entriesOf table "equivalence") equivalences := by
  obtain ⟨-, items⟩ | ⟨-, items, -⟩ := isList_or_not table "equivalence"
  · simp only [readEquivalences, items, Prod.mk.injEq, List.map_eq_nil_iff] at read
    exact EquivalenceRule.describes_of_readFrom (Prod.ext read.1 read.2)
  · simp [readEquivalences, items] at read

/-- Without defects there is one policy rule for each entry. -/
theorem describes_of_readRules {rules : List Rule} (read : readRules table = (rules, [])) :
    List.Forall₂ Rule.Describes (entriesOf table policyKey) rules := by
  obtain ⟨-, items⟩ | ⟨-, items, -⟩ := isList_or_not table policyKey
  · simp only [readRules, items, Prod.mk.injEq, List.map_eq_nil_iff] at read
    exact Rule.describes_of_readFrom (Prod.ext read.1 read.2)
  · simp [readRules, items] at read

/-! ## Loading -/

/-- What keeps a document from being checked is no defect of it. -/
theorem obstacle?_ne_defects : obstacle? files path table ≠ some (.defects defects) := by
  unfold obstacle?
  split <;> simp

section Load

variable {text : String} (read : files.read path = .ok text) (parsed : Document.Toml.read? text = some table)

include read parsed

theorem load_of_obstacle {fault : LoadFault} (found : obstacle? files path table = some fault) :
    load files path = .error fault := by
  simp [load, read, parsed, found]

theorem load_of_free (free : obstacle? files path table = none) :
    load files path = (ofTable files path table).mapError .defects := by
  simp [load, read, parsed, free]

/-- Of a document that can be read, everything that is wrong is reported, unless an obstacle is in the way: a threshold
with more digits than can be shown, or a file with further licenses that cannot be looked for.  Loading fails exactly
if something is wrong somewhere; each place where something is wrong has a line of its own, whatever is wrong
elsewhere, and no other place has; a line starts with its place, and that of unknown keys lists them all.  Otherwise
there are settings, with one rule for each entry of the two lists.  With an obstacle, there is no line at all. -/
theorem load_report :
    (∀ fault, obstacle? files path table = some fault →
      load files path = .error fault ∧ ∀ defects, fault ≠ .defects defects) ∧
    (obstacle? files path table = none →
      ((∃ defects, load files path = .error (.defects defects)) ↔ ∃ place, Wrong files path table place) ∧
      (∀ defects, load files path = .error (.defects defects) →
        (∀ place, (∃ defect ∈ defects, defect.place? = some place) ↔ Wrong files path table place) ∧
        (∀ defect ∈ defects, ∃ place rest, defect.place? = some place ∧ defect.message = place.label ++ rest) ∧
        ∀ unknown, .unknownKeys unknown ∈ defects →
          ∀ key, key ∈ unknown ↔ (table.get? key).isSome = true ∧ key ∉ keys) ∧
      ((∀ place, ¬ Wrong files path table place) → ∃ settings, load files path = .ok settings) ∧
      ∀ settings, load files path = .ok settings →
        List.Forall₂ EquivalenceRule.Describes (entriesOf table "equivalence") settings.equivalences ∧
        List.Forall₂ Rule.Describes (entriesOf table policyKey) settings.rules) := by
  refine ⟨fun fault found => ⟨load_of_obstacle read parsed found, ?_⟩, fun free => ?_⟩
  · rintro defects rfl
    exact obstacle?_ne_defects found
  rw [load_of_free read parsed free]
  have failed (defects : List SettingsDefect) :
      (ofTable files path table).mapError .defects = .error (LoadFault.defects defects) ↔
        defects = report files path table ∧ defects ≠ [] := by
    rw [← ofTable_eq_error_iff]
    cases ofTable files path table <;> simp [Except.mapError]
  refine ⟨?_, fun defects found => ?_, fun sound => ?_, fun settings loaded => ?_⟩
  · simp only [failed, exists_eq_left, ne_eq, report_eq_nil_iff, not_forall, not_not]
  · obtain ⟨rfl, -⟩ := (failed defects).mp found
    refine ⟨fun place => exists_line_iff, fun defect listed => ?_, fun unknown listed key =>
      mem_of_unknownKeys_mem_report listed⟩
    obtain ⟨place, located⟩ := exists_place_of_mem_report listed
    obtain ⟨rest, worded⟩ := SettingsDefect.exists_message_eq located
    exact ⟨place, rest, located, worded⟩
  · cases read : ofTable files path table with
    | ok settings => exact ⟨settings, rfl⟩
    | error defects =>
      obtain ⟨rfl, lines⟩ := ofTable_eq_error_iff.mp read
      exact absurd (report_eq_nil_iff.mpr sound) lines
  · obtain ⟨-, -, -, equivalences, rules, -⟩ := ofTable_eq_ok_iff.mp (Outcome.mapError_eq_ok.mp loaded)
    exact ⟨describes_of_readEquivalences equivalences, describes_of_readRules rules⟩

end Load

/-- A limit that is too small, a key that no settings have and a policy rule without a verdict behind a sound one. -/
theorem load_report_of_three_defects :
    let path : Files.Path := ⟨"/", ["work", "licensekit.toml"]⟩
    let text := "candidate_limit = 0\nlimit = 5\n[[policy]]\nverdict = 'allow'\nlicenses = ['MIT']\n[[policy]]\n"
    ∃ defects, load ⟨⟨"/", ["work"]⟩, [(path, text)], [], []⟩ path = .error (.defects defects) ∧
      (∀ place ∈ [.limit, .keys, .rule 1], ∃ defect ∈ defects, defect.place? = some place) ∧
      ∀ defect ∈ defects, defect.place? ≠ some (.rule 0) := by
  intro path text
  let first : Table := [("verdict", .text "allow"), ("licenses", .list [.text "MIT"])]
  let table : Table := [("candidate_limit", .int 0), ("limit", .int 5), ("policy", .list [.table first, .table []])]
  have read : Files.read ⟨⟨"/", ["work"]⟩, [(path, text)], [], []⟩ path = .ok text :=
    Outcome.toOption_eq_some.mp (by decide +kernel)
  have parsed : Document.Toml.read? text = some table := Document.Toml.read?_of_same (by decide +kernel)
  obtain ⟨wrong, lines, -⟩ := (load_report read parsed).2 rfl
  have limit : Wrong ⟨⟨"/", ["work"]⟩, [(path, text)], [], []⟩ path table .limit :=
    ⟨.int 0, rfl, by simp [IsLimit]⟩
  have keys : Wrong ⟨⟨"/", ["work"]⟩, [(path, text)], [], []⟩ path table .keys := ⟨"limit", by decide +kernel⟩
  have last : Wrong ⟨⟨"/", ["work"]⟩, [(path, text)], [], []⟩ path table (.rule 1) := by
    refine ⟨_, .table [], rfl, rfl, ?_⟩
    rintro ⟨rule, table, same, -, ⟨word, verdict, -⟩, -⟩
    cases same
    cases verdict
  have sound : ¬ Wrong ⟨⟨"/", ["work"]⟩, [(path, text)], [], []⟩ path table (.rule 0) := by
    rintro ⟨_, _, listed, item, unsound⟩
    cases listed
    cases item
    have known (key : String) (found : (first.get? key).isSome = true) : key ∈ Rule.keys :=
      (by decide : ∀ key ∈ first.keys, key ∈ Rule.keys) key (Document.Table.isSome_get?_iff.mp found)
    have verdict : Verdict.parse "allow" = .ok .allow := Outcome.toOption_eq_some.mp (by decide +kernel)
    exact unsound ⟨⟨["MIT"], .allow, ""⟩, first, rfl, known, ⟨"allow", rfl, verdict⟩, .inl ⟨rfl, rfl⟩, rfl,
      List.cons_ne_nil _ _⟩
  obtain ⟨defects, failed⟩ := wrong.mpr ⟨_, limit⟩
  have lines := (lines defects failed).1
  refine ⟨defects, failed, ?_, fun defect listed located => sound ((lines _).mp ⟨defect, listed, located⟩)⟩
  simpa using ⟨(lines _).mpr limit, (lines _).mpr keys, (lines _).mpr last⟩

/-- A name with a null character names no file, but this is not reported as what is wrong with the settings. -/
theorem load_of_null_name :
    let path : Files.Path := ⟨"/", ["work", "licensekit.toml"]⟩
    let text := "licenses_toml = \"a\\u0000b\"\n"
    let files : Files := ⟨⟨"/", ["work"]⟩, [(path, text)], [], []⟩
    ∃ table, Document.Toml.read? text = some table ∧ Wrong files path table .licenses ∧
      load files path = .error (.file .nullCharacter) := by
  intro path text files
  have read : files.read path = .ok text := Outcome.toOption_eq_some.mp (by decide +kernel)
  have parsed : Document.Toml.read? text = some [("licenses_toml", .text "a\x00b")] :=
    Document.Toml.read?_of_same (by decide +kernel)
  refine ⟨_, parsed, ⟨_, rfl, ?_⟩, ?_⟩
  · rintro ⟨name, same, there⟩
    cases same
    exact absurd there (by decide +kernel)
  · exact load_of_obstacle read parsed rfl

end Settings

end Licensing
