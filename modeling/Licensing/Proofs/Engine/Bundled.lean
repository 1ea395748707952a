import Licensing.Proofs.Engine.Building
import Licensing.Proofs.Equivalence.VersionTable
import Licensing.Proofs.Registry.Loading

/-! # The bundled documents

The bundled documents are sound: they make a registry, and a table of version ranges for it.  Whether a text is
blank or an identifier is seen from its bytes, which is quicker than to decode it.

* `Registry.exists_load`, `VersionTable.exists_versionTable` — documents that are accepted.
* `Registry.load_bundled` — the bundled lists are accepted, and their registry is `Registry.standard`.
* `Engine.exists_ofSettings` — settings that have an engine.
-/

namespace Licensing

open Document (Datum Table)

/-! ## Texts by their bytes -/

namespace Text

/-- The bytes of a text. -/
def bytes (text : String) : List UInt8 :=
  text.toByteArray.data.toList

/-- A byte that stands for a character other than white space. -/
def isVisible (byte : UInt8) : Bool :=
  0x21 ≤ byte.toNat && byte.toNat < 0x80

theorem bytes_eq_flatMap (text : String) : bytes text = text.toList.flatMap String.utf8EncodeChar := by
  rw [bytes, ← String.utf8Encode_toList, List.utf8Encode]
  simp

theorem high_of_mem_utf8EncodeChar {c : Char} {byte : UInt8} (long : ¬ c.val.toNat ≤ 0x7F)
    (member : byte ∈ String.utf8EncodeChar c) : 0x80 ≤ byte.toNat := by
  simp only [String.utf8EncodeChar, if_neg long] at member
  -- Encodings of two, three and four bytes.
  split at member
  next =>
    simp only [List.mem_cons, List.not_mem_nil, or_false] at member
    obtain rfl | rfl := member <;> simp <;> omega
  next =>
    split at member
    next =>
      simp only [List.mem_cons, List.not_mem_nil, or_false] at member
      obtain rfl | rfl | rfl := member <;> simp <;> omega
    next =>
      simp only [List.mem_cons, List.not_mem_nil, or_false] at member
      obtain rfl | rfl | rfl | rfl := member <;> simp <;> omega

/-- A visible byte is a character by itself, since the bytes of longer encodings are high. -/
theorem not_isBlank_of_visible {c : Char} {byte : UInt8} (member : byte ∈ String.utf8EncodeChar c)
    (visible : isVisible byte = true) : isBlank c = false := by
  simp only [isVisible, Bool.and_eq_true, decide_eq_true_eq] at visible
  have short : c.val.toNat ≤ 0x7F := by
    refine Decidable.byContradiction fun long => ?_
    have high := high_of_mem_utf8EncodeChar long member
    omega
  have code : byte.toNat = c.toNat := by
    simp only [String.utf8EncodeChar, if_pos short, List.mem_singleton] at member
    rw [member, UInt8.toNat_ofNat']
    exact Nat.mod_eq_of_lt (by omega)
  rw [← Bool.not_eq_true]
  intro blank
  obtain ⟨range, inside, low, high⟩ := CodeRanges.has_iff.mp blank
  simp only [blanks, List.mem_cons, List.not_mem_nil, or_false] at inside
  obtain rfl | rfl | rfl | rfl | rfl | rfl | rfl | rfl | rfl | rfl := inside <;> omega

/-- A byte that is a character by itself. -/
def isAscii (byte : UInt8) : Bool :=
  byte.toNat < 0x80

/-- The characters that the bytes of a text are by themselves. -/
def asciiCharacters (text : String) : List Char :=
  (bytes text).map fun byte => Char.ofNat byte.toNat

theorem map_flatMap_utf8EncodeChar {cs : List Char}
    (ascii : ∀ byte ∈ cs.flatMap String.utf8EncodeChar, isAscii byte = true) :
    (cs.flatMap String.utf8EncodeChar).map (fun byte => Char.ofNat byte.toNat) = cs := by
  induction cs with
  | nil => rfl
  | cons c cs ih =>
    rw [List.flatMap_cons, List.forall_mem_append] at ascii
    have short : c.val.toNat ≤ 0x7F := by
      refine Decidable.byContradiction fun long => ?_
      obtain ⟨byte, encoded⟩ := List.exists_mem_of_ne_nil _ (String.utf8EncodeChar_ne_nil (c := c))
      have low : byte.toNat < 0x80 := of_decide_eq_true (ascii.1 byte encoded)
      have high := high_of_mem_utf8EncodeChar long encoded
      omega
    have alone : String.utf8EncodeChar c = [UInt8.ofNat c.val.toNat] := by
      simp only [String.utf8EncodeChar, if_pos short]
    have code : (UInt8.ofNat c.val.toNat).toNat = c.toNat := by
      rw [UInt8.toNat_ofNat']
      exact Nat.mod_eq_of_lt (by omega)
    rw [List.flatMap_cons, List.map_append, ih ascii.2, alone, List.map_singleton, code, Char.ofNat_toNat]
    rfl

theorem toList_eq_asciiCharacters {text : String} (ascii : (bytes text).all isAscii = true) :
    text.toList = asciiCharacters text := by
  rw [bytes_eq_flatMap, List.all_eq_true] at ascii
  rw [asciiCharacters, bytes_eq_flatMap, map_flatMap_utf8EncodeChar ascii]

theorem isAllBlank_of_bytes {text : String} (visible : (bytes text).any isVisible = true) :
    isAllBlank text = false := by
  obtain ⟨byte, member, seen⟩ := List.any_eq_true.mp visible
  rw [bytes_eq_flatMap] at member
  obtain ⟨c, inText, encoded⟩ := List.mem_flatMap.mp member
  rw [isAllBlank, List.all_eq_false]
  exact ⟨c, inText, by simp [not_isBlank_of_visible encoded seen]⟩

end Text

namespace Registry

/-! ## Registries that load -/

theorem isIdentifier_of_bytes {id : String} (nonempty : id ≠ "")
    (visible : (Text.bytes id).all Text.isVisible = true) : isIdentifier id = true := by
  have blankless : ∀ c ∈ id.toList, Text.isBlank c = false := by
    intro c inText
    obtain ⟨byte, encoded⟩ := List.exists_mem_of_ne_nil _ (String.utf8EncodeChar_ne_nil (c := c))
    have member : byte ∈ Text.bytes id := by
      rw [Text.bytes_eq_flatMap]
      exact List.mem_flatMap.mpr ⟨c, inText, encoded⟩
    exact Text.not_isBlank_of_visible encoded (List.all_eq_true.mp visible byte member)
  rw [isIdentifier, Bool.and_eq_true, Bool.not_eq_true', Bool.not_eq_true']
  exact ⟨by simpa using nonempty, List.any_eq_false.mpr fun c inText => by simp [blankless c inText]⟩

/-- The entry can be read, and its title is not blank. -/
def SoundEntry (entry : String × Datum) : Prop :=
  ∃ title uris, readEntry entry.1 entry.2 = .ok (title, uris) ∧ Text.isAllBlank title = false

/-- Of its identifier, the reading of an entry needs only that it is one. -/
theorem readEntry_congr {id id' : String} (identifier : isIdentifier id = true)
    (identifier' : isIdentifier id' = true) (value : Datum) : readEntry id value = readEntry id' value := by
  unfold readEntry
  simp only [identifier, identifier']

theorem SoundEntry.wellFormed {entry : String × Datum} (sound : SoundEntry entry) : WellFormed entry := by
  obtain ⟨title, uris, read, -⟩ := sound
  exact ⟨title, uris, readEntry_eq_ok_iff.mp read⟩

theorem isTitled_of_sound {list provider : String} {table : Table} (sound : ∀ entry ∈ table, SoundEntry entry) :
    ∀ entry ∈ (readEntries list provider table).1, isTitled entry = true := by
  intro entry listed
  obtain ⟨row, inTable, lists⟩ := exists_row_of_mem listed
  obtain ⟨title, uris, read, visible⟩ := sound row inTable
  obtain ⟨same, -⟩ := lists.describes.unique (readEntry_eq_ok_iff.mp read)
  simp [isTitled, same, visible]

/-- Sound lists without a common identifier make a registry. -/
theorem exists_load {licenses exceptions : Source} {licenseTable exceptionTable : Table}
    (hasLicenses : licenses.table = some licenseTable) (hasExceptions : exceptions.table = some exceptionTable)
    (soundLicenses : ∀ entry ∈ licenseTable, SoundEntry entry)
    (soundExceptions : ∀ entry ∈ exceptionTable, SoundEntry entry)
    (disjoint : ∀ entry ∈ licenseTable, ∀ other ∈ exceptionTable, other.1 ≠ entry.1) :
    ∃ registry, load licenses exceptions .absent = .ok registry ∧
      registry.licenses.map Listed.id = licenseTable.map Prod.fst ∧
      registry.exceptions.map Listed.id = exceptionTable.map Prod.fst := by
  have parsed : Parsed licenses exceptions .absent ⟨licenseTable, exceptionTable, []⟩ :=
    ⟨hasLicenses, hasExceptions, rfl⟩
  have wellFormed : ∀ entry ∈ licenseTable, WellFormed entry :=
    fun entry member => (soundLicenses entry member).wellFormed
  have wellFormed' : ∀ entry ∈ exceptionTable, WellFormed entry :=
    fun entry member => (soundExceptions entry member).wellFormed
  have structured : Structured ⟨licenseTable, exceptionTable, []⟩ [] [] :=
    ⟨wellFormed, wellFormed', by simp [Table.keys], .inl ⟨rfl, rfl⟩, .inl ⟨rfl, rfl⟩, by simp, by simp⟩
  have ids : (readEntries licenses.name "SPDX" licenseTable).1.map Listed.id = licenseTable.keys :=
    ids_of_lists (lists_of_wellFormed wellFormed)
  have ids' : (readEntries exceptions.name "SPDX" exceptionTable).1.map Listed.id = exceptionTable.keys :=
    ids_of_lists (lists_of_wellFormed wellFormed')
  refine ⟨_, (load_eq_ok_iff parsed).mpr ⟨structured_iff.mpr ⟨_, _, structured⟩, ?_, rfl⟩, ids, ids'⟩
  refine defects_eq_nil_iff.mpr ⟨fun id license exception => ?_, isTitled_of_sound soundLicenses,
    isTitled_of_sound soundExceptions⟩
  obtain ⟨entry, inTable, rfl⟩ := List.mem_map.mp (ids ▸ license)
  obtain ⟨other, inTable', same⟩ := List.mem_map.mp (ids' ▸ exception)
  exact disjoint entry inTable other inTable' same

end Registry

/-! ## Version ranges that are accepted -/

namespace VersionTable

variable {registry : Registry}

theorem addFamilies_of_known {file : String} {index : Nat} {table : EquivalenceTable} {items : List Datum}
    (known : ∀ item ∈ items, ∃ versions, versionsOf? item = some versions ∧
      ∀ id ∈ versions, registry.hasLicense id = true) :
    (addFamilies registry file index table items).2 = [] := by
  induction items generalizing index table with
  | nil => rfl
  | cons item items ih =>
    obtain ⟨versions, found, inside⟩ := known item List.mem_cons_self
    have unknown : versions.filter (!registry.hasLicense ·) = [] :=
      List.filter_eq_nil_iff.mpr fun id member => by simp [inside id member]
    simp only [addFamilies, found, unknown, List.isEmpty_nil, if_true]
    exact ih fun other member => known other (.tail _ member)

theorem addOrLater_of_known {file : String} {table : EquivalenceTable} {items : List Datum}
    (known : ∀ item ∈ items, ∃ stem, item.asText? = some (stem ++ orLaterEnding) ∧
      registry.hasLicense (stem ++ orLaterEnding) = true ∧ registry.hasLicense (stem ++ "-only") = true) :
    (addOrLater registry file table items).2 = [] := by
  induction items generalizing table with
  | nil => rfl
  | cons item items ih =>
    obtain ⟨stem, found, whole, only⟩ := known item List.mem_cons_self
    have ends : stem? (stem ++ orLaterEnding) = some stem := stem?_eq_some.mpr rfl
    simp only [addOrLater, found, Option.bind_some, ends, whole, only, Bool.and_self, if_true]
    exact ih fun other member => known other (.tail _ member)

/-- A document is accepted if its families are lists of known identifiers and its other identifiers have the
ending, and are known with and without it. -/
theorem exists_versionTable {document : Source} {data : Table} {familyItems orLaterItems : List Datum}
    (read : Registry.tableOf document = .ok data)
    (listed : ∀ defect, listOr defect data "family" = .ok familyItems)
    (listed' : ∀ defect, listOr defect data "or_later" = .ok orLaterItems)
    (families : ∀ item ∈ familyItems, ∃ versions, versionsOf? item = some versions ∧
      ∀ id ∈ versions, registry.hasLicense id = true)
    (orLaterIds : ∀ item ∈ orLaterItems, ∃ stem, item.asText? = some (stem ++ orLaterEnding) ∧
      registry.hasLicense (stem ++ orLaterEnding) = true ∧ registry.hasLicense (stem ++ "-only") = true) :
    ∃ table, versionTable registry document = .ok table := by
  simp only [versionTable, bind, Except.bind, read, listed, listed', addFamilies_of_known families,
    addOrLater_of_known orLaterIds, List.append_nil, List.isEmpty_nil, Bool.not_true, Bool.false_eq_true,
    if_false]
  exact ⟨_, rfl⟩

end VersionTable

/-! ## The bundled documents -/

namespace Bundled

/-- What is checked of an entry; `x` stands for any identifier. -/
def passes (entry : String × Datum) : Bool :=
  entry.1 != "" && (Text.bytes entry.1).all Text.isVisible &&
    match Registry.readEntry "x" entry.2 with
    | .ok (title, _) => (Text.bytes title).any Text.isVisible
    | .error _ => false

theorem soundEntry_of_passes {entry : String × Datum} (passed : passes entry = true) :
    Registry.SoundEntry entry := by
  simp only [passes, Bool.and_eq_true, bne_iff_ne, ne_eq] at passed
  obtain ⟨⟨nonempty, visible⟩, rest⟩ := passed
  split at rest
  next title uris found =>
    have identifier := Registry.isIdentifier_of_bytes nonempty visible
    have other : Registry.isIdentifier "x" = true := by decide +kernel
    exact ⟨title, uris, Registry.readEntry_congr identifier other entry.2 ▸ found,
      Text.isAllBlank_of_bytes rest⟩
  next => cases rest

theorem licenses_pass : licenses.all passes = true := by
  decide +kernel

theorem exceptions_pass : exceptions.all passes = true := by
  decide +kernel

theorem no_license_is_exception :
    licenses.all (fun entry => exceptions.all fun other => other.1 != entry.1) = true := by
  decide +kernel

/-- The versions of a family are listed in the order of the licenses. -/
theorem families_listed : families.all (fun item => (VersionTable.versionsOf? item).any
    (·.isSublist (licenses.map Prod.fst))) = true := by
  decide +kernel

theorem orLaterIds_listed : orLaterIds.all (fun item => (item.asText?.bind VersionTable.stem?).any fun stem =>
    [stem ++ "-only", stem ++ VersionTable.orLaterEnding].isSublist (licenses.map Prod.fst)) = true := by
  decide +kernel

end Bundled

/-- The bundled lists make a registry, which is the standard one. -/
theorem Registry.load_bundled : load bundledLicenses bundledExceptions .absent = .ok standard ∧
    standard.licenses.map Listed.id = Bundled.licenses.map Prod.fst ∧
    standard.exceptions.map Listed.id = Bundled.exceptions.map Prod.fst := by
  have licenses : ∀ entry ∈ Bundled.licenses, SoundEntry entry := fun entry member =>
    Bundled.soundEntry_of_passes (List.all_eq_true.mp Bundled.licenses_pass entry member)
  have exceptions : ∀ entry ∈ Bundled.exceptions, SoundEntry entry := fun entry member =>
    Bundled.soundEntry_of_passes (List.all_eq_true.mp Bundled.exceptions_pass entry member)
  have disjoint : ∀ entry ∈ Bundled.licenses, ∀ other ∈ Bundled.exceptions, other.1 ≠ entry.1 := by
    simpa [List.all_eq_true] using Bundled.no_license_is_exception
  obtain ⟨registry, loaded, ids⟩ := @exists_load bundledLicenses bundledExceptions _ _ rfl rfl
    licenses exceptions disjoint
  have same : standard = registry := by
    rw [standard, loaded]
    rfl
  exact same ▸ ⟨loaded, ids⟩

theorem Registry.hasLicense_standard {id : String} (listed : id ∈ Bundled.licenses.map Prod.fst) :
    standard.hasLicense id = true := by
  rw [← load_bundled.2.1] at listed
  obtain ⟨entry, member, same⟩ := List.mem_map.mp listed
  exact VersionTable.hasLicense_iff.mpr ⟨entry, member, same⟩

theorem exists_versionTable_bundled :
    ∃ versions, versionTable Registry.standard bundledVersions = .ok versions := by
  have families : ∀ item ∈ Bundled.families, ∃ versions, VersionTable.versionsOf? item = some versions ∧
      ∀ id ∈ versions, Registry.standard.hasLicense id = true := by
    intro item member
    obtain ⟨versions, found, listed⟩ :=
      (Option.any_eq_true _ _).mp (List.all_eq_true.mp Bundled.families_listed item member)
    exact ⟨versions, found, fun id inside =>
      Registry.hasLicense_standard ((List.isSublist_iff_sublist.mp listed).subset inside)⟩
  have orLaterIds : ∀ item ∈ Bundled.orLaterIds, ∃ stem,
      item.asText? = some (stem ++ VersionTable.orLaterEnding) ∧
      Registry.standard.hasLicense (stem ++ VersionTable.orLaterEnding) = true ∧
      Registry.standard.hasLicense (stem ++ "-only") = true := by
    intro item member
    obtain ⟨stem, found, listed⟩ :=
      (Option.any_eq_true _ _).mp (List.all_eq_true.mp Bundled.orLaterIds_listed item member)
    obtain ⟨id, text, ends⟩ := Option.bind_eq_some_iff.mp found
    have inside := (List.isSublist_iff_sublist.mp listed).subset
    exact ⟨stem, VersionTable.stem?_eq_some.mp ends ▸ text,
      Registry.hasLicense_standard (inside (by simp)), Registry.hasLicense_standard (inside (by simp))⟩
  exact VersionTable.exists_versionTable rfl (fun _ => rfl) (fun _ => rfl)
    families orLaterIds

namespace Engine

open Reporting

theorem exists_layers {rules : List EquivalenceRule}
    (readable : ∃ table, EquivalenceTable.ofRules Registry.standard rules = .ok table) :
    ∃ equivalence, Layers Registry.standard rules equivalence := by
  obtain ⟨versions, accepted⟩ := exists_versionTable_bundled
  obtain ⟨table, read⟩ := readable
  by_cases none : rules.isEmpty = true
  · exact ⟨_, .plain accepted none⟩
  · exact ⟨_, .ruled accepted (by simpa using none) read⟩

theorem exists_ofSettings_of_build (files : Files) {settings : Settings} (bundled : settings.licenses = none)
    {equivalence : Equivalence} {policy : Policy} {interpreter : Interpreter}
    (layers : Layers Registry.standard settings.equivalences equivalence)
    (accepted : Policy.ofRules Registry.standard settings.rules = .ok policy)
    (indexed : Interpreter.build equivalence policy = .ok interpreter) :
    ∃ engine, (ofSettings files settings).outcome.1 = .ok engine := by
  simp only [outcome_eq_ok, ofSettings, loadRegistry, bundled, buildGuesser, runFrom_bind_eq_ok,
    runFrom_pure_eq_ok, runFrom_lift_eq_ok, runFrom_note_eq_ok]
  obtain ⟨afterTables, tables⟩ := (exists_runFrom_buildEquivalence _).mpr layers
  obtain ⟨behind, built⟩ := (exists_runFrom_buildInterpreter _).mpr indexed
  exact ⟨_, behind, _, _, ⟨rfl, rfl⟩, equivalence, _, tables, _, _, ⟨⟨⟩, _, rfl, rfl, rfl⟩, policy, _,
    ⟨accepted, rfl⟩, ⟨⟩, _, rfl, _, _, built, rfl, rfl⟩

theorem exists_ofSettings (files : Files) {settings : Settings} (bundled : settings.licenses = none)
    (unruled : settings.rules = [])
    (readable : ∃ table, EquivalenceTable.ofRules Registry.standard settings.equivalences = .ok table) :
    ∃ engine, (ofSettings files settings).outcome.1 = .ok engine := by
  obtain ⟨equivalence, layers⟩ := exists_layers readable
  have policy : Policy.ofRules Registry.standard settings.rules = .ok .empty := by
    rw [unruled]
    rfl
  have indexed : Interpreter.build equivalence .empty = .ok ⟨equivalence, .empty, []⟩ := rfl
  exact exists_ofSettings_of_build files bundled layers policy indexed

end Engine

end Licensing
