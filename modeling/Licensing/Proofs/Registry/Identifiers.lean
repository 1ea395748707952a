import Licensing.Proofs.Engine.Bundled
import Licensing.Proofs.Grammar.Lexeme
import Licensing.Proofs.Grammar.RoundTrip

/-! # Identifiers and names

A registry asks of an identifier that it is not empty and holds no white space, and asks nothing else
(`exists_load_iff`).  An expression asks more of a name: the characters of words only, no operator in any
letter case, and no sentinel.  So every name is an identifier (`isIdentifier_of_isName`), and the identifiers
that can be written in an expression are exactly the names; `parse_identifier_with_plus` shows what becomes of
another one.

* `Registry.Identified` — what is listed has an identifier; the invariant of loading.
* `Registry.parse_identifier_iff` — the main statement.
-/

namespace Licensing

theorem isIdentifier_of_isName {id : String} (name : IsName id) : Registry.isIdentifier id = true := by
  obtain ⟨⟨some, characters⟩, -, -⟩ := name
  rw [Registry.isIdentifier, Bool.and_eq_true, Bool.not_eq_true', Bool.not_eq_true']
  refine ⟨by simpa using some, List.any_eq_false.mpr fun c member blank => ?_⟩
  have letter := List.all_eq_true.mp characters c member
  rw [Token.isWordCharacter_of_isBlank blank] at letter
  cases letter

namespace Registry

variable {registry : Registry} {licenses exceptions : Source} {user : UserSource}

/-! ## Loading -/

def AllIdentifiers (entries : List Listed) : Prop :=
  ∀ entry ∈ entries, isIdentifier entry.id = true

theorem allIdentifiers_readEntries (list provider : String) (table : Document.Table) :
    AllIdentifiers (readEntries list provider table).1 := by
  intro entry listed
  obtain ⟨row, -, lists⟩ := exists_row_of_mem listed
  exact isIdentifier_iff.mpr (lists.id ▸ lists.describes.identifying)

theorem allIdentifiers_iff {entries : List Listed} :
    AllIdentifiers entries ↔ ∀ id ∈ entries.map Listed.id, isIdentifier id = true := by
  simp [AllIdentifiers]

theorem AllIdentifiers.foldl_put {entries new : List Listed} (before : AllIdentifiers entries)
    (added : AllIdentifiers new) : AllIdentifiers (new.foldl Listed.put entries) := by
  induction new generalizing entries with
  | nil => exact before
  | cons entry new ih =>
    obtain ⟨first, others⟩ := List.forall_mem_cons.mp added
    refine ih (allIdentifiers_iff.mpr ?_) others
    have old := allIdentifiers_iff.mp before
    rw [Listed.ids_put]
    split
    next => exact old
    next => exact List.forall_mem_append.mpr ⟨old, List.forall_mem_singleton.mpr first⟩

/-- All that is listed, licenses and exceptions, has an identifier. -/
def Identified (registry : Registry) : Prop :=
  AllIdentifiers registry.licenses ∧ AllIdentifiers registry.exceptions

theorem Identified.mergeUser (identified : registry.Identified) (name : String) (table : Document.Table) :
    (registry.mergeUser name table).1.Identified := by
  unfold Registry.mergeUser
  dsimp only
  split
  next =>
    exact ⟨identified.1.foldl_put (allIdentifiers_readEntries _ _ _),
      identified.2.foldl_put (allIdentifiers_readEntries _ _ _)⟩
  next => exact identified

theorem identified_of_load (loaded : load licenses exceptions user = .ok registry) : registry.Identified := by
  obtain ⟨documents, parsed⟩ := exists_parsed_of_load loaded
  obtain ⟨-, -, rfl⟩ := (load_eq_ok_iff parsed).mp loaded
  have listed : Identified ⟨_, _⟩ := ⟨allIdentifiers_readEntries licenses.name "SPDX" documents.licenses,
    allIdentifiers_readEntries exceptions.name "SPDX" documents.exceptions⟩
  exact listed.mergeUser user.name documents.user

/-! ## Looking up -/

theorem of_findLicense? {id : String} {entry : Listed} (found : registry.findLicense? id = some entry) :
    entry ∈ registry.licenses ∧ entry.id = id :=
  ⟨List.mem_of_find?_eq_some found, by simpa using List.find?_some found⟩

theorem of_findException? {id : String} {entry : Listed} (found : registry.findException? id = some entry) :
    entry ∈ registry.exceptions ∧ entry.id = id :=
  ⟨List.mem_of_find?_eq_some found, by simpa using List.find?_some found⟩

/-! ## Writing identifiers in expressions -/

theorem parse_identifier_iff_isName {id : String} {entry : Listed}
    (found : registry.findLicense? id = some entry) :
    Expression.parse registry id = .ok (.just (.standard entry.id)) ↔ IsName id := by
  obtain ⟨-, rfl⟩ := of_findLicense? found
  constructor
  · intro parsed
    have legible := (Expression.printable_of_parse parsed).legible
    simp only [Expression.Legible] at legible
    exact legible.name
  · intro name
    rw [Expression.parse_of_isName registry name, readLicense, found]
    rfl

theorem parse_exception_iff_isName {word id : String} {entry : Listed} (name : IsName word)
    (found : registry.findException? id = some entry) :
    Expression.parse registry (word ++ " WITH " ++ id) =
      .ok (.withException (.exact (registry.readLicense word).named) (.standard entry.id)) ↔ IsName id := by
  obtain ⟨-, rfl⟩ := of_findException? found
  constructor
  · intro parsed
    have legible := (Expression.printable_of_parse parsed).legible
    simp only [Expression.Legible] at legible
    exact legible.2.name
  · intro name'
    have reads : (registry.readException entry.id).named = .standard entry.id := by
      rw [readException, found]
      rfl
    have printable : (Expression.withException (.exact (registry.readLicense word).named)
        (.standard entry.id)).Printable registry :=
      ⟨trivial, Postfix.knowsLicense_readLicense name, name', reads⟩
    have text : (Expression.withException (.exact (registry.readLicense word).named)
        (.standard entry.id)).text = word ++ " WITH " ++ entry.id := by
      rw [Expression.text, SimpleTerm.text, Postfix.text_readLicense]
      rfl
    exact text ▸ printable.parse_text

/-- Of the identifiers in a registry that loads, exactly the names can be written in an expression, as a license
or behind any license as its exception. -/
theorem parse_identifier_iff (loaded : load licenses exceptions user = .ok registry) :
    (∀ id entry, registry.findLicense? id = some entry → isIdentifier id = true ∧
      (Expression.parse registry id = .ok (.just (Designation.listed entry).named) ↔ IsName id)) ∧
    ∀ id entry, registry.findException? id = some entry → isIdentifier id = true ∧
      ∀ word, IsName word → (Expression.parse registry (word ++ " WITH " ++ id) =
        .ok (.withException (.exact (registry.readLicense word).named) (Designation.listed entry).named) ↔
          IsName id) := by
  have identified := identified_of_load loaded
  constructor
  · intro id entry found
    obtain ⟨member, rfl⟩ := of_findLicense? found
    exact ⟨identified.1 entry member, parse_identifier_iff_isName found⟩
  · intro id entry found
    obtain ⟨member, rfl⟩ := of_findException? found
    exact ⟨identified.2 entry member, fun word name => parse_exception_iff_isName name found⟩

/-- One license can be written in an expression and the other one cannot, and so with the exceptions. -/
theorem parse_identifier_iff_of_mixed_identifiers :
    let licenses := Source.ofText "licenses.toml" "licenses.toml"
      "[MIT]\nname = \"MIT License\"\n[\"MIT/X11\"]\nname = \"MIT or X11 License\"\n"
    let exceptions := Source.ofText "exceptions.toml" "exceptions.toml"
      "[LLVM-exception]\nname = \"LLVM Exception\"\n[NONE]\nname = \"No Exception\"\n"
    ∃ registry, load licenses exceptions .absent = .ok registry ∧
      Expression.parse registry "MIT" = .ok (.just (.standard "MIT")) ∧
      Expression.parse registry "MIT/X11" ≠ .ok (.just (.standard "MIT/X11")) ∧
      Expression.parse registry "MIT WITH LLVM-exception" =
        .ok (.withException (.exact (.standard "MIT")) (.standard "LLVM-exception")) ∧
      Expression.parse registry "MIT WITH NONE" ≠
        .ok (.withException (.exact (.standard "MIT")) (.standard "NONE")) := by
  intro licenses exceptions
  have loaded : load licenses exceptions .absent = .ok
      ⟨[{ id := "MIT", title := "MIT License" }, { id := "MIT/X11", title := "MIT or X11 License" }],
        [{ id := "LLVM-exception", title := "LLVM Exception" }, { id := "NONE", title := "No Exception" }]⟩ :=
    Outcome.toOption_eq_some.mp (by decide +kernel)
  obtain ⟨parses, attaches⟩ := parse_identifier_iff loaded
  have name : IsName "MIT" := by decide +kernel
  refine ⟨_, loaded, (parses "MIT" _ rfl).2.mpr name, fun parsed => ?_,
    ((attaches "LLVM-exception" _ rfl).2 "MIT" name).mpr (by decide +kernel), fun parsed => ?_⟩
  · exact absurd ((parses "MIT/X11" _ rfl).2.mp parsed) (by decide +kernel)
  · exact absurd (((attaches "NONE" _ rfl).2 "MIT" name).mp parsed) (by decide +kernel)

/-- A license whose identifier ends in a plus sign is registered, and so is an exception that is called like an
operator; neither is found where it is written. -/
theorem parse_identifier_with_plus :
    let licenses := Source.ofText "licenses.toml" "licenses.toml"
      "[MIT]\nname = \"MIT License\"\n[\"GPL-2.0+\"]\nname = \"GNU GPL v2.0 or later\"\n"
    let exceptions := Source.ofText "exceptions.toml" "exceptions.toml" "[and]\nname = \"And\"\n"
    ∃ registry, load licenses exceptions .absent = .ok registry ∧
      (∃ entry, registry.findLicense? "GPL-2.0+" = some entry ∧
        Expression.parse registry "GPL-2.0+" ≠ .ok (.just (Designation.listed entry).named)) ∧
      ∃ entry, registry.findException? "and" = some entry ∧
        Expression.parse registry "MIT WITH and" ≠
          .ok (.withException (.exact (.standard "MIT")) (Designation.listed entry).named) := by
  intro licenses exceptions
  have loaded : load licenses exceptions .absent = .ok
      ⟨[{ id := "MIT", title := "MIT License" }, { id := "GPL-2.0+", title := "GNU GPL v2.0 or later" }],
        [{ id := "and", title := "And" }]⟩ :=
    Outcome.toOption_eq_some.mp (by decide +kernel)
  refine ⟨_, loaded, ⟨_, rfl, fun parsed => ?_⟩, ⟨_, rfl, fun parsed => ?_⟩⟩
  · have other : (Expression.parse _ "GPL-2.0+").toOption = some _ := Outcome.toOption_eq_some.mpr parsed
    exact absurd other (by decide +kernel)
  · have other : (Expression.parse _ "MIT WITH and").toOption = some _ := Outcome.toOption_eq_some.mpr parsed
    exact absurd other (by decide +kernel)

/-! ## Identifiers that are registered -/

theorem soundEntry_of_isIdentifier {id : String} (identifier : isIdentifier id = true) :
    SoundEntry (id, .table [("name", .text "Title")]) := by
  have other : isIdentifier "x" = true := by decide +kernel
  exact ⟨"Title", [], readEntry_congr other identifier _ ▸ rfl, by decide +kernel⟩

theorem isSome_find?_iff {entries : List Listed} {id : String} :
    (Listed.find? entries id).isSome = true ↔ id ∈ entries.map Listed.id := by
  simp [Listed.find?]

/-- A text is registered by some documents exactly if it is an identifier. -/
theorem exists_load_iff {id : String} :
    (∃ licenses exceptions user registry, load licenses exceptions user = .ok registry ∧
      ((registry.findLicense? id).isSome = true ∨ (registry.findException? id).isSome = true)) ↔
      isIdentifier id = true := by
  constructor
  · rintro ⟨licenses, exceptions, user, registry, loaded, listed⟩
    have identified := identified_of_load loaded
    obtain license | exception := listed
    · obtain ⟨entry, member, rfl⟩ := List.mem_map.mp (isSome_find?_iff.mp license)
      exact identified.1 entry member
    · obtain ⟨entry, member, rfl⟩ := List.mem_map.mp (isSome_find?_iff.mp exception)
      exact identified.2 entry member
  · intro identifier
    have sound : ∀ row ∈ [(id, .table [("name", .text "Title")])], SoundEntry row := by
      simpa using soundEntry_of_isIdentifier identifier
    obtain ⟨registry, loaded, ids, -⟩ := @exists_load (.bundled "licenses.toml" _)
      (.bundled "exceptions.toml" []) _ _ rfl rfl sound (by simp) (by simp)
    refine ⟨_, _, _, registry, loaded, .inl (isSome_find?_iff.mpr ?_)⟩
    simp [ids]

/-! ## The bundled identifiers -/

/-- No keyword, in any letter case. -/
def isNoKeyword (characters : List Char) : Bool :=
  ["WITH", "AND", "OR"].all fun keyword => keyword.toList != characters.map Char.toUpper

theorem symbolOf_eq_word {word : String} (other : isNoKeyword word.toList = true) :
    Token.symbolOf word = .word := by
  simp only [isNoKeyword, List.all_cons, List.all_nil, Bool.and_true, Bool.and_eq_true, bne_iff_ne] at other
  obtain ⟨noWith, noAnd, noOr⟩ := other
  have characters {keyword : String} (same : String.ofList (word.toList.map Char.toUpper) = keyword) :
      keyword.toList = word.toList.map Char.toUpper := by
    rw [← same, String.toList_ofList]
  unfold Token.symbolOf
  split
  next same => exact absurd (characters same) noWith
  next same => exact absurd (characters same) noAnd
  next same => exact absurd (characters same) noOr
  next => rfl

/-- That a text is a name is seen from its bytes. -/
theorem isName_of_bytes {id : String} (ascii : (Text.bytes id).all Text.isAscii = true) (nonempty : id ≠ "")
    (characters : (Text.asciiCharacters id).all Token.isWordCharacter = true)
    (other : isNoKeyword (Text.asciiCharacters id) = true) (plain : Postfix.isSentinel id = false) :
    IsName id := by
  rw [← Text.toList_eq_asciiCharacters ascii] at characters other
  exact ⟨⟨nonempty, characters⟩, symbolOf_eq_word other, plain⟩

theorem bundled_names : (Bundled.licenses ++ Bundled.exceptions).all (fun row =>
    (Text.bytes row.1).all Text.isAscii && row.1 != "" &&
      (Text.asciiCharacters row.1).all Token.isWordCharacter && isNoKeyword (Text.asciiCharacters row.1) &&
      !Postfix.isSentinel row.1) = true := by
  decide +kernel

/-- All identifiers of the bundled lists are names. -/
theorem isName_of_standard {entry : Listed} (listed : entry ∈ standard.licenses ++ standard.exceptions) :
    IsName entry.id := by
  obtain ⟨-, licenseIds, exceptionIds⟩ := load_bundled
  have inside : entry.id ∈ (Bundled.licenses ++ Bundled.exceptions).map Prod.fst := by
    rw [List.map_append, ← licenseIds, ← exceptionIds, ← List.map_append]
    exact List.mem_map_of_mem listed
  obtain ⟨row, member, same⟩ := List.mem_map.mp inside
  have passes := List.all_eq_true.mp bundled_names row member
  simp only [Bool.and_eq_true, bne_iff_ne, Bool.not_eq_true'] at passes
  obtain ⟨⟨⟨⟨ascii, nonempty⟩, characters⟩, other⟩, plain⟩ := passes
  exact same ▸ isName_of_bytes ascii nonempty characters other plain

end Registry

end Licensing
