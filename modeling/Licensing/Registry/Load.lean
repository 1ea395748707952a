import Licensing.Bundled.Exceptions
import Licensing.Bundled.Licenses
import Licensing.Document.Toml
import Licensing.Registry.Basic
import Licensing.Registry.Defect

/-! # Loading a registry

A registry is made from a document that lists licenses, one that lists exceptions, and perhaps one
of the user with further entries of both kinds, which add to the others or replace entries in them.

Loading succeeds only if all documents are sound: every well-formedness defect is reported, in
document order, and only when there is none the registry as a whole is checked.

* `readEntries` — the entries of a list, and the defects of the others.
* `Registry.load` — the registry of the documents.
* `Registry.standard` — the registry of the bundled documents.
-/

namespace Licensing

open Licensing.Document

/-- A document that was found in a file. A text that is no document has no table. -/
structure Source where
  path : String
  name : String
  table : Option Table

def Source.ofText (path name text : String) : Source :=
  ⟨path, name, Toml.read? text⟩

def Source.bundled (name : String) (table : Table) : Source :=
  ⟨name, name, some table⟩

/-- The further entries of the user: none, a file that is not there, or a document. -/
inductive UserSource where
  | absent
  | missing (path : String)
  | present (source : Source)

namespace Registry

/-! ## Entries -/

def isIdentifier (id : String) : Bool :=
  !id.isEmpty && !id.toList.any Text.isBlank

def readEntry (id : String) (value : Datum) : Except EntryDefect (String × List String) := do
  let some info := value.asTable? | .error (.notTable value.kindName)
  if !isIdentifier id then .error .badIdentifier
  let some name := info.get? "name" | .error .missingName
  let some title := name.asText? | .error (.nameNotText name.kindName)
  let references := (info.get? "see_also").getD (.list [])
  if references.asList?.isNone then .error (.referencesNotList references.kindName)
  let some uris := references.asTexts? | .error .referencesNotTexts
  .ok (title, uris)

/-- The sound entries of the list called `list`, and the defects of the others. -/
def readEntries (list provider : String) : Table → List Listed × List DataDefect
  | [] => ([], [])
  | (id, value) :: rest =>
    let (entries, defects) := readEntries list provider rest
    match readEntry id value with
    | .ok (title, uris) => (⟨id, title, uris, provider⟩ :: entries, defects)
    | .error defect => (entries, .entry list id defect :: defects)

/-! ## The user's entries -/

def userKeys : List String :=
  ["licenses", "exceptions"]

/-- The table under a key, empty if there is none; `none` if the value is no table. -/
def subtable? (table : Table) (key : String) : Option Table :=
  ((table.get? key).getD (.table [])).asTable?

/-- Adds the user's entries to a registry, and reports the defects of the user's document. -/
def mergeUser (registry : Registry) (name : String) (table : Table) :
    Registry × List DataDefect :=
  let unknown := SortedSet.ofList (table.keys.filter (!userKeys.contains ·))
  let unknownDefects := if unknown.isEmpty then [] else [DataDefect.unknownKeys name unknown]
  match subtable? table "licenses", subtable? table "exceptions" with
  | some licenses, some exceptions =>
    let (newLicenses, licenseDefects) := readEntries (name ++ ":licenses") "user" licenses
    let (newExceptions, exceptionDefects) := readEntries (name ++ ":exceptions") "user" exceptions
    (⟨newLicenses.foldl Listed.put registry.licenses,
      newExceptions.foldl Listed.put registry.exceptions⟩,
      unknownDefects ++ licenseDefects ++ exceptionDefects)
  | _, _ => (registry, unknownDefects ++ [.notTables name])

/-! ## The registry as a whole -/

def isTitled (entry : Listed) : Bool :=
  !Text.isAllBlank entry.title

/-- What is wrong with a registry although each of its entries is well formed. -/
def defects (registry : Registry) : List DataDefect :=
  let shared := (registry.licenses.map Listed.id).filter fun id =>
    (registry.findException? id).isSome
  (SortedSet.ofList shared).map .licenseAndException ++
    (registry.licenses.filter (!isTitled ·)).map (fun entry => .emptyLicenseName entry.id) ++
    (registry.exceptions.filter (!isTitled ·)).map (fun entry => .emptyExceptionName entry.id)

def tableOf (source : Source) : Except (List DataDefect) Table :=
  match source.table with
  | some table => .ok table
  | none => .error [.malformed source.path]

/-- The registry of a list of licenses, a list of exceptions and the user's document. -/
def load (licenses exceptions : Source) (user : UserSource) : Except (List DataDefect) Registry := do
  let (licenseEntries, licenseDefects) := readEntries licenses.name "SPDX" (← tableOf licenses)
  let (exceptionEntries, exceptionDefects) :=
    readEntries exceptions.name "SPDX" (← tableOf exceptions)
  let base : Registry := ⟨licenseEntries, exceptionEntries⟩
  let (registry, userDefects) ← match user with
    | .absent => .ok (base, [])
    | .missing path => .ok (base, [.missingUserFile path])
    | .present source => (tableOf source).map (mergeUser base source.name)
  let found := licenseDefects ++ exceptionDefects ++ userDefects
  if !found.isEmpty then .error found
  let wrong := registry.defects
  if !wrong.isEmpty then .error wrong
  .ok registry

/-- The license with an identifier, which has to be there. -/
def requireLicense (registry : Registry) (id : String) : Except (List DataDefect) Listed :=
  match registry.findLicense? id with
  | some entry => .ok entry
  | none => .error [.unknownLicense id]

def bundledLicenses : Source :=
  .bundled "licenses.toml" Bundled.licenses

def bundledExceptions : Source :=
  .bundled "exceptions.toml" Bundled.exceptions

def standard : Registry :=
  (load bundledLicenses bundledExceptions .absent).toOption.getD ⟨[], []⟩

end Registry

end Licensing
