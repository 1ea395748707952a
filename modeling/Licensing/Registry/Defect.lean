import Licensing.Document.Datum

/-! # Defects of license data

Everything that can be wrong with the documents that list licenses, exceptions and version families.
A defect keeps its cause; `DataDefect.message` words it.
-/

namespace Licensing

open Licensing.Document

inductive EntryDefect where
  | notTable (kind : String)
  | badIdentifier
  | missingName
  | nameNotText (kind : String)
  | referencesNotList (kind : String)
  | referencesNotTexts
deriving DecidableEq, Repr

/-- The wording, for the identifier `id` of the list called `list`. -/
def EntryDefect.message (list id : String) : EntryDefect → String
  | .notTable kind => s!"{list}[{id}]: expected a table, got {kind}"
  | .badIdentifier =>
    s!"{list}[{Text.quoted id}]: identifier must be non-empty and contain no whitespace"
  | .missingName => s!"{list}[{id}]: missing required field \"name\""
  | .nameNotText kind => s!"{list}[{id}].name: expected string, got {kind}"
  | .referencesNotList kind => s!"{list}[{id}].see_also: expected list, got {kind}"
  | .referencesNotTexts => s!"{list}[{id}].see_also: all entries must be strings"

inductive DataDefect where
  | malformed (path : String)
  | entry (list id : String) (defect : EntryDefect)
  | missingUserFile (path : String)
  | unknownKeys (file : String) (keys : List String)
  | notTables (file : String)
  | licenseAndException (id : String)
  | emptyLicenseName (id : String)
  | emptyExceptionName (id : String)
  | unknownLicense (id : String)
  | familiesNotList (file : String)
  | familyNotTexts (file : String) (index : Nat)
  | familyUnknown (file : String) (index : Nat) (ids : List String)
  | orLaterNotList (file : String)
  | orLaterName (file : String) (shown : String)
  | orLaterUnpaired (file : String) (id onlyId : String)
  | note (text : String)
deriving DecidableEq, Repr

def DataDefect.message : DataDefect → String
  | .malformed path => s!"{path}: invalid TOML: the text is no TOML document"
  | .entry list id defect => defect.message list id
  | .missingUserFile path => s!"{path}: user license file does not exist"
  | .unknownKeys file keys => s!"{file}: unknown top-level keys: " ++ ", ".intercalate keys
  | .notTables file => s!"{file}: \"licenses\" and \"exceptions\" must be tables"
  | .licenseAndException id => s!"{id}: defined both as a license and as an exception"
  | .emptyLicenseName id => s!"{id}: license name must not be empty"
  | .emptyExceptionName id => s!"{id}: exception name must not be empty"
  | .unknownLicense id => s!"{id}: unknown license identifier"
  | .familiesNotList file => s!"{file}: \"family\" must be an array of tables ([[family]])."
  | .familyNotTexts file index => s!"{file}: family[{index}].versions must be a list of strings"
  | .familyUnknown file index ids =>
    s!"{file}: family[{index}] names unknown licenses: " ++ ", ".intercalate ids
  | .orLaterNotList file => s!"{file}: \"or_later\" must be a list of strings"
  | .orLaterName file shown => s!"{file}: or_later entry {shown} must end with \"-or-later\""
  | .orLaterUnpaired file id onlyId =>
    s!"{file}: or_later entry {Text.quoted id} needs both {id} and {onlyId}"
  | .note text => text

end Licensing
