import Licensing.Bundled.Versions
import Licensing.Equivalence.Expand
import Licensing.Registry.Load

/-! # Version ranges

The table of version ranges says what "or any later version" means:

* for every registered license `X`, `X+` stands for `X`;
* in a family of versions, `X+` also stands for `Y+`, where `Y` is the next version;
* an identifier `Y-or-later` stands for `Y-only+`.

* `versionTable` — the table for a registry and a document of families.
-/

namespace Licensing

open Licensing.Document

/-- `X+` stands for `X`. -/
def VersionTable.base (registry : Registry) : EquivalenceTable :=
  registry.licenses.foldl (fun table entry =>
    table.add (.orLater (.standard entry.id)) [.just (.standard entry.id)]) []

namespace VersionTable

/-- The entries of one family, the oldest version first: each version stands for itself and for the
later versions of the next one. -/
def addFamily (table : EquivalenceTable) : List String → EquivalenceTable
  | [] => table
  | [last] => table.add (.orLater (.standard last)) [.just (.standard last)]
  | current :: newer :: rest =>
    addFamily
      (table.add (.orLater (.standard current))
        [.just (.standard current), .orLater (.standard newer)])
      (newer :: rest)

def versionsOf? (family : Datum) : Option (List String) :=
  family.asTable?.bind fun table => (table.get? "versions").bind Datum.asTexts?

/-- Adds families; `index` is the position of the first one in its document. -/
def addFamilies (registry : Registry) (file : String) (index : Nat) (table : EquivalenceTable) :
    List Datum → EquivalenceTable × List DataDefect
  | [] => (table, [])
  | family :: rest =>
    match versionsOf? family with
    | none =>
      let (table, defects) := addFamilies registry file (index + 1) table rest
      (table, .familyNotTexts file index :: defects)
    | some versions =>
      let unknown := versions.filter (!registry.hasLicense ·)
      if unknown.isEmpty then
        addFamilies registry file (index + 1) (addFamily table versions) rest
      else
        let (table, defects) := addFamilies registry file (index + 1) table rest
        (table, .familyUnknown file index unknown :: defects)

def orLaterEnding : String := "-or-later"

/-- The identifier without its ending; `none` if it has another one. -/
def stem? (id : String) : Option String :=
  let chars := id.toList
  let ending := orLaterEnding.toList
  if ending.isSuffixOf chars then
    some (String.ofList (chars.take (chars.length - ending.length)))
  else none

def addOrLater (registry : Registry) (file : String) (table : EquivalenceTable) :
    List Datum → EquivalenceTable × List DataDefect
  | [] => (table, [])
  | value :: rest =>
    match value.asText?, value.asText?.bind stem? with
    | some id, some stem =>
      let onlyId := stem ++ "-only"
      if registry.hasLicense id && registry.hasLicense onlyId then
        addOrLater registry file
          (table.add (.just (.standard id)) [.orLater (.standard onlyId)]) rest
      else
        let (table, defects) := addOrLater registry file table rest
        (table, .orLaterUnpaired file id onlyId :: defects)
    | _, _ =>
      let (table, defects) := addOrLater registry file table rest
      (table, .orLaterName file value.shown :: defects)

/-- A list under a key, empty if there is none. -/
def listOr (defect : DataDefect) (table : Table) (key : String) :
    Except (List DataDefect) (List Datum) :=
  match ((table.get? key).getD (.list [])).asList? with
  | some items => .ok items
  | none => .error [defect]

end VersionTable

open VersionTable in
def versionTable (registry : Registry) (document : Source) :
    Except (List DataDefect) EquivalenceTable := do
  let data ← Registry.tableOf document
  let families ← listOr (.familiesNotList document.name) data "family"
  let (withFamilies, familyDefects) :=
    addFamilies registry document.name 0 (base registry) families
  let orLaterIds ← listOr (.orLaterNotList document.name) data "or_later"
  let (table, orLaterDefects) := addOrLater registry document.name withFamilies orLaterIds
  let defects := familyDefects ++ orLaterDefects
  if !defects.isEmpty then .error defects
  .ok table

def bundledVersions : Source :=
  .bundled "equivalence.toml" Bundled.versions

end Licensing
