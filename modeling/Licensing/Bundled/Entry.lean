import Licensing.Document.Datum

/-! # Entries of the bundled lists

The bundled lists are documents like those that a user writes, and are checked and read in the same
way: a table per identifier, with the title under `name` and the references under `see_also`.
-/

namespace Licensing.Bundled

open Licensing.Document

def entry (id name : String) (seeAlso : List String) : String × Datum :=
  (id, .table [("name", .text name), ("see_also", .list (seeAlso.map .text))])

end Licensing.Bundled
