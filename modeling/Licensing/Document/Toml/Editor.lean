import Licensing.Document.Datum
import Licensing.Text.Raw

/-! # Editors of TOML documents

To add a table to a document that was written by hand, the text is not read and written anew: an editor
keeps comments and layout. What an editor does is up to it, so everything that uses one takes it as an
argument.

* `Toml.Editor` — what an editor can do.
* `Editor.withTable` — the text of a document with one more table in an array of tables.
-/

namespace Licensing.Document.Toml

/-! ## New tables -/

/-- A value of a table that is not written yet. -/
inductive NewValue where
  | text (content : RawText)
  | texts (items : List RawText)
deriving DecidableEq, Repr

/-- A table that is not written yet. -/
abbrev NewTable := List (String × NewValue)

/-- What the value is read as, if it can be in a file at all. -/
def NewValue.datum? : NewValue → Option Datum
  | .text content => content.text?.map .text
  | .texts items => (items.mapM RawText.text?).map fun texts => .list (texts.map .text)

def NewTable.table? (entries : NewTable) : Option Table :=
  entries.mapM fun (key, value) => value.datum?.map (key, ·)

/-! ## Editors -/

/-- An editor of documents. -/
structure Editor where
  Content : Type
  parse : String → Option Content
  /-- Whether the document has a key. -/
  has : Content → String → Bool
  /-- Adds an empty line, and an array of tables without tables. -/
  addTables : Content → String → Content
  /-- Whether an array of tables stands under a key. -/
  isTables : Content → String → Bool
  /-- Adds a table at the end of an array of tables. -/
  append : Content → String → NewTable → Content
  text : Content → RawText

inductive AppendFault where
  | malformed
  | notTables
deriving DecidableEq, Repr

namespace Editor

/-- The document with a key; if it has none of this name, an array of tables. -/
def withKey (editor : Editor) (document : editor.Content) (key : String) : editor.Content :=
  if editor.has document key then document else editor.addTables document key

/-- The text of a document with one more table in the array `key`. -/
def withTable (editor : Editor) (text key : String) (entries : NewTable) : Except AppendFault RawText := do
  let some document := editor.parse text | .error .malformed
  let document := editor.withKey document key
  if editor.isTables document key then .ok (editor.text (editor.append document key entries))
  else .error .notTables

end Editor

end Licensing.Document.Toml
