import Licensing.SortedSet
import Licensing.Text.Blank

/-! # Licenses and exceptions

A license or an exception comes in two flavours.

* `Listed` — an entry of a provider's list. Its identifier alone says which entry it is; title,
  references and provider describe it.
* `FreeText` — what someone wrote into the metadata of a package: a title, and the set of references
  found next to it. Both together say which one it is.

An expression mentions a license by what identifies it, a `Named`. What a text turns out to
designate, with the description of a listed entry, is a `Designation`.
-/

namespace Licensing

/-- An entry of a provider's list. -/
structure Listed where
  id : String
  title : String := ""
  uris : List String := []
  provider : String := "SPDX"
deriving DecidableEq, Repr

/-- A title found in the wild, with the references next to it, sorted and each once. -/
structure FreeText where
  title : String
  uris : List String := []
deriving DecidableEq, Repr

/-- Free text with references as they were found: white space around them and empty ones are
dropped. -/
def FreeText.ofFound (title : String) (found : List String) : FreeText :=
  ⟨title, SortedSet.ofList ((found.map Text.stripString).filter (· ≠ ""))⟩

/-- What identifies a license or an exception. -/
inductive Named where
  | standard (id : String)
  | free (text : FreeText)
deriving DecidableEq, Repr

/-- A license as an expression mentions it. -/
abbrev License := Named

/-- A license exception as an expression mentions it. -/
abbrev LicenseException := Named

/-- Free text prints as its title, followed by the references in parentheses. -/
def FreeText.text (free : FreeText) : String :=
  if free.uris.isEmpty then free.title
  else free.title ++ " (" ++ ", ".intercalate free.uris ++ ")"

def Named.text : Named → String
  | .standard id => id
  | .free text => text.text

def Named.label : Named → String
  | .standard id => id
  | .free text => text.title

/-- What a text designates: an entry of a list, or nothing but itself. -/
inductive Designation where
  | listed (entry : Listed)
  | free (text : FreeText)
deriving DecidableEq, Repr

def Designation.named : Designation → Named
  | .listed entry => .standard entry.id
  | .free text => .free text

/-- The title for readers: of a listed entry without title, the identifier. -/
def Designation.displayName : Designation → String
  | .listed entry => if entry.title.isEmpty then entry.id else entry.title
  | .free text => text.title

end Licensing
