import Licensing.Named
import Licensing.Uri

/-! # Registries

A registry is the ordered list of known licenses and the ordered list of known exceptions.

* `Registry.findLicense?`, `Registry.findException?` — look up an identifier.
* `Registry.findByUri?` — the first license with a reference that looks like an address.
* `Registry.readLicense`, `Registry.readException` — what a word of an expression designates.
-/

namespace Licensing

/-- Known licenses and exceptions, in the order in which they are tried. -/
structure Registry where
  licenses : List Listed
  exceptions : List Listed
deriving DecidableEq, Repr

def Listed.find? (entries : List Listed) (id : String) : Option Listed :=
  entries.find? fun entry => entry.id == id

/-- Adds an entry; an entry with the same identifier is replaced in its place. -/
def Listed.put (entries : List Listed) (entry : Listed) : List Listed :=
  match entries with
  | [] => [entry]
  | e :: rest => if e.id == entry.id then entry :: rest else e :: Listed.put rest entry

namespace Registry

def findLicense? (registry : Registry) (id : String) : Option Listed :=
  Listed.find? registry.licenses id

def findException? (registry : Registry) (id : String) : Option Listed :=
  Listed.find? registry.exceptions id

def hasLicense (registry : Registry) (id : String) : Bool :=
  (registry.findLicense? id).isSome

/-- The first license with a reference that looks like `uri`. -/
def findByUri? (registry : Registry) (uri : String) : Option Listed :=
  registry.licenses.find? fun entry => entry.uris.any (Uri.looksLike uri)

/-- A word as a license: a listed one if the word is its identifier, else free text. -/
def readLicense (registry : Registry) (word : String) : Designation :=
  match registry.findLicense? word with
  | some entry => .listed entry
  | none => .free ⟨word, []⟩

/-- A word as an exception: a listed one if the word is its identifier, else free text. -/
def readException (registry : Registry) (word : String) : Designation :=
  match registry.findException? word with
  | some entry => .listed entry
  | none => .free ⟨word, []⟩

end Registry

theorem Listed.find?_put_self (entries : List Listed) (entry : Listed) :
    Listed.find? (Listed.put entries entry) entry.id = some entry := by
  induction entries with
  | nil => simp [Listed.put, Listed.find?]
  | cons e rest ih =>
    by_cases same : e.id = entry.id
    · simp [Listed.put, Listed.find?, same]
    · simpa [Listed.put, Listed.find?, same] using ih

end Licensing
