import Licensing.Grammar.Parse

/-! # Bundle-License headers

The manifest of a bundle can name its license in a header: the address of the license text, or an
expression, optionally followed by a semicolon and an address. A header with several licenses is not
understood.

* `BundleHeader.read` — what a header says, with a given way to find licenses by address.
* `BundleHeader.registered` — finds licenses by address in a registry.
-/

namespace Licensing.BundleHeader

inductive Reading where
  /-- An expression. -/
  | declared (e : Expression)
  /-- The address of no known license. -/
  | unknownUri
  /-- Nothing that can be understood, and why. -/
  | ignored (reason : String)
deriving DecidableEq, Repr

def Reading.expression? : Reading → Option Expression
  | .declared e => some e
  | .unknownUri | .ignored _ => none

/-- Finds the license with a reference that looks like an address. -/
def registered (registry : Registry) (uri : String) : Option Expression :=
  (registry.findByUri? uri).map fun entry => .just (.standard entry.id)

/-- Reads a header, with licenses found by `findByUri`. -/
def read (registry : Registry) (findByUri : String → Option Expression) (value : String) :
    Reading :=
  let chars := value.toList
  if chars.contains ',' then .ignored "multiple licenses"
  else if "http".toList.isPrefixOf chars then
    if !Uri.isValid value then .ignored "invalid URI"
    else match findByUri value with
      | some e => .declared e
      | none => .unknownUri
  else
    match Expression.parse registry (String.ofList (chars.takeWhile (· ≠ ';'))) with
    | .ok e => .declared e
    | .error e => .ignored e.fault.cause.detail

end Licensing.BundleHeader
