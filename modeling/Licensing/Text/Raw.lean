import Licensing.Text.Quoted

/-! # Raw text

An argument of a program is a sequence of code points, and not all of them need be characters: bytes
that write no character stand in it as surrogates. A file holds characters only, so that such an
argument cannot be written as it is.

* `RawText` — a text that may hold surrogates.
* `RawText.encode` — the text for a file, or the first code points that no file can hold.
-/

namespace Licensing

inductive CodePoint where
  | character (c : Char)
  /-- The surrogate `U+D800 + offset`. -/
  | surrogate (offset : Fin 0x800)
deriving DecidableEq, Repr

/-- A text that may hold surrogates. -/
abbrev RawText := List CodePoint

/-- The surrogates, one behind the other, that stand first in a text. -/
structure EncodingFault where
  start : Nat
  surrogates : RawText
deriving DecidableEq, Repr

namespace CodePoint

def value : CodePoint → Nat
  | character c => c.toNat
  | surrogate offset => 0xD800 + offset

def character? : CodePoint → Option Char
  | character c => some c
  | surrogate _ => none

end CodePoint

namespace RawText

def ofChars (chars : List Char) : RawText :=
  chars.map .character

def ofString (text : String) : RawText :=
  ofChars text.toList

def text? (raw : RawText) : Option String :=
  (raw.mapM CodePoint.character?).map String.ofList

/-- The text with a replacement character for each surrogate. -/
def shown (raw : RawText) : String :=
  String.ofList (raw.map fun point => point.character?.getD '\uFFFD')

def encode (raw : RawText) : Except EncodingFault String :=
  match raw.text? with
  | some text => .ok text
  | none =>
    let front := raw.takeWhile (·.character?.isSome)
    .error ⟨front.length, (raw.drop front.length).takeWhile (·.character?.isNone)⟩

end RawText

def EncodingFault.message (fault : EncodingFault) : String :=
  let place := match fault.surrogates with
    | [point] =>
      "character '\\u" ++ String.ofList (Text.hexDigits 4 point.value) ++ s!"' in position {fault.start}"
    | points => s!"characters in position {fault.start}-{fault.start + points.length - 1}"
  "'utf-8' codec can't encode " ++ place ++ ": surrogates not allowed"

end Licensing
