import Licensing.Expression.Build
import Licensing.Text.Quoted

/-! # Malformed expressions

Why a text is not an expression, and where in the text the trouble is.

* `ParseCause` — what is wrong.
* `ParseFault` — a cause and the characters that it is about.
* `ParseError` — a fault together with the whole text; `ParseError.message` points at the place.
-/

namespace Licensing

inductive ParseCause where
  | unexpectedCharacter (c : Char)
  | unmatchedClosing
  | unclosedOpening
  /-- `WITH` and an exception, but no license before them. -/
  | exceptionWithoutLicense
  /-- `WITH` and an exception behind something that is no simple term. -/
  | exceptionOnCompound (actual : Expression)
  /-- `WITH` that no exception follows. -/
  | misplacedException (license exception : Option Expression)
  | missingOperand (connective : Connective)
  | nothingToExtend
  /-- A plus sign behind something that is no exact license. -/
  | cannotExtend (actual : Expression)
  | nothing
  /-- Expressions side by side with nothing to join them. -/
  | several (found : List Expression)
  | note (text : String)
deriving DecidableEq, Repr

def shownIfAny : Option Expression → String
  | some e => e.text
  | none => "None"

def ParseCause.detail : ParseCause → String
  | .unexpectedCharacter c => "Unexpected character " ++ Text.quoted (String.singleton c)
  | .unmatchedClosing => "Unmatched closing brace"
  | .unclosedOpening => "Unclosed open brace"
  | .exceptionWithoutLicense => "WITH expression requires a license on the left"
  | .exceptionOnCompound actual =>
    "Left argument of WITH must be a license or an or-later license. Actual argument is " ++
      actual.kindName ++ ": [" ++ actual.text ++ "]"
  | .misplacedException license exception =>
    "WITH should be applied to a license and a license exception. Actual arguments are [" ++
      shownIfAny license ++ "] and [" ++ shownIfAny exception ++ "]"
  | .missingOperand connective => connective.word ++ " expression requires two arguments"
  | .nothingToExtend => "'Or later' modifier requires a license"
  | .cannotExtend actual =>
    "'Or later' modifier can be applied to a license only. Actual argument is " ++
      actual.kindName ++ ": [" ++ actual.text ++ "]"
  | .nothing => "Result is empty"
  | .several found =>
    "Multiple expressions in the output. Probably, AND/OR is missing: [" ++
      ", ".intercalate (found.map Expression.text) ++ "]"
  | .note text => text

/-- A cause, and the range of characters that it is about. A place in front of the text is negative. -/
structure ParseFault where
  cause : ParseCause
  start : Int
  stop : Int
deriving DecidableEq, Repr

structure ParseError where
  fault : ParseFault
  text : String
deriving DecidableEq, Repr

namespace ParseError

/-- A fault in a text. A range without an end, or with one that is not behind its start, is a single
character wide. -/
def ofRange (cause : ParseCause) (text : String) (start : Int) (stop : Option Int) : ParseError :=
  let stop := match stop with
    | some n => if n ≤ start then start + 1 else n
    | none => start + 1
  ⟨⟨cause, start, stop⟩, text⟩

/-- A line under the text that marks the range: one caret, or two with a line between them. -/
def marker (e : ParseError) : String :=
  let width := (e.fault.stop - e.fault.start).toNat
  let range := if width = 1 then "^" else "^".pushn '_' (width - 2) ++ "^"
  "".pushn ' ' e.fault.start.toNat ++ range

/-- The wording: the cause, the text, and the marker under it. -/
def message (e : ParseError) : String :=
  e.fault.cause.detail ++ "\ninput: " ++ e.text ++ "\n       " ++ e.marker ++ " error here"

end ParseError

end Licensing
