import Licensing.Text.Blank
import Licensing.Text.Width

/-! # Text on a screen

How text appears in the output: control characters that would move the cursor are dropped, and tabs
lead to the next column that is a multiple of eight.

* `Screen.shown` — a text as it appears.
* `Screen.wrap` — a text on lines of a given width.
* `Screen.withoutTags` — a text without style tags.
-/

namespace Licensing.CommandLine.Screen

open Licensing.Text

/-! ## Characters -/

/-- Bell, backspace, vertical tab, form feed and carriage return. -/
def movesCursor (c : Char) : Bool :=
  [7, 8, 11, 12, 13].contains c.toNat

def tabDistance : Nat := 8

/-- Replaces tabs by blanks; `column` is the number of cells in front. -/
def expandTabs (column : Nat) : List Char → List Char
  | [] => []
  | c :: rest =>
    if c = '\t' then
      let blanks := tabDistance - column % tabDistance
      List.replicate blanks ' ' ++ expandTabs (column + blanks) rest
    else if c = '\n' then c :: expandTabs 0 rest
    else c :: expandTabs (column + cells c) rest

def shownCharacters (text : List Char) : List Char :=
  expandTabs 0 (text.filter (!movesCursor ·))

/-- `shownCharacters` on strings. -/
def shown (text : String) : String :=
  String.ofList (shownCharacters text.toList)

def lines : List Char → List (List Char)
  | [] => [[]]
  | c :: rest =>
    if c = '\n' then [] :: lines rest
    else match lines rest with
      | [] => [[c]]
      | line :: more => (c :: line) :: more

/-! ## Wrapping -/

/-- The words of a line, each with the white space behind it; the first one also has the white space
in front of it. -/
def words (line : List Char) : List (List Char) :=
  line.splitBy fun a b => !(isBlank a && !isBlank b)

/-- The words of a line; white space in front of the first word belongs to it. -/
def wordsOf (line : List Char) : List (List Char) :=
  match words line with
  | first :: second :: rest =>
    if first.all isBlank then (first ++ second) :: rest else first :: second :: rest
  | few => few

/-- A word without the white space behind it. -/
def bare (word : List Char) : List Char :=
  (word.reverse.dropWhile isBlank).reverse

/-- Puts words on lines of `room` cells. `line` holds what stands on the current line, which is
`used` cells wide. A word that is wider than a line has one of its own. -/
def fillLines (room : Nat) (line : List Char) (used : Nat) : List (List Char) → List (List Char)
  | [] => [line]
  | word :: rest =>
    let fits := used + width (bare word) ≤ room
    if fits || line.isEmpty then fillLines room (line ++ word) (used + width word) rest
    else line :: fillLines room word (width word) rest

/-- A line cut to `room` cells; what is cut off is replaced by an ellipsis. Blanks at the end do not
count. -/
def fit (room : Nat) (line : List Char) : List Char :=
  let excess := line.length - room
  let blanks := (line.reverse.takeWhile isBlank).length
  let trimmed := line.take (line.length - min blanks excess)
  if width trimmed ≤ room then trimmed
  else padRight (room - 1) (takeCells (room - 1) trimmed) ++ ['…']

/-- A text on lines of at most `room` cells. -/
def wrap (room : Nat) (text : List Char) : List (List Char) :=
  (lines text).flatMap fun line => (fillLines room [] 0 (wordsOf line)).map (fit room)

/-! ## Style tags -/

def beginsTag (c : Char) : Bool :=
  ('a' ≤ c && c ≤ 'z') || c == '#' || c == '/' || c == '@'

/-- What stands behind a style tag whose opening bracket has been read; `none` if no tag follows. -/
def behindTag? (text : List Char) : Option (List Char) :=
  match text with
  | [] => none
  | c :: rest =>
    if !beginsTag c then none
    else match rest.dropWhile fun d => d ≠ '[' && d ≠ ']' with
      | ']' :: behind => some behind
      | _ => none

/-- A text without style tags; `slashes` is the number of backslashes in front. Two backslashes in
front of a tag stand for one, and a single one makes the tag plain text. In front of any other
opening bracket one backslash is dropped. -/
def dropTags : (fuel slashes : Nat) → List Char → List Char
  | 0, slashes, text => List.replicate slashes '\\' ++ text
  | _, slashes, [] => List.replicate slashes '\\'
  | fuel + 1, slashes, c :: rest =>
    if c = '\\' then dropTags fuel (slashes + 1) rest
    else if c ≠ '[' then List.replicate slashes '\\' ++ c :: dropTags fuel 0 rest
    else match behindTag? rest with
      | none => List.replicate (slashes - 1) '\\' ++ '[' :: dropTags fuel 0 rest
      | some behind =>
        let tag := rest.take (rest.length - behind.length)
        List.replicate (slashes / 2) '\\' ++
          (if slashes % 2 = 1 then '[' :: tag else []) ++ dropTags fuel 0 behind

def withoutTags (text : List Char) : List Char :=
  dropTags (text.length + 1) 0 text

end Licensing.CommandLine.Screen
