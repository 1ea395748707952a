import Licensing.Terms.Spelling
import Licensing.Text.Alphanumeric
import Licensing.Text.Blank
import Licensing.Text.Lowercase

/-! # Terms of a text

The terms of a title or of a license text are its words, then its pairs and triples of neighbouring
words, so that a phrase such as `apache license 2.0` is one very specific term.

A text becomes words in five steps:

* `withoutTags` — markup between angle brackets becomes a blank;
* lower case;
* `collapseCopyright` — a run of copyright signs and words becomes the one word `copyright`;
* `pieces` — the text is cut at separators;
* `countedWord?` — pieces without letters and digits go, spelling is unified, stop words go.

`Terms.ofText` puts it all together.
-/

namespace Licensing.Terms

/-! ## Markup -/

/-- Replaces each tag, from `<` to the next `>`, by a blank. Without a `>` behind it, a `<` stays. -/
def withoutTags : List Char → List Char
  | [] => []
  | '<' :: rest =>
    if rest.contains '>' then ' ' :: insideTag rest else '<' :: rest
  | c :: rest => c :: withoutTags rest
where
  /-- The text behind the next `>`. -/
  insideTag : List Char → List Char
    | [] => []
    | '>' :: rest => withoutTags rest
    | _ :: rest => insideTag rest

/-! ## Copyright marks -/

/-- The words and signs that claim a copyright, in lower case. -/
def copyrightMarks : List (List Char) :=
  ["copyright".toList, ['©'], "(c)".toList]

/-- The length of the mark at the start of a text; zero if there is none. -/
def markLength (text : List Char) : Nat :=
  ((copyrightMarks.find? (·.isPrefixOf text)).map List.length).getD 0

/-- Writes one word for each run of marks with white space between and behind them. `skip` says how
many characters of a mark are still to be passed over, and `inRun` whether a run has begun. -/
def collapseFrom (skip : Nat) (inRun : Bool) : List Char → List Char
  | [] => []
  | c :: rest =>
    if 0 < skip then collapseFrom (skip - 1) inRun rest
    else
      let length := markLength (c :: rest)
      if 0 < length then
        let after := collapseFrom (length - 1) true rest
        if inRun then after else "copyright ".toList ++ after
      else if inRun && Text.isBlank c then collapseFrom 0 true rest
      else c :: collapseFrom 0 false rest

def collapseCopyright (text : List Char) : List Char :=
  collapseFrom 0 false text

/-! ## Separators -/

def atEnd : List Char → Bool
  | [] => true
  | c :: _ => Text.isBlank c

def atDigit : List Char → Bool
  | [] => false
  | c :: _ => Text.isDecimalDigit c

/-- Whether `c` parts two words, with `rest` behind it: any character but letters, digits, dashes and
dots; the underscore; a `v` in front of a version number; a dot at the end of a word. -/
def isSeparator (c : Char) (rest : List Char) : Bool :=
  if c = '_' then true
  else if c = '.' then atEnd rest
  else if c = '-' then false
  else if c = 'v' then atDigit rest
  else !Text.isAlphanumeric c

/-- The pieces between separators. `begun` is the piece begun before, in reverse; `afterBlank` says
that the last character was white space, after which a dot is a separator too. -/
def piecesFrom (begun : List Char) (afterBlank : Bool) : List Char → List (List Char)
  | [] => [begun.reverse]
  | c :: rest =>
    if isSeparator c rest || (afterBlank && c = '.') then
      begun.reverse :: piecesFrom [] (Text.isBlank c) rest
    else piecesFrom (c :: begun) false rest

/-- The pieces of a text between separators; between two separators stands an empty piece. -/
def pieces (text : List Char) : List (List Char) :=
  piecesFrom [] false text

/-! ## Words -/

/-- The word that a piece counts as, if it counts: pieces of nothing but dashes and dots and stop
words do not. -/
def countedWord? (piece : List Char) : Option String :=
  if piece.all fun c => c == '-' || c == '.' then none
  else
    let word := respelled (String.ofList piece)
    if stopWords.contains word then none else some word

def words (text : String) : List String :=
  let plain := Text.lower (withoutTags text.toList)
  (pieces (collapseCopyright plain)).filterMap countedWord?

/-- The runs of `n` neighbouring words, joined by blanks. -/
def phrases (n : Nat) : List String → List String
  | [] => []
  | word :: rest =>
    let phrase := (word :: rest).take n
    if phrase.length = n then " ".intercalate phrase :: phrases n rest else []

/-- The terms of a text: words, then pairs, then triples, each in text order. A term that occurs
several times is listed as often. -/
def ofText (text : String) : List String :=
  let found := words text
  found ++ phrases 2 found ++ phrases 3 found

end Licensing.Terms
