import Licensing.Document.Datum

/-! # JSON

Reading and writing JSON texts.

* `Json.read` — the value of a text, or the first fault with its place.
* `Json.write` — the text of a value on one line, with every character outside printable ASCII
  escaped; `Json.writeIndented` puts each item on a line of its own.

Beyond the standard, `NaN`, `Infinity` and `-Infinity` are read as numbers. Of members with the same
name the last one counts. A number without fraction and exponent is an integer of any size.
-/

namespace Licensing.Document.Json

/-! ## Faults -/

inductive Cause where
  | byteOrderMark
  | expectedValue
  | expectedName
  | expectedColon
  | expectedComma
  | extraData
  | unterminatedText
  | controlCharacter
  | badEscape
  | badCodePoint
deriving DecidableEq, Repr

def Cause.text : Cause → String
  | .byteOrderMark => "Unexpected UTF-8 BOM (decode using utf-8-sig)"
  | .expectedValue => "Expecting value"
  | .expectedName => "Expecting property name enclosed in double quotes"
  | .expectedColon => "Expecting ':' delimiter"
  | .expectedComma => "Expecting ',' delimiter"
  | .extraData => "Extra data"
  | .unterminatedText => "Unterminated string starting at"
  | .controlCharacter => "Invalid control character at"
  | .badEscape => "Invalid \\escape"
  | .badCodePoint => "Invalid \\uXXXX escape"

structure Fault where
  cause : Cause
  offset : Nat
deriving DecidableEq, Repr

/-- The fault with its place in `text`: line and column count from one, the offset from zero. -/
def Fault.message (fault : Fault) (text : String) : String :=
  let before := text.toList.take fault.offset
  let line := before.count '\n' + 1
  let column := (before.reverse.takeWhile (· ≠ '\n')).length + 1
  fault.cause.text ++ s!": line {line} column {column} (char {fault.offset})"

/-! ## Reading -/

/-- A place in a text: the characters that are left, and how many came before them. -/
structure Cursor where
  rest : List Char
  offset : Nat

/-- The cursor after `n` more characters. -/
def Cursor.skip (cursor : Cursor) (n : Nat) : Cursor :=
  ⟨cursor.rest.drop n, cursor.offset + n⟩

def isGap (c : Char) : Bool :=
  c == ' ' || c == '\t' || c == '\n' || c == '\r'

def Cursor.skipGap (cursor : Cursor) : Cursor :=
  cursor.skip (cursor.rest.takeWhile isGap).length

def codeUnit? (digits : List Char) : Option Nat :=
  if digits.length = 4 then
    digits.foldlM (fun n c =>
      if c.isDigit then some (16 * n + (c.toNat - '0'.toNat))
      else if 'a' ≤ c && c ≤ 'f' then some (16 * n + (c.toNat - 'a'.toNat + 10))
      else if 'A' ≤ c && c ≤ 'F' then some (16 * n + (c.toNat - 'A'.toNat + 10))
      else none) 0
  else none

/-- The code unit of the four digits that start a text, which has to go on behind them. -/
def leadingUnit? (text : List Char) : Option Nat :=
  if (text.drop 4).isEmpty then none else codeUnit? (text.take 4)

/-- The low half of a pair of code units, if it comes next. -/
def lowHalf? (rest : List Char) : Option Nat :=
  match rest with
  | '\\' :: 'u' :: digits =>
    (leadingUnit? digits).bind fun unit =>
      if 0xDC00 ≤ unit && unit < 0xE000 then some unit else none
  | _ => none

/-- The character of a code unit; half a pair alone becomes the replacement character. -/
def characterOf (unit : Nat) : Char :=
  if 0xD800 ≤ unit && unit < 0xE000 then '\uFFFD' else Char.ofNat unit

/-- The character that a single letter behind a backslash stands for. -/
def escaped? (c : Char) : Option Char :=
  match c with
  | '"' => some '"'
  | '\\' => some '\\'
  | '/' => some '/'
  | 'b' => some '\x08'
  | 'f' => some '\x0c'
  | 'n' => some '\n'
  | 'r' => some '\r'
  | 't' => some '\t'
  | _ => none

/-- Reads a string behind its opening quote, which stands at `start`; `fuel` bounds the number of
characters. -/
def readText (start : Nat) : Nat → List Char → Cursor → Except Fault (String × Cursor)
  | 0, _, _ => .error ⟨.unterminatedText, start⟩
  | fuel + 1, done, cursor =>
    match cursor.rest with
    | [] => .error ⟨.unterminatedText, start⟩
    | '"' :: _ => .ok (String.ofList done.reverse, cursor.skip 1)
    | ['\\'] => .error ⟨.unterminatedText, start⟩
    | '\\' :: 'u' :: digits =>
      match leadingUnit? digits with
      | none => .error ⟨.badCodePoint, cursor.offset + 1⟩
      | some unit =>
        match if 0xD800 ≤ unit && unit < 0xDC00 then lowHalf? (digits.drop 4) else none with
        | some low =>
          let joined := 0x10000 + (unit - 0xD800) * 0x400 + (low - 0xDC00)
          readText start fuel (Char.ofNat joined :: done) (cursor.skip 12)
        | none => readText start fuel (characterOf unit :: done) (cursor.skip 6)
    | '\\' :: c :: _ =>
      match escaped? c with
      | some plain => readText start fuel (plain :: done) (cursor.skip 2)
      | none => .error ⟨.badEscape, cursor.offset⟩
    | c :: _ =>
      if c.toNat < 0x20 then .error ⟨.controlCharacter, cursor.offset⟩
      else readText start fuel (c :: done) (cursor.skip 1)

def natOf (digits : List Char) : Nat :=
  digits.foldl (fun n c => 10 * n + (c.toNat - '0'.toNat)) 0

/-- A fraction: a point and at least one digit. -/
def fractionOf (rest : List Char) : List Char :=
  match rest with
  | '.' :: more => more.takeWhile Char.isDigit
  | _ => []

/-- An exponent: its length and value; no exponent has length zero. -/
def exponentOf (rest : List Char) : Nat × Int :=
  match rest with
  | e :: more =>
    if e == 'e' || e == 'E' then
      let (sign, digits) := match more with
        | '-' :: digits => (some '-', digits)
        | '+' :: digits => (some '+', digits)
        | digits => (none, digits)
      let power := digits.takeWhile Char.isDigit
      if power.isEmpty then (0, 0)
      else
        let size : Int := natOf power
        (1 + (if sign.isSome then 1 else 0) + power.length, if sign = some '-' then -size else size)
    else (0, 0)
  | [] => (0, 0)

def readNumber? (cursor : Cursor) : Option (Datum × Cursor) :=
  let negative := cursor.rest.head? == some '-'
  let start := if negative then cursor.skip 1 else cursor
  let whole := match start.rest with
    | '0' :: _ => ['0']
    | rest => rest.takeWhile Char.isDigit
  if whole.isEmpty then none
  else
    let afterWhole := start.skip whole.length
    let fraction := fractionOf afterWhole.rest
    let afterFraction :=
      if fraction.isEmpty then afterWhole else afterWhole.skip (fraction.length + 1)
    let (width, power) := exponentOf afterFraction.rest
    if fraction.isEmpty && width = 0 then
      let size : Int := natOf whole
      some (.int (if negative then -size else size), afterWhole)
    else
      let size := Decimal.nearestDouble (natOf (whole ++ fraction)) (power - fraction.length)
      some (.float (if negative then -size else size), afterFraction.skip width)

def words : List (String × Datum) :=
  [("null", .null), ("true", .bool true), ("false", .bool false), ("NaN", .float (0 / 0)),
   ("Infinity", .float (1 / 0)), ("-Infinity", .float (-1 / 0))]

/-- Reads one of the `words`, if one starts here. -/
def readWord? (cursor : Cursor) : Option (Datum × Cursor) :=
  words.findSome? fun (word, value) =>
    if word.toList.isPrefixOf cursor.rest then some (value, cursor.skip word.length) else none

mutual

/-- Reads a value; `fuel` bounds the number of steps. No two of them leave the place where they are,
so twice the number of characters is enough. -/
def readValue : Nat → Cursor → Except Fault (Datum × Cursor)
  | 0, cursor => .error ⟨.expectedValue, cursor.offset⟩
  | fuel + 1, cursor =>
    match cursor.rest with
    | '"' :: _ => do
      let (s, after) ← readText cursor.offset (fuel + 1) [] (cursor.skip 1)
      .ok (.text s, after)
    | '[' :: _ =>
      let inner := (cursor.skip 1).skipGap
      if inner.rest.head? == some ']' then .ok (.list [], inner.skip 1)
      else do
        let (items, after) ← readItems fuel inner
        .ok (.list items, after)
    | '\x7b' :: _ =>
      let inner := (cursor.skip 1).skipGap
      if inner.rest.head? == some '\x7d' then .ok (.table [], inner.skip 1)
      else do
        let (entries, after) ← readMembers fuel [] inner
        .ok (.table entries, after)
    | _ =>
      match readWord? cursor <|> readNumber? cursor with
      | some found => .ok found
      | none => .error ⟨.expectedValue, cursor.offset⟩

def readItems : Nat → Cursor → Except Fault (List Datum × Cursor)
  | 0, cursor => .error ⟨.expectedValue, cursor.offset⟩
  | fuel + 1, cursor => do
    let (item, afterItem) ← readValue fuel cursor
    let next := afterItem.skipGap
    match next.rest with
    | ']' :: _ => .ok ([item], next.skip 1)
    | ',' :: _ =>
      let (items, after) ← readItems fuel (next.skip 1).skipGap
      .ok (item :: items, after)
    | _ => .error ⟨.expectedComma, next.offset⟩

/-- Reads the members of a table up to its closing brace, on top of those already read. -/
def readMembers : Nat → Table → Cursor → Except Fault (Table × Cursor)
  | 0, _, cursor => .error ⟨.expectedName, cursor.offset⟩
  | fuel + 1, table, cursor => do
    if cursor.rest.head? != some '"' then .error ⟨.expectedName, cursor.offset⟩
    let (name, afterName) ← readText cursor.offset (fuel + 1) [] (cursor.skip 1)
    let colon := afterName.skipGap
    if colon.rest.head? != some ':' then .error ⟨.expectedColon, colon.offset⟩
    let (value, afterValue) ← readValue fuel (colon.skip 1).skipGap
    let table := Table.put table name value
    let next := afterValue.skipGap
    match next.rest with
    | '\x7d' :: _ => .ok (table, next.skip 1)
    | ',' :: _ => readMembers fuel table (next.skip 1).skipGap
    | _ => .error ⟨.expectedComma, next.offset⟩

end

def read (text : String) : Except Fault Datum := do
  let chars := text.toList
  if chars.head? == some '\uFEFF' then .error ⟨.byteOrderMark, 0⟩
  let (value, after) ← readValue (2 * chars.length + 2) (Cursor.mk chars 0).skipGap
  let last := after.skipGap
  if last.rest.isEmpty then .ok value else .error ⟨.extraData, last.offset⟩

/-! ## Writing -/

def escapedUnit (unit : Nat) : List Char :=
  '\\' :: 'u' :: Text.hexDigits 4 unit

def writtenCharacter (c : Char) : List Char :=
  if c = '"' then ['\\', '"']
  else if c = '\\' then ['\\', '\\']
  else if c = '\n' then ['\\', 'n']
  else if c = '\r' then ['\\', 'r']
  else if c = '\t' then ['\\', 't']
  else if c = '\x08' then ['\\', 'b']
  else if c = '\x0c' then ['\\', 'f']
  else if 0x20 ≤ c.toNat && c.toNat < 0x7F then [c]
  else if c.toNat < 0x10000 then escapedUnit c.toNat
  else
    let above := c.toNat - 0x10000
    escapedUnit (0xD800 + above / 0x400) ++ escapedUnit (0xDC00 + above % 0x400)

def writtenText (text : String) : String :=
  String.ofList ('"' :: text.toList.flatMap writtenCharacter ++ ['"'])

/-- A number; what is no number is written by name. -/
def writtenFloat (x : Float) : String :=
  if x.isNaN then "NaN"
  else if x.isInf then (if Decimal.isNegative x then "-Infinity" else "Infinity")
  else Decimal.shortest x

/-- The separators of a layout: what opens and closes a list of items, and what parts two. -/
structure Layout where
  opening : String
  parting : String
  closing : String

/-- One line, a blank behind each comma. -/
def Layout.flat : Layout :=
  ⟨"", ", ", ""⟩

/-- Each item on a line of its own, two blanks deeper than `depth` levels. -/
def Layout.atDepth (depth : Nat) : Layout :=
  let line (n : Nat) : String := "\n".pushn ' ' (2 * n)
  ⟨line (depth + 1), "," ++ line (depth + 1), line depth⟩

/-- Items in brackets; nothing is put into empty ones. -/
def Layout.enclose (layout : Layout) (left right : String) (items : List String) : String :=
  if items.isEmpty then left ++ right
  else left ++ layout.opening ++ layout.parting.intercalate items ++ layout.closing ++ right

mutual

/-- The text of a value, with the layout chosen by the depth. -/
def written (layout : Nat → Layout) (depth : Nat) : Datum → String
  | .null => "null"
  | .bool true => "true"
  | .bool false => "false"
  | .int n => toString n
  | .float x => writtenFloat x
  | .text s => writtenText s
  | .moment m => writtenText m.shown
  | .list items => (layout depth).enclose "[" "]" (writtenItems layout (depth + 1) items)
  | .table entries =>
    (layout depth).enclose "\x7b" "\x7d" (writtenEntries layout (depth + 1) entries)

def writtenItems (layout : Nat → Layout) (depth : Nat) : List Datum → List String
  | [] => []
  | item :: rest => written layout depth item :: writtenItems layout depth rest

def writtenEntries (layout : Nat → Layout) (depth : Nat) : List (String × Datum) → List String
  | [] => []
  | (key, value) :: rest =>
    (writtenText key ++ ": " ++ written layout depth value) :: writtenEntries layout depth rest

end

def write (value : Datum) : String :=
  written (fun _ => .flat) 0 value

def writeIndented (value : Datum) : String :=
  written Layout.atDepth 0 value

end Licensing.Document.Json
