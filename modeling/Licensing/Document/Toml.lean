import Licensing.Document.Datum

/-! # TOML

Reading of TOML 1.0 documents.

The text is read statement by statement. A `Draft` holds the table built so far together with the
`Mark`s that say which tables a later statement may not open or change again: a table is declared
once, and an inline value is closed for good.

* `Toml.readValue` — one value.
* `Draft.assign`, `Draft.openTable`, `Draft.openItem` — the three statements.
* `Toml.read?` — the table of a document; `none` if the text is no TOML document.
-/

namespace Licensing.Document.Toml

/-! ## Characters -/

def isGap (c : Char) : Bool :=
  c == ' ' || c == '\t'

/-- White space between the items of an array. -/
def isSpace (c : Char) : Bool :=
  isGap c || c == '\n'

/-- Control characters other than the tab; no comment and no string holds one. -/
def isControl (c : Char) : Bool :=
  (c.toNat < 0x20 && c != '\t') || c.toNat == 0x7F

def isBareKey (c : Char) : Bool :=
  c.isAlphanum || c == '-' || c == '_'

def isHexDigit (c : Char) : Bool :=
  c.isDigit || ('a' ≤ c && c ≤ 'f') || ('A' ≤ c && c ≤ 'F')

def digitValue (c : Char) : Nat :=
  if c.isDigit then c.toNat - '0'.toNat
  else if 'a' ≤ c && c ≤ 'f' then c.toNat - 'a'.toNat + 10
  else c.toNat - 'A'.toNat + 10

def numberIn (base : Nat) (digits : List Char) : Nat :=
  digits.foldl (fun n c => base * n + digitValue c) 0

def skipGap (text : List Char) : List Char :=
  text.dropWhile isGap

/-- The text behind a comment, which ends before its line feed; `none` if the comment holds a
control character. -/
def skipComment? (text : List Char) : Option (List Char) :=
  match text with
  | '#' :: rest =>
    if (rest.takeWhile (· ≠ '\n')).any isControl then none
    else some (rest.dropWhile (· ≠ '\n'))
  | _ => some text

def skipSpace? : Nat → List Char → Option (List Char)
  | 0, text => some text
  | fuel + 1, text =>
    match text.dropWhile isSpace with
    | '#' :: rest => (skipComment? ('#' :: rest)).bind (skipSpace? fuel)
    | rest => some rest

/-! ## Strings -/

/-- The character of a code point that is no surrogate. -/
def scalar? (n : Nat) : Option Char :=
  if n < 0xD800 || (0xE000 ≤ n && n < 0x110000) then some (Char.ofNat n) else none

/-- The character written by exactly `width` hexadecimal digits. -/
def hexCharacter? (width : Nat) (text : List Char) : Option (Char × List Char) :=
  let digits := text.take width
  if digits.length = width && digits.all isHexDigit then
    (scalar? (numberIn 16 digits)).map fun c => (c, text.drop width)
  else none

def escaped? (c : Char) : Option Char :=
  match c with
  | 'b' => some '\x08'
  | 't' => some '\t'
  | 'n' => some '\n'
  | 'f' => some '\x0c'
  | 'r' => some '\r'
  | '"' => some '"'
  | '\\' => some '\\'
  | _ => none

/-- What a backslash in a string does: it adds a character, or, at the end of a line of a long
string, skips all white space. The text starts behind the backslash. -/
def readEscape? (long : Bool) (text : List Char) : Option (List Char × List Char) :=
  match text with
  | 'u' :: rest => (hexCharacter? 4 rest).map fun (c, after) => ([c], after)
  | 'U' :: rest => (hexCharacter? 8 rest).map fun (c, after) => ([c], after)
  | c :: rest =>
    if long && isSpace c then
      match skipGap text with
      | '\n' :: after => some ([], after.dropWhile isSpace)
      | [] => some ([], [])
      | _ => none
    else (escaped? c).map fun plain => ([plain], rest)
  | [] => none

/-- Reads a string in double quotes up to its end; `done` holds what was read, in reverse. -/
def readBasic? (long : Bool) : Nat → List Char → List Char → Option (List Char × List Char)
  | 0, _, _ => none
  | fuel + 1, done, text =>
    match text with
    | [] => none
    | '"' :: rest =>
      if !long then some (done.reverse, rest)
      else match rest with
        | '"' :: '"' :: after => some (done.reverse, after)
        | _ => readBasic? long fuel ('"' :: done) rest
    | '\\' :: rest =>
      (readEscape? long rest).bind fun (added, after) =>
        readBasic? long fuel (added.reverse ++ done) after
    | c :: rest =>
      if isControl c && !(long && c == '\n') then none
      else readBasic? long fuel (c :: done) rest

/-- Reads a string in single quotes up to its end. -/
def readLiteral? (long : Bool) (done : List Char) : List Char → Option (List Char × List Char)
  | [] => none
  | c :: rest =>
    if c = '\'' && (!long || ['\'', '\''].isPrefixOf rest) then
      some (done.reverse, if long then rest.drop 2 else rest)
    else if isControl c && !(long && c == '\n') then none
    else readLiteral? long (c :: done) rest

def skipFirstBreak (text : List Char) : List Char :=
  match text with
  | '\n' :: rest => rest
  | _ => text

/-- Up to two more quotes right behind the end of a long string belong to the string. -/
def withTrailing (quote : Char) (content rest : List Char) : String × List Char :=
  let extra := (rest.take 2).takeWhile (· == quote)
  (String.ofList (content ++ extra), rest.drop extra.length)

def readString? (text : List Char) : Option (String × List Char) :=
  match text with
  | '"' :: '"' :: '"' :: rest =>
    (readBasic? true (rest.length + 1) [] (skipFirstBreak rest)).map fun (content, after) =>
      withTrailing '"' content after
  | '"' :: rest =>
    (readBasic? false (rest.length + 1) [] rest).map fun (content, after) =>
      (String.ofList content, after)
  | '\'' :: '\'' :: '\'' :: rest =>
    (readLiteral? true [] (skipFirstBreak rest)).map fun (content, after) =>
      withTrailing '\'' content after
  | '\'' :: rest =>
    (readLiteral? false [] rest).map fun (content, after) => (String.ofList content, after)
  | _ => none

/-! ## Keys -/

/-- Reads one part of a key: bare, or a string on one line. -/
def readKeyPart? (text : List Char) : Option (String × List Char) :=
  match text with
  | '"' :: rest =>
    (readBasic? false (rest.length + 1) [] rest).map fun (content, after) =>
      (String.ofList content, after)
  | '\'' :: rest =>
    (readLiteral? false [] rest).map fun (content, after) => (String.ofList content, after)
  | _ =>
    let bare := text.takeWhile isBareKey
    if bare.isEmpty then none else some (String.ofList bare, text.drop bare.length)

/-- Reads a key: parts with dots between them. -/
def readKey? : Nat → List Char → Option (List String × List Char)
  | 0, _ => none
  | fuel + 1, text => do
    let (part, after) ← readKeyPart? text
    match skipGap after with
    | '.' :: rest =>
      let (parts, last) ← readKey? fuel (skipGap rest)
      some (part :: parts, last)
    | rest => some ([part], rest)

/-! ## Numbers and moments -/

/-- Digits of a class, with single underscores between them: the digits and the rest. -/
def readDigits (isDigit : Char → Bool) : List Char → List Char × List Char
  | [] => ([], [])
  | c :: rest =>
    if isDigit c then
      let (digits, after) := readDigits isDigit rest
      (c :: digits, after)
    else if c = '_' then
      match rest with
      | next :: _ => if isDigit next then readDigits isDigit rest else ([], c :: rest)
      | [] => ([], c :: rest)
    else ([], c :: rest)

/-- `readDigits` that needs a digit first. -/
def readDigits? (isDigit : Char → Bool) (text : List Char) : Option (List Char × List Char) :=
  match text with
  | c :: _ => if isDigit c then some (readDigits isDigit text) else none
  | [] => none

/-- An integer in base sixteen, eight or two. -/
def readBased? (text : List Char) : Option (Datum × List Char) :=
  let based (base : Nat) (isDigit : Char → Bool) (rest : List Char) :=
    (readDigits? isDigit rest).map fun (digits, after) =>
      (Datum.int (numberIn base digits), after)
  match text with
  | '0' :: 'x' :: rest => based 16 isHexDigit rest
  | '0' :: 'b' :: rest => based 2 (fun c => c == '0' || c == '1') rest
  | '0' :: 'o' :: rest => based 8 (fun c => '0' ≤ c && c ≤ '7') rest
  | _ => none

def readSign (text : List Char) : Bool × List Char :=
  match text with
  | '-' :: rest => (true, rest)
  | '+' :: rest => (false, rest)
  | _ => (false, text)

def readFraction (text : List Char) : List Char × List Char :=
  match text with
  | '.' :: rest => (readDigits? Char.isDigit rest).getD ([], text)
  | _ => ([], text)

def readExponent (text : List Char) : Option Int × List Char :=
  match text with
  | e :: rest =>
    if e == 'e' || e == 'E' then
      let (negative, digits) := readSign rest
      match readDigits? Char.isDigit digits with
      | some (power, after) =>
        let size : Int := numberIn 10 power
        (some (if negative then -size else size), after)
      | none => (none, text)
    else (none, text)
  | [] => (none, text)

/-- A decimal integer or a float. An integer that is too long is refused. -/
def readDecimal? (text : List Char) : Option (Datum × List Char) := do
  let (negative, unsigned) := readSign text
  let (whole, afterWhole) ← match unsigned with
    | '0' :: rest => some (['0'], rest)
    | rest => readDigits? Char.isDigit rest
  let (fraction, afterFraction) := readFraction afterWhole
  let (power, after) := readExponent afterFraction
  if fraction.isEmpty && power.isNone then
    guard (whole.length ≤ integerDigits)
    let size : Int := numberIn 10 whole
    some (.int (if negative then -size else size), after)
  else
    let size := Decimal.nearestDouble (numberIn 10 (whole ++ fraction))
      (power.getD 0 - fraction.length)
    some (.float (if negative then -size else size), after)

/-- The words for the floats that are no decimal. -/
def specialFloats : List (String × Float) :=
  [("inf", 1 / 0), ("nan", 0 / 0), ("+inf", 1 / 0), ("-inf", -1 / 0), ("+nan", 0 / 0),
   ("-nan", 0 / 0)]

def readWord? (words : List (String × Datum)) (text : List Char) : Option (Datum × List Char) :=
  words.findSome? fun (word, value) =>
    if word.toList.isPrefixOf text then some (value, text.drop word.length) else none

/-- Exactly `width` decimal digits. -/
def readFixed? (width : Nat) (text : List Char) : Option (Nat × List Char) :=
  let digits := text.take width
  if digits.length = width && digits.all Char.isDigit then
    some (numberIn 10 digits, text.drop width)
  else none

def expect? (c : Char) (text : List Char) : Option (List Char) :=
  match text with
  | first :: rest => if first = c then some rest else none
  | [] => none

/-- A time of day. Of the digits of a fraction of a second the first six count. -/
def readTime? (text : List Char) : Option (TimeOfDay × List Char) := do
  let (hour, text) ← readFixed? 2 text
  let text ← expect? ':' text
  let (minute, text) ← readFixed? 2 text
  let text ← expect? ':' text
  let (second, text) ← readFixed? 2 text
  guard (hour < 24 && minute < 60 && second < 60)
  match text with
  | '.' :: rest =>
    let digits := rest.takeWhile Char.isDigit
    if digits.isEmpty then some (⟨hour, minute, second, 0⟩, text)
    else
      let six := (digits ++ List.replicate 6 '0').take 6
      some (⟨hour, minute, second, numberIn 10 six⟩, rest.drop digits.length)
  | _ => some (⟨hour, minute, second, 0⟩, text)

def daysOfMonth (year month : Nat) : Nat :=
  if month = 2 then
    if year % 4 = 0 && (year % 100 ≠ 0 || year % 400 = 0) then 29 else 28
  else if month = 4 || month = 6 || month = 9 || month = 11 then 30
  else 31

/-- The distance from universal time behind a time of day, in minutes. -/
def readOffset (text : List Char) : Option Int × List Char :=
  let distance (sign : Int) (rest : List Char) : Option (Int × List Char) := do
    let (hour, rest) ← readFixed? 2 rest
    let rest ← expect? ':' rest
    let (minute, rest) ← readFixed? 2 rest
    guard (hour < 24 && minute < 60)
    some (sign * (60 * hour + minute : Nat), rest)
  let found := match text with
    | 'Z' :: rest => some (0, rest)
    | 'z' :: rest => some (0, rest)
    | '+' :: rest => distance 1 rest
    | '-' :: rest => distance (-1) rest
    | _ => none
  match found with
  | some (offset, rest) => (some offset, rest)
  | none => (none, text)

/-- The digits of a date, not yet checked against the calendar. -/
def readDate? (text : List Char) : Option (Date × List Char) := do
  let (year, text) ← readFixed? 4 text
  let text ← expect? '-' text
  let (month, text) ← readFixed? 2 text
  let text ← expect? '-' text
  let (day, text) ← readFixed? 2 text
  guard (1 ≤ month && month ≤ 12 && 1 ≤ day && day ≤ 31)
  some (⟨year, month, day⟩, text)

/-- The time behind a date, with the distance from universal time. -/
def readTimePart? (text : List Char) : Option ((TimeOfDay × Option Int) × List Char) := do
  match text with
  | mark :: rest =>
    guard (mark == 'T' || mark == 't' || mark == ' ')
    let (time, rest) ← readTime? rest
    let (offset, rest) := readOffset rest
    some ((time, offset), rest)
  | [] => none

/-- A date, with or without a time. Text that looks like a date is nothing else, so a day that the
calendar does not have is a fault: the inner `none`. -/
def readDated? (text : List Char) : Option (Option (Datum × List Char)) := do
  let (date, after) ← readDate? text
  let valid := 1 ≤ date.year && date.day ≤ daysOfMonth date.year date.month
  some <| if !valid then none
    else match readTimePart? after with
      | some ((time, offset), rest) => some (.moment (.dateTime date time offset), rest)
      | none => some (.moment (.date date), after)

def readScalar? (text : List Char) : Option (Datum × List Char) :=
  match readWord? [("true", .bool true), ("false", .bool false)] text with
  | some found => some found
  | none =>
    match readDated? text with
    | some found => found
    | none =>
      ((readTime? text).map fun (time, rest) => (.moment (.time time), rest))
        <|> readBased? text <|> readDecimal? text
        <|> readWord? (specialFloats.map fun (word, x) => (word, .float x)) text

/-! ## Tables under construction -/

/-- What later statements may not do to a table any more. -/
inductive Mark where
  /-- It was opened by a header or by a dotted key. -/
  | declared
  /-- It was written inline, with all that it holds. -/
  | closed
deriving DecidableEq, Repr

abbrev Marks := List (List String × Mark)

/-- Whether a path carries a mark; `closed` extends to all paths below. -/
def Marks.has (marks : Marks) (path : List String) (mark : Mark) : Bool :=
  marks.any fun (marked, found) =>
    found = mark && (marked = path || (mark = .closed && marked.isPrefixOf path))

/-- Removes the marks of a path and of all paths below. -/
def Marks.clear (marks : Marks) (path : List String) : Marks :=
  marks.filter fun (marked, _) => !path.isPrefixOf marked

/-- Changes the table at a path, creating tables on the way. A path that meets an array of tables
goes on in its last table, if `intoLists`. -/
def updateAt? (intoLists : Bool) (change : Table → Option Table) :
    List String → Table → Option Table
  | [], table => change table
  | key :: path, table =>
    match table.get? key with
    | none => (updateAt? intoLists change path []).map fun inner => table.put key (.table inner)
    | some (.table inner) =>
      (updateAt? intoLists change path inner).map fun inner => table.put key (.table inner)
    | some (.list items) =>
      if intoLists then
        match items.getLast? with
        | some (.table inner) =>
          (updateAt? intoLists change path inner).map fun inner =>
            table.put key (.list (items.dropLast ++ [.table inner]))
        | _ => none
      else none
    | some _ => none

def putNew? (key : String) (value : Datum) (table : Table) : Option Table :=
  if (table.get? key).isSome then none else some (table.put key value)

/-- Whether a value is written inline with an inside of its own. -/
def isContainer (value : Datum) : Bool :=
  value.asList?.isSome || value.asTable?.isSome

/-! ## Values -/

mutual

/-- Reads a value; `fuel` bounds the depth and the number of items. -/
def readValue? : Nat → List Char → Option (Datum × List Char)
  | 0, _ => none
  | fuel + 1, text =>
    match text with
    | '[' :: rest => do
      let (items, after) ← readItems? fuel rest
      some (.list items, after)
    | '\x7b' :: rest =>
      match skipGap rest with
      | '\x7d' :: after => some (.table [], after)
      | inner => do
        let (table, after) ← readPairs? fuel [] [] inner
        some (.table table, after)
    | c :: _ =>
      if c == '"' || c == '\'' then (readString? text).map fun (s, after) => (.text s, after)
      else readScalar? text
    | [] => none

/-- Reads the items of an array up to its closing bracket; a comma may stand behind the last. -/
def readItems? : Nat → List Char → Option (List Datum × List Char)
  | 0, _ => none
  | fuel + 1, text => do
    match ← skipSpace? (text.length + 1) text with
    | ']' :: after => some ([], after)
    | start =>
      let (item, afterItem) ← readValue? fuel start
      match ← skipSpace? (afterItem.length + 1) afterItem with
      | ']' :: after => some ([item], after)
      | ',' :: rest =>
        let (items, after) ← readItems? fuel rest
        some (item :: items, after)
      | _ => none

/-- Reads the pairs of an inline table up to its closing brace, on top of those already read. -/
def readPairs? : Nat → Marks → Table → List Char → Option (Table × List Char)
  | 0, _, _, _ => none
  | fuel + 1, marks, table, text => do
    let (key, afterKey) ← readKey? (text.length + 1) text
    let rest ← expect? '=' afterKey
    let (value, afterValue) ← readValue? fuel (skipGap rest)
    guard !(marks.has key .closed)
    let stem ← key.getLast?
    let table ← updateAt? false (putNew? stem value) key.dropLast table
    let marks := if isContainer value then (key, .closed) :: marks else marks
    match skipGap afterValue with
    | '\x7d' :: after => some (table, after)
    | ',' :: more => readPairs? fuel marks table (skipGap more)
    | _ => none

end

/-! ## Statements -/

/-- The document read so far. Marks that a dotted key leaves take effect at the next header. -/
structure Draft where
  table : Table
  marks : Marks
  pending : Marks
  header : List String

def Draft.empty : Draft :=
  ⟨[], [], [], []⟩

/-- Proper prefixes of a dotted key, the key itself and the empty path left out. -/
def innerPaths (key : List String) : List (List String) :=
  (List.range (key.length - 1)).map fun n => key.take (n + 1)

/-- The statement `key = value` under the current header. -/
def Draft.assign? (draft : Draft) (key : List String) (value : Datum) : Option Draft := do
  let inner := (innerPaths key).map (draft.header ++ ·)
  guard !(inner.any fun path => draft.marks.has path .declared)
  let parent := draft.header ++ key.dropLast
  guard !(draft.marks.has parent .closed)
  let stem ← key.getLast?
  let table ← updateAt? true (putNew? stem value) parent draft.table
  some { draft with
    table
    marks := if isContainer value then (draft.header ++ key, .closed) :: draft.marks
      else draft.marks
    pending := inner.map (·, .declared) ++ draft.pending }

/-- Puts pending marks into effect, as a header does. -/
def Draft.settle (draft : Draft) : Draft :=
  { draft with marks := draft.pending ++ draft.marks, pending := [] }

/-- The header `[key]`. -/
def Draft.openTable? (draft : Draft) (key : List String) : Option Draft := do
  let draft := draft.settle
  guard !(draft.marks.has key .declared || draft.marks.has key .closed)
  let table ← updateAt? true some key draft.table
  some { draft with table, marks := (key, .declared) :: draft.marks, header := key }

def addItem? (key : String) (table : Table) : Option Table :=
  match table.get? key with
  | none => some (table.put key (.list [.table []]))
  | some (.list items) => some (table.put key (.list (items ++ [.table []])))
  | some _ => none

/-- The header `[[key]]`. -/
def Draft.openItem? (draft : Draft) (key : List String) : Option Draft := do
  let draft := draft.settle
  guard !(draft.marks.has key .closed)
  let stem ← key.getLast?
  let table ← updateAt? true (addItem? stem) key.dropLast draft.table
  some { draft with table, marks := (key, .declared) :: draft.marks.clear key, header := key }

/-- Reads one statement: the draft behind it, and the rest of its line. -/
def readStatement? (draft : Draft) (text : List Char) : Option (Draft × List Char) := do
  match text with
  | '[' :: '[' :: rest =>
    let (key, after) ← readKey? (text.length + 1) (skipGap rest)
    match after with
    | ']' :: ']' :: after => some (← draft.openItem? key, after)
    | _ => none
  | '[' :: rest =>
    let (key, after) ← readKey? (text.length + 1) (skipGap rest)
    some (← draft.openTable? key, ← expect? ']' after)
  | _ =>
    let (key, afterKey) ← readKey? (text.length + 1) text
    let rest ← expect? '=' afterKey
    let (value, after) ← readValue? (text.length + 1) (skipGap rest)
    some (← draft.assign? key value, after)

/-- Reads statements, each on a line of its own, to the end of the text. -/
def readStatements? : Nat → Draft → List Char → Option Draft
  | 0, _, _ => none
  | fuel + 1, draft, text => do
    match skipGap text with
    | [] => some draft
    | '\n' :: rest => readStatements? fuel draft rest
    | start =>
      let (draft, after) ←
        if start.head? == some '#' then some (draft, start) else readStatement? draft start
      match ← skipComment? (skipGap after) with
      | [] => some draft
      | '\n' :: rest => readStatements? fuel draft rest
      | _ => none

/-- A line feed for each pair of carriage return and line feed. -/
def unifyBreaks : List Char → List Char
  | '\r' :: '\n' :: rest => '\n' :: unifyBreaks rest
  | c :: rest => c :: unifyBreaks rest
  | [] => []

def read? (text : String) : Option Table :=
  let chars := unifyBreaks text.toList
  (readStatements? (chars.length + 1) .empty chars).map Draft.table

end Licensing.Document.Toml
