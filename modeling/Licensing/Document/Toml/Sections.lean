import Licensing.Document.Toml
import Licensing.Document.Toml.Editor

/-! # Sections of a TOML document

To add a table to a document without touching what was written by hand, the text is cut into the
part before the first header and one section for each header. Tables of one array belong together:
if other tables stand between them, the later ones move up to the first.

* `Toml.sectionsOf?` — the sections of a text.
* `Block.ofText?` — sections grouped into blocks.
* `Toml.sectionEditor` — the editor that works on blocks.
-/

namespace Licensing.Document.Toml

/-! ## Writing values -/

def writtenCharacter (c : Char) : List Char :=
  if c = '"' then ['\\', '"']
  else if c = '\\' then ['\\', '\\']
  else if c = '\n' then ['\\', 'n']
  else if c = '\t' then ['\\', 't']
  else if c = '\r' then ['\\', 'r']
  else if c = '\x08' then ['\\', 'b']
  else if c = '\x0c' then ['\\', 'f']
  else if c.toNat < 0x20 || c.toNat = 0x7F then '\\' :: 'u' :: Text.hexDigits 4 c.toNat
  else [c]

/-- One code point of a string in double quotes; surrogates have no escapes. -/
def writtenPoint : CodePoint → RawText
  | .character c => .ofChars (writtenCharacter c)
  | .surrogate offset => [.surrogate offset]

def writtenText (content : RawText) : RawText :=
  .character '"' :: content.flatMap writtenPoint ++ [.character '"']

def writtenTexts (items : List RawText) : RawText :=
  RawText.ofString "[" ++ (RawText.ofString ", ").intercalate (items.map writtenText) ++ RawText.ofString "]"

def NewValue.written : NewValue → RawText
  | .text content => writtenText content
  | .texts items => writtenTexts items

/-- The lines of a table, `key = value`. -/
def NewTable.written (entries : NewTable) : RawText :=
  entries.flatMap fun (key, value) =>
    RawText.ofString (key ++ " = ") ++ value.written ++ RawText.ofString "\n"

/-! ## Sections -/

/-- A header and the text up to the next one. -/
structure Section where
  /-- Whether the header opens a table of an array. -/
  isItem : Bool
  /-- The keys of the header. -/
  path : List String
  /-- The white space in front of the header. -/
  indent : List Char
  /-- The keys as they are written. -/
  written : List Char
  /-- The text behind the closing brackets. -/
  body : List Char

/-- The start of `text`, up to where `rest` begins. -/
def upToRest (text rest : List Char) : List Char :=
  text.take (text.length - rest.length)

/-- The text of one statement that is no header, and the rest: a key with its value, with what
stands behind it on the line. -/
def statement? (text : List Char) : Option (List Char × List Char) := do
  let start := skipGap text
  let behind ← match start with
    | [] => some []
    | '\n' :: _ => some start
    | '#' :: _ => some start
    | _ =>
      let (_, afterKey) ← readKey? (text.length + 1) start
      let rest ← expect? '=' afterKey
      let (_, after) ← readValue? (text.length + 1) (skipGap rest)
      some after
  let lineEnd := behind.dropWhile (· ≠ '\n')
  let rest := lineEnd.drop 1
  some (upToRest text rest, rest)

/-- The header at the start of a line, with an empty body, and the text behind its brackets. -/
def header? (text : List Char) : Option (Section × List Char) := do
  let indent := text.takeWhile isGap
  let (isItem, inside) ← match text.drop indent.length with
    | '[' :: '[' :: rest => some (true, rest)
    | '[' :: rest => some (false, rest)
    | _ => none
  let (path, after) ← readKey? (text.length + 1) (skipGap inside)
  let behind := after.drop (if isItem then 2 else 1)
  some (⟨isItem, path, indent, upToRest inside after, []⟩, behind)

/-- Statements up to the next header: their text, and the rest. -/
def bodyFrom? : Nat → List Char → Option (List Char × List Char)
  | 0, _ => none
  | fuel + 1, text =>
    if text.isEmpty || (header? text).isSome then some ([], text)
    else do
      let (line, rest) ← statement? text
      let (more, last) ← bodyFrom? fuel rest
      some (line ++ more, last)

def sectionsFrom? : Nat → List Char → Option (List Section)
  | 0, _ => none
  | fuel + 1, text =>
    if text.isEmpty then some []
    else do
      let (section_, behind) ← header? text
      let lineEnd := behind.dropWhile (· ≠ '\n')
      let (body, rest) ← bodyFrom? (behind.length + 1) (lineEnd.drop 1)
      let first := upToRest behind (lineEnd.drop 1)
      let more ← sectionsFrom? fuel rest
      some ({ section_ with body := first ++ body } :: more)

/-- The text before the first header, and the sections. -/
def sectionsOf? (text : List Char) : Option (List Char × List Section) := do
  let (front, rest) ← bodyFrom? (text.length + 1) text
  some (front, ← sectionsFrom? (text.length + 1) rest)

/-! ## Blocks -/

/-- A table of an array: what stands in front of its header, and everything behind it. -/
structure Element where
  indent : List Char
  body : RawText

/-- A part of a document that stays together: a plain section, or all tables of an array. -/
inductive Block where
  | plain (text : List Char)
  | tables (name : String) (written : List Char) (elements : List Element)

def Section.text (s : Section) : List Char :=
  let brackets := if s.isItem then 2 else 1
  s.indent ++ List.replicate brackets '[' ++ s.written ++ List.replicate brackets ']' ++ s.body

/-- The text of a block. All tables of an array are written with the same header. -/
def Block.text : Block → RawText
  | .plain text => .ofChars text
  | .tables _ written elements =>
    elements.flatMap fun e => RawText.ofChars (e.indent ++ "[[".toList ++ written ++ "]]".toList) ++ e.body

/-- Whether the block holds the tables of the array `name`. -/
def Block.isTables (name : String) : Block → Bool
  | .plain _ => false
  | .tables n _ _ => n == name

/-- Adds a table to an array of tables; `none` if there is no such array. -/
def addElement? (name : String) (element : Element) : List Block → Option (List Block)
  | [] => none
  | .tables n written elements :: rest =>
    if n = name then some (.tables n written (elements ++ [element]) :: rest)
    else (addElement? name element rest).map (.tables n written elements :: ·)
  | block :: rest => (addElement? name element rest).map (block :: ·)

def extendLast (name : String) (text : List Char) : List Block → List Block
  | [] => []
  | .tables n written elements :: rest =>
    if n = name then
      match elements.getLast? with
      | some last =>
        let grown := { last with body := last.body ++ RawText.ofChars text }
        .tables n written (elements.dropLast ++ [grown]) :: rest
      | none => .tables n written elements :: rest
    else .tables n written elements :: extendLast name text rest
  | block :: rest => block :: extendLast name text rest

/-- Groups sections into blocks behind the blocks found so far. `current` is the array whose table
came last; tables inside that table belong to it. -/
def groupFrom (blocks : List Block) (current : Option String) : List Section → List Block
  | [] => blocks
  | s :: rest =>
    match s.isItem, s.path with
    | true, [name] =>
      let element : Element := ⟨s.indent, .ofChars s.body⟩
      let grown := (addElement? name element blocks).getD
        (blocks ++ [.tables name s.written [element]])
      groupFrom grown (some name) rest
    | _, path =>
      match current with
      | some name =>
        if path.head? = some name then groupFrom (extendLast name s.text blocks) current rest
        else groupFrom (blocks ++ [.plain s.text]) none rest
      | none => groupFrom (blocks ++ [.plain s.text]) none rest

def Block.ofText? (text : List Char) : Option (List Block) :=
  (sectionsOf? text).map fun (front, sections) => groupFrom [.plain front] none sections

/-! ## Editing -/

/-- A document in blocks, with the keys that it has. -/
structure Blocks where
  keys : List String
  blocks : List Block

/-- The editor that adds a table behind the last one of its array, or else, behind an empty line, at the
end of the document. -/
def sectionEditor : Editor where
  Content := Blocks
  parse text := do some ⟨(← read? text).keys, ← Block.ofText? text.toList⟩
  has document key := document.keys.contains key
  addTables document key :=
    ⟨document.keys ++ [key], document.blocks ++ [.plain ['\n'], .tables key key.toList []]⟩
  isTables document key := document.blocks.any (·.isTables key)
  append document key entries :=
    let element : Element := ⟨[], RawText.ofString "\n" ++ entries.written⟩
    { document with blocks := (addElement? key element document.blocks).getD document.blocks }
  text document := document.blocks.flatMap Block.text

end Licensing.Document.Toml
