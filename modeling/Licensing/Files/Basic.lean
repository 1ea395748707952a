import Licensing.Files.Path
import Licensing.SortedSet
import Licensing.Text.Raw

/-! # Files

The files that a command can see, as a value.

* `Files.kindOf?` — what stands at a path.
* `Files.read`, `Files.write` — the text of a file. Writing empties the file first, so that a text that
  cannot be encoded leaves an empty file.
-/

namespace Licensing

open Files

/-- The texts of files, and the directories that are known to exist, by their resolved paths. -/
structure Files where
  workingDirectory : Path
  texts : List (Path × String)
  directories : List Path := []
  /-- The paths at which the system refuses to look, with its wordings. -/
  refused : List (Path × String) := []

inductive FileFault where
  | missing (path : String)
  | isDirectory (path : String)
  | notDirectory (path : String)
  | tooLong (path : String)
  | refused (wording : String)
  /-- A name with a null character is no name for the system. -/
  | nullCharacter
deriving DecidableEq, Repr

def FileFault.message : FileFault → String
  | .missing path => "[Errno 2] No such file or directory: " ++ Text.quoted path
  | .isDirectory path => "[Errno 21] Is a directory: " ++ Text.quoted path
  | .notDirectory path => "[Errno 20] Not a directory: " ++ Text.quoted path
  | .tooLong path => "[Errno 36] File name too long: " ++ Text.quoted path
  | .refused wording => wording
  | .nullCharacter => "embedded null byte"

/-- Whether the fault tells that no file is there. The others tell nothing about that. -/
def FileFault.isAbsence : FileFault → Bool
  | .missing _ | .isDirectory _ | .notDirectory _ | .nullCharacter => true
  | .tooLong _ | .refused _ => false

/-- Why a text is not in the file that it was to be written to. -/
inductive WriteFault where
  | file (fault : FileFault)
  | encoding (fault : EncodingFault)
deriving DecidableEq, Repr

inductive FileKind where
  | file (text : String)
  | directory
deriving DecidableEq, Repr

namespace Files

/-- Whether `directory` is a proper ancestor of `path`. -/
def isAbove (directory path : Path) : Bool :=
  directory.anchor == path.anchor && directory.parts.length < path.parts.length &&
    directory.parts.isPrefixOf path.parts

def locate (files : Files) (path : Path) : Path :=
  path.resolved files.workingDirectory

def kindAt? (files : Files) (path : Path) : Option FileKind :=
  match files.texts.lookup path with
  | some text => some (.file text)
  | none =>
    if path == files.workingDirectory || files.directories.contains path ||
        files.texts.any (fun entry => isAbove path entry.1) ||
        files.directories.any (isAbove path) || isAbove path files.workingDirectory then
      some .directory
    else none

/-- Why the system does not even look at a path. -/
def barrier? (files : Files) (path : Path) : Option FileFault :=
  if path.text.toList.contains '\x00' then some .nullCharacter
  else if Path.textLimit ≤ path.text.utf8ByteSize then some (.tooLong path.text)
  else (files.refused.lookup (files.locate path)).map .refused

def kindOf? (files : Files) (path : Path) : Option FileKind :=
  if (files.barrier? path).isSome then none else files.kindAt? (files.locate path)

def exists? (files : Files) (path : Path) : Bool :=
  (files.kindOf? path).isSome

def isFile (files : Files) (path : Path) : Bool :=
  match files.kindOf? path with
  | some (.file _) => true
  | _ => false

/-- Whether a file stands in the way of a path. -/
def isBlocked (files : Files) (path : Path) : Bool :=
  files.texts.any fun entry => isAbove entry.1 (files.locate path)

/-- Whether a resolved path leads from a directory to a name that none of its members can have. -/
def hasLongName (files : Files) (place : Path) : Bool :=
  (List.range place.parts.length).any fun n =>
    Path.nameLimit < ((place.parts[n]?).getD "").utf8ByteSize &&
      files.kindAt? { place with parts := place.parts.take n } == some .directory

def absence (files : Files) (path : Path) : FileFault :=
  match files.barrier? path with
  | some fault => fault
  | none =>
    if files.hasLongName (files.locate path) then .tooLong path.text
    else if files.isBlocked path then .notDirectory path.text
    else .missing path.text

def read (files : Files) (path : Path) : Except FileFault String :=
  match files.kindOf? path with
  | some (.file text) => .ok text
  | some .directory => .error (.isDirectory path.text)
  | none => .error (files.absence path)

def lookFor (files : Files) (path : Path) : Except FileFault Bool :=
  match files.read path with
  | .ok _ => .ok true
  | .error fault => if fault.isAbsence then .ok false else .error fault

def put (path : Path) (text : String) : List (Path × String) → List (Path × String)
  | [] => [(path, text)]
  | (p, old) :: rest => if p = path then (path, text) :: rest else (p, old) :: put path text rest

/-- Opens a file to be written anew: it is empty then. It is made in a directory that is there. -/
def clear (files : Files) (path : Path) : Except FileFault Files :=
  let place := files.locate path
  let cleared := { files with texts := put place "" files.texts }
  match files.kindOf? path with
  | some .directory => .error (.isDirectory path.text)
  | some (.file _) => .ok cleared
  | none =>
    if (files.barrier? path).isSome || Path.nameLimit < place.name.utf8ByteSize then .error (files.absence path)
    else match files.kindAt? place.parent with
      | some .directory => .ok cleared
      | _ => .error (files.absence path)

/-- Writes a text to a file. What is left of the files depends on how far this got. -/
def write (files : Files) (path : Path) (text : RawText) : Except WriteFault Unit × Files :=
  match files.clear path with
  | .error fault => (.error (.file fault), files)
  | .ok cleared =>
    match text.encode with
    | .error fault => (.error (.encoding fault), cleared)
    | .ok text => (.ok (), { cleared with texts := put (files.locate path) text cleared.texts })

/-- The name of what stands directly inside a directory on the way to a path further below. -/
def nameTowards (directory path : Path) : String :=
  (path.parts[directory.parts.length]?).getD ""

/-- What stands directly inside a directory, in the order of names. -/
def listing (files : Files) (directory : Path) : List (String × FileKind) :=
  let place := files.locate directory
  let known := files.texts.map Prod.fst ++ files.directories
  let names := SortedSet.ofList ((known.filter (isAbove place)).map (nameTowards place))
  names.filterMap fun name => (files.kindAt? (place.below ⟨"", [name]⟩)).map (name, ·)

def unifyLineEnds : List Char → List Char
  | '\r' :: '\n' :: rest => '\n' :: unifyLineEnds rest
  | '\r' :: rest => '\n' :: unifyLineEnds rest
  | c :: rest => c :: unifyLineEnds rest
  | [] => []

def withUnifiedLineEnds (text : String) : String :=
  String.ofList (unifyLineEnds text.toList)

/-- The text of a file with a line feed for each line end. -/
def readLines (files : Files) (path : Path) : Except FileFault String :=
  (files.read path).map withUnifiedLineEnds

end Files

end Licensing
