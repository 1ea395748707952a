/-! # Paths

A path is an anchor and the parts below it. Relative paths have the empty anchor, paths from the root
have a slash; any other anchor stands for a directory that is known by that name.

* `Path.ofText`, `Path.text` — written paths. Empty parts and single dots are dropped.
* `Path.below` — a path as seen from a directory.
* `Path.resolved` — a path without `..`.
-/

namespace Licensing.Files

/-- An anchor and the parts below it. -/
structure Path where
  anchor : String
  parts : List String
deriving DecidableEq, Repr

namespace Path

def splitAtSlashes : List Char → List (List Char)
  | [] => [[]]
  | c :: rest =>
    if c = '/' then [] :: splitAtSlashes rest
    else match splitAtSlashes rest with
      | [] => [[c]]
      | piece :: more => (c :: piece) :: more

def ofText (text : String) : Path :=
  let parts := (splitAtSlashes text.toList).map String.ofList
  ⟨if text.toList.head? == some '/' then "/" else "", parts.filter fun p => p ≠ "" && p ≠ "."⟩

def text (path : Path) : String :=
  let joined := "/".intercalate path.parts
  if path.anchor = "" then (if path.parts.isEmpty then "." else joined)
  else if path.anchor = "/" then "/" ++ joined
  else if path.parts.isEmpty then path.anchor
  else path.anchor ++ "/" ++ joined

def name (path : Path) : String :=
  path.parts.getLastD ""

def parent (path : Path) : Path :=
  { path with parts := path.parts.dropLast }

def nameLimit : Nat := 255

/-- How many bytes make a written path too long. -/
def textLimit : Nat := 4096

/-- `path` as seen from `directory`: a path with an anchor of its own stays. -/
def below (directory path : Path) : Path :=
  if path.anchor = "" then { directory with parts := directory.parts ++ path.parts } else path

/-- Takes a step up for each `..`. -/
def withoutUps (done : List String) : List String → List String
  | [] => done.reverse
  | part :: rest =>
    if part = ".." then withoutUps done.tail rest else withoutUps (part :: done) rest

/-- The path from the working directory, without `..`. -/
def resolved (path workingDirectory : Path) : Path :=
  let full := workingDirectory.below path
  { full with parts := withoutUps [] full.parts }

end Path

end Licensing.Files
