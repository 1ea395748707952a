import Licensing.CommandLine.Session
import Licensing.Document.Toml.Sections

/-! # The program

Shows the files that a request mentions to a session, and carries out what it decides: writes the
files that it changed and prints what it has to say.
-/

open Licensing Licensing.CommandLine

namespace Licensing.Program

/-- The text of a file. Bytes that are no text are taken for characters of their own. -/
def readText (path : String) : IO String := do
  let bytes ← IO.FS.readBinFile path
  return (String.fromUTF8? bytes).getD
    (String.ofList (bytes.toList.map fun b => Char.ofNat b.toNat))

/-- Looks at a path: notes the text of a file, or that there is a directory. -/
def see (files : Files) (path : Files.Path) : IO Files := do
  let place := files.locate path
  let entry := (← IO.currentDir) / place.text
  if ← entry.isDir then
    return { files with directories := place :: files.directories }
  else if ← entry.pathExists then
    return { files with texts := Files.put place (← readText place.text) files.texts }
  else return files

/-- Looks at a path and at the directory around it. -/
def seeAround (files : Files) (path : Files.Path) : IO Files := do
  see (← see files path.parent) path

/-- Looks at everything directly inside a directory that can be a license text. -/
def seeInside (files : Files) (path : Files.Path) : IO Files := do
  let seen ← see files path
  let place := (← IO.currentDir) / (files.locate path).text
  if !(← place.isDir) then return seen
  let names := (← place.readDir).toList.map fun entry => entry.fileName
  (names.filter Classifier.isTextName).foldlM (fun files name => see files (path.below (.ofText name)))
    seen

def seeAll (request : Request) : IO Files := do
  let here := Files.Path.ofText (toString (← IO.currentDir))
  let nothing : Files := { workingDirectory := here, texts := [] }
  let settings := request.options.settingsPath nothing
  let files ← seeAround nothing settings
  let files ← (Settings.licensesNamed? files settings).elim (pure files) (see files)
  let files ← request.command.files.foldlM seeAround files
  request.command.directories.foldlM seeInside files

def writeChanged (before after : Files) : IO Unit := do
  for (path, text) in after.texts do
    if before.texts.lookup path ≠ some text then IO.FS.writeFile path.text text

def eventLine (options : Options) (event : Event) : String :=
  if options.jsonLog then Document.Json.write (.table event.record) else event.line

def carryOut (request : Request) : IO UInt32 := do
  let files ← seeAll request
  let outcome := request.run Document.Toml.sectionEditor files
  let errors ← IO.getStderr
  for event in outcome.events do
    errors.putStrLn (eventLine request.options event)
  writeChanged files outcome.files
  (← IO.getStdout).putStr outcome.output
  errors.putStr outcome.errors
  return UInt32.ofNat outcome.code

end Licensing.Program

def main (arguments : List String) : IO UInt32 :=
  match Request.read arguments with
  | .ok request => Licensing.Program.carryOut request
  | .error stop => do
    (← IO.getStdout).putStr stop.output
    (← IO.getStderr).putStr stop.errors
    return UInt32.ofNat stop.code
