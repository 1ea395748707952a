import Licensing.Normalization.Guess
import Licensing.Similarity.Stored

/-! # Classifying license texts

The full text of a license is identified by its similarity to the texts of known licenses.

* `Classifier.ofTexts` — trains on texts.
* `Classifier.classify` — the best candidates for a text, and the license if one is good enough.
* `Classifier.guess` — the license; an error if none is good enough.
-/

namespace Licensing

open Licensing.Similarity

/-- What a text was identified as: the accepted license, the best score, the best candidates. -/
structure Classification (R : Type) where
  license : Option String
  score : R
  candidates : List (String × R)

/-- A model of license texts, and the score in percent that the best candidate has to exceed. -/
structure Classifier (R : Type) where
  model : Model String R
  threshold : R

def nothingToTrainOn : String :=
  "Cannot train a classifier without license texts"

namespace Classifier

variable {R : Type} [Scalar R]

/-- The classifier of some texts, given by license. Of texts with the same license the last one
counts. -/
def ofTexts (texts : List (String × String)) (threshold : R) : Except String (Classifier R) :=
  if texts.isEmpty then .error nothingToTrainOn
  else .ok ⟨.train R (.ofTexts texts), threshold⟩

def stem (name : String) : String :=
  let chars := name.toList
  let ending := (chars.reverse.takeWhile (· ≠ '.')).length
  let front := chars.take (chars.length - ending - 1)
  if front.isEmpty || ending = 0 || ending = chars.length then name else String.ofList front

/-- Whether a file name is that of a license text: it has the ending `.txt` and names no file of a
directory below. -/
def isTextName (name : String) : Bool :=
  ".txt".toList.isSuffixOf name.toList && !name.toList.contains '/'

/-- The texts of a directory by license, in the order of file names. -/
def directoryTexts (files : List (String × String)) : List (String × String) :=
  let texts := files.filter fun (name, _) => isTextName name
  (texts.mergeSort fun a b => a.1 ≤ b.1).map fun (name, text) => (stem name, text)

def ofDirectory (path : String) (files : List (String × String)) (threshold : R) :
    Except String (Classifier R) :=
  match directoryTexts files with
  | [] => .error ("No *.txt license texts found in " ++ path)
  | texts => ofTexts texts threshold

def defaultLimit : Int := 5

/-- Identifies a text, and reports the front of the ranking. -/
def classify (classifier : Classifier R) (text : String) (limit : Int) : Classification R :=
  match upTo limit (classifier.model.rank text) with
  | [] => ⟨none, Scalar.zero, []⟩
  | (best, score) :: others =>
    let accepted := Scalar.lt classifier.threshold (Guesser.percent score)
    ⟨if accepted then some best else none, score, (best, score) :: others⟩

def blankSeparated (text : List Char) : List (List Char) :=
  (text.splitBy fun a b => Text.isBlank a == Text.isBlank b).filter fun piece =>
    !piece.all Text.isBlank

def excerpt (text : String) : String :=
  String.ofList ((List.intercalate [' '] (blankSeparated text.toList)).take 60)

def guess (classifier : Classifier Float) (text : String) : Except Unresolved String :=
  let found := classifier.classify text defaultLimit
  match found.license with
  | some id => .ok id
  | none => .error ⟨excerpt text, found.candidates⟩

end Classifier

end Licensing
