import Licensing.Similarity.Model

/-! # Ranking documents

A text is scored against every document of a model by the angle between their vectors, and documents
are ranked by their scores.

* `Model.query` — the vector of a text.
* `Model.scores` — the score of each document, in the order of the model.
* `Model.rank` — documents and scores, the best first.
* `upTo` — the front of a ranking.
-/

namespace Licensing.Similarity

variable {D R : Type} [Scalar R]

/-- The front of a list: the first `limit` members, or for a negative limit all but the last
`-limit`. -/
def upTo {α : Type} (limit : Int) (xs : List α) : List α :=
  if 0 ≤ limit then xs.take limit.toNat else xs.take (xs.length - (-limit).toNat)

/-- The index of the last occurrence of a term, counted from `start`. -/
def lastIndex? (term : String) (start : Nat) : List String → Option Nat
  | [] => none
  | t :: rest =>
    match lastIndex? term (start + 1) rest with
    | some i => some i
    | none => if t = term then some start else none

def Model.indexOf? (model : Model D R) (term : String) : Option Nat :=
  lastIndex? term 0 model.terms

/-- Each index once, in the order of first occurrence, with the number of its occurrences. -/
def tallyIndices : List Nat → List (Nat × Nat)
  | [] => []
  | i :: rest => (i, rest.count i + 1) :: (tallyIndices rest).filter (·.1 ≠ i)

/-- The vector of a text, of length one or empty. -/
def Model.query (model : Model D R) (text : String) : Vector R :=
  let found := (Terms.ofText text).filterMap model.indexOf?
  Vector.unit ((tallyIndices found).map fun (i, n) =>
    (i, Scalar.mul (Scalar.ofNat n) (model.rarities[i]?.getD Scalar.zero)))

def Model.scores (model : Model D R) (text : String) : List (D × R) :=
  let query := model.query text
  model.vectors.map fun (document, vector) => (document, query.dot vector)

/-- Whether `a` is not ranked behind `b`: the higher score first, of equal scores the smaller name. -/
def notBehind [ToString D] (a b : D × R) : Bool :=
  Scalar.lt b.2 a.2 || (!Scalar.lt a.2 b.2 && toString a.1 ≤ toString b.1)

/-- The documents with their scores for a text, the best first. -/
def Model.rank [ToString D] (model : Model D R) (text : String) : List (D × R) :=
  (model.scores text).mergeSort notBehind

end Licensing.Similarity
