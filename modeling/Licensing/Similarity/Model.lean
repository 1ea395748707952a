import Licensing.Similarity.Corpus
import Licensing.Similarity.Scalar

/-! # Models of a corpus

A term says the more about a document the more often it occurs there and the fewer documents it
occurs in. A model keeps the most telling terms of each document as its vocabulary, and describes
each document by a vector of length one over that vocabulary.

* `Corpus.rarity` — the weight of a term by itself.
* `keep` — the terms that a document adds to the vocabulary.
* `Model.train` — the model of a corpus.
-/

namespace Licensing.Similarity

variable {D R : Type} [DecidableEq D] [Scalar R]

/-- Weights by index into the vocabulary; any other index has no weight. -/
abbrev Vector (R : Type) := List (Nat × R)

namespace Vector

def norm (v : Vector R) : R :=
  Scalar.sqrt (Scalar.sum (v.map fun (_, w) => Scalar.mul w w))

/-- The vector of length one in the same direction; a vector of length zero has none. -/
def unit (v : Vector R) : Vector R :=
  if Scalar.isZero v.norm then [] else v.map fun (i, w) => (i, Scalar.div w v.norm)

/-- The sum of the products of weights, over the entries of the shorter vector. -/
def dot (a b : Vector R) : R :=
  let (short, long) := if b.length < a.length then (b, a) else (a, b)
  Scalar.sum (short.map fun (i, w) => Scalar.mul w ((long.lookup i).getD Scalar.zero))

end Vector

/-- The weight of a term by itself: the logarithm of the share of documents that it picks out. -/
def Corpus.rarity (corpus : Corpus D) (term : String) : R :=
  Scalar.ln (Scalar.div (Scalar.ofNat corpus.documents.length)
    (Scalar.ofNat (corpus.frequency term)))

/-! ## Telling terms -/

def weigh (rarity : String → R) (term : String × Nat) : R :=
  Scalar.mul (Scalar.ofNat term.2) (rarity term.1)

/-- The terms of a document, the most telling first; of equally telling ones the first in the text
comes first. -/
def byWeight (rarity : String → R) (counts : Tally) : List String :=
  (counts.mergeSort fun a b => !Scalar.lt (weigh rarity a) (weigh rarity b)).map Prod.fst

/-- The number of blanks in a term, one less than its number of words. -/
def blanksIn (term : String) : Nat :=
  term.toList.count ' '

/-- At most so many terms with the same number of words are kept. -/
def keptPerLength : Nat := 5

/-- At most so many terms of a document are kept. -/
def keptPerDocument : Nat := 20

/-- Keeps terms in order, as long as there is room; `kept` holds the numbers of blanks of the terms
kept before. -/
def keepFrom (kept : List Nat) : List String → List String
  | [] => []
  | term :: rest =>
    if keptPerDocument ≤ kept.length then []
    else if keptPerLength ≤ kept.count (blanksIn term) then keepFrom kept rest
    else term :: keepFrom (blanksIn term :: kept) rest

/-- The most telling terms of a document, few of each length. -/
def keep (rarity : String → R) (counts : Tally) : List String :=
  keepFrom [] (byWeight rarity counts)

/-! ## Training -/

def withoutRepeats : List String → List String
  | x :: y :: rest => if x = y then withoutRepeats (y :: rest) else x :: withoutRepeats (y :: rest)
  | few => few

/-- The kept terms of all documents in order, each once. -/
def Corpus.vocabulary (rarity : String → R) (corpus : Corpus D) : List String :=
  let kept := corpus.documents.flatMap fun (_, counts) => keep rarity counts
  withoutRepeats (kept.mergeSort fun a b => a ≤ b)

def weights (rarity : String → R) (vocabulary : List String) (counts : Tally) : Vector R :=
  vocabulary.zipIdx.filterMap fun (term, i) =>
    (counts.lookup term).map fun n => (i, weigh rarity (term, n))

/-- A vocabulary with the weight of each of its terms, and a vector for each document. -/
structure Model (D R : Type) where
  terms : List String
  rarities : List R
  vectors : List (D × Vector R)

def Model.train (R : Type) [Scalar R] (corpus : Corpus D) : Model D R :=
  let rarity : String → R := corpus.rarity
  let terms := corpus.vocabulary rarity
  ⟨terms, terms.map rarity,
    corpus.documents.map fun (document, counts) =>
      (document, (weights rarity terms counts).unit)⟩

def Model.shown (model : Model D R) : String :=
  s!"Model(terms={model.terms.length}, documents={model.vectors.length})"

end Licensing.Similarity
