import Std.Data.HashMap
import Licensing.Terms.Words

/-! # Corpora

A corpus is a set of documents, each with the terms of its text, together with an index that says
which documents a term occurs in.

* `tally` — how often each term occurs, in the order of first occurrence.
* `Corpus.put` — adds a document, or replaces its text.
* `Corpus.frequency` — in how many documents a term occurs.
* `Builder` — a corpus that can be closed.
-/

namespace Licensing.Similarity

/-- The different members of a list, in the order of first occurrence. -/
def distinct : List String → List String
  | [] => []
  | x :: xs => x :: (distinct xs).filter (· ≠ x)

/-- Each term once, with the number of its occurrences. -/
abbrev Tally := List (String × Nat)

def tally (terms : List String) : Tally :=
  (distinct terms).map fun term => (term, terms.count term)

/-- The documents that each term occurs in; terms that occur nowhere have no entry. -/
abbrev Postings (D : Type) := Std.HashMap String (List D)

variable {D : Type} [DecidableEq D]

namespace Postings

def note (document : D) (postings : Postings D) (term : String) : Postings D :=
  let found := postings.getD term []
  if found.contains document then postings else postings.insert term (document :: found)

def forget (document : D) (postings : Postings D) (term : String) : Postings D :=
  let rest := (postings.getD term []).erase document
  if rest.isEmpty then postings.erase term else postings.insert term rest

end Postings

/-- Documents in the order in which they were first added, and the index of their terms. -/
structure Corpus (D : Type) where
  documents : List (D × Tally)
  postings : Postings D

namespace Corpus

def empty : Corpus D :=
  ⟨[], ∅⟩

def tallyOf? (documents : List (D × Tally)) (document : D) : Option Tally :=
  documents.lookup document

/-- Sets the tally of a document, in its place if it is there. -/
def putTally (document : D) (counts : Tally) : List (D × Tally) → List (D × Tally)
  | [] => [(document, counts)]
  | (d, old) :: rest =>
    if d = document then (document, counts) :: rest
    else (d, old) :: putTally document counts rest

/-- Adds a document with its text, or gives a document a new text. -/
def put (corpus : Corpus D) (document : D) (text : String) : Corpus D :=
  let terms := Terms.ofText text
  let before := (tallyOf? corpus.documents document).getD []
  let cleared := before.foldl (fun postings (term, _) => postings.forget document term)
    corpus.postings
  ⟨putTally document (tally terms) corpus.documents,
    terms.foldl (Postings.note document) cleared⟩

def frequency (corpus : Corpus D) (term : String) : Nat :=
  (corpus.postings.getD term []).length

/-- The corpus of several texts; of texts with the same document the last one counts. -/
def ofTexts (texts : List (D × String)) : Corpus D :=
  texts.foldl (fun corpus (document, text) => corpus.put document text) empty

end Corpus

structure Builder (D : Type) where
  corpus : Corpus D
  closed : Bool

namespace Builder

def empty : Builder D :=
  ⟨.empty, false⟩

def closedMessage : String :=
  "Cannot add documents after build()"

def add (builder : Builder D) (document : D) (text : String) : Except String (Builder D) :=
  if builder.closed then .error closedMessage
  else .ok { builder with corpus := builder.corpus.put document text }

def close (builder : Builder D) : Builder D :=
  { builder with closed := true }

end Builder

end Licensing.Similarity
