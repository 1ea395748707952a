import Licensing.Normalization.Structural
import Licensing.Registry.Basic
import Licensing.Similarity.Ranking
import Licensing.Text.Lowercase

/-! # Guessing licenses

Metadata often names a license by a title and an address. Such free text is resolved in stages, and
the first stage with an answer decides:

1. "public domain" means `CC0-1.0`;
2. the title is an identifier;
3. one of the best guesses by title has a reference that looks like one of the addresses;
4. the best guess by title scores above the threshold.

* `Guesser` — the settings, with any ranking of licenses by title.
* `Guesser.resolve` — the stage that decides, as a `Finding`.
* `Guesser.ofRegistry` — the ranking by similarity of titles.
-/

namespace Licensing

open Licensing.Similarity

/-- How free text was resolved, or why it was not. -/
inductive Finding (R : Type) where
  | publicDomain (entry : Listed)
  | identifier (entry : Listed)
  | byUri (entry : Listed) (score : R)
  /-- The best guess, and the guesses behind it. -/
  | byTitle (entry : Listed) (score : R) (others : List Listed)
  /-- The best guess is too far off. -/
  | tooFar (best : Listed) (score : R)
  /-- There is nothing to guess. -/
  | nothing

def Finding.found? {R : Type} : Finding R → Option Listed
  | .publicDomain entry | .identifier entry | .byUri entry _ | .byTitle entry _ _ => some entry
  | .tooFar .. | .nothing => none

structure Guesser (R : Type) where
  registry : Registry
  /-- The score in percent that a guess by title has to exceed. -/
  threshold : R
  /-- How many guesses by title are checked against addresses. -/
  limit : Int
  /-- The licenses of the registry by similarity to a title, the best first. -/
  rank : String → List (Listed × R)

namespace Guesser

variable {R : Type} [Scalar R]

def percent (score : R) : R :=
  Scalar.mul score (Scalar.ofNat 100)

/-- Whether a license has a reference that looks like one of the addresses. -/
def matchesUri (uris : List String) (entry : Listed) : Bool :=
  uris.any fun uri => entry.uris.any (Uri.looksLike uri)

/-- The license that everyone may use without conditions. -/
def publicDomainId : String := "CC0-1.0"

/-- The stages that look at the title alone and ask for no similarity. -/
def known? (registry : Registry) (title : String) : Option (Finding R) :=
  let publicDomain :=
    if Text.lowerString title == "public domain" then registry.findLicense? publicDomainId
    else none
  match publicDomain with
  | some entry => some (.publicDomain entry)
  | none => (registry.findLicense? title).map .identifier

/-- The first guess, among those checked against addresses, that one of them fits. -/
def byUri? (guesser : Guesser R) (uris : List String) (guesses : List (Listed × R)) :
    Option (Finding R) :=
  ((upTo guesser.limit guesses).find? fun (entry, _) => matchesUri uris entry).map
    fun (entry, score) => .byUri entry score

/-- The stages that look at guesses by title. -/
def guessed (guesser : Guesser R) (uris : List String) (guesses : List (Listed × R)) :
    Finding R :=
  match guesser.byUri? uris guesses, guesses with
  | some finding, _ => finding
  | none, [] => .nothing
  | none, (best, score) :: others =>
    if Scalar.lt guesser.threshold (percent score) then .byTitle best score (others.map Prod.fst)
    else .tooFar best score

/-- The stage that decides about free text. -/
def resolve (guesser : Guesser R) (text : FreeText) : Finding R :=
  let title := Text.stripString text.title
  match known? guesser.registry title with
  | some finding => finding
  | none => guesser.guessed text.uris (guesser.rank title)

def license? (guesser : Guesser R) (text : FreeText) : Option Expression :=
  (guesser.resolve text).found?.map fun entry => .just (.standard entry.id)

/-- The rules of normalization by guessing. Exceptions stay as they are. -/
def rules (guesser : Guesser R) : LeafRules :=
  ⟨guesser.license?, id⟩

def titleModel (registry : Registry) : Model String Float :=
  .train Float (.ofTexts (registry.licenses.map fun entry => (entry.id, entry.title)))

/-- The licenses of a registry by similarity to a title. -/
def rankTitles (registry : Registry) (model : Model String Float) (title : String) :
    List (Listed × Float) :=
  (model.rank title).filterMap fun (id, score) =>
    (registry.findLicense? id).map (·, score)

/-- The share, in percent, that a guess has to exceed unless told otherwise. -/
def defaultThreshold : Float := 42

def defaultLimit : Int := 20

def ofModel (registry : Registry) (model : Model String Float) (threshold : Float) (limit : Int) :
    Guesser Float :=
  ⟨registry, threshold, limit, rankTitles registry model⟩

def ofRegistry (registry : Registry) (threshold : Float) (limit : Int) : Guesser Float :=
  ofModel registry (titleModel registry) threshold limit

/-- The license that free text stands for; without one, the best candidates. -/
def require (guesser : Guesser Float) (text : FreeText) : Except Unresolved Expression :=
  match guesser.license? text with
  | some e => .ok e
  | none =>
    .error ⟨text.title, ((guesser.rank text.title).take 3).map fun (entry, score) =>
      (entry.id, score)⟩

end Guesser

end Licensing
