import Licensing.Document.Json
import Licensing.Similarity.Ranking

/-! # Stored models

A trained model can be kept as a document and read back later, without the corpus.

* `Model.toDatum`, `Model.ofDatum` — the two directions.
* `Model.same` — equality of models, in which the order of documents does not matter.
-/

namespace Licensing.Similarity

open Licensing.Document

inductive StoredError where
  /-- A part is missing. -/
  | missing (key : String)
  /-- The document was written in another format. -/
  | format (shown : String)
  /-- There are not as many weights as terms. -/
  | lengths (terms rarities : Nat)
  /-- A part has the wrong shape. -/
  | shape
deriving DecidableEq, Repr

def storedFormat : Nat := 1

def StoredError.message : StoredError → String
  | .missing key => Text.quoted key
  | .format shown => s!"Invalid model format. Expecting {storedFormat} got {shown}"
  | .lengths terms rarities =>
    s!"terms and idf must have the same length: {terms} != {rarities}"
  | .shape => "the document is no stored model"

def Vector.sorted {R : Type} (v : Vector R) : Vector R :=
  v.mergeSort fun a b => a.1 ≤ b.1

section Keyed

variable {K V : Type} [DecidableEq K]

/-- Sets the value of a key, in its place if it is there. -/
def putEntry (key : K) (value : V) : List (K × V) → List (K × V)
  | [] => [(key, value)]
  | (k, v) :: rest => if k = key then (key, value) :: rest else (k, v) :: putEntry key value rest

/-- Each key with its last value, in the place of its first one. -/
def keyed (entries : List (K × V)) : List (K × V) :=
  entries.foldl (fun found entry => putEntry entry.1 entry.2 found) []

end Keyed

namespace Model

variable {D : Type}

def pair (entry : Nat × Float) : Datum :=
  .list [.int entry.1, .float entry.2]

/-- The document of a model; `write` names the documents. -/
def toDatum (write : D → String) (model : Model D Float) : Datum :=
  .table
    [("format", .int storedFormat),
     ("terms", .list (model.terms.map .text)),
     ("idf", .list (model.rarities.map .float)),
     ("documents", .table (keyed (model.vectors.map fun (document, vector) =>
       (write document, .list (vector.sorted.map pair)))))]

def numberOf? : Datum → Option Float
  | .float x => some x
  | .int n => some (if n < 0 then -(Decimal.nearestDouble n.natAbs 0) else Decimal.nearestDouble n.natAbs 0)
  | .bool b => some (if b then 1 else 0)
  | _ => none

def indexOf : Datum → Option Nat
  | .int n => if 0 ≤ n then some n.toNat else none
  | .bool b => some (if b then 1 else 0)
  | .float x => if 0 ≤ x then some x.toUInt64.toNat else none
  | _ => none

def isFormat (value : Datum) : Bool :=
  match value with
  | .int n => n = storedFormat
  | .bool b => b
  | .float x => x == 1
  | _ => false

def pairOf? (value : Datum) : Option (Nat × Float) := do
  match ← value.asList? with
  | [index, weight] => some (← indexOf index, ← numberOf? weight)
  | _ => none

def vectorOf? (value : Datum) : Option (Vector Float) := do
  let pairs ← value.asList?
  return keyed (← pairs.mapM pairOf?)

def part (table : Table) (key : String) : Except StoredError Datum :=
  match table.get? key with
  | some value => .ok value
  | none => .error (.missing key)

def shaped {α : Type} (found : Option α) : Except StoredError α :=
  match found with
  | some value => .ok value
  | none => .error .shape

def documentOf (read : String → D) (entry : String × Datum) : Except StoredError (D × Vector Float) := do
  .ok (read entry.1, ← shaped (vectorOf? entry.2))

/-- The model of a document; `read` finds documents by their names. -/
def ofDatum [DecidableEq D] (read : String → D) (value : Datum) : Except StoredError (Model D Float) := do
  let table ← shaped value.asTable?
  let format := (table.get? "format").getD .null
  if !isFormat format then .error (.format format.plainlyShown)
  let documents : Table ← shaped (← part table "documents").asTable?
  let entries ← documents.mapM (documentOf read)
  let terms ← shaped (← part table "terms").asTexts?
  let rarities ← shaped ((← part table "idf").asList?.bind fun values => values.mapM numberOf?)
  if terms.length ≠ rarities.length then .error (.lengths terms.length rarities.length)
  .ok ⟨terms, rarities, keyed entries⟩

/-- Whether two numbers are equal or one and the same.  What is no number does not equal itself, but a model that holds
it is still the same model. -/
def sameNumber (a b : Float) : Bool :=
  a == b || a.toBits == b.toBits

/-- Whether two vectors give every index the same weight. -/
def sameVector (a b : Vector Float) : Bool :=
  a.length == b.length && a.all fun (i, w) => match b.lookup i with
    | some x => sameNumber w x
    | none => false

/-- Whether two models are equal; the order of documents and of entries does not matter. -/
def same [DecidableEq D] (a b : Model D Float) : Bool :=
  a.terms == b.terms && List.isEqv a.rarities b.rarities sameNumber && a.vectors.length == b.vectors.length &&
    a.vectors.all fun (document, vector) => match b.vectors.lookup document with
      | some other => sameVector vector other
      | none => false

end Model

end Licensing.Similarity
