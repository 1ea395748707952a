import Licensing.Proofs.Document.Kinds
import Licensing.Proofs.Outcome
import Licensing.Proofs.Similarity.Weighing
import Licensing.Similarity.Stored

/-! # Models that are stored and read back

A stored model has the entries of each vector by increasing index.  So the model that is read has all that was written,
with its vectors in this order (`Model.ofDatum_toDatum_eq`), provided that the names of documents tell them apart.
Equality does not see the order.  Sums of doubles do, but the vectors of a trained model are in this order from the
start.

* `Model.WellFormed` — no document and no index has two entries; this holds of trained models and of all models that
  are read.
* `Model.ofDatum_toDatum` — storing a model loses nothing.
-/

namespace Licensing.Similarity

open Licensing.Document

variable {D R : Type}

/-! ## Keys -/

section Keyed

variable {K V : Type} [DecidableEq K] {key : K} {value : V} {entry : K × V} {entries : List (K × V)}

theorem putEntry_of_not_mem (absent : key ∉ entries.map Prod.fst) :
    putEntry key value entries = entries ++ [(key, value)] := by
  induction entries with
  | nil => rfl
  | cons entry entries ih =>
    have other : entry.1 ≠ key := fun same => absent (same ▸ List.mem_cons_self)
    rw [putEntry, if_neg other, ih fun member => absent (List.mem_cons_of_mem _ member)]
    rfl

theorem keys_putEntry (key : K) (value : V) (entries : List (K × V)) : (putEntry key value entries).map Prod.fst =
    if key ∈ entries.map Prod.fst then entries.map Prod.fst else entries.map Prod.fst ++ [key] := by
  induction entries with
  | nil => rfl
  | cons entry entries ih =>
    by_cases here : entry.1 = key
    · simp [putEntry, here]
    · have other : key ≠ entry.1 := Ne.symm here
      simp only [putEntry, if_neg here, List.map_cons, ih, List.mem_cons, or_iff_right other]
      split <;> rfl

theorem mem_of_mem_putEntry (member : entry ∈ putEntry key value entries) :
    entry = (key, value) ∨ entry ∈ entries := by
  induction entries with
  | nil => simpa [putEntry] using member
  | cons first entries ih =>
    rw [putEntry] at member
    split at member
    · exact (List.mem_cons.mp member).imp_right (List.mem_cons_of_mem _)
    · obtain rfl | later := List.mem_cons.mp member
      · exact .inr List.mem_cons_self
      · exact (ih later).imp_right (List.mem_cons_of_mem _)

theorem keyed_append_singleton (entries : List (K × V)) (entry : K × V) :
    keyed (entries ++ [entry]) = putEntry entry.1 entry.2 (keyed entries) := by
  rw [keyed, List.foldl_append]
  rfl

theorem nodup_keys_keyed (entries : List (K × V)) : ((keyed entries).map Prod.fst).Nodup := by
  induction entries using List.reverseRecOn with
  | nil => exact .nil
  | append_singleton entries entry ih =>
    rw [keyed_append_singleton, keys_putEntry]
    split
    next => exact ih
    next absent => exact List.concat_eq_append ▸ ih.concat absent

theorem mem_of_mem_keyed (member : entry ∈ keyed entries) : entry ∈ entries := by
  induction entries using List.reverseRecOn with
  | nil => exact member
  | append_singleton entries last ih =>
    rw [keyed_append_singleton] at member
    rw [List.mem_append, List.mem_singleton]
    exact (mem_of_mem_putEntry member).symm.imp_left ih

theorem keyed_eq_self (once : (entries.map Prod.fst).Nodup) : keyed entries = entries := by
  induction entries using List.reverseRecOn with
  | nil => rfl
  | append_singleton entries entry ih =>
    rw [List.map_append, List.nodup_append] at once
    obtain ⟨once, -, apart⟩ := once
    rw [keyed_append_singleton, ih once, putEntry_of_not_mem]
    exact fun member => apart _ member _ (by simp) rfl

end Keyed

/-! ## Vectors -/

namespace Vector

variable {v : Vector R}

theorem sorted_perm (v : Vector R) : v.sorted.Perm v :=
  v.mergeSort_perm _

theorem nodup_keys_sorted (once : (v.map Prod.fst).Nodup) : (v.sorted.map Prod.fst).Nodup :=
  (v.sorted_perm.map Prod.fst).nodup_iff.mpr once

theorem lookup_sorted (once : (v.map Prod.fst).Nodup) (i : Nat) : v.sorted.lookup i = v.lookup i :=
  lookup_eq_of_perm v.sorted_perm (nodup_keys_sorted once) i

theorem sorted_eq_self (increasing : (v.map Prod.fst).Pairwise (· < ·)) : v.sorted = v :=
  List.mergeSort_of_pairwise ((List.pairwise_map.mp increasing).imp fun below => decide_eq_true below.le)

theorem increasing_unit [Scalar R] (increasing : (v.map Prod.fst).Pairwise (· < ·)) :
    (v.unit.map Prod.fst).Pairwise (· < ·) := by
  by_cases nonempty : v.unit = []
  · rw [nonempty]
    exact .nil
  · rw [keys_unit nonempty]
    exact increasing

end Vector

namespace Model

/-- Each term has a weight, each document one vector, and each index at most one weight in a vector. -/
structure WellFormed (model : Model D R) : Prop where
  lengths : model.terms.length = model.rarities.length
  documents : (model.vectors.map Prod.fst).Nodup
  indices : ∀ entry ∈ model.vectors, (entry.2.map Prod.fst).Nodup

/-- The model with its vectors by increasing index. -/
def sorted (model : Model D R) : Model D R :=
  { model with vectors := model.vectors.map fun entry => (entry.1, entry.2.sorted) }

@[simp] theorem keys_sorted (model : Model D R) : model.sorted.vectors.map Prod.fst = model.vectors.map Prod.fst := by
  simp [sorted, List.map_map, Function.comp_def]

theorem lookup_sorted [DecidableEq D] (model : Model D R) (document : D) :
    model.sorted.vectors.lookup document = (model.vectors.lookup document).map Vector.sorted := by
  simp only [sorted]
  induction model.vectors with
  | nil => rfl
  | cons entry vectors ih =>
    rw [List.map_cons, lookup_cons_eq_if, ih, ← Prod.eta entry, lookup_cons_eq_if]
    split <;> rfl

/-! ## Reading -/

theorem vectorOf?_pairs {v : Vector Float} (once : (v.map Prod.fst).Nodup) :
    vectorOf? (.list (v.map pair)) = some v := by
  have pairs : (v.map pair).mapM pairOf? = some v := by
    have each : pairOf? ∘ pair = some := by
      funext entry
      simp [pairOf?, pair, Datum.asList?, indexOf, numberOf?]
    rw [List.mapM_map, each]
    exact List.mapM_pure.trans (by simp)
  simp [vectorOf?, Datum.asList?, pairs, keyed_eq_self once]

theorem nodup_keys_vectorOf? {value : Datum} {v : Vector Float} (read : vectorOf? value = some v) :
    (v.map Prod.fst).Nodup := by
  simp only [vectorOf?, Option.bind_eq_bind, Option.bind_eq_some_iff, Option.pure_def, Option.some_inj] at read
  obtain ⟨pairs, -, entries, -, rfl⟩ := read
  exact nodup_keys_keyed entries

theorem mapM_numberOf? (numbers : List Float) : (numbers.map Datum.float).mapM numberOf? = some numbers := by
  rw [List.mapM_map]
  exact List.mapM_pure.trans (by simp)

theorem shaped_eq_ok {α : Type} {found : Option α} {a : α} : shaped found = .ok a ↔ found = some a := by
  cases found <;> simp [shaped]

theorem documentOf_eq_ok {read : String → D} {entry : String × Datum} {document : D × Vector Float} :
    documentOf read entry = .ok document ↔
      document.1 = read entry.1 ∧ vectorOf? entry.2 = some document.2 := by
  simp only [documentOf, bind, Outcome.bind_eq_ok, shaped_eq_ok, Except.ok.injEq]
  constructor
  · rintro ⟨vector, found, rfl⟩
    exact ⟨rfl, found⟩
  · rintro ⟨named, found⟩
    exact ⟨_, found, by rw [← named]⟩

/-- Whatever is read, no document and no index has two entries. -/
theorem wellFormed_of_ofDatum [DecidableEq D] {read : String → D} {value : Datum} {model : Model D Float}
    (found : ofDatum read value = .ok model) : model.WellFormed := by
  simp only [ofDatum, bind, Outcome.bind_eq_ok, shaped_eq_ok] at found
  obtain ⟨table, -, found⟩ := found
  split at found
  next => cases found
  next =>
    simp only [Outcome.bind_eq_ok, shaped_eq_ok] at found
    obtain ⟨_, -, documents, -, entries, ran, _, -, terms, -, _, -, rarities, -, built⟩ := found
    split at built
    next => cases built
    next same =>
      cases built
      refine ⟨not_not.mp same, nodup_keys_keyed entries, fun entry member => ?_⟩
      obtain ⟨source, -, read⟩ := Outcome.exists_of_mem_mapM ran (mem_of_mem_keyed member)
      exact nodup_keys_vectorOf? (documentOf_eq_ok.mp read).2

section RoundTrip

variable {write : D → String} {read : String → D} {model : Model D Float}

theorem mapM_documentOf (inverse : ∀ document, read (write document) = document) (formed : model.WellFormed) :
    (keyed (model.vectors.map fun (document, vector) => (write document, Datum.list (vector.sorted.map pair)))).mapM
      (documentOf read) = .ok model.sorted.vectors := by
  have apart : Function.Injective write := Function.LeftInverse.injective inverse
  have once : ((model.vectors.map fun (document, vector) =>
      (write document, Datum.list (vector.sorted.map pair))).map Prod.fst).Nodup := by
    have names := formed.documents.map apart
    rw [List.map_map] at names ⊢
    exact names
  rw [keyed_eq_self once, List.mapM_map]
  refine Outcome.mapM_eq_map fun entry member => ?_
  exact documentOf_eq_ok.mpr ⟨(inverse entry.1).symm,
    vectorOf?_pairs (Vector.nodup_keys_sorted (formed.indices entry member))⟩

theorem ofDatum_toDatum_eq [DecidableEq D] (inverse : ∀ document, read (write document) = document)
    (formed : model.WellFormed) : ofDatum read (toDatum write model) = .ok model.sorted := by
  have texts := Datum.asTexts?_eq_some_iff.mpr (rfl : model.terms.map Datum.text = _)
  have once : (model.sorted.vectors.map Prod.fst).Nodup := model.keys_sorted ▸ formed.documents
  simp [ofDatum, toDatum, shaped, Datum.asTable?, Datum.asList?, part, Table.get?, isFormat, texts, mapM_numberOf?,
    mapM_documentOf inverse formed, keyed_eq_self once, formed.lengths, bind, Except.bind, -List.mapM_map]
  rfl

end RoundTrip

/-! ## Equality -/

theorem sameNumber_self (x : Float) : sameNumber x x = true := by
  simp [sameNumber]

theorem isEqv_sameNumber_self (numbers : List Float) : numbers.isEqv numbers sameNumber = true := by
  induction numbers with
  | nil => rfl
  | cons x numbers ih => simp [List.isEqv, sameNumber_self, ih]

theorem sameVector_of_perm {a b : Vector Float} (perm : a.Perm b) (once : (b.map Prod.fst).Nodup) :
    sameVector a b = true := by
  rw [sameVector, Bool.and_eq_true, List.all_eq_true]
  refine ⟨by simp [perm.length_eq], fun entry member => ?_⟩
  have found := (mem_iff_lookup once).mp (perm.mem_iff.mp member)
  simp [found, sameNumber_self]

theorem sorted_same [DecidableEq D] {model : Model D Float} (formed : model.WellFormed) :
    model.sorted.same model = true := by
  simp only [same, Bool.and_eq_true, List.all_eq_true]
  refine ⟨⟨⟨by simp [sorted], isEqv_sameNumber_self _⟩, by simp [sorted]⟩, fun _ member => ?_⟩
  obtain ⟨entry, listed, rfl⟩ := List.mem_map.mp member
  have found := (mem_iff_lookup formed.documents).mp listed
  simp [found, sameVector_of_perm entry.2.sorted_perm (formed.indices entry listed)]

/-! ## Trained models -/

section Train

variable [Scalar R] {corpus : Corpus D}

theorem increasing_train {entry : D × Vector R} (member : entry ∈ (train R corpus).vectors) :
    (entry.2.map Prod.fst).Pairwise (· < ·) := by
  obtain ⟨⟨document, counts⟩, -, rfl⟩ := List.mem_map.mp member
  exact Vector.increasing_unit (sorted_weights _ _ counts)

theorem wellFormed_train [DecidableEq D] {text? : D → Option String} (faithful : corpus.Faithful text?) :
    (train R corpus).WellFormed where
  lengths := by simp [train]
  documents := nodup_keys_vectors_train faithful
  indices _ member := (increasing_train member).imp ne_of_lt

theorem sorted_train (corpus : Corpus D) : (train R corpus).sorted = train R corpus := by
  have vectors : (train R corpus).sorted.vectors = (train R corpus).vectors := by
    refine (List.map_congr_left fun entry member => ?_).trans (List.map_id _)
    rw [Vector.sorted_eq_self (increasing_train member)]
    rfl
  exact congrArg (Model.mk _ _) vectors

end Train

/-- A model that is stored and read again is the same model: it has the same terms and weights, and the same documents
with the same vectors.  This holds of all models that are trained or read, and of any other well-formed one.  A
trained model comes back with the entries of its vectors in their order, so that its scores are the same sums and its
rankings the same for all texts. -/
theorem ofDatum_toDatum [DecidableEq D] [ToString D] (write : D → String) (read : String → D)
    (inverse : ∀ document, read (write document) = document) :
    (∀ value (model : Model D Float), ofDatum read value = .ok model → model.WellFormed) ∧
    (∀ model : Model D Float, model.WellFormed → ∃ restored, ofDatum read (toDatum write model) = .ok restored ∧
      restored.same model = true ∧ restored.terms = model.terms ∧ restored.rarities = model.rarities ∧
      restored.vectors.map Prod.fst = model.vectors.map Prod.fst ∧
      ∀ document vector, model.vectors.lookup document = some vector →
        ∃ other, restored.vectors.lookup document = some other ∧ other.Perm vector ∧
          ∀ i, other.lookup i = vector.lookup i) ∧
    ∀ history : List (D × String), ∃ builder : Builder D, Builder.empty.addAll history = .ok builder ∧
      let model := train Float builder.corpus
      model.WellFormed ∧ ∃ restored, ofDatum read (toDatum write model) = .ok restored ∧ restored = model ∧
        ∀ text, restored.scores text = model.scores text ∧ restored.rank text = model.rank text := by
  refine ⟨fun _ _ => wellFormed_of_ofDatum, ?_, ?_⟩
  · intro model formed
    refine ⟨_, ofDatum_toDatum_eq inverse formed, sorted_same formed, rfl, rfl, model.keys_sorted,
      fun document vector found => ⟨vector.sorted, ?_, vector.sorted_perm, Vector.lookup_sorted ?_⟩⟩
    · rw [lookup_sorted, found, Option.map_some]
    · exact formed.indices _ ((mem_iff_lookup formed.documents).mpr found)
  · intro history
    have formed := wellFormed_train (R := Float) (Corpus.faithful_ofTexts history)
    refine ⟨_, Builder.addAll_empty history, formed, _, ofDatum_toDatum_eq inverse formed, sorted_train _,
      fun text => ?_⟩
    rw [sorted_train]
    exact ⟨rfl, rfl⟩

/-- The entries of a vector are written in another order than they stand. -/
theorem ofDatum_toDatum_unordered :
    let model : Model String Float := ⟨["granted", "permission"], [0.5, 1.5], [("MIT", [(1, 0.8), (0, 0.6)])]⟩
    ∃ restored, ofDatum id (toDatum id model) = .ok restored ∧ restored.same model = true ∧
      (restored.vectors.lookup "MIT").map List.length = some 2 := by
  intro model
  have formed : model.WellFormed := ⟨rfl, by decide, by simp [model]⟩
  obtain ⟨restored, read, same, -, -, -, found⟩ := (ofDatum_toDatum id id fun _ => rfl).2.1 model formed
  obtain ⟨other, held, perm, -⟩ := found "MIT" [(1, 0.8), (0, 0.6)] rfl
  exact ⟨restored, read, same, by rw [held, Option.map_some, perm.length_eq]; rfl⟩

end Model

end Licensing.Similarity
