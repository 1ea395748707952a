import Licensing.Proofs.Similarity.Corpus
import Licensing.Proofs.Similarity.Numbers
import Licensing.Proofs.Sorting
import Licensing.Similarity.Ranking

/-! # What a model depends on

A model depends on the last text of each document only, and not on the texts that it replaced nor on the order
in which documents were added: the kept terms of all documents are sorted, so neither the vocabulary nor the
weights depend on an order.  Rankings do not either, since equal scores are ordered by the names of documents.

* `Model.Agrees` — models with the same terms and weights, and the same vector for each document.
* `Model.train_agrees` — corpora that hold the same texts have such models.
* `Model.rank_eq_of_agrees` — such models rank alike.
-/

namespace Licensing.Similarity

variable {D R : Type} [Scalar R]

/-! ## Sorting -/

/-- A sort does not depend on the order before if it leaves no choice. -/
theorem mergeSort_eq_of_perm {α : Type} {le : α → α → Bool} {xs ys : List α} (perm : xs.Perm ys)
    (trans : ∀ a ∈ xs, ∀ b ∈ xs, ∀ c ∈ xs, le a b = true → le b c = true → le a c = true)
    (total : ∀ a ∈ xs, ∀ b ∈ xs, (le a b || le b a) = true)
    (antisymm : ∀ a ∈ xs, ∀ b ∈ xs, le a b = true → le b a = true → a = b) :
    xs.mergeSort le = ys.mergeSort le := by
  have left := List.mergeSort_perm xs le
  have right : (ys.mergeSort le).Pairwise fun a b => le a b = true := by
    simp only [perm.mem_iff] at trans total
    exact pairwise_mergeSort trans total
  refine List.Perm.eq_of_pairwise (fun a b inLeft inRight => ?_) (pairwise_mergeSort trans total) right
    ((left.trans perm).trans (List.mergeSort_perm ys le).symm)
  exact antisymm a (List.mem_mergeSort.mp inLeft) b (perm.mem_iff.mpr (List.mem_mergeSort.mp inRight))

/-! ## Kept terms -/

theorem mem_of_mem_withoutRepeats {term : String} {terms : List String}
    (member : term ∈ withoutRepeats terms) : term ∈ terms := by
  fun_induction withoutRepeats terms with
  | case1 second rest ih => exact .tail _ (ih member)
  | case2 first second rest other ih =>
    cases List.mem_cons.mp member with
    | inl here => exact here ▸ List.mem_cons_self
    | inr behind => exact .tail _ (ih behind)
  | case3 => exact member

theorem mem_withoutRepeats {term : String} {terms : List String} : term ∈ withoutRepeats terms ↔ term ∈ terms := by
  refine ⟨mem_of_mem_withoutRepeats, fun member => ?_⟩
  fun_induction withoutRepeats terms with
  | case1 second rest ih =>
    obtain rfl | behind := List.mem_cons.mp member
    · exact ih List.mem_cons_self
    · exact ih behind
  | case2 first second rest other ih =>
    obtain rfl | behind := List.mem_cons.mp member
    · exact List.mem_cons_self
    · exact .tail _ (ih behind)
  | case3 => exact member

theorem mem_of_mem_keepFrom {term : String} {kept : List Nat} {terms : List String}
    (member : term ∈ keepFrom kept terms) : term ∈ terms := by
  fun_induction keepFrom kept terms with
  | case1 => cases member
  | case2 => cases member
  | case3 kept first rest _ _ ih => exact .tail _ (ih member)
  | case4 kept first rest _ _ ih =>
    cases List.mem_cons.mp member with
    | inl here => exact here ▸ List.mem_cons_self
    | inr behind => exact .tail _ (ih behind)

/-- A document adds only terms of its own. -/
theorem exists_mem_of_mem_keep {rarity : String → R} {counts : Tally} {term : String}
    (member : term ∈ keep rarity counts) : ∃ n, (term, n) ∈ counts := by
  obtain ⟨⟨_, n⟩, counted, rfl⟩ := List.mem_map.mp (mem_of_mem_keepFrom member)
  exact ⟨n, List.mem_mergeSort.mp counted⟩

/-! ## Models of corpora that hold the same texts -/

namespace Corpus

variable {corpus corpus' : Corpus D} {text? : D → Option String}

theorem vocabulary_eq (perm : corpus.documents.Perm corpus'.documents) (rarity : String → R) :
    corpus.vocabulary rarity = corpus'.vocabulary rarity := by
  unfold vocabulary
  have kept := perm.flatMap_right fun entry : D × Tally => keep rarity entry.2
  refine congrArg withoutRepeats (mergeSort_eq_of_perm kept ?_ ?_ ?_)
  · intro a _ b _ c _ first second
    simp only [decide_eq_true_eq] at first second ⊢
    exact String.le_trans first second
  · intro a _ b _
    simpa using String.le_total a b
  · intro a _ b _ first second
    simp only [decide_eq_true_eq] at first second
    exact String.le_antisymm first second

variable [DecidableEq D]

theorem Faithful.rarity_eq (faithful : corpus.Faithful text?) (faithful' : corpus'.Faithful text?) :
    (corpus.rarity : String → R) = corpus'.rarity := by
  funext term
  rw [rarity, rarity, (faithful.documents_perm faithful').length_eq, faithful.frequency_eq faithful']

/-- The terms of the vocabulary occur somewhere. -/
theorem Faithful.frequency_pos_of_mem_vocabulary (faithful : corpus.Faithful text?) {rarity : String → R}
    {term : String} (member : term ∈ corpus.vocabulary rarity) : 0 < corpus.frequency term := by
  have kept := List.mem_mergeSort.mp (mem_of_mem_withoutRepeats member)
  obtain ⟨⟨d, counts⟩, held, inside⟩ := List.mem_flatMap.mp kept
  obtain ⟨n, counted⟩ := exists_mem_of_mem_keep inside
  exact faithful.frequency_pos held counted

end Corpus

namespace Model

/-- The models have the same terms with the same weights, and the same documents with the same vectors. -/
structure Agrees [DecidableEq D] (model other : Model D R) : Prop where
  terms : model.terms = other.terms
  rarities : model.rarities = other.rarities
  vectors : model.vectors.Perm other.vectors
  vector : ∀ document, model.vectors.lookup document = other.vectors.lookup document
  nodup : (model.vectors.map Prod.fst).Nodup

section Train

variable {corpus corpus' : Corpus D} {text? : D → Option String}

theorem keys_vectors_train (corpus : Corpus D) :
    (train R corpus).vectors.map Prod.fst = corpus.documents.map Prod.fst := by
  simp [train, List.map_map, Function.comp_def]

theorem nodup_keys_vectors_train [DecidableEq D] (faithful : corpus.Faithful text?) :
    ((train R corpus).vectors.map Prod.fst).Nodup := by
  rw [keys_vectors_train]
  exact faithful.nodup

theorem train_agrees [DecidableEq D] (faithful : corpus.Faithful text?) (faithful' : corpus'.Faithful text?) :
    (train R corpus).Agrees (train R corpus') := by
  have documents := faithful.documents_perm faithful'
  have rarity : (corpus.rarity : String → R) = corpus'.rarity := faithful.rarity_eq faithful'
  have vocabulary : corpus.vocabulary (corpus'.rarity : String → R) = corpus'.vocabulary corpus'.rarity :=
    Corpus.vocabulary_eq documents _
  have vectors : (train R corpus).vectors.Perm (train R corpus').vectors := by
    simp only [train, rarity, vocabulary]
    exact documents.map _
  have nodup := nodup_keys_vectors_train (R := R) faithful
  refine ⟨?_, ?_, vectors, lookup_eq_of_perm vectors nodup, nodup⟩
  · simp only [train, rarity, vocabulary]
  · simp only [train, rarity, vocabulary]

end Train

end Model

/-! ## Rankings -/

section Ranking

variable [ToString D] {scores : List (D × R)} {a b c : D × R}

theorem notBehind_iff : notBehind a b = true ↔
    Scalar.lt b.2 a.2 = true ∨ Scalar.lt a.2 b.2 = false ∧ toString a.1 ≤ toString b.1 := by
  simp [notBehind]

theorem notBehind_total (a b : D × R) : (notBehind a b || notBehind b a) = true := by
  rw [Bool.or_eq_true, notBehind_iff, notBehind_iff]
  cases below : Scalar.lt a.2 b.2 with
  | true => exact .inr (.inl rfl)
  | false =>
    cases above : Scalar.lt b.2 a.2 with
    | true => exact .inl (.inl rfl)
    | false => simpa using String.le_total (toString a.1) (toString b.1)

variable (ordered : Ordered (scores.map Prod.snd))

include ordered

theorem Ordered.lt_eq_false_of_notBehind (inA : a ∈ scores) (inB : b ∈ scores)
    (before : notBehind a b = true) : Scalar.lt a.2 b.2 = false := by
  obtain above | ⟨level, -⟩ := notBehind_iff.mp before
  · exact ordered.asymm _ (List.mem_map_of_mem inB) _ (List.mem_map_of_mem inA) above
  · exact level

theorem Ordered.notBehind_trans (inA : a ∈ scores) (inB : b ∈ scores) (inC : c ∈ scores)
    (first : notBehind a b = true) (second : notBehind b c = true) : notBehind a c = true := by
  have trans {x y z : D × R} (inX : x ∈ scores) (inY : y ∈ scores) (inZ : z ∈ scores) :=
    ordered.trans x.2 (List.mem_map_of_mem inX) y.2 (List.mem_map_of_mem inY) z.2 (List.mem_map_of_mem inZ)
  have ab := ordered.lt_eq_false_of_notBehind inA inB first
  have bc := ordered.lt_eq_false_of_notBehind inB inC second
  rw [notBehind_iff, or_iff_not_imp_left, Bool.not_eq_true]
  intro ca
  -- All three scores are level, so the names have decided both times.
  have ba := trans inB inC inA bc ca
  have cb := trans inC inA inB ca ab
  simp only [notBehind_iff, ba, cb, Bool.false_eq_true, false_or] at first second
  exact ⟨trans inA inB inC ab bc, String.le_trans first.2 second.2⟩

/-- Two documents that are not ranked behind each other have the same name. -/
theorem Ordered.toString_eq_of_notBehind (inA : a ∈ scores) (inB : b ∈ scores)
    (before : notBehind a b = true) (behind : notBehind b a = true) : toString a.1 = toString b.1 := by
  have ab := ordered.lt_eq_false_of_notBehind inA inB before
  have ba := ordered.lt_eq_false_of_notBehind inB inA behind
  simp only [notBehind_iff, ab, ba, Bool.false_eq_true, false_or] at before behind
  exact String.le_antisymm before.2 behind.2

end Ranking

namespace Model

variable {model other : Model D R}

theorem query_eq (terms : model.terms = other.terms) (rarities : model.rarities = other.rarities)
    (text : String) : model.query text = other.query text := by
  have index : model.indexOf? = other.indexOf? := by
    funext term
    rw [indexOf?, indexOf?, terms]
  rw [query, query, index, rarities]

theorem keys_scores (model : Model D R) (text : String) :
    (model.scores text).map Prod.fst = model.vectors.map Prod.fst := by
  simp [scores, List.map_map, Function.comp_def]

/-- Models that agree rank alike, if documents differ in their names and the scores are ordered. -/
theorem rank_eq_of_agrees [DecidableEq D] [ToString D] (agrees : model.Agrees other)
    (named : Function.Injective (toString : D → String)) {text : String}
    (ordered : Ordered ((model.scores text).map Prod.snd)) : model.rank text = other.rank text := by
  have perm : (model.scores text).Perm (other.scores text) := by
    rw [scores, scores, query_eq agrees.terms agrees.rarities]
    exact agrees.vectors.map _
  have nodup : ((model.scores text).map Prod.fst).Nodup := by
    rw [keys_scores]
    exact agrees.nodup
  refine mergeSort_eq_of_perm perm ?_ (fun a _ b _ => notBehind_total a b) ?_
  · exact fun a inA b inB c inC => ordered.notBehind_trans inA inB inC
  · intro a inA b inB before behind
    have same := named (ordered.toString_eq_of_notBehind inA inB before behind)
    exact List.inj_on_of_nodup_map nodup inA inB same

end Model

/-! ## Builders -/

/-- A builder learns the last texts only: a fresh builder that is given each document's last text once, in any
order, comes to the same model, and to the same rankings wherever scores can be sorted.  On the way the index
lists exactly the documents whose text a term occurs in, and every frequency that is divided by is positive. -/
theorem Builder.train_of_last_texts (R : Type) [Scalar R] [DecidableEq D] [ToString D]
    (history fresh : List (D × String)) (once : (fresh.map Prod.fst).Nodup)
    (last : ∀ document text, (document, text) ∈ fresh ↔ Corpus.lastText? history document = some text) :
    ∃ builder other : Builder D,
      Builder.empty.addAll history = .ok builder ∧ Builder.empty.addAll fresh = .ok other ∧
      (Model.train R builder.corpus).Agrees (Model.train R other.corpus) ∧
      (Function.Injective (toString : D → String) → ∀ text,
        Ordered (((Model.train R builder.corpus).scores text).map Prod.snd) →
          (Model.train R builder.corpus).rank text = (Model.train R other.corpus).rank text) ∧
      ∀ seen, seen <+: history → ∃ midway : Builder D, Builder.empty.addAll seen = .ok midway ∧
        midway.corpus.Faithful (Corpus.lastText? seen) ∧
        (∀ term, term ∈ midway.corpus.postings ↔
          ∃ document, Corpus.Occurs (Corpus.lastText? seen) term document) ∧
        (∀ term ∈ midway.corpus.postings, 0 < midway.corpus.frequency term) ∧
        (∀ document counts term n, (document, counts) ∈ midway.corpus.documents → (term, n) ∈ counts →
          term ∈ midway.corpus.postings) ∧
        ∀ term ∈ (Model.train R midway.corpus).terms, term ∈ midway.corpus.postings := by
  have faithful := Corpus.faithful_ofTexts history
  have same : Corpus.lastText? fresh = Corpus.lastText? history :=
    funext fun document => Option.ext fun text => (Corpus.lastText?_eq_some once).trans (last document text)
  have agrees : (Model.train R (Corpus.ofTexts history)).Agrees (Model.train R (Corpus.ofTexts fresh)) :=
    Model.train_agrees faithful (same ▸ Corpus.faithful_ofTexts fresh)
  refine ⟨_, _, addAll_empty history, addAll_empty fresh, agrees, fun named text ordered =>
    Model.rank_eq_of_agrees agrees named ordered, fun seen _ => ⟨_, addAll_empty seen, ?_⟩⟩
  have faithful := Corpus.faithful_ofTexts seen
  refine ⟨faithful, fun term => faithful.postings.mem_postings_iff,
    fun term => faithful.mem_postings_iff.mp, fun document counts term n held counted => ?_,
    fun term member => ?_⟩
  · exact faithful.mem_postings_iff.mpr (faithful.frequency_pos held counted)
  · exact faithful.mem_postings_iff.mpr (faithful.frequency_pos_of_mem_vocabulary member)

/-- A document is given a new text after another one was added; the fresh builder is given both texts in the
other order. -/
theorem Builder.train_of_last_texts_replaced :
    let history := [("MIT", "permission is granted"), ("ISC", "permission to use"), ("MIT", "the MIT license")]
    let fresh := [("ISC", "permission to use"), ("MIT", "the MIT license")]
    ∃ builder other : Builder String,
      Builder.empty.addAll history = .ok builder ∧ Builder.empty.addAll fresh = .ok other ∧
      (Model.train ℝ builder.corpus).Agrees (Model.train ℝ other.corpus) ∧
      ∀ text, (Model.train ℝ builder.corpus).rank text = (Model.train ℝ other.corpus).rank text := by
  intro history fresh
  have last (document text : String) :
      (document, text) ∈ fresh ↔ Corpus.lastText? history document = some text := by
    by_cases mit : document = "MIT"
    · subst mit
      simp [fresh, history, Corpus.lastText?, eq_comm]
    · by_cases isc : document = "ISC"
      · subst isc
        simp [fresh, history, Corpus.lastText?, List.lookup_cons, eq_comm]
      · simp [fresh, history, Corpus.lastText?, lookup_cons_eq_if, mit, isc]
  obtain ⟨builder, other, built, built', agrees, ranks, -⟩ :=
    Builder.train_of_last_texts ℝ history fresh (by decide) last
  exact ⟨builder, other, built, built', agrees, fun text =>
    ranks (fun _ _ same => same) text (ordered_real _)⟩

end Licensing.Similarity
