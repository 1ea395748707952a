import Licensing.Proofs.Similarity.Weighing

/-! # Scores over the real numbers

The vector of a document is empty or of length one, and so is the vector that a text is looked up with, which has the
same weights as that of a document with this text (`Model.weight_query_train`).  All scores are products of such
vectors, so they lie between zero and one; and a product is one for equal vectors only, so that the text of a document
leads to that document, or to one with the same vector.

* `Model.exists_rank` — a ranking starts with a highest score.
* `Builder.scores_bounded`, `Builder.rank_own_text` — the scores of a text in the model of a builder.
-/

namespace Licensing.Similarity

variable {D : Type}

/-! ## Rankings -/

/-- A ranking starts with a highest score. -/
theorem Model.exists_rank [ToString D] (model : Model D ℝ) (text : String) {found : D × ℝ}
    (scored : found ∈ model.scores text) : ∃ first rest, model.rank text = first :: rest ∧
      first ∈ model.scores text ∧ ∀ other ∈ model.scores text, other.2 ≤ first.2 := by
  have sorted : (model.rank text).Pairwise fun a b => notBehind a b = true := by
    refine List.pairwise_mergeSort (fun a b c => ?_) notBehind_total _
    exact (ordered_real ([a, b, c].map Prod.snd)).notBehind_trans (by simp) (by simp) (by simp)
  have ranked (entry : D × ℝ) : entry ∈ model.rank text ↔ entry ∈ model.scores text := List.mem_mergeSort
  cases order : model.rank text with
  | nil =>
    have member := (ranked found).mpr scored
    rw [order] at member
    cases member
  | cons first rest =>
    rw [order] at sorted ranked
    refine ⟨first, rest, rfl, (ranked first).mp List.mem_cons_self, fun other member => ?_⟩
    obtain rfl | behind := List.mem_cons.mp ((ranked other).mpr member)
    · exact le_rfl
    · have before := (List.pairwise_cons.mp sorted).1 other behind
      have notBelow := (ordered_real ([first, other].map Prod.snd)).lt_eq_false_of_notBehind
        (by simp) (by simp) before
      rw [← Bool.not_eq_true, lt_real_iff, not_lt] at notBelow
      exact notBelow

theorem Model.mem_scores_iff {model : Model D ℝ} {text : String} {document : D} {score : ℝ} :
    (document, score) ∈ model.scores text ↔
      ∃ vector, (document, vector) ∈ model.vectors ∧ score = (model.query text).dot vector := by
  simp only [scores, List.mem_map, Prod.exists, Prod.mk.injEq]
  constructor
  · rintro ⟨d, vector, member, rfl, rfl⟩
    exact ⟨vector, member, rfl⟩
  · rintro ⟨vector, member, rfl⟩
    exact ⟨document, vector, member, rfl, rfl⟩

/-! ## Models of corpora -/

theorem Model.rarities_train (corpus : Corpus D) (i : Nat) :
    (train ℝ corpus).rarities[i]? = (train ℝ corpus).terms[i]?.map corpus.rarity :=
  List.getElem?_map

/-- A text weighs the same when it is looked up as when it is that of a document. -/
theorem Model.weight_counted_train (corpus : Corpus D) (text : String) (i : Nat) :
    ((train ℝ corpus).counted text).weight i = (corpus.weighed text).weight i :=
  weight_counted (corpus.nodup_vocabulary _) rfl text i

theorem Model.weight_query_train (corpus : Corpus D) (text : String) (i : Nat) :
    ((train ℝ corpus).query text).weight i = (corpus.weighed text).unit.weight i := by
  have length := Vector.norm_congr ((train ℝ corpus).nodup_keys_counted text) (corpus.nodup_keys_weighed text)
    (weight_counted_train corpus text)
  rw [query_eq_unit, Vector.weight_unit, Vector.weight_unit, weight_counted_train, length]

theorem Model.query_train_eq_nil_iff {corpus : Corpus D} {text : String} :
    (train ℝ corpus).query text = [] ↔ (corpus.weighed text).unit = [] := by
  rw [query_eq_unit, Vector.unit_eq_nil_iff (nodup_keys_counted _ text),
    Vector.unit_eq_nil_iff (corpus.nodup_keys_weighed text)]
  simp only [weight_counted_train]

section Train

variable [DecidableEq D] {corpus : Corpus D} {text? : D → Option String} {document document' : D} {vector : Vector ℝ}
  {text text' : String}

theorem Model.mem_vectors_train_iff (faithful : corpus.Faithful text?) :
    (document, vector) ∈ (train ℝ corpus).vectors ↔
      ∃ text, text? document = some text ∧ vector = (corpus.weighed text).unit := by
  simp only [train, List.mem_map, Prod.exists, Prod.mk.injEq, faithful.mem_documents_iff]
  constructor
  · rintro ⟨d, counts, ⟨text, found, rfl⟩, rfl, rfl⟩
    exact ⟨text, found, rfl⟩
  · rintro ⟨text, found, rfl⟩
    exact ⟨document, _, ⟨text, found, rfl⟩, rfl, rfl⟩

theorem Model.nodup_keys_scores_train (faithful : corpus.Faithful text?) (text : String) :
    (((train ℝ corpus).scores text).map Prod.fst).Nodup := by
  rw [keys_scores]
  exact nodup_keys_vectors_train faithful

theorem Corpus.Faithful.normal_weighed (faithful : corpus.Faithful text?) (nonempty : (corpus.weighed text).unit ≠ []) :
    (corpus.weighed text).unit.Normal := by
  have once := corpus.nodup_keys_weighed text
  exact Vector.normal_unit once (Vector.nonneg_of_weight once (faithful.weight_weighed_nonneg text)) nonempty

theorem Model.normal_query_train (faithful : corpus.Faithful text?) (nonempty : (train ℝ corpus).query text ≠ []) :
    ((train ℝ corpus).query text).Normal := by
  have once := (train ℝ corpus).nodup_keys_counted text
  have nonneg (i : Nat) : 0 ≤ ((train ℝ corpus).counted text).weight i := by
    rw [weight_counted_train]
    exact faithful.weight_weighed_nonneg text i
  exact Vector.normal_unit once (Vector.nonneg_of_weight once nonneg) nonempty

theorem Model.normal_of_mem_vectors_train (faithful : corpus.Faithful text?)
    (member : (document, vector) ∈ (train ℝ corpus).vectors) : vector = [] ∨ vector.Normal := by
  obtain ⟨text, -, rfl⟩ := (mem_vectors_train_iff faithful).mp member
  exact or_iff_not_imp_left.mpr faithful.normal_weighed

theorem Model.score_bounds (faithful : corpus.Faithful text?) {score : ℝ}
    (scored : (document, score) ∈ (train ℝ corpus).scores text) : 0 ≤ score ∧ score ≤ 1 := by
  obtain ⟨vector, member, rfl⟩ := mem_scores_iff.mp scored
  by_cases unknown : (train ℝ corpus).query text = []
  · rw [unknown, Vector.nil_dot]
    exact ⟨le_rfl, zero_le_one⟩
  · have query := normal_query_train faithful unknown
    obtain rfl | normal := normal_of_mem_vectors_train faithful member
    · rw [Vector.dot_nil]
      exact ⟨le_rfl, zero_le_one⟩
    · exact ⟨Vector.dot_nonneg query.nonneg normal.nonneg, query.dot_le_one normal⟩

/-- A text scores nothing if none of its terms has a positive weight in the vocabulary. -/
theorem Model.score_eq_zero (faithful : corpus.Faithful text?) {score : ℝ}
    (common : ∀ term ∈ Terms.ofText text, ∀ (i : Nat) (w : ℝ),
      (train ℝ corpus).terms[i]? = some term → (train ℝ corpus).rarities[i]? = some w → ¬ 0 < w)
    (scored : (document, score) ∈ (train ℝ corpus).scores text) : score = 0 := by
  obtain ⟨vector, member, rfl⟩ := mem_scores_iff.mp scored
  have unknown : (train ℝ corpus).query text = [] := by
    rw [query_train_eq_nil_iff, faithful.unit_weighed_eq_nil_iff]
    intro term occurs listed
    obtain ⟨i, found⟩ := List.mem_iff_getElem?.mp listed
    exact common term occurs i _ found ((rarities_train corpus i).trans (congrArg (Option.map _) found))
  rw [unknown, Vector.nil_dot]

/-- A text scores one for its own vector. -/
theorem Model.query_train_dot (faithful : corpus.Faithful text?) (nonempty : (corpus.weighed text).unit ≠ []) :
    ((train ℝ corpus).query text).dot (corpus.weighed text).unit = 1 := by
  have normal := faithful.normal_weighed nonempty
  have query := normal_query_train faithful (mt query_train_eq_nil_iff.mp nonempty)
  rw [Vector.dot_congr query.once normal.once normal.once (weight_query_train corpus text), normal.dot_self]

/-- Only a document with the vector of a document scores one for its text. -/
theorem Model.weighed_eq_of_query_train_dot (faithful : corpus.Faithful text?) (found : text? document = some text)
    (found' : text? document' = some text') (nonempty : (corpus.weighed text).unit ≠ [])
    (one : ((train ℝ corpus).query text).dot (corpus.weighed text').unit = 1) :
    (corpus.weighed text').unit = (corpus.weighed text).unit := by
  have nonempty' : (corpus.weighed text').unit ≠ [] := by
    intro none
    rw [none, Vector.dot_nil] at one
    exact zero_ne_one one
  have query := normal_query_train faithful (mt query_train_eq_nil_iff.mp nonempty)
  have same (i : Nat) : (corpus.weighed text').unit.weight i = (corpus.weighed text).unit.weight i := by
    rw [← weight_query_train corpus text, query.weight_eq_of_dot (faithful.normal_weighed nonempty') one]
  exact faithful.unit_weighed_eq found' found nonempty' nonempty same

end Train

/-! ## Builders -/

variable [DecidableEq D]

/-- Whatever texts a builder was given: the vectors of its model are empty, or of length one without negative
weights; all scores lie between zero and one; and they are zero for a text none of whose terms has a positive
weight in the vocabulary. -/
theorem Builder.scores_bounded (history : List (D × String)) :
    ∃ builder : Builder D, Builder.empty.addAll history = .ok builder ∧
      let model := Model.train ℝ builder.corpus
      (∀ document vector, (document, vector) ∈ model.vectors → vector = [] ∨ vector.Normal) ∧
      ∀ text, (∀ document score, (document, score) ∈ model.scores text → 0 ≤ score ∧ score ≤ 1) ∧
        ((∀ term ∈ Terms.ofText text, ∀ (i : Nat) (w : ℝ),
            model.terms[i]? = some term → model.rarities[i]? = some w → ¬ 0 < w) →
          ∀ document score, (document, score) ∈ model.scores text → score = 0) := by
  have faithful := Corpus.faithful_ofTexts history
  exact ⟨_, addAll_empty history, fun document vector => Model.normal_of_mem_vectors_train faithful,
    fun text => ⟨fun document score => Model.score_bounds faithful,
      fun common document score => Model.score_eq_zero faithful common⟩⟩

/-- The terms of the only document of a corpus weigh nothing, so the document scores zero for its own text. -/
theorem Builder.scores_bounded_alone : ∃ builder : Builder String,
    Builder.empty.addAll [("MIT", "permission")] = .ok builder ∧
      ("MIT", 0) ∈ (Model.train ℝ builder.corpus).scores "permission" := by
  let history := [("MIT", "permission")]
  let corpus := Corpus.ofTexts history
  obtain ⟨builder, built, -, bounds⟩ := Builder.scores_bounded history
  obtain rfl : (⟨corpus, false⟩ : Builder String) = builder :=
    Except.ok.inj ((Builder.addAll_empty history).symm.trans built)
  have faithful : corpus.Faithful (Corpus.lastText? history) := Corpus.faithful_ofTexts history
  have held : ("MIT", (corpus.weighed "permission").unit) ∈ (Model.train ℝ corpus).vectors :=
    (Model.mem_vectors_train_iff faithful).mpr ⟨"permission", by decide, rfl⟩
  obtain ⟨score, scored⟩ : ∃ score, ("MIT", score) ∈ (Model.train ℝ corpus).scores "permission" :=
    ⟨_, Model.mem_scores_iff.mpr ⟨_, held, rfl⟩⟩
  have zero : score = 0 := by
    refine (bounds "permission").2 (fun term _ i w listed weighed => ?_) "MIT" score scored
    -- A term of the vocabulary is in a document at least, and there is only one.
    have share : ((1 : ℕ) : ℝ) / (corpus.frequency term : ℝ) ≤ 1 := by
      refine div_le_one_of_le₀ (Nat.cast_le.mpr ?_) (Nat.cast_nonneg _)
      exact faithful.frequency_pos_of_mem_vocabulary (List.mem_of_getElem? listed)
    rw [Model.rarities_train, listed, Option.map_some, Option.some_inj] at weighed
    rw [← weighed, not_lt]
    exact Real.log_nonpos (div_nonneg (Nat.cast_nonneg _) (Nat.cast_nonneg _)) share
  exact ⟨_, built, zero ▸ scored⟩

/-- Whatever texts a builder was given, the last text of a document whose vector is not empty finds that document:
its score is one, any other document with this score has the same vector, and the ranking starts with one of
these. -/
theorem Builder.rank_own_text [ToString D] (history : List (D × String)) :
    ∃ builder : Builder D, Builder.empty.addAll history = .ok builder ∧
      let model := Model.train ℝ builder.corpus
      ∀ document text vector, Corpus.lastText? history document = some text →
        model.vectors.lookup document = some vector → vector ≠ [] →
          (model.scores text).lookup document = some 1 ∧
          (∀ other, (model.scores text).lookup other = some 1 → model.vectors.lookup other = some vector) ∧
          ∃ first rest, model.rank text = (first, 1) :: rest ∧ model.vectors.lookup first = some vector := by
  have faithful := Corpus.faithful_ofTexts history
  have vectorOnce := Model.nodup_keys_vectors_train (R := ℝ) faithful
  refine ⟨_, addAll_empty history, fun document text vector found held nonempty => ?_⟩
  have scoreOnce := Model.nodup_keys_scores_train faithful text
  obtain ⟨text', found', rfl⟩ := (Model.mem_vectors_train_iff faithful).mp ((mem_iff_lookup vectorOnce).mpr held)
  obtain rfl : text = text' := Option.some.inj (found.symm.trans found')
  have best : (document, 1) ∈ (Model.train ℝ (Corpus.ofTexts history)).scores text :=
    Model.mem_scores_iff.mpr
      ⟨_, (mem_iff_lookup vectorOnce).mpr held, (Model.query_train_dot faithful nonempty).symm⟩
  have others : ∀ other, (other, 1) ∈ (Model.train ℝ (Corpus.ofTexts history)).scores text →
      (Model.train ℝ (Corpus.ofTexts history)).vectors.lookup other =
        some ((Corpus.ofTexts history).weighed text).unit := by
    intro other scored
    obtain ⟨vector, member, one⟩ := Model.mem_scores_iff.mp scored
    obtain ⟨text', found', rfl⟩ := (Model.mem_vectors_train_iff faithful).mp member
    rw [(mem_iff_lookup vectorOnce).mp member,
      Model.weighed_eq_of_query_train_dot faithful found found' nonempty one.symm]
  refine ⟨(mem_iff_lookup scoreOnce).mp best,
    fun other scored => others other ((mem_iff_lookup scoreOnce).mpr scored), ?_⟩
  obtain ⟨⟨first, score⟩, rest, ranked, member, highest⟩ := Model.exists_rank _ text best
  -- No score is above one, so the first one is one as well.
  have one : score = 1 := le_antisymm ((Model.score_bounds faithful member).2) (highest _ best)
  subst one
  exact ⟨first, rest, ranked, others first member⟩

/-- Two documents with one word each. -/
theorem Builder.rank_own_text_two : ∃ builder : Builder String,
    Builder.empty.addAll [("MIT", "permission"), ("BSD", "redistribution")] = .ok builder ∧
      ∃ vector, vector ≠ [] ∧ (Model.train ℝ builder.corpus).vectors.lookup "MIT" = some vector ∧
        ((Model.train ℝ builder.corpus).scores "permission").lookup "MIT" = some 1 ∧
        ∃ first rest, (Model.train ℝ builder.corpus).rank "permission" = (first, 1) :: rest ∧
          (Model.train ℝ builder.corpus).vectors.lookup first = some vector := by
  let history := [("MIT", "permission"), ("BSD", "redistribution")]
  let corpus := Corpus.ofTexts history
  obtain ⟨builder, built, finds⟩ := Builder.rank_own_text history
  obtain rfl : (⟨corpus, false⟩ : Builder String) = builder :=
    Except.ok.inj ((Builder.addAll_empty history).symm.trans built)
  have faithful : corpus.Faithful (Corpus.lastText? history) := Corpus.faithful_ofTexts history
  have found : Corpus.lastText? history "MIT" = some "permission" := by decide
  have listed : "permission" ∈ corpus.vocabulary (corpus.rarity : String → ℝ) := by
    have documents : corpus.documents = [("MIT", [("permission", 1)]), ("BSD", [("redistribution", 1)])] := by
      decide +kernel
    have kept (term : String) : keep (corpus.rarity : String → ℝ) [(term, 1)] = [term] := by
      simp [keep, byWeight, keepFrom, keptPerDocument, keptPerLength]
    simp only [Corpus.vocabulary, documents, List.flatMap_cons, List.flatMap_nil, kept, List.cons_append,
      List.nil_append]
    rw [List.mergeSort_of_pairwise (by decide)]
    exact List.mem_cons_self
  have rare : 0 < (corpus.rarity "permission" : ℝ) :=
    faithful.rarity_pos (faithful.frequency_pos_of_mem_vocabulary listed) (d := "BSD") rfl (by decide)
  have nonempty : (corpus.weighed "permission").unit ≠ [] := fun none =>
    faithful.unit_weighed_eq_nil_iff.mp none "permission" (by decide) listed rare
  have held := (mem_iff_lookup (Model.nodup_keys_vectors_train faithful)).mp
    ((Model.mem_vectors_train_iff faithful).mpr ⟨"permission", found, rfl⟩)
  obtain ⟨one, -, first⟩ := finds "MIT" "permission" _ found held nonempty
  exact ⟨_, built, _, nonempty, held, one, first⟩

end Licensing.Similarity
