import Licensing.Classification
import Licensing.Proofs.Normalization.Guessing
import Licensing.Proofs.Similarity.Scores
import Licensing.Proofs.Similarity.Selection

/-! # Limits of a classification

The limit cuts the ranking before the best candidate is read from it.  A limit that leaves a candidate leaves the best
one, so it trims the report and nothing else; a limit that leaves none takes the license and the score with it.

* `upTo_eq_nil_iff` — which limits leave nothing.
* `Classifier.classify_limit_iff` — the main statement.
* `Classifier.classify_hides_license` — a text that is a license of the corpus, and a limit of zero.
-/

namespace Licensing

open Similarity

theorem Similarity.upTo_eq_nil_iff {α : Type} {limit : Int} {xs : List α} :
    upTo limit xs = [] ↔ xs = [] ∨ limit = 0 ∨ limit + xs.length ≤ 0 := by
  rw [← List.length_eq_zero_iff, ← List.length_eq_zero_iff, upTo]
  split
  · rw [List.length_take]
    omega
  · rw [List.length_take]
    omega

namespace Classifier

theorem defaultLimit_leaves {α : Type} (first : α) (others : List α) :
    defaultLimit ≠ 0 ∧ 0 < defaultLimit + (first :: others).length := by
  simp only [defaultLimit]
  omega

variable {R : Type} [Scalar R] {classifier : Classifier R} {text : String} {limit : Int}

theorem candidates_classify (classifier : Classifier R) (text : String) (limit : Int) :
    (classifier.classify text limit).candidates = upTo limit (classifier.model.rank text) := by
  rw [classify]
  split
  next none => exact none.symm
  next some => exact some.symm

theorem classify_of_none (none : upTo limit (classifier.model.rank text) = []) :
    classifier.classify text limit = ⟨.none, Scalar.zero, []⟩ := by
  rw [classify, none]

/-- What a limit leaves is led by the best candidate. -/
theorem classify_of_first {best : String} {score : R} {others : List (String × R)}
    (ranked : classifier.model.rank text = (best, score) :: others)
    (leaves : limit ≠ 0 ∧ 0 < limit + ((best, score) :: others).length) :
    (classifier.classify text limit).license =
        (if Scalar.lt classifier.threshold (Guesser.percent score) then some best else none) ∧
      (classifier.classify text limit).score = score := by
  have left : upTo limit ((best, score) :: others) ≠ [] := by
    rw [Ne, upTo_eq_nil_iff, or_iff_right (List.cons_ne_nil _ _)]
    omega
  obtain ⟨first, rest, cut⟩ := List.exists_cons_of_ne_nil left
  have leads : first :: rest <+: (best, score) :: others := cut ▸ upTo_prefix ..
  obtain ⟨rfl, -⟩ := List.cons_prefix_cons.mp leads
  simp only [classify, ranked, cut, and_self]

theorem length_rank (model : Model String R) (text : String) : (model.rank text).length = model.vectors.length := by
  rw [Model.rank, List.length_mergeSort, Model.scores, List.length_map]

/-- Whatever the limit, the candidates are the front of the ranking.  The license and the score are the usual ones
exactly if the limit leaves one of the documents, or there is nothing usual to hide; without candidates there is no
license, and no score. -/
theorem classify_limit_iff (classifier : Classifier R) (text : String) (limit : Int) :
    let found := classifier.classify text limit
    let usual := classifier.classify text defaultLimit
    found.candidates <+: classifier.model.rank text ∧
      (found.candidates = [] → found.license = none ∧ found.score = Scalar.zero) ∧
      (found.license = usual.license ∧ found.score = usual.score ↔
        limit ≠ 0 ∧ 0 < limit + classifier.model.vectors.length ∨
          usual.license = none ∧ usual.score = Scalar.zero) := by
  intro found usual
  have cut : found.candidates = upTo limit (classifier.model.rank text) := candidates_classify ..
  refine ⟨cut ▸ upTo_prefix .., fun empty => ?_, ?_⟩
  · rw [show found = _ from classify_of_none (cut ▸ empty)]
    exact ⟨rfl, rfl⟩
  rw [← length_rank classifier.model text]
  cases ranked : classifier.model.rank text with
  | nil =>
    have nothing (limit : Int) : classifier.classify text limit = ⟨none, Scalar.zero, []⟩ :=
      classify_of_none (upTo_eq_nil_iff.mpr (.inl ranked))
    simp [found, usual, nothing]
  | cons first others =>
    have best := classify_of_first ranked (defaultLimit_leaves first others)
    by_cases leaves : limit ≠ 0 ∧ 0 < limit + (first :: others).length
    · have best' := classify_of_first ranked leaves
      exact iff_of_true ⟨best'.1.trans best.1.symm, best'.2.trans best.2.symm⟩ (.inl leaves)
    · have nothing : found = ⟨none, Scalar.zero, []⟩ := by
        refine classify_of_none (upTo_eq_nil_iff.mpr (.inr ?_))
        rw [ranked]
        omega
      rw [or_iff_right leaves, nothing, eq_comm, eq_comm (a := Scalar.zero)]

/-- The text of a license of the corpus is accepted with the best score there is, and not at all with a limit of
zero. -/
theorem classify_hides_license : ∃ classifier : Classifier ℝ,
    ofTexts [("MIT", "permission"), ("BSD-3-Clause", "redistribution")] 42 = .ok classifier ∧
      (classifier.classify "permission" defaultLimit).license.isSome ∧
      (classifier.classify "permission" defaultLimit).score = 1 ∧
      (classifier.classify "permission" 0).license = none ∧ (classifier.classify "permission" 0).score = 0 := by
  let texts := [("MIT", "permission"), ("BSD-3-Clause", "redistribution")]
  let corpus := Corpus.ofTexts texts
  have faithful : corpus.Faithful (Corpus.lastText? texts) := Corpus.faithful_ofTexts texts
  have found : Corpus.lastText? texts "MIT" = some "permission" := by decide
  have listed : "permission" ∈ (Model.train ℝ corpus).terms := by
    refine faithful.mem_terms_train_iff.mpr ⟨"MIT", "permission", found, ?_⟩
    have counted : tally (Terms.ofText "permission") = [("permission", 1)] := by decide +kernel
    simp [counted, keep, byWeight, keepFrom, keptPerDocument, keptPerLength]
  have rare : 0 < (corpus.rarity "permission" : ℝ) :=
    faithful.rarity_pos (faithful.frequency_pos_of_mem_vocabulary listed) (d := "BSD-3-Clause") rfl (by decide)
  have nonempty : (corpus.weighed "permission").unit ≠ [] := fun none =>
    faithful.unit_weighed_eq_nil_iff.mp none "permission" (by decide) listed rare
  have scored : ("MIT", 1) ∈ (Model.train ℝ corpus).scores "permission" :=
    Model.mem_scores_iff.mpr ⟨_, (Model.mem_vectors_train_iff faithful).mpr ⟨"permission", found, rfl⟩,
      (Model.query_train_dot faithful nonempty).symm⟩
  obtain ⟨⟨best, score⟩, others, ranked, member, highest⟩ := Model.exists_rank _ "permission" scored
  have one : score = 1 := le_antisymm (Model.score_bounds faithful member).2 (highest _ scored)
  let classifier : Classifier ℝ := ⟨.train ℝ corpus, 42⟩
  have leading : classifier.model.rank "permission" = (best, score) :: others := ranked
  have usual := classify_of_first leading (defaultLimit_leaves _ others)
  have hidden : classifier.classify "permission" 0 = ⟨none, Scalar.zero, []⟩ :=
    classify_of_none (upTo_eq_nil_iff.mpr (.inr (.inl rfl)))
  refine ⟨classifier, rfl, ?_, usual.2.trans one, by rw [hidden], ?_⟩
  · have above : Scalar.lt (42 : ℝ) (Guesser.percent (1 : ℝ)) = true := by
      rw [lt_real_iff, Guesser.percent, Scalar.mul, Scalar.ofNat]
      norm_num [instScalarReal]
    simp [usual.1, one, classifier, above]
  · rw [hidden]
    simp [Scalar.zero, Scalar.ofNat]

end Classifier

end Licensing
