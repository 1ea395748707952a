import Licensing.Proofs.Similarity.Training
import Licensing.Proofs.Similarity.Vectors

/-! # How texts are weighed

The vector of a document comes from the tally of its text, the vector of any other text from the indices of its terms.
Over the real numbers both are the same: the vocabulary has each term once, so that an index stands for one term, and
a term that is kept for any document counts in every text it occurs in (`Model.weight_counted`).

* `Corpus.weighed` — the weights of a text over the vocabulary of a corpus.
* `Corpus.Faithful.rarity_nonneg`, `Corpus.Faithful.rarity_pos` — no term of the vocabulary has a negative weight, and
  one that is missing in a document has a positive one.
* `Corpus.Faithful.unit_weighed_eq` — vectors of documents with the same weights are the same.
-/

namespace Licensing.Similarity

variable {D R : Type} [Scalar R]

/-! ## The vocabulary -/

theorem pairwise_withoutRepeats {terms : List String} (sorted : terms.Pairwise (· ≤ ·)) :
    (withoutRepeats terms).Pairwise (· < ·) := by
  fun_induction withoutRepeats terms with
  | case1 second rest ih => exact ih sorted.of_cons
  | case2 first second rest other ih =>
    obtain ⟨least, sorted⟩ := List.pairwise_cons.mp sorted
    refine List.pairwise_cons.mpr ⟨fun term member => String.not_le.mp fun below => other ?_, ih sorted⟩
    -- Everything behind is from the second term on, which lies above the first.
    have above : second ≤ term := by
      obtain rfl | later := List.mem_cons.mp (mem_of_mem_withoutRepeats member)
      · exact String.le_refl _
      · exact (List.pairwise_cons.mp sorted).1 term later
    exact String.le_antisymm (least second List.mem_cons_self) (String.le_trans above below)
  | case3 few short =>
    cases few with
    | nil => exact .nil
    | cons first rest =>
      cases rest with
      | nil => exact List.pairwise_singleton _ first
      | cons second rest => exact absurd rfl (short first second rest)

theorem Corpus.sorted_vocabulary (corpus : Corpus D) (rarity : String → R) :
    (corpus.vocabulary rarity).Pairwise (· < ·) := by
  have trans (a b c : String) : decide (a ≤ b) = true → decide (b ≤ c) = true → decide (a ≤ c) = true := by
    simpa only [decide_eq_true_eq] using String.le_trans
  have total (a b : String) : (decide (a ≤ b) || decide (b ≤ a)) = true := by
    simpa using String.le_total a b
  exact pairwise_withoutRepeats ((List.pairwise_mergeSort trans total _).imp of_decide_eq_true)

theorem Corpus.nodup_vocabulary (corpus : Corpus D) (rarity : String → R) : (corpus.vocabulary rarity).Nodup := by
  refine List.nodup_iff_pairwise_ne.mpr ((corpus.sorted_vocabulary rarity).imp ?_)
  rintro term _ below rfl
  exact String.lt_irrefl term below

theorem lastIndex?_eq_some_iff {term : String} {terms : List String} (once : terms.Nodup) {start i : Nat} :
    lastIndex? term start terms = some i ↔ ∃ k, start + k = i ∧ terms[k]? = some term := by
  induction terms generalizing start i with
  | nil => simp [lastIndex?]
  | cons first terms ih =>
    obtain ⟨new, once⟩ := List.nodup_cons.mp once
    have places : (∃ k, start + k = i ∧ (first :: terms)[k]? = some term) ↔
        start = i ∧ first = term ∨ lastIndex? term (start + 1) terms = some i := by
      rw [ih once, ← Nat.or_exists_add_one]
      simp [Nat.add_right_comm, Nat.add_assoc]
    rw [places, lastIndex?]
    split
    next j found =>
      -- What is found behind the first term is another one.
      obtain ⟨k, -, listed⟩ := (ih once).mp found
      have other : first ≠ term := fun same => new (same ▸ List.mem_of_getElem? listed)
      simp [other, found]
    next none =>
      rw [none]
      split
      next same => simp [same]
      next other => simp [other]

omit [Scalar R] in
theorem Model.indexOf?_eq_some_iff {model : Model D R} (once : model.terms.Nodup) {term : String} {i : Nat} :
    model.indexOf? term = some i ↔ model.terms[i]? = some term := by
  rw [indexOf?, lastIndex?_eq_some_iff once]
  simp

/-! ## Tallies -/

theorem nodup_distinct (terms : List String) : (distinct terms).Nodup := by
  induction terms with
  | nil => exact .nil
  | cons term terms ih => exact List.nodup_cons.mpr ⟨by simp, ih.filter _⟩

theorem lookup_tally (terms : List String) (term : String) :
    (tally terms).lookup term = if term ∈ terms then some (terms.count term) else none := by
  have once : ((tally terms).map Prod.fst).Nodup := keys_tally terms ▸ nodup_distinct terms
  split
  next member =>
    exact (mem_iff_lookup once).mp (List.mem_map.mpr ⟨term, mem_distinct.mpr member, rfl⟩)
  next absent =>
    refine List.lookup_eq_none_iff.mpr fun entry member => ?_
    have other : term ≠ entry.1 := fun same => absent (mem_keys_tally.mp (same ▸ List.mem_map_of_mem member))
    simpa using other

theorem mem_tallyIndices {i n : Nat} {found : List Nat} :
    (i, n) ∈ tallyIndices found ↔ i ∈ found ∧ n = found.count i := by
  induction found with
  | nil => simp [tallyIndices]
  | cons first found ih =>
    by_cases here : i = first
    · simp [tallyIndices, here]
    · simp [tallyIndices, here, ih, Ne.symm here]

theorem nodup_tallyIndices (found : List Nat) : ((tallyIndices found).map Prod.fst).Nodup := by
  induction found with
  | nil => exact .nil
  | cons first found ih =>
    refine List.nodup_cons.mpr ⟨by simp, ih.sublist (List.filter_sublist.map _)⟩

/-! ## Weights over a vocabulary -/

theorem mem_weights_iff {rarity : String → R} {terms : List String} {counts : Tally} {i : Nat} {w : R} :
    (i, w) ∈ weights rarity terms counts ↔ ∃ term n, terms[i]? = some term ∧ counts.lookup term = some n ∧
      w = weigh rarity (term, n) := by
  simp only [weights, List.mem_filterMap, Prod.exists, List.mk_mem_zipIdx_iff_getElem?, Option.map_eq_some_iff,
    Prod.mk.injEq]
  constructor
  · rintro ⟨term, i, listed, n, counted, rfl, rfl⟩
    exact ⟨term, n, listed, counted, rfl⟩
  · rintro ⟨term, n, listed, counted, rfl⟩
    exact ⟨term, i, listed, n, counted, rfl, rfl⟩

/-- The terms of a text that are in the vocabulary have weights, and no other terms have. -/
theorem mem_keys_weights_iff {rarity : String → R} {terms words : List String} {i : Nat} :
    i ∈ (weights rarity terms (tally words)).map Prod.fst ↔ ∃ term ∈ words, terms[i]? = some term := by
  rw [List.mem_map]
  constructor
  · rintro ⟨⟨i, w⟩, member, rfl⟩
    obtain ⟨term, n, listed, counted, -⟩ := mem_weights_iff.mp member
    have occurs : term ∈ words := by
      by_contra absent
      rw [lookup_tally, if_neg absent] at counted
      cases counted
    exact ⟨term, occurs, listed⟩
  · rintro ⟨term, occurs, listed⟩
    have counted : (tally words).lookup term = some (words.count term) := by
      rw [lookup_tally, if_pos occurs]
    exact ⟨(i, _), mem_weights_iff.mpr ⟨term, _, listed, counted, rfl⟩, rfl⟩

/-- The indices are increasing. -/
theorem sorted_weights (rarity : String → R) (terms : List String) (counts : Tally) :
    ((weights rarity terms counts).map Prod.fst).Pairwise (· < ·) := by
  have indices : (terms.zipIdx.map Prod.snd).Pairwise (· < ·) := by
    rw [List.zipIdx_map_snd]
    exact List.pairwise_lt_range' 1
  rw [weights, List.pairwise_map, List.pairwise_filterMap]
  refine (List.pairwise_map.mp indices).imp ?_
  rintro ⟨term, i⟩ ⟨term', j⟩ below entry found entry' found'
  obtain ⟨n, -, rfl⟩ := Option.map_eq_some_iff.mp found
  obtain ⟨m, -, rfl⟩ := Option.map_eq_some_iff.mp found'
  exact below

theorem nodup_keys_weights (rarity : String → R) (terms : List String) (counts : Tally) :
    ((weights rarity terms counts).map Prod.fst).Nodup :=
  (sorted_weights rarity terms counts).imp ne_of_lt

/-! ## Weights over the real numbers -/

/-- The weight of an index is that of its term, times the number of its occurrences. -/
theorem weight_weights (rarity : String → ℝ) (terms words : List String) (i : Nat) :
    Vector.weight (weights rarity terms (tally words)) i =
      terms[i]?.elim 0 fun term => (words.count term : ℝ) * rarity term := by
  have once := nodup_keys_weights rarity terms (tally words)
  cases listed : terms[i]? with
  | none =>
    refine Vector.weight_of_not_mem fun member => ?_
    obtain ⟨⟨_, w⟩, inside, rfl⟩ := List.mem_map.mp member
    obtain ⟨term, n, found, -⟩ := mem_weights_iff.mp inside
    simp [listed] at found
  | some term =>
    rw [Option.elim_some]
    by_cases member : term ∈ words
    · exact Vector.weight_of_mem once
        (mem_weights_iff.mpr ⟨term, words.count term, listed, by rw [lookup_tally, if_pos member], rfl⟩)
    · rw [List.count_eq_zero.mpr member, Nat.cast_zero, zero_mul]
      refine Vector.weight_of_not_mem fun listed' => ?_
      obtain ⟨⟨_, w⟩, inside, rfl⟩ := List.mem_map.mp listed'
      obtain ⟨other, n, found, counted, -⟩ := mem_weights_iff.mp inside
      obtain rfl : term = other := Option.some.inj (listed.symm.trans found)
      rw [lookup_tally, if_neg member] at counted
      cases counted

/-- The weights of a text before they are brought to length one. -/
noncomputable def Model.counted (model : Model D ℝ) (text : String) : Vector ℝ :=
  (tallyIndices ((Terms.ofText text).filterMap model.indexOf?)).map fun (i, n) =>
    (i, Scalar.mul (Scalar.ofNat n) (model.rarities[i]?.getD Scalar.zero))

theorem Model.query_eq_unit (model : Model D ℝ) (text : String) : model.query text = (model.counted text).unit :=
  rfl

theorem Model.nodup_keys_counted (model : Model D ℝ) (text : String) :
    ((model.counted text).map Prod.fst).Nodup := by
  simpa [counted, List.map_map, Function.comp_def] using nodup_tallyIndices _

/-- An index of the vocabulary comes up as often as its term. -/
theorem Model.count_indices {model : Model D ℝ} (once : model.terms.Nodup) {term : String} {i : Nat}
    (listed : model.terms[i]? = some term) (words : List String) :
    (words.filterMap model.indexOf?).count i = words.count term := by
  rw [List.count_filterMap, List.count_eq_countP]
  refine List.countP_congr fun word _ => ?_
  rw [beq_iff_eq, beq_iff_eq, indexOf?_eq_some_iff once, listed, Option.some_inj, eq_comm]

theorem Model.mem_keys_counted {model : Model D ℝ} (once : model.terms.Nodup) {text : String} {i : Nat} :
    i ∈ (model.counted text).map Prod.fst ↔ ∃ term ∈ Terms.ofText text, model.terms[i]? = some term := by
  have listed : (model.counted text).map Prod.fst =
      (tallyIndices ((Terms.ofText text).filterMap model.indexOf?)).map Prod.fst := by
    simp [counted, List.map_map, Function.comp_def]
  rw [listed, List.mem_map]
  constructor
  · rintro ⟨⟨i, n⟩, counted, rfl⟩
    obtain ⟨term, inside, found⟩ := List.mem_filterMap.mp (mem_tallyIndices.mp counted).1
    exact ⟨term, inside, (indexOf?_eq_some_iff once).mp found⟩
  · rintro ⟨term, inside, found⟩
    exact ⟨(i, _), mem_tallyIndices.mpr
      ⟨List.mem_filterMap.mpr ⟨term, inside, (indexOf?_eq_some_iff once).mpr found⟩, rfl⟩, rfl⟩

/-- A text weighs the same whether its terms are tallied or the indices of its terms. -/
theorem Model.weight_counted {model : Model D ℝ} (once : model.terms.Nodup) {rarity : String → ℝ}
    (rarities : model.rarities = model.terms.map rarity) (text : String) (i : Nat) :
    (model.counted text).weight i = Vector.weight (weights rarity model.terms (tally (Terms.ofText text))) i := by
  rw [weight_weights]
  by_cases inside : i ∈ (model.counted text).map Prod.fst
  · obtain ⟨term, -, listed⟩ := (mem_keys_counted once).mp inside
    obtain ⟨⟨_, w⟩, entry, rfl⟩ := List.mem_map.mp inside
    rw [Vector.weight_of_mem (model.nodup_keys_counted text) entry, listed, Option.elim_some]
    obtain ⟨⟨_, n⟩, counted, same⟩ := List.mem_map.mp entry
    obtain ⟨rfl, rfl⟩ := Prod.mk.injEq .. ▸ same
    rw [(mem_tallyIndices.mp counted).2, count_indices once listed, rarities, List.getElem?_map, listed]
    rfl
  · rw [Vector.weight_of_not_mem inside]
    cases listed : model.terms[i]? with
    | none => rfl
    | some term =>
      -- The index is missing because its term does not occur.
      have absent : term ∉ Terms.ofText text := fun member =>
        inside ((mem_keys_counted once).mpr ⟨term, member, listed⟩)
      rw [Option.elim_some, List.count_eq_zero.mpr absent, Nat.cast_zero, zero_mul]

/-! ## The texts of a corpus -/

namespace Corpus

variable {corpus : Corpus D} {text? : D → Option String} {term text text' : String} {d d' : D}

/-- The weights of a text over the vocabulary of a corpus. -/
noncomputable def weighed (corpus : Corpus D) (text : String) : Vector ℝ :=
  weights corpus.rarity (corpus.vocabulary (corpus.rarity : String → ℝ)) (tally (Terms.ofText text))

theorem nodup_keys_weighed (corpus : Corpus D) (text : String) : ((corpus.weighed text).map Prod.fst).Nodup :=
  nodup_keys_weights ..

theorem sorted_weighed (corpus : Corpus D) (text : String) :
    ((corpus.weighed text).map Prod.fst).Pairwise (· < ·) :=
  sorted_weights ..

theorem mem_keys_weighed_iff {i : Nat} : i ∈ (corpus.weighed text).map Prod.fst ↔
    ∃ term ∈ Terms.ofText text, (corpus.vocabulary (corpus.rarity : String → ℝ))[i]? = some term :=
  mem_keys_weights_iff

theorem weight_weighed (corpus : Corpus D) (text : String) (i : Nat) : (corpus.weighed text).weight i =
    (corpus.vocabulary (corpus.rarity : String → ℝ))[i]?.elim 0 fun term =>
      ((Terms.ofText text).count term : ℝ) * corpus.rarity term :=
  weight_weights ..

variable [DecidableEq D]

/-- The documents that are listed with a term are documents of the corpus. -/
theorem Faithful.postings_subset (faithful : corpus.Faithful text?) (term : String) :
    corpus.postings.documents term ⊆ corpus.documents.map Prod.fst := by
  intro d listed
  obtain ⟨text, found, -⟩ := (faithful.postings.mem_iff term d).mp listed
  exact List.mem_map.mpr ⟨(d, _), faithful.mem_documents_iff.mpr ⟨text, found, rfl⟩, rfl⟩

theorem Faithful.frequency_le (faithful : corpus.Faithful text?) (term : String) :
    corpus.frequency term ≤ corpus.documents.length := by
  rw [← List.length_map Prod.fst]
  exact (List.subperm_of_subset (faithful.postings.nodup term) (faithful.postings_subset term)).length_le

theorem Faithful.rarity_nonneg (faithful : corpus.Faithful text?) (somewhere : 0 < corpus.frequency term) :
    0 ≤ (corpus.rarity term : ℝ) := by
  refine Real.log_nonneg ((one_le_div (Nat.cast_pos.mpr somewhere)).mpr ?_)
  exact Nat.cast_le.mpr (faithful.frequency_le term)

/-- A term that is missing in a document picks others out. -/
theorem Faithful.rarity_pos (faithful : corpus.Faithful text?) (somewhere : 0 < corpus.frequency term)
    (found : text? d = some text) (absent : term ∉ Terms.ofText text) : 0 < (corpus.rarity term : ℝ) := by
  have held : d ∈ corpus.documents.map Prod.fst :=
    List.mem_map.mpr ⟨(d, _), faithful.mem_documents_iff.mpr ⟨text, found, rfl⟩, rfl⟩
  have unlisted : d ∉ corpus.postings.documents term := by
    rintro listed
    obtain ⟨text', found', occurs⟩ := (faithful.postings.mem_iff term d).mp listed
    exact absent (Option.some.inj (found.symm.trans found') ▸ occurs)
  have fewer : corpus.frequency term < corpus.documents.length := by
    rw [← List.length_map Prod.fst]
    refine (List.subperm_of_subset (List.nodup_cons.mpr ⟨unlisted, faithful.postings.nodup term⟩) ?_).length_le
    exact List.cons_subset.mpr ⟨held, faithful.postings_subset term⟩
  exact Real.log_pos ((one_lt_div (Nat.cast_pos.mpr somewhere)).mpr (Nat.cast_lt.mpr fewer))

theorem Faithful.weight_weighed_nonneg (faithful : corpus.Faithful text?) (text : String) (i : Nat) :
    0 ≤ (corpus.weighed text).weight i := by
  rw [weight_weighed]
  cases listed : (corpus.vocabulary (corpus.rarity : String → ℝ))[i]? with
  | none => exact le_rfl
  | some term =>
    have somewhere := faithful.frequency_pos_of_mem_vocabulary (List.mem_of_getElem? listed)
    exact mul_nonneg (Nat.cast_nonneg _) (faithful.rarity_nonneg somewhere)

/-- A text has a vector if it has a term of the vocabulary with a weight. -/
theorem Faithful.unit_weighed_eq_nil_iff (faithful : corpus.Faithful text?) :
    (corpus.weighed text).unit = [] ↔
      ∀ term ∈ Terms.ofText text, term ∈ corpus.vocabulary (corpus.rarity : String → ℝ) →
        ¬ 0 < (corpus.rarity term : ℝ) := by
  rw [Vector.unit_eq_nil_iff (corpus.nodup_keys_weighed text)]
  constructor
  · intro weightless term occurs listed
    obtain ⟨i, found⟩ := List.mem_iff_getElem?.mp listed
    have zero := weightless i
    rw [weight_weighed, found, Option.elim_some, mul_eq_zero, Nat.cast_eq_zero, List.count_eq_zero] at zero
    exact fun rare => zero.elim (fun absent => absent occurs) rare.ne'
  · intro common i
    rw [weight_weighed]
    cases listed : (corpus.vocabulary (corpus.rarity : String → ℝ))[i]? with
    | none => rfl
    | some term =>
      rw [Option.elim_some]
      by_cases occurs : term ∈ Terms.ofText text
      · have member := List.mem_of_getElem? listed
        have nonneg := faithful.rarity_nonneg (faithful.frequency_pos_of_mem_vocabulary member)
        rw [le_antisymm (not_lt.mp (common term occurs member)) nonneg, mul_zero]
      · rw [List.count_eq_zero.mpr occurs, Nat.cast_zero, zero_mul]

/-- An index that is listed for one document only would be that of a term that is missing in the other document, and
have a weight. -/
theorem Faithful.keys_weighed_subset (faithful : corpus.Faithful text?) (found : text? d = some text)
    (nonempty : (corpus.weighed text').unit ≠ [])
    (same : ∀ i, (corpus.weighed text').unit.weight i = (corpus.weighed text).unit.weight i) :
    (corpus.weighed text').map Prod.fst ⊆ (corpus.weighed text).map Prod.fst := by
  intro i inside
  by_contra outside
  obtain ⟨term, occurs, listed⟩ := mem_keys_weighed_iff.mp inside
  have absent : term ∉ Terms.ofText text := fun member => outside (mem_keys_weighed_iff.mpr ⟨term, member, listed⟩)
  have rare := faithful.rarity_pos (faithful.frequency_pos_of_mem_vocabulary (List.mem_of_getElem? listed)) found absent
  have weightless : (corpus.weighed text').weight i / (corpus.weighed text').norm = 0 := by
    rw [← Vector.weight_unit, same, Vector.weight_unit, Vector.weight_of_not_mem outside, zero_div]
  rw [div_eq_zero_iff, or_iff_left (Vector.norm_ne_zero nonempty), weight_weighed, listed, Option.elim_some,
    mul_eq_zero, Nat.cast_eq_zero, List.count_eq_zero] at weightless
  obtain missing | common := weightless
  · exact missing occurs
  · exact rare.ne' common

/-- Documents whose vectors have the same weights have the same vector. -/
theorem Faithful.unit_weighed_eq (faithful : corpus.Faithful text?) (found : text? d = some text)
    (found' : text? d' = some text') (nonempty : (corpus.weighed text).unit ≠ [])
    (nonempty' : (corpus.weighed text').unit ≠ [])
    (same : ∀ i, (corpus.weighed text).unit.weight i = (corpus.weighed text').unit.weight i) :
    (corpus.weighed text).unit = (corpus.weighed text').unit := by
  have keys : (corpus.weighed text).map Prod.fst = (corpus.weighed text').map Prod.fst := by
    refine List.Perm.eq_of_pairwise (fun i j _ _ below above => absurd below above.asymm)
      (corpus.sorted_weighed text) (corpus.sorted_weighed text')
      ((List.perm_ext_iff_of_nodup (corpus.nodup_keys_weighed text) (corpus.nodup_keys_weighed text')).mpr fun i => ?_)
    exact ⟨fun inside => faithful.keys_weighed_subset found' nonempty same inside,
      fun inside => faithful.keys_weighed_subset found nonempty' (fun i => (same i).symm) inside⟩
  refine Vector.eq_of_weight (Vector.keys_unit nonempty ▸ corpus.nodup_keys_weighed text) ?_ same
  rw [Vector.keys_unit nonempty, Vector.keys_unit nonempty', keys]

end Corpus

end Licensing.Similarity
