import Licensing.Proofs.Sorting
import Licensing.Proofs.Similarity.Weighing
import Licensing.Proofs.Terms.Phrases

/-! # Which terms are kept

All terms of a document are ranked together and kept as long as there is room for their length.  What comes out is a
selection for each length by itself: the first terms of this length in the ranking (`filter_keepEach`).  With three
lengths there is always room in the document as a whole (`keepFrom_eq_keepEach`).

* `Ranking` — the order in which terms are kept; there is one for every list of terms.
* `Selects`, `selects_keep` — what a document keeps, length by length.
* `Builder.keeps_front_of_rankings` — what a model is made of.
-/

namespace Licensing.Similarity

variable {D R : Type} [Scalar R]

/-! ## Room for terms -/

omit [Scalar R] in
theorem length_eq_of_short {kept : List Nat} (short : ∀ n ∈ kept, n < 3) :
    kept.length = kept.count 0 + kept.count 1 + kept.count 2 := by
  induction kept with
  | nil => rfl
  | cons n kept ih =>
    obtain ⟨here, short⟩ := List.forall_mem_cons.mp short
    have rest := ih short
    obtain rfl | rfl | rfl : n = 0 ∨ n = 1 ∨ n = 2 := by omega
    all_goals
      simp
      omega

/-- Keeps terms in order as long as there is room for their length. -/
def keepEach (kept : List Nat) : List String → List String
  | [] => []
  | term :: rest =>
    if keptPerLength ≤ kept.count (blanksIn term) then keepEach kept rest
    else term :: keepEach (blanksIn term :: kept) rest

/-- The room that a document has as a whole is never used up by terms of three lengths. -/
theorem keepFrom_eq_keepEach {kept : List Nat} {terms : List String} (shortKept : ∀ n ∈ kept, n < 3)
    (short : ∀ term ∈ terms, blanksIn term < 3) (room : ∀ n, kept.count n ≤ keptPerLength) :
    keepFrom kept terms = keepEach kept terms := by
  induction terms generalizing kept with
  | nil => rfl
  | cons term terms ih =>
    obtain ⟨here, short⟩ := List.forall_mem_cons.mp short
    have inside : ¬ keptPerDocument ≤ kept.length := by
      have zero := room 0
      have one := room 1
      have two := room 2
      rw [length_eq_of_short shortKept]
      simp only [keptPerDocument, keptPerLength] at *
      omega
    rw [keepFrom, keepEach, if_neg inside]
    split
    next full => exact ih shortKept short room
    next free =>
      refine congrArg (term :: ·) (ih (List.forall_mem_cons.mpr ⟨here, shortKept⟩) short fun n => ?_)
      rw [List.count_cons]
      split
      next same =>
        rw [beq_iff_eq.mp same] at free
        omega
      next => exact room n

/-- The terms of a length are kept as if there were no others. -/
theorem filter_keepEach (kept : List Nat) (terms : List String) (n : Nat) :
    (keepEach kept terms).filter (blanksIn · = n) =
      (terms.filter (blanksIn · = n)).take (keptPerLength - kept.count n) := by
  induction terms generalizing kept with
  | nil => simp [keepEach]
  | cons term terms ih =>
    rw [keepEach]
    by_cases this : blanksIn term = n
    · subst this
      split
      next full => simp [ih, Nat.sub_eq_zero_of_le full]
      next free =>
        have room : keptPerLength - kept.count (blanksIn term) =
            (keptPerLength - (blanksIn term :: kept).count (blanksIn term)) + 1 := by
          rw [List.count_cons_self]
          omega
        simp [ih, room]
    · split
      next => simp [ih, this]
      next => simp [ih, this]

/-! ## Rankings -/

/-- A ranking of terms has each of them once: the heavier ones first, and those of equal weight in the order in which
they first occur. -/
structure Ranking (weight : String → R) (terms ranking : List String) : Prop where
  perm : ranking.Perm (distinct terms)
  ordered : ranking.Pairwise fun a b => Scalar.lt (weight b) (weight a) = true ∨
    Scalar.lt (weight a) (weight b) = false ∧ [a, b].Sublist (distinct terms)

theorem distinct_filter (p : String → Bool) (terms : List String) :
    distinct (terms.filter p) = (distinct terms).filter p := by
  induction terms with
  | nil => rfl
  | cons term terms ih =>
    by_cases inside : p term
    · simp only [List.filter_cons_of_pos inside, distinct, ih, List.filter_filter, Bool.and_comm]
    · simp only [List.filter_cons_of_neg inside, distinct, ih, List.filter_filter]
      refine List.filter_congr fun other _ => ?_
      by_cases same : other = term
      · simp [same, inside]
      · simp [same]

section Rankings

variable {weight : String → R} {terms ranking other : List String}

theorem Ranking.filter (ranks : Ranking weight terms ranking) (p : String → Bool) :
    Ranking weight (terms.filter p) (ranking.filter p) where
  perm := distinct_filter p terms ▸ ranks.perm.filter p
  ordered := by
    rw [List.pairwise_filter]
    refine ranks.ordered.imp fun {a b} before insideA insideB => ?_
    obtain heavier | ⟨level, first⟩ := before
    · exact .inl heavier
    · refine .inr ⟨level, ?_⟩
      have kept := first.filter p
      rwa [List.filter_cons_of_pos insideA, List.filter_cons_of_pos insideB, List.filter_nil,
        ← distinct_filter] at kept

/-- Terms whose weights can be compared have no second ranking. -/
theorem Ranking.unique (ordered : Ordered (terms.map weight)) (ranks : Ranking weight terms ranking)
    (ranks' : Ranking weight terms other) : other = ranking := by
  refine List.Perm.eq_of_pairwise (fun a b inside inside' before behind => ?_) ranks'.ordered ranks.ordered
    (ranks'.perm.trans ranks.perm.symm)
  have memberA : weight a ∈ terms.map weight :=
    List.mem_map_of_mem (mem_distinct.mp (ranks'.perm.mem_iff.mp inside))
  have memberB : weight b ∈ terms.map weight :=
    List.mem_map_of_mem (mem_distinct.mp (ranks.perm.mem_iff.mp inside'))
  have asymm := ordered.asymm (weight b) memberB (weight a) memberA
  obtain above | ⟨level, first⟩ := before
  · obtain below | ⟨level', -⟩ := behind
    · simp [asymm above] at below
    · simp [above] at level'
  · obtain below | ⟨-, second⟩ := behind
    · simp [level] at below
    · exact absurd second (not_pair_sublist_swap (nodup_distinct terms) first)

/-- A sort by falling weights is a ranking. -/
theorem ranking_mergeSort (ordered : Ordered (terms.map weight)) :
    Ranking weight terms ((distinct terms).mergeSort fun a b => !Scalar.lt (weight a) (weight b)) := by
  have weighed {term : String} (member : term ∈ distinct terms) : weight term ∈ terms.map weight :=
    List.mem_map_of_mem (mem_distinct.mp member)
  have sort := (distinct terms).mergeSort_perm fun a b => !Scalar.lt (weight a) (weight b)
  have trans : ∀ a ∈ distinct terms, ∀ b ∈ distinct terms, ∀ c ∈ distinct terms,
      (!Scalar.lt (weight a) (weight b)) = true → (!Scalar.lt (weight b) (weight c)) = true →
        (!Scalar.lt (weight a) (weight c)) = true := by
    intro a inA b inB c inC
    simpa using ordered.trans _ (weighed inA) _ (weighed inB) _ (weighed inC)
  have total : ∀ a ∈ distinct terms, ∀ b ∈ distinct terms,
      (!Scalar.lt (weight a) (weight b) || !Scalar.lt (weight b) (weight a)) = true := by
    intro a inA b inB
    have asymm := ordered.asymm _ (weighed inA) _ (weighed inB)
    cases above : Scalar.lt (weight a) (weight b) with
    | false => rfl
    | true => simpa using asymm above
  refine ⟨sort, List.pairwise_iff_forall_sublist.mpr fun {a b} first => ?_⟩
  have inA : a ∈ distinct terms := sort.mem_iff.mp (first.subset (by simp))
  have inB : b ∈ distinct terms := sort.mem_iff.mp (first.subset (by simp))
  have notBelow : Scalar.lt (weight a) (weight b) = false := by
    simpa using List.pairwise_iff_forall_sublist.mp (pairwise_mergeSort trans total) first
  rw [or_iff_not_imp_left, Bool.not_eq_true]
  refine fun level => ⟨notBelow, ?_⟩
  -- The sort is stable, so the other way round they would have come out the other way round.
  have nodup := sort.nodup_iff.mpr (nodup_distinct terms)
  have other : a ≠ b := (List.pairwise_iff_forall_sublist.mp nodup first)
  obtain before | behind := pair_sublist_or inA inB other
  · exact before
  · have swapped := sublist_mergeSort trans total behind (by simp [level])
    exact absurd swapped (not_pair_sublist_swap nodup first)

end Rankings

/-! ## The terms that a document keeps -/

/-- How telling a term is for a document with these terms. -/
def weightIn (rarity : String → R) (terms : List String) (term : String) : R :=
  weigh rarity (term, terms.count term)

theorem byWeight_tally (rarity : String → R) (terms : List String) : byWeight rarity (tally terms) =
    (distinct terms).mergeSort fun a b => !Scalar.lt (weightIn rarity terms a) (weightIn rarity terms b) := by
  rw [byWeight, List.map_mergeSort, keys_tally]
  intro a inA b inB
  obtain ⟨term, -, rfl⟩ := List.mem_map.mp inA
  obtain ⟨term', -, rfl⟩ := List.mem_map.mp inB
  rfl

section Keep

variable (rarity : String → R) (text : String)

theorem blanksIn_lt {term : String} (member : term ∈ Terms.ofText text) : blanksIn term < 3 := by
  rw [Terms.ofText_eq, List.mem_append, List.mem_append] at member
  obtain (one | two) | three := member
  · exact (Terms.count_blank_of_mem_phrases one).trans_lt (by decide)
  · exact (Terms.count_blank_of_mem_phrases two).trans_lt (by decide)
  · exact (Terms.count_blank_of_mem_phrases three).trans_lt (by decide)

theorem mem_byWeight_tally {terms : List String} {term : String} :
    term ∈ byWeight rarity (tally terms) ↔ term ∈ terms := by
  rw [byWeight_tally, List.mem_mergeSort, mem_distinct]

theorem keep_eq_keepEach :
    keep rarity (tally (Terms.ofText text)) = keepEach [] (byWeight rarity (tally (Terms.ofText text))) :=
  keepFrom_eq_keepEach (by simp) (fun _ member => blanksIn_lt text ((mem_byWeight_tally rarity).mp member)) (by simp)

theorem mem_of_mem_keep {terms : List String} {term : String} (member : term ∈ keep rarity (tally terms)) :
    term ∈ terms :=
  (mem_byWeight_tally rarity).mp (mem_of_mem_keepFrom member)

/-- The terms of a text with so many words are those with one blank less. -/
theorem mem_phrases_iff {term : String} (member : term ∈ Terms.ofText text) {n : Nat} (short : n < 3) :
    term ∈ Terms.phrases (n + 1) (Terms.words text) ↔ blanksIn term = n := by
  rw [← Terms.filter_ofText text short, List.mem_filter, decide_eq_true_eq]
  exact and_iff_right member

/-- What a document with this text keeps: its terms one by one as long as there is room for their length, so that those
of each length are the front of their ranking. -/
structure Selects (kept : List String) : Prop where
  /-- The limit for the document as a whole makes no difference. -/
  unlimited : kept = keepEach [] (byWeight rarity (tally (Terms.ofText text)))
  length : ∀ term ∈ kept, ∃ length ∈ [1, 2, 3],
    term ∈ Terms.phrases length (Terms.words text) ∧ blanksIn term + 1 = length
  front : ∀ length ∈ [1, 2, 3], ∃ ranking,
    Ranking (weightIn rarity (Terms.ofText text)) (Terms.phrases length (Terms.words text)) ranking ∧
      (∀ other, Ranking (weightIn rarity (Terms.ofText text)) (Terms.phrases length (Terms.words text)) other →
        other = ranking) ∧
      kept.filter (· ∈ Terms.phrases length (Terms.words text)) = ranking.take keptPerLength

theorem selects_keep (ordered : Ordered ((Terms.ofText text).map (weightIn rarity (Terms.ofText text)))) :
    Selects rarity text (keep rarity (tally (Terms.ofText text))) where
  unlimited := keep_eq_keepEach rarity text
  length term member := by
    have occurs := mem_of_mem_keep rarity member
    have short := blanksIn_lt text occurs
    exact ⟨blanksIn term + 1, by simp; omega, (mem_phrases_iff text occurs short).mpr rfl, rfl⟩
  front length among := by
    obtain ⟨n, short, rfl⟩ : ∃ n < 3, n + 1 = length := ⟨length - 1, by simp at among; omega, by simp at among; omega⟩
    have phrases := Terms.filter_ofText text short
    have ranks : Ranking (weightIn rarity (Terms.ofText text)) (Terms.phrases (n + 1) (Terms.words text))
        ((byWeight rarity (tally (Terms.ofText text))).filter (blanksIn · = n)) := by
      rw [← phrases, byWeight_tally]
      exact (ranking_mergeSort ordered).filter _
    refine ⟨_, ranks, fun other ranks' => ranks.unique (ordered.subset ?_) ranks', ?_⟩
    · rw [← phrases]
      exact List.map_subset _ List.filter_sublist.subset
    · have kept := filter_keepEach [] (byWeight rarity (tally (Terms.ofText text))) n
      rw [← keep_eq_keepEach, List.count_nil, Nat.sub_zero] at kept
      rw [← kept]
      refine List.filter_congr fun term member => ?_
      rw [decide_eq_decide]
      exact mem_phrases_iff text (mem_of_mem_keep rarity member) short

end Keep

/-! ## Vocabulary and vectors -/

section Train

variable [DecidableEq D] {corpus : Corpus D} {text? : D → Option String} {document : D} {text term : String}

theorem Corpus.Faithful.mem_terms_train_iff (faithful : corpus.Faithful text?) :
    term ∈ (Model.train R corpus).terms ↔ ∃ document text, text? document = some text ∧
      term ∈ keep (corpus.rarity : String → R) (tally (Terms.ofText text)) := by
  simp only [Model.train, Corpus.vocabulary, mem_withoutRepeats, List.mem_mergeSort, List.mem_flatMap, Prod.exists,
    faithful.mem_documents_iff]
  constructor
  · rintro ⟨document, counts, ⟨text, found, rfl⟩, kept⟩
    exact ⟨document, text, found, kept⟩
  · rintro ⟨document, text, found, kept⟩
    exact ⟨document, _, ⟨text, found, rfl⟩, kept⟩

theorem Corpus.Faithful.lookup_vectors_train (faithful : corpus.Faithful text?) (found : text? document = some text) :
    (Model.train R corpus).vectors.lookup document =
      some (weights corpus.rarity (Model.train R corpus).terms (tally (Terms.ofText text))).unit := by
  refine (mem_iff_lookup (Model.nodup_keys_vectors_train faithful)).mp
    (List.mem_map.mpr ⟨(document, tally (Terms.ofText text)), ?_, rfl⟩)
  exact faithful.mem_documents_iff.mpr ⟨text, found, rfl⟩

end Train

/-- A document keeps, for each length by itself, the front of the ranking of its terms.  The vocabulary of a model has
the kept terms of all documents in order, each once, and a document has a weight for each term of the vocabulary that
occurs in it, whichever document it was kept for, unless its vector has no length. -/
theorem Builder.keeps_front_of_rankings (R : Type) [Scalar R] [DecidableEq D] (history : List (D × String)) :
    (∀ (rarity : String → R) text, Ordered ((Terms.ofText text).map (weightIn rarity (Terms.ofText text))) →
      Selects rarity text (keep rarity (tally (Terms.ofText text)))) ∧
    ∃ builder : Builder D, Builder.empty.addAll history = .ok builder ∧
      let model := Model.train R builder.corpus
      let rarity : String → R := builder.corpus.rarity
      model.terms.Pairwise (· < ·) ∧
      (∀ term, term ∈ model.terms ↔ ∃ document text, Corpus.lastText? history document = some text ∧
        term ∈ keep rarity (tally (Terms.ofText text))) ∧
      ∀ document text, Corpus.lastText? history document = some text →
        ∃ vector, model.vectors.lookup document = some vector ∧
          if Scalar.isZero (weights rarity model.terms (tally (Terms.ofText text))).norm then vector = []
          else ∀ i, i ∈ vector.map Prod.fst ↔ ∃ term ∈ Terms.ofText text, model.terms[i]? = some term := by
  have faithful := Corpus.faithful_ofTexts history
  refine ⟨selects_keep, _, addAll_empty history, Corpus.sorted_vocabulary _ _,
    fun term => faithful.mem_terms_train_iff, fun document text found => ?_⟩
  refine ⟨_, faithful.lookup_vectors_train found, ?_⟩
  split
  next zero => simp [Vector.unit, zero]
  next length =>
    intro i
    rw [Vector.unit, if_neg length, List.map_map]
    exact mem_keys_weights_iff

/-- Six words of equal weight, of which the last one finds no room. -/
theorem Builder.keeps_front_of_rankings_six :
    let text := "permission is hereby granted free of"
    let kept := keep (fun _ => (1 : ℝ)) (tally (Terms.ofText text))
    kept.filter (· ∈ Terms.phrases 1 (Terms.words text)) = ["permission", "is", "hereby", "granted", "free"] ∧
    ∃ builder : Builder String, Builder.empty.addAll [("MIT", text)] = .ok builder ∧
      ∃ vector, (Model.train ℝ builder.corpus).vectors.lookup "MIT" = some vector := by
  intro text kept
  obtain ⟨selects, builder, built, -, -, vectors⟩ := Builder.keeps_front_of_rankings ℝ [("MIT", text)]
  obtain ⟨vector, held, -⟩ := vectors "MIT" text (by decide)
  refine ⟨?_, builder, built, vector, held⟩
  let words := ["permission", "is", "hereby", "granted", "free", "of"]
  obtain ⟨ranking, -, unique, front⟩ := (selects (fun _ => 1) text (ordered_real _)).front 1 (by simp)
  have listed : distinct (Terms.phrases 1 (Terms.words text)) = words := by decide +kernel
  have once : ∀ word ∈ words, (Terms.ofText text).count word = 1 := by decide +kernel
  have level {word : String} (member : word ∈ words) : weightIn (fun _ => (1 : ℝ)) (Terms.ofText text) word = 1 := by
    simp [weightIn, weigh, once word member, Scalar.mul, Scalar.ofNat]
  have ranks : Ranking (weightIn (fun _ => (1 : ℝ)) (Terms.ofText text)) (Terms.phrases 1 (Terms.words text))
      words := by
    refine ⟨listed ▸ .refl _, List.pairwise_iff_forall_sublist.mpr fun {a b} first => .inr ⟨?_, listed ▸ first⟩⟩
    rw [level (first.subset (by simp)), level (first.subset (by simp)), ← Bool.not_eq_true, lt_real_iff]
    exact lt_irrefl _
  rw [front, ← unique words ranks]
  rfl

end Licensing.Similarity
