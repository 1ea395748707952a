import Licensing.Proofs.Terms.Spacing
import Mathlib.Data.List.Chain

/-! # Words and phrases

A word has a fixed shape: in particular there is no white space in it, so the blanks of a term are those between its
words, and the words of a text, its pairs and its triples are told apart by the number of blanks.

* `IsWord` — the shape of a word; `isWord_of_mem_words`.
* `count_blank_of_mem_phrases` — a phrase of `n + 1` words has `n` blanks.
* `filter_ofText` — the phrases of one length among the terms of a text.
* `ofText_of_words` — the terms of a text in order, each from its words in one way only.
-/

namespace Licensing.Terms

open Licensing.Text

variable {term word text : String}

/-! ## Words -/

/-- A `v` stands in front of no decimal digit. -/
def Unversioned (letters : List Char) : Prop :=
  letters.IsChain fun c next => c = 'v' → isDecimalDigit next = false

instance (letters : List Char) : Decidable (Unversioned letters) :=
  inferInstanceAs (Decidable (letters.IsChain _))

/-- The shape of a word. -/
structure IsWord (word : String) : Prop where
  nonempty : word ≠ ""
  solid : ∀ c ∈ word.toList, isBlank c = false
  joined : '_' ∉ word.toList
  unversioned : Unversioned word.toList
  /-- There is more to it than dashes and dots. -/
  telling : ∃ c ∈ word.toList, c ≠ '-' ∧ c ≠ '.'
  weighty : word ∉ stopWords
  /-- It is no variant of another word. -/
  settled : word ∉ spellings.map Prod.fst

theorem isWord_iff : IsWord word ↔ word ≠ "" ∧ word.toList.all (!isBlank ·) = true ∧ '_' ∉ word.toList ∧
    Unversioned word.toList ∧ word.toList.any (fun c => c ≠ '-' ∧ c ≠ '.') = true ∧ word ∉ stopWords ∧
    word ∉ spellings.map Prod.fst := by
  simp only [List.all_eq_true, Bool.not_eq_true', List.any_eq_true, decide_eq_true_eq]
  exact ⟨fun ⟨nonempty, solid, joined, unversioned, telling, weighty, settled⟩ =>
      ⟨nonempty, solid, joined, unversioned, telling, weighty, settled⟩,
    fun ⟨nonempty, solid, joined, unversioned, telling, weighty, settled⟩ =>
      ⟨nonempty, solid, joined, unversioned, telling, weighty, settled⟩⟩

instance (word : String) : Decidable (IsWord word) :=
  decidable_of_iff _ isWord_iff.symm

theorem IsWord.blankless (word : IsWord term) : ' ' ∉ term.toList :=
  fun member => absurd (word.solid ' ' member) (by decide)

/-- What holds of every character that is no separator holds of the characters of a piece. -/
theorem forall_mem_of_mem_piecesFrom {P : Char → Prop} (inside : ∀ c rest, isSeparator c rest = false → P c)
    {begun text piece : List Char} {afterBlank : Bool} (before : ∀ c ∈ begun, P c)
    (member : piece ∈ piecesFrom begun afterBlank text) : ∀ c ∈ piece, P c := by
  induction text generalizing begun afterBlank with
  | nil =>
    obtain rfl : piece = begun.reverse := by simpa [piecesFrom] using member
    simpa using before
  | cons d text ih =>
    rw [piecesFrom] at member
    split at member
    · obtain rfl | later := List.mem_cons.mp member
      · simpa using before
      · exact ih (by simp) later
    next letter =>
      rw [Bool.or_eq_true, not_or, Bool.not_eq_true] at letter
      exact ih (List.forall_mem_cons.mpr ⟨inside d text letter.1, before⟩) member

/-- A `v` that is taken into a piece is no mark of a version, so that no digit comes behind it. -/
theorem unversioned_of_mem_piecesFrom {begun text piece : List Char} {afterBlank : Bool}
    (before : Unversioned begun.reverse) (last : ∀ c ∈ begun.head?, c = 'v' → atDigit text = false)
    (member : piece ∈ piecesFrom begun afterBlank text) : Unversioned piece := by
  induction text generalizing begun afterBlank with
  | nil =>
    obtain rfl : piece = begun.reverse := by simpa [piecesFrom] using member
    exact before
  | cons d text ih =>
    rw [piecesFrom] at member
    split at member
    · obtain rfl | later := List.mem_cons.mp member
      · exact before
      · exact @ih [] _ .nil (by simp) later
    next letter =>
      rw [Bool.or_eq_true, not_or, Bool.not_eq_true] at letter
      refine ih ?_ ?_ member
      · rw [Unversioned, List.reverse_cons, List.isChain_append]
        exact ⟨before, .singleton d, by simpa [atDigit] using last⟩
      · intro c here version
        obtain rfl : d = c := by simpa using here
        simpa [isSeparator, version] using letter.1

theorem isWord_of_mem_spellings : ∀ spelling ∈ spellings, IsWord spelling.2 := by
  decide +kernel

theorem countedWord?_eq_some {piece : List Char} : countedWord? piece = some word ↔
    (∃ c ∈ piece, c ≠ '-' ∧ c ≠ '.') ∧ respelled (String.ofList piece) = word ∧ word ∉ stopWords := by
  simp only [countedWord?, Option.ite_none_left_eq_some, Option.some_inj, List.contains_iff_mem]
  have marks : ¬ (piece.all fun c => c == '-' || c == '.') = true ↔ ∃ c ∈ piece, c ≠ '-' ∧ c ≠ '.' := by simp
  rw [marks]
  constructor
  · rintro ⟨telling, weighty, rfl⟩
    exact ⟨telling, rfl, weighty⟩
  · rintro ⟨telling, rfl, weighty⟩
    exact ⟨telling, weighty, rfl⟩

/-- A piece that is no variant of a word is one itself. -/
theorem isWord_of_mem_pieces {text piece : List Char} (cut : piece ∈ pieces text)
    (telling : ∃ c ∈ piece, c ≠ '-' ∧ c ≠ '.') (weighty : String.ofList piece ∉ stopWords)
    (settled : String.ofList piece ∉ spellings.map Prod.fst) : IsWord (String.ofList piece) := by
  have inside {P : Char → Prop} (letter : ∀ c rest, isSeparator c rest = false → P c) : ∀ c ∈ piece, P c :=
    forall_mem_of_mem_piecesFrom letter (by simp) cut
  have solid : ∀ c ∈ piece, isBlank c = false := inside fun c rest letter => by
    rw [← Bool.not_eq_true]
    intro blank
    simp [isSeparator_of_isBlank blank] at letter
  have joined : ∀ c ∈ piece, c ≠ '_' := inside fun c rest letter => by
    rintro rfl
    simp [isSeparator] at letter
  have unversioned : Unversioned piece := @unversioned_of_mem_piecesFrom [] text piece _ .nil (by simp) cut
  refine ⟨?_, ?_, ?_, ?_, ?_, weighty, settled⟩
  · rintro empty
    obtain ⟨c, member, -⟩ := telling
    simp_all
  · simpa using solid
  · simpa using fun member => joined '_' member rfl
  · simpa using unversioned
  · simpa using telling

theorem isWord_of_mem_words (member : word ∈ words text) : IsWord word := by
  obtain ⟨piece, cut, counted⟩ := List.mem_filterMap.mp member
  obtain ⟨telling, rfl, weighty⟩ := countedWord?_eq_some.mp counted
  cases found : spellings.lookup (String.ofList piece) with
  | some canonical =>
    obtain ⟨before, behind, split, -⟩ := List.lookup_eq_some_iff.mp found
    have listed : (String.ofList piece, canonical) ∈ spellings := by simp [split]
    simpa [respelled, found] using isWord_of_mem_spellings _ listed
  | none =>
    have same : respelled (String.ofList piece) = String.ofList piece := by simp [respelled, found]
    have settled : String.ofList piece ∉ spellings.map Prod.fst := by
      rw [List.mem_map]
      rintro ⟨spelling, listed, variant⟩
      simpa [variant] using List.lookup_eq_none_iff.mp found spelling listed
    rw [same] at weighty ⊢
    exact isWord_of_mem_pieces cut telling weighty settled

/-! ## Phrases -/

theorem phrases_one (found : List String) : phrases 1 found = found := by
  induction found with
  | nil => rfl
  | cons word rest ih => simp [phrases, ih]

theorem ofText_eq (text : String) :
    ofText text = phrases 1 (words text) ++ phrases 2 (words text) ++ phrases 3 (words text) := by
  rw [ofText, phrases_one]

/-- The phrases of `n + 1` words start at each word that has `n` words behind it. -/
theorem phrases_eq (n : Nat) (found : List String) : phrases (n + 1) found =
    (List.range (found.length - n)).map fun i => " ".intercalate ((found.drop i).take (n + 1)) := by
  induction found with
  | nil => simp [phrases]
  | cons word rest ih =>
    rw [phrases]
    split
    next long =>
      have room : (word :: rest).length - n = (rest.length - n) + 1 := by
        simp only [List.length_take, List.length_cons] at long ⊢
        omega
      rw [room, List.range_succ_eq_map, List.map_cons, List.map_map, ih]
      rfl
    next short =>
      have none : (word :: rest).length - n = 0 := by
        simp only [List.length_take, List.length_cons] at short ⊢
        omega
      rw [none, List.range_zero, List.map_nil]

/-- A phrase joins as many words as its length says. -/
theorem exists_window {n : Nat} {found : List String} (member : term ∈ phrases (n + 1) found) :
    ∃ window, window <:+: found ∧ window.length = n + 1 ∧ " ".intercalate window = term := by
  rw [phrases_eq, List.mem_map] at member
  obtain ⟨i, room, same⟩ := member
  rw [List.mem_range] at room
  refine ⟨(found.drop i).take (n + 1), (List.take_prefix _ _).isInfix.trans (List.drop_suffix _ _).isInfix, ?_, same⟩
  rw [List.length_take, List.length_drop]
  omega

theorem count_intercalate {words : List (List Char)} (word : List Char) (absent : ∀ word ∈ words, ' ' ∉ word)
    (absent' : ' ' ∉ word) : ([' '].intercalate (word :: words)).count ' ' = words.length := by
  induction words generalizing word with
  | nil => simpa [List.intercalate] using List.count_eq_zero.mpr absent'
  | cons next words ih =>
    obtain ⟨here, absent⟩ := List.forall_mem_cons.mp absent
    rw [List.intercalate_cons_cons, List.count_append, List.count_append, ih next absent here,
      List.count_eq_zero.mpr absent', List.length_cons]
    simp [Nat.add_comm]

/-- A phrase has a blank between each two of its words, and no other. -/
theorem count_blank_of_mem_phrases {n : Nat} (member : term ∈ phrases (n + 1) (words text)) :
    term.toList.count ' ' = n := by
  obtain ⟨window, inside, length, rfl⟩ := exists_window member
  have absent : ∀ letters ∈ window.map String.toList, ' ' ∉ letters :=
    List.forall_mem_map.mpr fun word found => (isWord_of_mem_words (inside.subset found)).blankless
  cases window with
  | nil => cases length
  | cons word window =>
    obtain ⟨here, absent⟩ := List.forall_mem_cons.mp absent
    have blanks := count_intercalate word.toList absent here
    rw [String.toList_intercalate]
    simpa using blanks.trans (by simpa using length)

/-- The terms of a text with a given number of blanks are its phrases of the length that belongs to it. -/
theorem filter_ofText (text : String) {n : Nat} (short : n < 3) :
    (ofText text).filter (fun term => term.toList.count ' ' = n) = phrases (n + 1) (words text) := by
  have each (k : Nat) : (phrases (k + 1) (words text)).filter (fun term => term.toList.count ' ' = n) =
      if k = n then phrases (n + 1) (words text) else [] := by
    split
    next same =>
      subst same
      exact List.filter_eq_self.mpr fun term member => by simp [count_blank_of_mem_phrases member]
    next other =>
      exact List.filter_eq_nil_iff.mpr fun term member => by simp [count_blank_of_mem_phrases member, other]
  rw [ofText_eq, List.filter_append, List.filter_append, each 0, each 1, each 2]
  obtain rfl | rfl | rfl : n = 0 ∨ n = 1 ∨ n = 2 := by omega
  · simp
  · simp
  · simp

/-! ## Terms and their words -/

theorem splitOn_intercalate {window : List String} (absent : ∀ word ∈ window, ' ' ∉ word.toList) (some : window ≠ []) :
    (" ".intercalate window).toList.splitOn ' ' = window.map String.toList := by
  rw [String.toList_intercalate]
  exact List.splitOn_intercalate ' ' (List.forall_mem_map.mpr absent) (by simpa using some)

/-- Only one list of words without blanks is joined to a term. -/
theorem intercalate_eq_iff {window other : List String} (words : ∀ word ∈ window, IsWord word) (some : window ≠ [])
    (absent : ∀ word ∈ other, ' ' ∉ word.toList) :
    " ".intercalate other = " ".intercalate window ↔ other = window := by
  refine ⟨fun same => ?_, congrArg _⟩
  have split := splitOn_intercalate (fun word member => (words word member).blankless) some
  rw [← same] at split
  by_cases none : other = []
  · -- Without words the empty text is joined, and that is the one text with an empty piece only.
    subst none
    have pieces : window.map String.toList = [[]] := split.symm
    obtain ⟨word, rfl, empty⟩ := List.map_eq_singleton_iff.mp pieces
    exact absurd (String.toList_eq_nil_iff.mp empty) (words word List.mem_cons_self).nonempty
  · rw [splitOn_intercalate absent none] at split
    exact List.map_injective_iff.mpr (fun _ _ => String.toList_inj.mp) split

theorem exists_window_of_mem_ofText (member : term ∈ ofText text) : ∃ window,
    window <:+: words text ∧ window.length = term.toList.count ' ' + 1 ∧ " ".intercalate window = term := by
  have each {n : Nat} (member : term ∈ phrases (n + 1) (words text)) : ∃ window,
      window <:+: words text ∧ window.length = term.toList.count ' ' + 1 ∧ " ".intercalate window = term := by
    rw [count_blank_of_mem_phrases member]
    exact exists_window member
  rw [ofText_eq, List.mem_append, List.mem_append] at member
  obtain (one | two) | three := member
  · exact each one
  · exact each two
  · exact each three

/-- The terms of a text are its `n` words, the `n - 1` pairs and the `n - 2` triples of neighbours, in the order of
the text.  All words have the shape of words, and a term is joined from one run of words in the text and from no other
list without blanks inside. -/
theorem ofText_of_words (text : String) :
    let found := words text
    (∀ word ∈ found, IsWord word) ∧
    (ofText text = found ++
      ((List.range (found.length - 1)).map fun i => " ".intercalate ((found.drop i).take 2)) ++
      (List.range (found.length - 2)).map fun i => " ".intercalate ((found.drop i).take 3)) ∧
    ∀ term ∈ ofText text, ∃ window, window <:+: found ∧ window.length = term.toList.count ' ' + 1 ∧
      ∀ other, (∀ word ∈ other, ' ' ∉ word.toList) → (" ".intercalate other = term ↔ other = window) := by
  intro found
  refine ⟨fun word => isWord_of_mem_words, by rw [ofText, phrases_eq, phrases_eq], fun term member => ?_⟩
  obtain ⟨window, inside, length, rfl⟩ := exists_window_of_mem_ofText member
  refine ⟨window, inside, length, fun other => ?_⟩
  exact intercalate_eq_iff (fun word listed => isWord_of_mem_words (inside.subset listed))
    (List.ne_nil_of_length_eq_add_one length)

end Licensing.Terms
