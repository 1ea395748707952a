import Licensing.Similarity.Corpus
import Licensing.Proofs.Lookup
import Mathlib.Data.List.Induction
import Mathlib.Logic.Function.Basic

/-! # What a corpus remembers

A document may be given a new text any number of times.  Whatever was done before, the corpus holds the last
text of each document and nothing of the others: `Corpus.Faithful` is what adding or replacing one document
preserves (`Corpus.Faithful.put`), so it holds after every sequence (`Corpus.faithful_ofTexts`).

* `Postings.Indexes` — the index lists each term with the documents it occurs in.
* `Builder.addAll` — a sequence of additions to a builder.
-/

namespace Licensing.Similarity

variable {D : Type}

/-! ## Tallies -/

theorem mem_distinct {term : String} {terms : List String} : term ∈ distinct terms ↔ term ∈ terms := by
  induction terms with
  | nil => rfl
  | cons first terms ih =>
    by_cases here : term = first
    · simp [distinct, here]
    · simp [distinct, here, ih]

theorem keys_tally (terms : List String) : (tally terms).map Prod.fst = distinct terms := by
  simp [tally, List.map_map, Function.comp_def]

theorem mem_keys_tally {term : String} {terms : List String} :
    term ∈ (tally terms).map Prod.fst ↔ term ∈ terms := by
  rw [keys_tally, mem_distinct]

/-! ## Postings -/

namespace Postings

variable {postings : Postings D} {occurs occurs' : String → D → Prop} {document d : D} {term t : String}

/-- The documents that the index lists with a term. -/
def documents (postings : Postings D) (term : String) : List D :=
  postings.getD term []

/-- The index lists each term with exactly the documents it occurs in, each once, and has entries for terms
that occur somewhere only. -/
structure Indexes (postings : Postings D) (occurs : String → D → Prop) : Prop where
  mem_iff : ∀ term d, d ∈ postings.documents term ↔ occurs term d
  nodup : ∀ term, (postings.documents term).Nodup
  inhabited : ∀ term ∈ postings, postings.documents term ≠ []

theorem Indexes.congr (indexes : postings.Indexes occurs)
    (same : ∀ term d, occurs term d ↔ occurs' term d) : postings.Indexes occurs' :=
  ⟨fun term d => (indexes.mem_iff term d).trans (same term d), indexes.nodup, indexes.inhabited⟩

theorem Indexes.mem_postings_iff (indexes : postings.Indexes occurs) :
    term ∈ postings ↔ ∃ d, occurs term d := by
  constructor
  · intro entry
    obtain ⟨d, member⟩ := List.exists_mem_of_ne_nil _ (indexes.inhabited term entry)
    exact ⟨d, (indexes.mem_iff term d).mp member⟩
  · rintro ⟨d, found⟩
    have member := (indexes.mem_iff term d).mpr found
    by_contra missing
    rw [documents, Std.HashMap.getD_eq_fallback missing] at member
    cases member

theorem indexes_empty : Indexes (∅ : Postings D) fun _ _ => False where
  mem_iff := by simp [documents]
  nodup := by simp [documents]
  inhabited := by simp

theorem documents_insert (postings : Postings D) (term t : String) (found : List D) :
    documents (postings.insert term found) t = if t = term then found else postings.documents t := by
  simp only [documents, Std.HashMap.getD_insert, beq_iff_eq, eq_comm (a := term)]

theorem documents_erase (postings : Postings D) (term t : String) :
    documents (postings.erase term) t = if t = term then [] else postings.documents t := by
  simp only [documents, Std.HashMap.getD_erase, beq_iff_eq, eq_comm (a := term)]

theorem Indexes.insert (indexes : postings.Indexes occurs) {found : List D} (nodup : found.Nodup)
    (nonempty : found ≠ []) :
    Indexes (postings.insert term found) fun t d => if t = term then d ∈ found else occurs t d where
  mem_iff t d := by
    rw [documents_insert]
    by_cases here : t = term
    · simp [here]
    · simpa [here] using indexes.mem_iff t d
  nodup t := by
    rw [documents_insert]
    by_cases here : t = term
    · simpa [here] using nodup
    · simpa [here] using indexes.nodup t
  inhabited t entry := by
    rw [documents_insert]
    by_cases here : t = term
    · simpa [here] using nonempty
    · rw [if_neg here]
      exact indexes.inhabited t (by simpa [Ne.symm here] using entry)

theorem Indexes.erase (indexes : postings.Indexes occurs) (term : String) :
    Indexes (postings.erase term) fun t d => t ≠ term ∧ occurs t d where
  mem_iff t d := by
    rw [documents_erase]
    by_cases here : t = term
    · simp [here]
    · simpa [here] using indexes.mem_iff t d
  nodup t := by
    rw [documents_erase]
    by_cases here : t = term
    · simp [here]
    · simpa [here] using indexes.nodup t
  inhabited t entry := by
    rw [documents_erase]
    obtain ⟨other, entry⟩ := Std.HashMap.mem_erase.mp entry
    have here : t ≠ term := fun same => by simp [same] at other
    rw [if_neg here]
    exact indexes.inhabited t entry

variable [DecidableEq D]

theorem Indexes.note (indexes : postings.Indexes occurs) (document : D) (term : String) :
    (note document postings term).Indexes fun t d => occurs t d ∨ t = term ∧ d = document := by
  have listed (d : D) : d ∈ postings.getD term [] ↔ occurs term d := indexes.mem_iff term d
  unfold Postings.note
  dsimp only
  split
  next known =>
    have known : occurs term document := by simpa [listed] using known
    refine indexes.congr fun t d => ⟨.inl, ?_⟩
    rintro (found | ⟨rfl, rfl⟩)
    · exact found
    · exact known
  next new =>
    have new : document ∉ postings.getD term [] := by simpa using new
    refine (indexes.insert (List.nodup_cons.mpr ⟨new, indexes.nodup term⟩) (List.cons_ne_nil _ _)).congr
      fun t d => ?_
    by_cases here : t = term
    · simp [here, listed, or_comm]
    · simp [here]

theorem Indexes.forget (indexes : postings.Indexes occurs) (document : D) (term : String) :
    (forget document postings term).Indexes fun t d => occurs t d ∧ ¬(t = term ∧ d = document) := by
  have listed (d : D) : d ∈ (postings.documents term).erase document ↔ d ≠ document ∧ occurs term d :=
    (indexes.nodup term).mem_erase_iff.trans (and_congr_right fun _ => indexes.mem_iff term d)
  unfold Postings.forget
  dsimp only
  split
  next last =>
    have last : (postings.documents term).erase document = [] := List.isEmpty_iff.mp last
    have nowhere (d : D) : ¬(d ≠ document ∧ occurs term d) := by
      rw [← listed, last]
      exact List.not_mem_nil
    refine (indexes.erase term).congr fun t d => ?_
    by_cases here : t = term
    · subst here
      have := nowhere d
      tauto
    · simp [here]
  next more =>
    have more : (postings.documents term).erase document ≠ [] := fun last => more (List.isEmpty_iff.mpr last)
    refine (indexes.insert ((indexes.nodup term).erase document) more).congr fun t d => ?_
    by_cases here : t = term
    · simp [here, listed, and_comm]
    · simp [here]

theorem Indexes.noteAll (indexes : postings.Indexes occurs) (document : D) (terms : List String) :
    (terms.foldl (Postings.note document) postings).Indexes fun t d =>
      occurs t d ∨ t ∈ terms ∧ d = document := by
  induction terms generalizing postings occurs with
  | nil => exact indexes.congr (by simp)
  | cons term terms ih =>
    refine (ih (indexes.note document term)).congr fun t d => ?_
    simp only [List.mem_cons, or_and_right, or_assoc]

theorem Indexes.forgetAll (indexes : postings.Indexes occurs) (document : D) (counts : Tally) :
    (counts.foldl (fun postings (term, _) => postings.forget document term) postings).Indexes fun t d =>
      occurs t d ∧ ¬(t ∈ counts.map Prod.fst ∧ d = document) := by
  induction counts generalizing postings occurs with
  | nil => exact indexes.congr (by simp)
  | cons entry counts ih =>
    refine (ih (indexes.forget document entry.1)).congr fun t d => ?_
    simp only [List.map_cons, List.mem_cons, or_and_right, not_or, and_assoc]

end Postings

/-! ## The tallies of documents -/

namespace Corpus

variable [DecidableEq D]

theorem tallyOf?_putTally (document d : D) (counts : Tally) (documents : List (D × Tally)) :
    tallyOf? (putTally document counts documents) d =
      if d = document then some counts else tallyOf? documents d := by
  unfold tallyOf?
  induction documents with
  | nil => simp [putTally, lookup_cons_eq_if]
  | cons entry rest ih =>
    obtain ⟨first, old⟩ := entry
    unfold putTally
    by_cases found : first = document
    · subst found
      by_cases here : d = first <;> simp [here, lookup_cons_eq_if]
    · rw [if_neg found, lookup_cons_eq_if, lookup_cons_eq_if, ih]
      by_cases front : d = first
      · simp [front, found]
      · simp [front]

theorem mem_keys_putTally {document d : D} {counts : Tally} {documents : List (D × Tally)} :
    d ∈ (putTally document counts documents).map Prod.fst ↔
      d = document ∨ d ∈ documents.map Prod.fst := by
  induction documents with
  | nil => simp [putTally]
  | cons entry rest ih =>
    obtain ⟨first, old⟩ := entry
    unfold putTally
    by_cases found : first = document
    · simp [found]
    · simp only [if_neg found, List.map_cons, List.mem_cons, ih]
      tauto

theorem nodup_keys_putTally {documents : List (D × Tally)} (nodup : (documents.map Prod.fst).Nodup)
    (document : D) (counts : Tally) : ((putTally document counts documents).map Prod.fst).Nodup := by
  induction documents with
  | nil => simp [putTally]
  | cons entry rest ih =>
    obtain ⟨first, old⟩ := entry
    obtain ⟨fresh, nodup⟩ := List.nodup_cons.mp nodup
    unfold putTally
    by_cases found : first = document
    · subst found
      simpa using ⟨by simpa using fresh, nodup⟩
    · rw [if_neg found]
      refine List.nodup_cons.mpr ⟨fun member => ?_, ih nodup⟩
      cases mem_keys_putTally.mp member with
      | inl same => exact found same
      | inr behind => exact fresh behind

/-! ## Faithful corpora -/

/-- A term occurs in the text of a document. -/
def Occurs (text? : D → Option String) (term : String) (document : D) : Prop :=
  ∃ text, text? document = some text ∧ term ∈ Terms.ofText text

theorem occurs_update {text? : D → Option String} {document d : D} {text term : String} :
    Occurs (Function.update text? document (some text)) term d ↔
      if d = document then term ∈ Terms.ofText text else Occurs text? term d := by
  by_cases here : d = document
  · subst here
    simp [Occurs]
  · simp [Occurs, here]

/-- The corpus holds these texts: it has a tally for each document with a text, and lists each term with the
documents whose text it occurs in. -/
structure Faithful (corpus : Corpus D) (text? : D → Option String) : Prop where
  nodup : (corpus.documents.map Prod.fst).Nodup
  tallies : ∀ document, tallyOf? corpus.documents document =
    (text? document).map fun text => tally (Terms.ofText text)
  postings : corpus.postings.Indexes (Occurs text?)

theorem faithful_empty : (empty : Corpus D).Faithful fun _ => none where
  nodup := List.nodup_nil
  tallies _ := rfl
  postings := Postings.indexes_empty.congr (by simp [Occurs])

/-- Adding a document, or replacing its text, changes what the corpus holds for this document only. -/
theorem Faithful.put {corpus : Corpus D} {text? : D → Option String} (faithful : corpus.Faithful text?)
    (document : D) (text : String) :
    (corpus.put document text).Faithful (Function.update text? document (some text)) where
  nodup := nodup_keys_putTally faithful.nodup ..
  tallies d := by
    rw [Corpus.put, tallyOf?_putTally, faithful.tallies]
    by_cases here : d = document
    · simp [here]
    · simp [here]
  postings := by
    refine ((faithful.postings.forgetAll document _).noteAll document (Terms.ofText text)).congr fun t d => ?_
    -- What is forgotten are exactly the terms of the text before.
    have before : t ∈ ((tallyOf? corpus.documents document).getD []).map Prod.fst ↔
        Occurs text? t document := by
      rw [faithful.tallies, Occurs]
      cases text? document with
      | none => simp
      | some old => simp [mem_keys_tally]
    rw [before, occurs_update]
    by_cases here : d = document
    · simp [here]
    · simp [here]

/-- The last text that a document was given. -/
def lastText? (history : List (D × String)) (document : D) : Option String :=
  history.reverse.lookup document

theorem lastText?_append_singleton (history : List (D × String)) (document : D) (text : String) :
    lastText? (history ++ [(document, text)]) =
      Function.update (lastText? history) document (some text) := by
  funext d
  rw [lastText?, List.reverse_append, List.reverse_singleton, List.singleton_append, lookup_cons_eq_if]
  by_cases here : d = document
  · simp [here]
  · simp [here, lastText?]

/-- If no document is repeated, each text is a last one. -/
theorem lastText?_eq_some {fresh : List (D × String)} (once : (fresh.map Prod.fst).Nodup) {document : D}
    {text : String} : lastText? fresh document = some text ↔ (document, text) ∈ fresh := by
  have reversed : (fresh.reverse.map Prod.fst).Nodup := by simpa using once
  rw [lastText?, ← mem_iff_lookup reversed, List.mem_reverse]

/-- Whatever is done, the corpus holds the last text of each document. -/
theorem faithful_ofTexts (history : List (D × String)) :
    (ofTexts history).Faithful (lastText? history) := by
  induction history using List.reverseRecOn with
  | nil => exact faithful_empty
  | append_singleton history entry ih =>
    obtain ⟨document, text⟩ := entry
    rw [lastText?_append_singleton, ofTexts, List.foldl_append]
    exact ih.put document text

/-! ## What a faithful corpus is made of -/

section Held

variable {corpus corpus' : Corpus D} {text? : D → Option String} {d : D} {term : String}

theorem Faithful.mem_documents_iff (faithful : corpus.Faithful text?) {counts : Tally} :
    (d, counts) ∈ corpus.documents ↔ ∃ text, text? d = some text ∧ tally (Terms.ofText text) = counts := by
  have tallied := faithful.tallies d
  rw [tallyOf?] at tallied
  rw [mem_iff_lookup faithful.nodup, tallied, Option.map_eq_some_iff]

theorem Faithful.mem_postings_iff (faithful : corpus.Faithful text?) :
    term ∈ corpus.postings ↔ 0 < corpus.frequency term := by
  constructor
  · intro entry
    exact List.length_pos_iff.mpr (faithful.postings.inhabited term entry)
  · intro positive
    obtain ⟨d, member⟩ := List.exists_mem_of_length_pos positive
    exact faithful.postings.mem_postings_iff.mpr ⟨d, (faithful.postings.mem_iff term d).mp member⟩

/-- The terms of a tally are listed, so what is counted is never divided by zero. -/
theorem Faithful.frequency_pos (faithful : corpus.Faithful text?) {counts : Tally} {n : Nat}
    (held : (d, counts) ∈ corpus.documents) (counted : (term, n) ∈ counts) : 0 < corpus.frequency term := by
  obtain ⟨text, found, rfl⟩ := faithful.mem_documents_iff.mp held
  have occurs : term ∈ Terms.ofText text := mem_keys_tally.mp (List.mem_map_of_mem counted)
  rw [← faithful.mem_postings_iff, faithful.postings.mem_postings_iff]
  exact ⟨d, text, found, occurs⟩

theorem Faithful.documents_perm (faithful : corpus.Faithful text?) (faithful' : corpus'.Faithful text?) :
    corpus.documents.Perm corpus'.documents := by
  refine (List.perm_ext_iff_of_nodup (List.Nodup.of_map _ faithful.nodup)
    (List.Nodup.of_map _ faithful'.nodup)).mpr ?_
  rintro ⟨d, counts⟩
  rw [faithful.mem_documents_iff, faithful'.mem_documents_iff]

theorem Faithful.frequency_eq (faithful : corpus.Faithful text?) (faithful' : corpus'.Faithful text?)
    (term : String) : corpus.frequency term = corpus'.frequency term := by
  refine List.Perm.length_eq ((List.perm_ext_iff_of_nodup (faithful.postings.nodup term)
    (faithful'.postings.nodup term)).mpr fun d => ?_)
  rw [faithful.postings.mem_iff, faithful'.postings.mem_iff]

end Held

end Corpus

/-! ## Builders -/

namespace Builder

variable [DecidableEq D]

/-- Adds several documents, one after the other. -/
def addAll (builder : Builder D) (texts : List (D × String)) : Except String (Builder D) :=
  texts.foldlM (fun builder entry => builder.add entry.1 entry.2) builder

/-- An open builder accepts every sequence. -/
theorem addAll_of_open (corpus : Corpus D) (texts : List (D × String)) :
    addAll ⟨corpus, false⟩ texts =
      .ok ⟨texts.foldl (fun corpus entry => corpus.put entry.1 entry.2) corpus, false⟩ := by
  induction texts generalizing corpus with
  | nil => rfl
  | cons entry texts ih =>
    rw [addAll, List.foldlM_cons]
    exact ih (corpus.put entry.1 entry.2)

theorem addAll_empty (texts : List (D × String)) :
    Builder.empty.addAll texts = .ok ⟨.ofTexts texts, false⟩ :=
  addAll_of_open .empty texts

end Builder

end Licensing.Similarity
