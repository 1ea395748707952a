import Licensing.Proofs.Terms.Spacing
import Mathlib.Data.List.Infix

/-! # Spellings in a text

A word that stands between blanks keeps what stands before and behind it apart, so that a text has the same terms with
any other word in its place that counts as the same.  This holds for each spelling of the table but one: the word of
copyright marks is cut off from `copyright-owner` before the table is asked.

* `Plain` — words that reach the table as they are written.
* `words_surrounded` — what a plain word adds to the words around it.
-/

namespace Licensing.Terms

open Licensing.Text

/-- A word that reaches the table of spellings as it is written: in small letters, without white space, brackets of
tags, and marks. -/
structure Plain (word : List Char) : Prop where
  nonempty : word ≠ []
  blanksNone : word.any isBlank = false
  opensNone : '<' ∉ word
  closesNone : '>' ∉ word
  small : lower word = word
  unmarked : ∀ rest ∈ word.tails, markLength rest = 0

theorem plain_iff {word : List Char} : Plain word ↔ word ≠ [] ∧ word.any isBlank = false ∧ '<' ∉ word ∧
    '>' ∉ word ∧ lower word = word ∧ ∀ rest ∈ word.tails, markLength rest = 0 :=
  ⟨fun ⟨nonempty, solid, opens, closes, small, unmarked⟩ => ⟨nonempty, solid, opens, closes, small, unmarked⟩,
    fun ⟨nonempty, solid, opens, closes, small, unmarked⟩ => ⟨nonempty, solid, opens, closes, small, unmarked⟩⟩

instance (word : List Char) : Decidable (Plain word) :=
  decidable_of_iff _ plain_iff.symm

variable {c : Char} {word : List Char}

/-! ## Tags around a word -/

/-- A text in which a plain word has its place, or from which it is left out. -/
def Holds (text : List Char → List Char) : Prop :=
  (∃ before behind, ∀ word, '<' ∉ word → '>' ∉ word → text word = before ++ word ++ behind) ∨
    ∃ rest, ∀ word, '<' ∉ word → '>' ∉ word → text word = rest

theorem Holds.cons {text : List Char → List Char} (c : Char) (holds : Holds text) :
    Holds fun word => c :: text word := by
  obtain ⟨before, behind, inside⟩ | ⟨rest, outside⟩ := holds
  · exact .inl ⟨c :: before, behind, fun word opens closes => by simp [inside word opens closes]⟩
  · exact .inr ⟨c :: rest, fun word opens closes => congrArg (c :: ·) (outside word opens closes)⟩

theorem Holds.congr {text other : List Char → List Char} (holds : Holds text)
    (same : ∀ word, '<' ∉ word → '>' ∉ word → other word = text word) : Holds other := by
  obtain ⟨before, behind, inside⟩ | ⟨rest, outside⟩ := holds
  · exact .inl ⟨before, behind, fun word opens closes => (same word opens closes).trans (inside word opens closes)⟩
  · exact .inr ⟨rest, fun word opens closes => (same word opens closes).trans (outside word opens closes)⟩

theorem holds_withoutTags (before behind : List Char) :
    Holds (fun word => withoutTags (before ++ word ++ behind)) ∧
      Holds fun word => withoutTags.insideTag (before ++ word ++ behind) := by
  induction before with
  | nil =>
    constructor
    · exact .inl ⟨[], withoutTags behind, fun word opens _ => by simp [withoutTags_append opens]⟩
    · exact .inr ⟨withoutTags.insideTag behind, fun word _ closes => by simp [insideTag_append closes]⟩
  | cons c before ih =>
    constructor
    · by_cases opens : c = '<'
      · subst opens
        -- Whether the bracket opens a tag is decided around the word, which has no bracket itself.
        by_cases closed : '>' ∈ before ++ behind
        · refine (ih.2.cons ' ').congr fun word _ closes => ?_
          have closed : '>' ∈ before ++ word ++ behind := by simp_all
          exact (withoutTags.eq_2 _).trans (if_pos (List.contains_iff_mem.mpr closed))
        · refine .inl ⟨'<' :: before, behind, fun word _ closes => ?_⟩
          have closed : '>' ∉ before ++ word ++ behind := by simp_all
          exact (withoutTags.eq_2 _).trans (if_neg (mt List.contains_iff_mem.mp closed))
      · refine (ih.1.cons c).congr fun word _ _ => ?_
        simp [withoutTags]
    · by_cases closes : c = '>'
      · refine ih.1.congr fun word _ _ => ?_
        simp [withoutTags.insideTag, closes]
      · refine ih.2.congr fun word _ _ => ?_
        simp [withoutTags.insideTag]

/-! ## Marks around a word -/

theorem isPrefixOf_append_blank {mark : List Char} (blank : isBlank c = true) (solid : ∀ d ∈ mark, isBlank d = false)
    (text rest : List Char) : mark.isPrefixOf (text ++ c :: rest) = mark.isPrefixOf text := by
  induction mark generalizing text with
  | nil => simp
  | cons d mark ih =>
    obtain ⟨here, solid⟩ := List.forall_mem_cons.mp solid
    cases text with
    | nil =>
      have other : (d == c) = false := beq_false_of_ne (ne_of_isBlank blank here).symm
      simp [List.isPrefixOf, other]
    | cons e text => simp [List.isPrefixOf, ih solid]

theorem markLength_append_blank (blank : isBlank c = true) (text rest : List Char) :
    markLength (text ++ c :: rest) = markLength text := by
  have found : copyrightMarks.find? (·.isPrefixOf (text ++ c :: rest)) = copyrightMarks.find? (·.isPrefixOf text) :=
    List.find?_congr fun mark member => isPrefixOf_append_blank blank (solid_of_mem_copyrightMarks mark member) ..
  rw [markLength, markLength, found]

theorem markLength_le (text : List Char) : markLength text ≤ text.length := by
  by_cases found : 0 < markLength text
  · obtain ⟨mark, -, begins, length⟩ := exists_mark found
    exact length ▸ begins.length_le
  · omega

/-- The text ends with white space. -/
def EndsBlank (text : List Char) : Prop :=
  ∃ before d, isBlank d = true ∧ text = before ++ [d]

theorem EndsBlank.append {text : List Char} (ends : EndsBlank text) (before : List Char) :
    EndsBlank (before ++ text) := by
  obtain ⟨begun, d, blank, rfl⟩ := ends
  exact ⟨before ++ begun, d, blank, (List.append_assoc ..).symm⟩

/-- What is written for one character does not depend on what stands behind the next white space; and a run of marks
goes on without a word, or begins with one. -/
theorem exists_collapsed_step (blank : isBlank c = true) (d : Char) (text : List Char) (inRun : Bool) :
    ∃ front skip after, skip ≤ text.length ∧
      (∀ rest, collapseFrom 0 inRun (d :: (text ++ c :: rest)) = front ++ collapseFrom skip after (text ++ c :: rest)) ∧
      (after = true → inRun = true ∧ front = [] ∨ EndsBlank front) := by
  have length (rest : List Char) : markLength (d :: (text ++ c :: rest)) = markLength (d :: text) :=
    markLength_append_blank blank (d :: text) rest
  have short : markLength (d :: text) ≤ text.length + 1 := markLength_le (d :: text)
  by_cases found : 0 < markLength (d :: text)
  · refine ⟨if inRun then [] else "copyright ".toList, markLength (d :: text) - 1, true, by omega, fun rest => ?_,
      fun _ => ?_⟩
    · rw [collapseFrom_mark (by rwa [length]), length]
    · cases inRun with
      | true => exact .inl ⟨rfl, rfl⟩
      | false => exact .inr ⟨"copyright".toList, ' ', by decide, rfl⟩
  · have none (rest : List Char) : markLength (d :: (text ++ c :: rest)) = 0 := by
      rw [length]
      omega
    cases dropped : inRun && isBlank d with
    | true =>
      refine ⟨[], 0, true, Nat.zero_le _, fun rest => ?_, fun _ => .inl ⟨(Bool.and_eq_true_iff.mp dropped).1, rfl⟩⟩
      rw [collapseFrom_other (none rest), dropped, if_pos rfl, List.nil_append]
    | false =>
      refine ⟨[d], 0, false, Nat.zero_le _, fun rest => ?_, nofun⟩
      rw [collapseFrom_other (none rest), dropped, if_neg Bool.false_ne_true, List.singleton_append]

/-- Up to a white space character, marks are collapsed without regard to what follows; and what is written up to there
ends with white space, unless it is nothing, as it can be within a run of marks. -/
theorem exists_collapsed (blank : isBlank c = true) (text : List Char) (skip : Nat) (inRun : Bool)
    (within : skip ≤ text.length) :
    ∃ front after, (∀ rest, collapseFrom skip inRun (text ++ c :: rest) = front ++ collapseFrom 0 after rest) ∧
      (inRun = true ∧ front = [] ∨ EndsBlank front) := by
  induction text generalizing skip inRun with
  | nil =>
    obtain rfl : skip = 0 := Nat.le_zero.mp within
    cases inRun with
    | true =>
      refine ⟨[], true, fun rest => ?_, .inl ⟨rfl, rfl⟩⟩
      simp [collapseFrom_other (markLength_of_isBlank blank rest), blank]
    | false =>
      refine ⟨[c], false, fun rest => ?_, .inr ⟨[], c, blank, rfl⟩⟩
      simp [collapseFrom_other (markLength_of_isBlank blank rest)]
  | cons d text ih =>
    cases skip with
    | succ skip =>
      simp only [List.cons_append, collapseFrom_succ]
      exact ih skip inRun (Nat.le_of_succ_le_succ within)
    | zero =>
      obtain ⟨front, skip, after, within, step, begins⟩ := exists_collapsed_step blank d text inRun
      obtain ⟨behind, last, collapsed, ends⟩ := ih skip after within
      refine ⟨front ++ behind, last, fun rest => ?_, ?_⟩
      · rw [List.cons_append, step, collapsed, List.append_assoc]
      · obtain ⟨inRun', rfl⟩ | ends := ends
        · simpa using begins inRun'
        · exact .inr (ends.append front)

/-- A plain word is written as it is. -/
theorem collapseFrom_plain (solid : ∀ c ∈ word, isBlank c = false) (unmarked : ∀ rest ∈ word.tails, markLength rest = 0)
    (nonempty : word ≠ []) (inRun : Bool) (rest : List Char) :
    collapseFrom 0 inRun (word ++ ' ' :: rest) = word ++ ' ' :: collapseFrom 0 false rest := by
  induction word generalizing inRun with
  | nil => exact absurd rfl nonempty
  | cons c word ih =>
    obtain ⟨here, solid⟩ := List.forall_mem_cons.mp solid
    have none : markLength (c :: (word ++ ' ' :: rest)) = 0 :=
      (markLength_append_blank (by decide) (c :: word) rest).trans (unmarked _ (by simp))
    rw [List.cons_append, collapseFrom_other none, here, Bool.and_false, if_neg Bool.false_ne_true]
    cases word with
    | nil =>
      have blank : isBlank ' ' = true := by decide
      rw [List.nil_append, collapseFrom_other (markLength_of_isBlank blank rest)]
      rfl
    | cons d word =>
      have behind : ∀ rest ∈ (d :: word).tails, markLength rest = 0 := fun rest member =>
        unmarked rest (List.mem_cons_of_mem _ member)
      rw [ih solid behind (List.cons_ne_nil _ _)]
      rfl

/-! ## Words around a word -/

/-- White space ends a piece. -/
theorem piecesFrom_append_blank (blank : isBlank c = true) (text rest begun : List Char) (afterBlank : Bool) :
    piecesFrom begun afterBlank (text ++ c :: rest) = piecesFrom begun afterBlank text ++ piecesFrom [] true rest := by
  induction text generalizing begun afterBlank with
  | nil => simp [piecesFrom_blank blank, piecesFrom]
  | cons d text ih =>
    have same : isSeparator d (text ++ c :: rest) = isSeparator d text := by
      cases text with
      | nil => simp [isSeparator, atEnd, atDigit, blank, isDecimalDigit_of_isBlank blank]
      | cons e text => rfl
    simp only [List.cons_append, piecesFrom, same, ih]
    split
    · rfl
    · rfl

/-- The words that count in the pieces of a text behind white space. -/
def countedIn (text : List Char) : List String :=
  (piecesFrom [] true text).filterMap countedWord?

theorem words_surrounded (before behind : String) :
    (∃ left right, ∀ word : String, Plain word.toList →
        words (before ++ " " ++ word ++ " " ++ behind) = left ++ countedIn word.toList ++ right) ∨
      ∃ all, ∀ word : String, Plain word.toList → words (before ++ " " ++ word ++ " " ++ behind) = all := by
  have blank : isBlank ' ' = true := by decide
  have spread (word : String) : (before ++ " " ++ word ++ " " ++ behind).toList =
      before.toList ++ (' ' :: word.toList ++ [' ']) ++ behind.toList := by
    simp
  have opens {word : List Char} (plain : Plain word) : '<' ∉ ' ' :: word ++ [' '] := by
    simp [plain.opensNone]
  have closes {word : List Char} (plain : Plain word) : '>' ∉ ' ' :: word ++ [' '] := by
    simp [plain.closesNone]
  obtain ⟨left, right, inside⟩ | ⟨all, outside⟩ := (holds_withoutTags before.toList behind.toList).1
  · obtain ⟨front, after, collapsed, ends⟩ := exists_collapsed blank (lower left) 0 false (Nat.zero_le _)
    obtain ⟨never, -⟩ | ⟨begun, d, last, rfl⟩ := ends
    · cases never
    refine .inl ⟨(pieces begun).filterMap countedWord?, countedIn (collapseFrom 0 false (lower right)),
      fun word plain => ?_⟩
    have text : withoutTags (before ++ " " ++ word ++ " " ++ behind).toList =
        left ++ ' ' :: (word.toList ++ ' ' :: right) := by
      rw [spread]
      exact (inside _ (opens plain) (closes plain)).trans (by simp)
    rw [words, text, lower_append_blank blank, lower_append_blank blank, plain.small, collapseCopyright, collapsed,
      collapseFrom_plain (solid_of_any plain.blanksNone) plain.unmarked plain.nonempty, List.append_assoc,
      List.singleton_append, pieces, piecesFrom_append_blank last, piecesFrom_append_blank blank,
      List.filterMap_append, List.filterMap_append, ← List.append_assoc]
    rfl
  · refine .inr ⟨(pieces (collapseCopyright (lower all))).filterMap countedWord?, fun word plain => ?_⟩
    rw [words, spread]
    exact congrArg (fun text => (pieces (collapseCopyright (lower text))).filterMap countedWord?)
      (outside _ (opens plain) (closes plain))

/-- Words that count as the same can take each other's place between blanks. -/
theorem ofText_swap {word other : String} (plain : Plain word.toList) (plain' : Plain other.toList)
    (same : countedIn word.toList = countedIn other.toList) (before behind : String) :
    ofText (before ++ " " ++ word ++ " " ++ behind) = ofText (before ++ " " ++ other ++ " " ++ behind) := by
  have words : words (before ++ " " ++ word ++ " " ++ behind) = words (before ++ " " ++ other ++ " " ++ behind) := by
    obtain ⟨left, right, inside⟩ | ⟨all, outside⟩ := words_surrounded before behind
    · rw [inside word plain, inside other plain', same]
    · rw [outside word plain, outside other plain']
  rw [ofText, ofText, words]

theorem plain_of_mem_spellings : ∀ spelling ∈ spellings, spelling.1 ≠ "copyright-owner" →
    Plain spelling.1.toList ∧ Plain spelling.2.toList ∧ countedIn spelling.1.toList = countedIn spelling.2.toList := by
  decide +kernel

/-- The mark is cut off before the table is asked, and the rest of the word is not in the table. -/
theorem ofText_copyright_owner : ofText " copyright-owner " ≠ ofText " copyright-holder " := by
  have owner : ofText " copyright-owner " = ["copyright", "-owner", "copyright -owner"] := by decide +kernel
  have holder : ofText " copyright-holder " = ["copyright", "-holder", "copyright -holder"] := by decide +kernel
  rw [owner, holder]
  decide

/-- A spelling of the table can take the place of the form that it counts as, and leaves the terms of every text as
they are; only `copyright-owner` cannot. -/
theorem interchangeable_iff (spelling : String × String) (listed : spelling ∈ spellings) :
    (∀ before behind : String, ofText (before ++ " " ++ spelling.1 ++ " " ++ behind) =
      ofText (before ++ " " ++ spelling.2 ++ " " ++ behind)) ↔ spelling.1 ≠ "copyright-owner" := by
  constructor
  · intro interchangeable owner
    have holder : ∀ spelling ∈ spellings, spelling.1 = "copyright-owner" → spelling.2 = "copyright-holder" := by
      decide +kernel
    have alone := interchangeable "" ""
    rw [owner, holder spelling listed owner] at alone
    exact ofText_copyright_owner alone
  · intro other
    obtain ⟨plain, plain', same⟩ := plain_of_mem_spellings spelling listed other
    exact ofText_swap plain plain' same

theorem interchangeable_licence : ("licence", "license") ∈ spellings ∧ ∀ before behind : String,
    ofText (before ++ " " ++ "licence" ++ " " ++ behind) = ofText (before ++ " " ++ "license" ++ " " ++ behind) := by
  have listed : ("licence", "license") ∈ spellings := by decide
  exact ⟨listed, (interchangeable_iff ("licence", "license") listed).mpr (by decide)⟩

/-- The table has a spelling that cannot take the place of the form that it counts as. -/
theorem not_interchangeable : ¬ ∀ spelling ∈ spellings, ∀ before behind : String,
    ofText (before ++ " " ++ spelling.1 ++ " " ++ behind) = ofText (before ++ " " ++ spelling.2 ++ " " ++ behind) := by
  intro interchangeable
  exact ofText_copyright_owner (interchangeable ("copyright-owner", "copyright-holder") (by decide) "" "")

end Licensing.Terms
