import Licensing.Proofs.Text.Blank
import Licensing.Terms.Words
import Mathlib.Data.List.Find

/-! # White space between terms

White space parts words and has no other meaning: texts that differ in nothing but what their white space is made of
have the same terms.

* `Respaced` — such texts.  Each step from a text to its words keeps the relation, and in the end the pieces of such
  texts differ in empty ones only.
* `ofText_respaced` — such texts have the same terms.
-/

namespace Licensing.Terms

open Licensing.Text

/-- The texts are the same but for their white space: a run of it in the one stands against a run in the other. -/
inductive Respaced : List Char → List Char → Prop where
  | nil : Respaced [] []
  | keep (c : Char) {text other : List Char} (same : Respaced text other) : Respaced (c :: text) (c :: other)
  | run {first first' : Char} {space space' text other : List Char} (blank : ∀ c ∈ first :: space, isBlank c = true)
      (blank' : ∀ c ∈ first' :: space', isBlank c = true) (same : Respaced text other) :
      Respaced (first :: space ++ text) (first' :: space' ++ other)

/-! ## Marks -/

theorem solid_of_mem_copyrightMarks : ∀ mark ∈ copyrightMarks, ∀ c ∈ mark, isBlank c = false := by
  have none : ∀ mark ∈ copyrightMarks, mark.any isBlank = false := by decide +kernel
  exact fun mark member => solid_of_any (none mark member)

theorem exists_mark {text : List Char} (found : 0 < markLength text) :
    ∃ mark ∈ copyrightMarks, mark <+: text ∧ markLength text = mark.length := by
  cases first : copyrightMarks.find? (·.isPrefixOf text) with
  | none => simp [markLength, first] at found
  | some mark =>
    have begins : mark.isPrefixOf text = true :=
      List.find?_some (p := fun mark : List Char => mark.isPrefixOf text) first
    exact ⟨mark, List.mem_of_find?_eq_some first, List.isPrefixOf_iff_prefix.mp begins, by simp [markLength, first]⟩

/-- There is no white space in a mark. -/
theorem solid_of_markLength {text : List Char} (found : 0 < markLength text) :
    ∀ c ∈ text.take (markLength text), isBlank c = false := by
  obtain ⟨mark, listed, begins, length⟩ := exists_mark found
  rw [length, ← List.prefix_iff_eq_take.mp begins]
  exact solid_of_mem_copyrightMarks mark listed

theorem markLength_of_isBlank {c : Char} (blank : isBlank c = true) (text : List Char) :
    markLength (c :: text) = 0 := by
  refine Nat.eq_zero_of_not_pos fun found => ?_
  have solid := solid_of_markLength found c
  obtain ⟨length, positive⟩ := Nat.exists_eq_add_of_lt found
  simp [positive, blank] at solid

theorem collapseFrom_succ (skip : Nat) (inRun : Bool) (c : Char) (rest : List Char) :
    collapseFrom (skip + 1) inRun (c :: rest) = collapseFrom skip inRun rest := by
  simp [collapseFrom]

theorem collapseFrom_mark {c : Char} {rest : List Char} (found : 0 < markLength (c :: rest)) (inRun : Bool) :
    collapseFrom 0 inRun (c :: rest) =
      (if inRun then [] else "copyright ".toList) ++ collapseFrom (markLength (c :: rest) - 1) true rest := by
  cases inRun with
  | true => simp [collapseFrom, found]
  | false => simp [collapseFrom, found]

theorem collapseFrom_other {c : Char} {rest : List Char} (none : markLength (c :: rest) = 0) (inRun : Bool) :
    collapseFrom 0 inRun (c :: rest) =
      if inRun && isBlank c then collapseFrom 0 true rest else c :: collapseFrom 0 false rest := by
  simp [collapseFrom, none]

/-! ## Tags -/

theorem withoutTags_append {word : List Char} (opens : '<' ∉ word) (behind : List Char) :
    withoutTags (word ++ behind) = word ++ withoutTags behind := by
  induction word with
  | nil => rfl
  | cons c word ih =>
    obtain ⟨other, opens⟩ := not_or.mp (List.mem_cons.not.mp opens)
    rw [List.cons_append, withoutTags.eq_3 _ _ (Ne.symm other), ih opens, List.cons_append]

theorem insideTag_append {word : List Char} (closes : '>' ∉ word) (behind : List Char) :
    withoutTags.insideTag (word ++ behind) = withoutTags.insideTag behind := by
  induction word with
  | nil => rfl
  | cons c word ih =>
    obtain ⟨other, closes⟩ := not_or.mp (List.mem_cons.not.mp closes)
    rw [List.cons_append, withoutTags.insideTag.eq_3 _ _ (Ne.symm other), ih closes]

/-! ## White space in front of a text -/

theorem isSeparator_of_isBlank {c : Char} (blank : isBlank c = true) (rest : List Char) :
    isSeparator c rest = true := by
  have underscore : c ≠ '_' := ne_of_isBlank blank (by decide)
  have dot : c ≠ '.' := ne_of_isBlank blank (by decide)
  have dash : c ≠ '-' := ne_of_isBlank blank (by decide)
  have letter : c ≠ 'v' := ne_of_isBlank blank (by decide)
  simp [isSeparator, underscore, dot, dash, letter, isAlphanumeric_of_isBlank blank]

theorem piecesFrom_blank {c : Char} (blank : isBlank c = true) (begun : List Char) (afterBlank : Bool)
    (rest : List Char) : piecesFrom begun afterBlank (c :: rest) = begun.reverse :: piecesFrom [] true rest := by
  simp [piecesFrom, isSeparator_of_isBlank blank, blank]

section Blanks

variable {space : List Char} (blank : ∀ c ∈ space, isBlank c = true)

include blank

theorem not_mem_of_blanks {d : Char} (solid : isBlank d = false) : d ∉ space := fun member => by
  simp [blank d member] at solid

theorem collapseFrom_append_blanks (inRun : Bool) (text : List Char) :
    collapseFrom 0 inRun (space ++ text) = (if inRun then [] else space) ++ collapseFrom 0 inRun text := by
  induction space with
  | nil => simp
  | cons c space ih =>
    obtain ⟨here, blank⟩ := List.forall_mem_cons.mp blank
    rw [List.cons_append, collapseFrom_other (markLength_of_isBlank here _)]
    cases inRun with
    | true => simpa [here] using ih blank
    | false => simpa using ih blank

/-- Between white space characters there are empty pieces only. -/
theorem filterMap_piecesFrom_append_blanks (text : List Char) :
    (piecesFrom [] true (space ++ text)).filterMap countedWord? =
      (piecesFrom [] true text).filterMap countedWord? := by
  induction space with
  | nil => rfl
  | cons c space ih =>
    obtain ⟨here, blank⟩ := List.forall_mem_cons.mp blank
    rw [List.cons_append, piecesFrom_blank here, List.filterMap_cons_none (by rfl), ih blank]

end Blanks

theorem lowerAfter_append_blanks {first : Char} {space : List Char}
    (blank : ∀ c ∈ first :: space, isBlank c = true) (before text : List Char) :
    lowerAfter before (first :: space ++ text) = first :: space ++ lower text := by
  induction space generalizing first before with
  | nil => exact lowerAfter_append_blank (blank first List.mem_cons_self) before [] text
  | cons second space ih =>
    obtain ⟨here, blank⟩ := List.forall_mem_cons.mp blank
    rw [List.cons_append, lowerAfter_blank here, ih blank]
    rfl

namespace Respaced

variable {text other mark : List Char} {d : Char}

theorem append (common : List Char) (same : Respaced text other) : Respaced (common ++ text) (common ++ other) := by
  induction common with
  | nil => exact same
  | cons c common ih => exact .keep c ih

/-! ## What such texts have in common -/

theorem mem_iff (solid : isBlank d = false) (same : Respaced text other) : d ∈ text ↔ d ∈ other := by
  induction same with
  | nil => rfl
  | keep c _ ih => simp [ih]
  | run blank blank' _ ih =>
    rw [List.mem_append, List.mem_append, or_iff_right (not_mem_of_blanks blank solid),
      or_iff_right (not_mem_of_blanks blank' solid)]
    exact ih

theorem isPrefixOf_eq (solid : ∀ c ∈ mark, isBlank c = false) (same : Respaced text other) :
    mark.isPrefixOf text = mark.isPrefixOf other := by
  induction mark generalizing text other with
  | nil => rfl
  | cons d mark ih =>
    obtain ⟨here, solid⟩ := List.forall_mem_cons.mp solid
    cases same with
    | nil => rfl
    | keep c same => simp [List.isPrefixOf, ih solid same]
    | run blank blank' same =>
      have outside : (d == _) = false := beq_false_of_ne (ne_of_isBlank (blank _ List.mem_cons_self) here).symm
      have outside' : (d == _) = false := beq_false_of_ne (ne_of_isBlank (blank' _ List.mem_cons_self) here).symm
      simp [List.isPrefixOf, outside, outside']

theorem atEnd_eq (same : Respaced text other) : atEnd text = atEnd other := by
  cases same with
  | nil => rfl
  | keep c same => rfl
  | run blank blank' same => exact (blank _ List.mem_cons_self).trans (blank' _ List.mem_cons_self).symm

theorem atDigit_eq (same : Respaced text other) : atDigit text = atDigit other := by
  cases same with
  | nil => rfl
  | keep c same => rfl
  | run blank blank' same =>
    exact (isDecimalDigit_of_isBlank (blank _ List.mem_cons_self)).trans
      (isDecimalDigit_of_isBlank (blank' _ List.mem_cons_self)).symm

theorem reachesCased_eq (same : Respaced text other) : reachesCased text = reachesCased other := by
  induction same with
  | nil => rfl
  | keep c _ ih =>
    by_cases ignorable : caseIgnorable.has c = true
    · simpa [reachesCased, List.dropWhile_cons, ignorable] using ih
    · simp [reachesCased, ignorable]
  | run blank blank' _ _ =>
    exact (reachesCased_append_blank (blank _ List.mem_cons_self) [] _).trans
      (reachesCased_append_blank (blank' _ List.mem_cons_self) [] _).symm

/-! ## From a text to its words -/

theorem tags (same : Respaced text other) : Respaced (withoutTags text) (withoutTags other) ∧
    Respaced (withoutTags.insideTag text) (withoutTags.insideTag other) := by
  induction same with
  | nil => exact ⟨.nil, .nil⟩
  | @keep c text other same ih =>
    constructor
    · by_cases opens : c = '<'
      · -- A bracket opens a tag only if a closing one follows, which is the same in both texts.
        have closes : text.contains '>' = other.contains '>' := by
          rw [Bool.eq_iff_iff, List.contains_iff_mem, List.contains_iff_mem]
          exact same.mem_iff (by decide)
        subst opens
        rw [withoutTags, withoutTags, closes]
        split
        · exact ih.2.keep ' '
        · exact same.keep '<'
      · simpa [withoutTags, opens] using ih.1.keep c
    · by_cases closes : c = '>'
      · simpa [withoutTags.insideTag, closes] using ih.1
      · simpa [withoutTags.insideTag, closes] using ih.2
  | run blank blank' _ ih =>
    have opens {space : List Char} (blank : ∀ c ∈ space, isBlank c = true) := not_mem_of_blanks blank (d := '<') rfl
    have closes {space : List Char} (blank : ∀ c ∈ space, isBlank c = true) := not_mem_of_blanks blank (d := '>') rfl
    rw [withoutTags_append (opens blank), withoutTags_append (opens blank'), insideTag_append (closes blank),
      insideTag_append (closes blank')]
    exact ⟨ih.1.run blank blank', ih.2⟩

theorem lowered (same : Respaced text other) (before : List Char) :
    Respaced (lowerAfter before text) (lowerAfter before other) := by
  induction same generalizing before with
  | nil => exact .nil
  | keep c same ih =>
    simp only [lowerAfter, same.reachesCased_eq]
    exact .append _ (ih _)
  | run blank blank' _ ih =>
    rw [lowerAfter_append_blanks blank, lowerAfter_append_blanks blank']
    exact .run blank blank' (ih [])

theorem markLength_eq (same : Respaced text other) : markLength text = markLength other := by
  have found : copyrightMarks.find? (·.isPrefixOf text) = copyrightMarks.find? (·.isPrefixOf other) :=
    List.find?_congr fun mark member => isPrefixOf_eq (solid_of_mem_copyrightMarks mark member) same
  rw [markLength, markLength, found]

/-- The characters that are passed over belong to a mark, so there is no white space among them. -/
theorem collapsed (same : Respaced text other) (skip : Nat) (inRun : Bool)
    (solid : ∀ c ∈ text.take skip, isBlank c = false) :
    Respaced (collapseFrom skip inRun text) (collapseFrom skip inRun other) := by
  induction same generalizing skip inRun with
  | nil => exact .nil
  | @keep c text other same ih =>
    cases skip with
    | succ skip =>
      rw [List.take_succ_cons] at solid
      rw [collapseFrom_succ, collapseFrom_succ]
      exact ih skip inRun (List.forall_mem_cons.mp solid).2
    | zero =>
      have length : markLength (c :: text) = markLength (c :: other) := (same.keep c).markLength_eq
      cases found : markLength (c :: text) with
      | succ skip =>
        have inside := @solid_of_markLength (c :: text) (by omega)
        rw [found, List.take_succ_cons] at inside
        rw [collapseFrom_mark (by omega), collapseFrom_mark (by omega), ← length, found]
        exact .append _ (ih skip true (List.forall_mem_cons.mp inside).2)
      | zero =>
        rw [collapseFrom_other found, collapseFrom_other (length ▸ found)]
        split
        · exact ih 0 true (by simp)
        · exact .keep c (ih 0 false (by simp))
  | run blank blank' _ ih =>
    cases skip with
    | succ skip => simp [blank] at solid
    | zero =>
      -- Within a run of marks the white space is passed over, else it is kept.
      rw [collapseFrom_append_blanks blank, collapseFrom_append_blanks blank']
      cases inRun with
      | true => exact ih 0 true (by simp)
      | false => exact .run blank blank' (ih 0 false (by simp))

theorem isSeparator_eq (c : Char) (same : Respaced text other) : isSeparator c text = isSeparator c other := by
  simp only [isSeparator, same.atEnd_eq, same.atDigit_eq]

theorem pieces_counted (same : Respaced text other) (begun : List Char) (afterBlank : Bool) :
    (piecesFrom begun afterBlank text).filterMap countedWord? =
      (piecesFrom begun afterBlank other).filterMap countedWord? := by
  induction same generalizing begun afterBlank with
  | nil => rfl
  | keep c same ih =>
    simp only [piecesFrom, same.isSeparator_eq]
    split
    · simp only [List.filterMap_cons, ih]
    · exact ih _ _
  | run blank blank' _ ih =>
    obtain ⟨here, blank⟩ := List.forall_mem_cons.mp blank
    obtain ⟨here', blank'⟩ := List.forall_mem_cons.mp blank'
    simp only [List.cons_append, piecesFrom_blank here, piecesFrom_blank here', List.filterMap_cons,
      filterMap_piecesFrom_append_blanks blank, filterMap_piecesFrom_append_blanks blank', ih]

end Respaced

/-! ## Words and terms -/

theorem words_respaced {text other : String} (same : Respaced text.toList other.toList) : words text = words other := by
  have lowered : Respaced (lower (withoutTags text.toList)) (lower (withoutTags other.toList)) :=
    same.tags.1.lowered []
  exact (lowered.collapsed 0 false (by simp)).pieces_counted [] false

/-- White space parts words and has no other meaning: texts that differ only in what their runs of white space are
made of have the same terms. -/
theorem ofText_respaced (text other : String) (same : Respaced text.toList other.toList) :
    ofText text = ofText other := by
  rw [ofText, ofText, words_respaced same]

/-- White space of several kinds behind a mark, in front of a dot, between a capital sigma and a tag, and at the end. -/
theorem ofText_respaced_around_marks_and_dots :
    Respaced "(c)\t2020 ΟΔΟΣ\n<b>.NET</b> v2.1. ".toList "(c) \n2020 ΟΔΟΣ\u3000<b>.NET</b>\u2028v2.1.\t\n".toList ∧
      ofText "(c)\t2020 ΟΔΟΣ\n<b>.NET</b> v2.1. " = ofText "(c) \n2020 ΟΔΟΣ\u3000<b>.NET</b>\u2028v2.1.\t\n" := by
  have blanks {space : List Char} (all : space.all isBlank = true) : ∀ c ∈ space, isBlank c = true :=
    List.all_eq_true.mp all
  have same : Respaced "(c)\t2020 ΟΔΟΣ\n<b>.NET</b> v2.1. ".toList
      "(c) \n2020 ΟΔΟΣ\u3000<b>.NET</b>\u2028v2.1.\t\n".toList :=
    .append "(c)".toList (@Respaced.run '\t' ' ' [] ['\n'] _ _ (blanks rfl) (blanks rfl)
      (.append "2020 ΟΔΟΣ".toList (@Respaced.run '\n' '\u3000' [] [] _ _ (blanks rfl) (blanks rfl)
        (.append "<b>.NET</b>".toList (@Respaced.run ' ' '\u2028' [] [] _ _ (blanks rfl) (blanks rfl)
          (.append "v2.1.".toList (@Respaced.run ' ' '\t' [] ['\n'] _ _ (blanks rfl) (blanks rfl) .nil)))))))
  exact ⟨same, ofText_respaced _ _ same⟩

end Licensing.Terms
