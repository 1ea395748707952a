import Licensing.Text.Alphanumeric
import Licensing.Text.Blank
import Licensing.Text.Lowercase

/-! # White space beside the other classes of characters

White space is neither a letter nor a digit, has no case, and ends what a sigma can see of its word.  So the words of
a text are lower-cased one by one: what stands before a white space character has no influence on what stands behind
it (`lower_append_blank`).
-/

namespace Licensing.Text

variable {c : Char} {text rest before : List Char}

/-- The code points of a class. -/
def CodeRanges.codes (ranges : CodeRanges) : List Nat :=
  ranges.flatMap fun (first, last) => List.range' first (last + 1 - first)

theorem CodeRanges.mem_codes_of_has {ranges : CodeRanges} (inside : ranges.has c = true) : c.toNat ∈ ranges.codes := by
  obtain ⟨range, member, above, below⟩ := CodeRanges.has_iff.mp inside
  refine List.mem_flatMap.mpr ⟨range, member, List.mem_range'_1.mpr ⟨above, ?_⟩⟩
  omega

/-- What holds for every white space character of the table holds for white space. -/
theorem of_isBlank {P : Char → Prop} (each : ∀ code ∈ blanks.codes, P (Char.ofNat code)) (blank : isBlank c = true) :
    P c := by
  have found := each c.toNat (CodeRanges.mem_codes_of_has blank)
  rwa [Char.ofNat_toNat] at found

theorem isAlphanumeric_of_isBlank (blank : isBlank c = true) : isAlphanumeric c = false :=
  of_isBlank (P := fun c => isAlphanumeric c = false) (by decide +kernel) blank

theorem isDecimalDigit_of_isBlank (blank : isBlank c = true) : isDecimalDigit c = false :=
  of_isBlank (P := fun c => isDecimalDigit c = false) (by decide +kernel) blank

theorem ne_of_isBlank {d : Char} (blank : isBlank c = true) (solid : isBlank d = false) : c ≠ d := by
  rintro rfl
  simp [blank] at solid

/-- A text in which a search finds no white space. -/
theorem solid_of_any (none : text.any isBlank = false) : ∀ c ∈ text, isBlank c = false := by
  simpa using none

/-! ## Lower case -/

theorem lowerAfter_blank (blank : isBlank c = true) (before rest : List Char) :
    lowerAfter before (c :: rest) = c :: lowerAfter (c :: before) rest := by
  have plain : c.toLower = c ∧ smallLetter c = c :=
    of_isBlank (P := fun c => c.toLower = c ∧ smallLetter c = c) (by decide +kernel) blank
  have sigma : c ≠ 'Σ' := ne_of_isBlank blank (by decide)
  have dotted : c ≠ 'İ' := ne_of_isBlank blank (by decide)
  by_cases ascii : c.toNat < 0x80
  · simp [lowerAfter, ascii, plain]
  · simp [lowerAfter, ascii, sigma, dotted, plain]

/-- No cased character is seen beyond a white space character. -/
theorem reachesCased_append_blank (blank : isBlank c = true) (text rest : List Char) :
    reachesCased (text ++ c :: rest) = reachesCased text := by
  have caseless : caseIgnorable.has c = false ∧ casedCharacters.has c = false :=
    of_isBlank (P := fun c => caseIgnorable.has c = false ∧ casedCharacters.has c = false) (by decide +kernel) blank
  induction text with
  | nil => simp [reachesCased, caseless]
  | cons d text ih =>
    by_cases ignorable : caseIgnorable.has d = true
    · simpa [reachesCased, List.dropWhile_cons, ignorable] using ih
    · simp [reachesCased, ignorable]

theorem lowerAfter_append_before (blank : isBlank c = true) (before far text : List Char) :
    lowerAfter (before ++ c :: far) text = lowerAfter before text := by
  induction text generalizing before with
  | nil => rfl
  | cons d text ih =>
    have further := ih (d :: before)
    rw [List.cons_append] at further
    simp only [lowerAfter, further, reachesCased_append_blank blank]

theorem lowerAfter_append_blank (blank : isBlank c = true) (before text rest : List Char) :
    lowerAfter before (text ++ c :: rest) = lowerAfter before text ++ c :: lower rest := by
  induction text generalizing before with
  | nil =>
    rw [List.nil_append, lowerAfter_blank blank]
    exact congrArg (c :: ·) (lowerAfter_append_before blank [] before rest)
  | cons d text ih =>
    rw [List.cons_append]
    simp only [lowerAfter, reachesCased_append_blank blank, ih, List.append_assoc]

theorem lower_append_blank (blank : isBlank c = true) (text rest : List Char) :
    lower (text ++ c :: rest) = lower text ++ c :: lower rest :=
  lowerAfter_append_blank blank [] text rest

end Licensing.Text
