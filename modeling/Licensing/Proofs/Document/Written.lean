import Licensing.Document.Toml.Sections
import Licensing.Proofs.Text.Raw

/-! # Written values read back

A string in double quotes reads as the text that it was written for, whatever characters the text has
(`readsAs_writtenString`), and an array of strings as the list of its texts (`readsAs_writtenStrings`).
What is read ends where the written value ends, so that a value may stand anywhere but in front of a quote.
Without surrogates, this is how a new value is written (`NewValue.exists_readsAs`).
-/

namespace Licensing.Document.Toml

/-! ## Texts -/

/-- A string in double quotes. -/
def writtenString (text : String) : String :=
  String.ofList ('"' :: text.toList.flatMap writtenCharacter ++ ['"'])

/-- An array of strings. -/
def writtenStrings (texts : List String) : String :=
  "[" ++ ", ".intercalate (texts.map writtenString) ++ "]"

/-! ## Characters -/

/-- Four digits write a small code point. -/
theorem hexDigits_spec : ∀ n < 0x80,
    (Text.hexDigits 4 n).length = 4 ∧ (Text.hexDigits 4 n).all isHexDigit = true ∧
      scalar? (numberIn 16 (Text.hexDigits 4 n)) = some (Char.ofNat n) := by
  decide +kernel

theorem readEscape?_hexDigits {c : Char} (small : c.toNat < 0x80) (rest : List Char) :
    readEscape? false ('u' :: (Text.hexDigits 4 c.toNat ++ rest)) = some ([c], rest) := by
  obtain ⟨four, digits, value⟩ := hexDigits_spec c.toNat small
  have taken : (Text.hexDigits 4 c.toNat ++ rest).take 4 = Text.hexDigits 4 c.toNat := List.take_left' four
  have left : (Text.hexDigits 4 c.toNat ++ rest).drop 4 = rest := List.drop_left' four
  simp [readEscape?, hexCharacter?, taken, left, four, digits, value]

/-- A character is written as itself, by a letter behind a backslash, or by its code point. -/
theorem writtenCharacter_cases (c : Char) :
    (writtenCharacter c = [c] ∧ c ≠ '"' ∧ c ≠ '\\' ∧ isControl c = false) ∨
    (∃ letter, writtenCharacter c = ['\\', letter] ∧ escaped? letter = some c) ∨
    (writtenCharacter c = '\\' :: 'u' :: Text.hexDigits 4 c.toNat ∧ c.toNat < 0x80) := by
  -- Seven characters have a letter of their own; of the others, only control characters are escaped.
  by_cases short : c ∈ ['"', '\\', '\n', '\t', '\r', '\x08', '\x0c']
  · refine .inr (.inl ?_)
    simp only [List.mem_cons, List.not_mem_nil, or_false] at short
    obtain rfl | rfl | rfl | rfl | rfl | rfl | rfl := short <;> exact ⟨_, rfl, rfl⟩
  · simp only [List.mem_cons, List.not_mem_nil, or_false, not_or] at short
    obtain ⟨quote, backslash, feed, tab, carriage, back, page⟩ := short
    simp only [writtenCharacter, if_neg quote, if_neg backslash, if_neg feed, if_neg tab, if_neg carriage,
      if_neg back, if_neg page]
    split
    next control =>
      simp only [Bool.or_eq_true, decide_eq_true_eq] at control
      exact .inr (.inr ⟨rfl, by omega⟩)
    next plain =>
      simp only [Bool.or_eq_true, decide_eq_true_eq, not_or] at plain
      exact .inl ⟨rfl, quote, backslash, by simp [isControl, plain.1, plain.2]⟩

theorem readBasic?_writtenCharacter (c : Char) (fuel : Nat) (done rest : List Char) :
    readBasic? false (fuel + 1) done (writtenCharacter c ++ rest) = readBasic? false fuel (c :: done) rest := by
  obtain ⟨written, quote, backslash, plain⟩ | ⟨letter, written, means⟩ | ⟨written, small⟩ :=
    writtenCharacter_cases c
  · simp [written, readBasic?, plain]
  · -- No escape by a letter is one by a code point.
    have short : readEscape? false (letter :: rest) = some ([c], rest) := by
      unfold readEscape?
      split
      next same => simp [(List.cons.inj same).1, escaped?] at means
      next same => simp [(List.cons.inj same).1, escaped?] at means
      next same =>
        obtain ⟨rfl, rfl⟩ := List.cons.inj same
        simp [means]
      next same => cases same
    simp [written, readBasic?, short]
  · simp [written, readBasic?, readEscape?_hexDigits small]

theorem head?_writtenCharacter (c : Char) : ∃ first more, writtenCharacter c = first :: more ∧ first ≠ '"' := by
  obtain ⟨written, quote, -⟩ | ⟨letter, written, -⟩ | ⟨written, -⟩ := writtenCharacter_cases c
  · exact ⟨_, _, written, quote⟩
  · exact ⟨_, _, written, by decide⟩
  · exact ⟨_, _, written, by decide⟩

theorem return_not_mem_writtenCharacter (c : Char) : '\r' ∉ writtenCharacter c := by
  intro inside
  obtain ⟨written, -, -, plain⟩ | ⟨letter, written, means⟩ | ⟨written, small⟩ := writtenCharacter_cases c
  · -- A return is a control character, and those are not written as themselves.
    rw [written, List.mem_singleton] at inside
    exact absurd (inside ▸ plain) (by decide)
  · simp only [written, List.mem_cons, List.not_mem_nil, or_false] at inside
    obtain wrong | rfl := inside
    · exact absurd wrong (by decide)
    · cases means
  · obtain ⟨-, digits, -⟩ := hexDigits_spec c.toNat small
    simp only [written, List.mem_cons] at inside
    obtain wrong | wrong | inside := inside
    · exact absurd wrong (by decide)
    · exact absurd wrong (by decide)
    · exact absurd (List.all_eq_true.mp digits _ inside) (by decide)

/-! ## Strings -/

theorem readBasic?_written (text : List Char) {fuel : Nat} (enough : text.length < fuel) (done rest : List Char) :
    readBasic? false fuel done (text.flatMap writtenCharacter ++ '"' :: rest) =
      some (done.reverse ++ text, rest) := by
  induction text generalizing fuel done with
  | nil =>
    obtain ⟨fuel, rfl⟩ : ∃ n, fuel = n + 1 := ⟨fuel - 1, by simp at enough; omega⟩
    simp [readBasic?]
  | cons c text ih =>
    obtain ⟨fuel, rfl⟩ : ∃ n, fuel = n + 1 := ⟨fuel - 1, by simp at enough; omega⟩
    rw [List.flatMap_cons, List.append_assoc, readBasic?_writtenCharacter, ih (by simpa using enough)]
    simp

theorem length_le_written (text : List Char) : text.length ≤ (text.flatMap writtenCharacter).length := by
  induction text with
  | nil => simp
  | cons c text ih =>
    obtain ⟨first, more, written, -⟩ := head?_writtenCharacter c
    simp only [List.flatMap_cons, List.length_append, List.length_cons, written]
    omega

theorem toList_writtenString (text : String) :
    (writtenString text).toList = '"' :: (text.toList.flatMap writtenCharacter ++ ['"']) := by
  simp [writtenString]

theorem readString?_writtenString (text : String) {rest : List Char} (unquoted : rest.head? ≠ some '"') :
    readString? ((writtenString text).toList ++ rest) = some (text, rest) := by
  -- Two more quotes behind the first would open a string of several lines.
  have single (more : List Char) : text.toList.flatMap writtenCharacter ++ '"' :: rest ≠ '"' :: '"' :: more := by
    intro same
    cases chars : text.toList with
    | nil =>
      rw [chars] at same
      simp [(List.cons.inj same).2] at unquoted
    | cons c others =>
      obtain ⟨first, _, written, other⟩ := head?_writtenCharacter c
      rw [chars, List.flatMap_cons, written] at same
      exact other (List.cons.inj same).1
  have enough : text.toList.length < (text.toList.flatMap writtenCharacter ++ '"' :: rest).length + 1 := by
    have := length_le_written text.toList
    rw [List.length_append]
    omega
  have read := readBasic?_written text.toList enough [] rest
  rw [toList_writtenString, List.cons_append, List.append_assoc, List.singleton_append]
  unfold readString?
  split
  next same => exact absurd (List.cons.inj same).2 (single _)
  next same =>
    rw [← (List.cons.inj same).2, read]
    simp
  next other _ same => exact absurd (List.cons.inj same).1 (by decide)
  next same => exact absurd (List.cons.inj same).1 (by decide)
  next _ other _ _ => exact absurd rfl (other _)

/-! ## Values -/

/-- Text on one line that reads as a value wherever no quote follows, given enough fuel. -/
structure ReadsAs (written : List Char) (value : Datum) : Prop where
  starts : ∃ first more, written = first :: more ∧ isGap first = false
  noReturn : '\r' ∉ written
  read : ∀ (fuel : Nat) (rest : List Char), rest.head? ≠ some '"' → written.length ≤ fuel →
    readValue? fuel (written ++ rest) = some (value, rest)

theorem return_not_mem_writtenString (text : String) : '\r' ∉ (writtenString text).toList := by
  intro inside
  simp only [toList_writtenString, List.mem_cons, List.mem_append, List.mem_flatMap, List.not_mem_nil,
    or_false] at inside
  obtain wrong | ⟨c, -, inside⟩ | wrong := inside
  · exact absurd wrong (by decide)
  · exact return_not_mem_writtenCharacter c inside
  · exact absurd wrong (by decide)

theorem readsAs_writtenString (text : String) : ReadsAs (writtenString text).toList (.text text) where
  starts := ⟨_, _, toList_writtenString text, by decide⟩
  noReturn := return_not_mem_writtenString text
  read fuel rest unquoted enough := by
    have read := readString?_writtenString text unquoted
    rw [toList_writtenString] at read enough ⊢
    obtain ⟨fuel, rfl⟩ : ∃ n, fuel = n + 1 := ⟨fuel - 1, by simp at enough; omega⟩
    rw [List.cons_append] at read ⊢
    simp only [readValue?, read]
    rfl

/-- Behind white space stands what is no comment. -/
theorem skipSpace?_of_dropWhile {text rest : List Char} {first : Char}
    (shown : text.dropWhile isSpace = first :: rest) (other : first ≠ '#') (fuel : Nat) :
    skipSpace? (fuel + 1) text = some (first :: rest) := by
  unfold skipSpace?
  rw [shown]
  split
  next same => exact absurd (List.cons.inj same).1 other
  next => rfl

section Items

variable {text start after rest : List Char} {first : Char} {value : Datum} {fuel : Nat}

theorem readItems?_last (shown : text.dropWhile isSpace = first :: start) (noComment : first ≠ '#')
    (noEnd : first ≠ ']') (read : readValue? fuel (first :: start) = some (value, ']' :: after)) :
    readItems? (fuel + 1) text = some ([value], after) := by
  have closed : skipSpace? ((']' :: after).length + 1) (']' :: after) = some (']' :: after) :=
    skipSpace?_of_dropWhile rfl (by decide) _
  rw [readItems?]
  simp only [skipSpace?_of_dropWhile shown noComment, bind, Option.bind_some]
  split
  next same => exact absurd (List.cons.inj same).1 noEnd
  next => simp only [read, Option.bind_some, closed]

theorem readItems?_more {items : List Datum} (shown : text.dropWhile isSpace = first :: start)
    (noComment : first ≠ '#') (noEnd : first ≠ ']')
    (read : readValue? fuel (first :: start) = some (value, ',' :: after))
    (others : readItems? fuel after = some (items, rest)) :
    readItems? (fuel + 1) text = some (value :: items, rest) := by
  have parted : skipSpace? ((',' :: after).length + 1) (',' :: after) = some (',' :: after) :=
    skipSpace?_of_dropWhile rfl (by decide) _
  rw [readItems?]
  simp only [skipSpace?_of_dropWhile shown noComment, bind, Option.bind_some]
  split
  next same => exact absurd (List.cons.inj same).1 noEnd
  next => simp only [read, Option.bind_some, parted, others]

end Items

/-- The items of a written array. -/
def writtenItems (texts : List String) : List Char :=
  [',', ' '].intercalate (texts.map fun text => (writtenString text).toList)

theorem toList_writtenStrings (texts : List String) :
    (writtenStrings texts).toList = '[' :: (writtenItems texts ++ [']']) := by
  simp [writtenStrings, writtenItems, String.toList_intercalate, Function.comp_def]

theorem writtenItems_cons_cons (text next : String) (more : List String) :
    writtenItems (text :: next :: more) =
      (writtenString text).toList ++ ',' :: ' ' :: writtenItems (next :: more) := by
  simp [writtenItems, List.intercalate_cons_cons]

theorem readItems?_writtenItems (texts : List String) {gap : List Char} (blank : gap.all isSpace = true)
    {fuel : Nat} (enough : (gap ++ writtenItems texts).length < fuel) (rest : List Char) :
    readItems? fuel (gap ++ (writtenItems texts ++ ']' :: rest)) = some (texts.map .text, rest) := by
  induction texts generalizing gap fuel with
  | nil =>
    obtain ⟨fuel, rfl⟩ : ∃ n, fuel = n + 1 := ⟨fuel - 1, by omega⟩
    have shown : (gap ++ (writtenItems [] ++ ']' :: rest)).dropWhile isSpace = ']' :: rest := by
      rw [List.dropWhile_append_of_pos (by simpa using blank)]
      rfl
    simp [readItems?, skipSpace?_of_dropWhile shown]
  | cons text more ih =>
    obtain ⟨fuel, rfl⟩ : ∃ n, fuel = n + 1 := ⟨fuel - 1, by omega⟩
    -- An item begins with its quote, which is neither white space nor the closing bracket.
    have shown (after : List Char) : (gap ++ ((writtenString text).toList ++ after)).dropWhile isSpace =
        '"' :: (text.toList.flatMap writtenCharacter ++ ['"'] ++ after) := by
      rw [List.dropWhile_append_of_pos (by simpa using blank), toList_writtenString]
      rfl
    have item (after : List Char) (unquoted : after.head? ≠ some '"')
        (room : (writtenString text).toList.length ≤ fuel) :
        readValue? fuel ('"' :: (text.toList.flatMap writtenCharacter ++ ['"'] ++ after)) =
          some (.text text, after) := by
      have read := (readsAs_writtenString text).read fuel after unquoted room
      rwa [toList_writtenString] at read
    cases more with
    | nil =>
      have single : writtenItems [text] = (writtenString text).toList := by simp [writtenItems]
      rw [single] at enough ⊢
      simp only [List.length_append] at enough
      exact readItems?_last (shown _) (by decide) (by decide) (item _ (by simp) (by omega))
    | cons next others =>
      rw [writtenItems_cons_cons] at enough ⊢
      simp only [List.length_append, List.length_cons] at enough
      have long : 0 < (writtenString text).toList.length := by simp [toList_writtenString]
      have room : ([' '] ++ writtenItems (next :: others)).length < fuel := by
        rw [List.length_append, List.length_singleton]
        omega
      rw [List.append_assoc]
      exact readItems?_more (shown _) (by decide) (by decide) (item _ (by simp) (by omega)) (ih (by decide) room)

theorem return_not_mem_writtenItems (texts : List String) : '\r' ∉ writtenItems texts := by
  induction texts with
  | nil => simp [writtenItems]
  | cons text more ih =>
    cases more with
    | nil => simpa [writtenItems] using return_not_mem_writtenString text
    | cons next others =>
      rw [writtenItems_cons_cons]
      simp [return_not_mem_writtenString text, ih]

theorem readsAs_writtenStrings (texts : List String) :
    ReadsAs (writtenStrings texts).toList (.list (texts.map .text)) where
  starts := ⟨_, _, toList_writtenStrings texts, by decide⟩
  noReturn := by simp [toList_writtenStrings, return_not_mem_writtenItems texts]
  read fuel rest _ enough := by
    rw [toList_writtenStrings] at enough ⊢
    simp only [List.length_cons, List.length_append, List.length_nil] at enough
    obtain ⟨fuel, rfl⟩ : ∃ n, fuel = n + 1 := ⟨fuel - 1, by omega⟩
    have room : ([] ++ writtenItems texts).length < fuel := by
      rw [List.nil_append]
      omega
    have read := readItems?_writtenItems texts rfl room rest
    rw [List.nil_append] at read
    simp [readValue?, read]

/-! ## New values -/

theorem mem_intercalate {α : Type} {a : α} {part separator : List α} {parts : List (List α)} (listed : part ∈ parts)
    (inside : a ∈ part) : a ∈ separator.intercalate parts := by
  induction parts with
  | nil => cases listed
  | cons first others ih =>
    cases others with
    | nil => simpa [List.mem_singleton.mp listed] using inside
    | cons next others =>
      rw [List.intercalate_cons_cons]
      obtain rfl | listed := List.mem_cons.mp listed
      · simp [inside]
      · simp [ih listed]

theorem text?_writtenPoint (point : CodePoint) :
    (∀ p ∈ writtenPoint point, p.character?.isSome = true) ↔ point.character?.isSome = true := by
  cases point with
  | character c => simp [writtenPoint, RawText.ofChars, CodePoint.character?]
  | surrogate offset => simp [writtenPoint, CodePoint.character?]

theorem writtenText_ofString (text : String) : writtenText (.ofString text) = .ofString (writtenString text) := by
  simp [writtenText, writtenString, RawText.ofString, RawText.ofChars, List.flatMap_map, List.map_flatMap, writtenPoint]

theorem map_intercalate {α β : Type} (f : α → β) (separator : List α) (parts : List (List α)) :
    (separator.intercalate parts).map f = (separator.map f).intercalate (parts.map (List.map f)) := by
  induction parts with
  | nil => rfl
  | cons first others ih =>
    cases others with
    | nil => simp
    | cons next others =>
      rw [List.map_cons, List.map_cons, List.intercalate_cons_cons, List.intercalate_cons_cons, List.map_append,
        List.map_append, ih, List.map_cons]

theorem writtenTexts_ofString (texts : List String) :
    writtenTexts (texts.map .ofString) = .ofString (writtenStrings texts) := by
  have items : (texts.map RawText.ofString).map writtenText =
      (texts.map fun text => (writtenString text).toList).map RawText.ofChars := by
    rw [List.map_map, List.map_map]
    exact List.map_congr_left fun text _ => writtenText_ofString text
  rw [writtenTexts, items]
  simp [writtenStrings, RawText.ofString, RawText.ofChars, Function.comp_def, String.toList_intercalate,
    map_intercalate]

theorem isSome_text?_writtenText (content : RawText) :
    (writtenText content).text?.isSome = true ↔ content.text?.isSome = true := by
  have quote : (CodePoint.character '"').character?.isSome = true := rfl
  simp only [RawText.isSome_text?_iff, writtenText, List.cons_append, List.forall_mem_cons, List.forall_mem_append,
    List.forall_mem_flatMap, text?_writtenPoint, quote, List.not_mem_nil, false_imp_iff, implies_true, and_true,
    true_and]

theorem NewValue.exists_readsAs {value : NewValue} {datum : Datum} (proper : value.datum? = some datum) :
    ∃ written, value.written = .ofString written ∧ ReadsAs written.toList datum := by
  cases value with
  | text content =>
    obtain ⟨text, found, rfl⟩ := Option.map_eq_some_iff.mp proper
    obtain rfl := RawText.text?_eq_some_iff.mp found
    exact ⟨_, writtenText_ofString text, readsAs_writtenString text⟩
  | texts items =>
    obtain ⟨texts, found, rfl⟩ := Option.map_eq_some_iff.mp proper
    obtain rfl := (RawText.mapM_eq_some_iff fun _ _ => RawText.text?_eq_some_iff).mp found
    exact ⟨_, writtenTexts_ofString texts, readsAs_writtenStrings texts⟩

/-- Surrogates are written, so that a value can be in a file exactly if what is written for it can. -/
theorem NewValue.isSome_text?_written (value : NewValue) :
    value.written.text?.isSome = true ↔ value.datum?.isSome = true := by
  constructor
  · intro proper
    cases value with
    | text content => simpa [NewValue.datum?] using (isSome_text?_writtenText content).mp proper
    | texts items =>
      rw [NewValue.datum?, Option.isSome_map, RawText.isSome_mapM_iff]
      intro item listed
      refine (isSome_text?_writtenText item).mp (RawText.isSome_text?_iff.mpr fun point inside => ?_)
      refine RawText.isSome_text?_iff.mp proper point (List.mem_append_left _ (List.mem_append_right _ ?_))
      exact mem_intercalate (List.mem_map_of_mem listed) inside
  · intro proper
    obtain ⟨datum, found⟩ := Option.isSome_iff_exists.mp proper
    obtain ⟨written, same, -⟩ := exists_readsAs found
    rw [same, RawText.text?_ofString]
    rfl

end Licensing.Document.Toml
