import Licensing.Text.Raw

/-! # Raw texts and what a file can hold

A raw text is the text of a file exactly if all of its code points are characters, and those of a string are.
-/

namespace Licensing.RawText

variable {α β : Type} {raw : RawText} {text : String}

/-! ## Lists that are read member by member -/

section Members

variable {read : α → Option β} {write : β → α} {items : List α}

theorem mapM_eq_some_iff (spec : ∀ a b, read a = some b ↔ a = write b) {results : List β} :
    items.mapM read = some results ↔ items = results.map write := by
  induction items generalizing results with
  | nil => cases results <;> simp
  | cons item items ih =>
    have first : (item :: items).mapM read = (read item).bind fun b => (items.mapM read).map (b :: ·) := by
      rw [List.mapM_cons]
      cases read item with
      | none => rfl
      | some b => cases items.mapM read <;> rfl
    rw [first, Option.bind_eq_some_iff]
    simp only [Option.map_eq_some_iff, ih, spec]
    constructor
    · rintro ⟨b, rfl, others, rfl, rfl⟩
      rfl
    · cases results with
      | nil => simp
      | cons b others =>
        rintro ⟨⟩
        exact ⟨b, rfl, others, rfl, rfl⟩

theorem isSome_mapM_iff : (items.mapM read).isSome = true ↔ ∀ item ∈ items, (read item).isSome = true := by
  induction items with
  | nil => simp
  | cons item items ih =>
    rw [List.forall_mem_cons, ← ih, List.mapM_cons]
    cases read item with
    | none => simp
    | some b => cases items.mapM read <;> simp

end Members

/-! ## Characters -/

theorem character?_eq_some_iff {point : CodePoint} {c : Char} :
    point.character? = some c ↔ point = .character c := by
  cases point <;> simp [CodePoint.character?]

theorem text?_eq_some_iff : raw.text? = some text ↔ raw = ofString text := by
  simp only [text?, Option.map_eq_some_iff, mapM_eq_some_iff fun _ _ => character?_eq_some_iff]
  constructor
  · rintro ⟨chars, rfl, rfl⟩
    rw [ofString, String.toList_ofList, ofChars]
  · rintro rfl
    exact ⟨_, rfl, String.ofList_toList⟩

@[simp]
theorem text?_ofString (text : String) : (ofString text).text? = some text :=
  text?_eq_some_iff.mpr rfl

theorem isSome_text?_iff : raw.text?.isSome = true ↔ ∀ point ∈ raw, point.character?.isSome = true := by
  rw [text?, Option.isSome_map, isSome_mapM_iff]

@[simp]
theorem shown_ofString (text : String) : (ofString text).shown = text := by
  simp [shown, ofString, ofChars, Function.comp_def, CodePoint.character?]

theorem encode_eq_ok_iff : raw.encode = .ok text ↔ raw.text? = some text := by
  unfold encode
  split <;> simp_all

theorem exists_encode_eq_error_iff : (∃ fault, raw.encode = .error fault) ↔ raw.text? = none := by
  unfold encode
  split <;> simp_all

end Licensing.RawText
