import Licensing.Document.Datum

/-! # Values of a kind

A value is of at most one kind, and what a list holds besides texts is the only reason why it is no list of texts.
-/

namespace Licensing.Document.Datum

theorem asText?_eq_some_iff {value : Datum} {text : String} : value.asText? = some text ↔ value = .text text := by
  cases value <;> simp [asText?]

theorem asList?_eq_some_iff {value : Datum} {items : List Datum} :
    value.asList? = some items ↔ value = .list items := by
  cases value <;> simp [asList?]

theorem asTable?_eq_some_iff {value : Datum} {info : Table} : value.asTable? = some info ↔ value = .table info := by
  cases value <;> simp [asTable?]

theorem asTexts?_eq_some_iff {items : List Datum} {texts : List String} :
    (Datum.list items).asTexts? = some texts ↔ items = texts.map .text := by
  show items.mapM asText? = some texts ↔ _
  induction items generalizing texts with
  | nil => cases texts <;> simp
  | cons item items ih =>
    simp only [List.mapM_cons, Option.bind_eq_bind, Option.bind_eq_some_iff, asText?_eq_some_iff, ih]
    constructor
    · rintro ⟨text, rfl, others, rfl, same⟩
      cases same
      rfl
    · intro same
      obtain ⟨text, others, rfl, rfl, rfl⟩ := List.map_eq_cons_iff.mp same.symm
      exact ⟨text, rfl, others, rfl, rfl⟩

theorem asTexts?_eq_none_iff {items : List Datum} :
    (Datum.list items).asTexts? = none ↔ ∃ item ∈ items, item.asText? = none := by
  show items.mapM asText? = none ↔ _
  induction items with
  | nil => simp
  | cons item items ih =>
    simp only [List.mem_cons, exists_eq_or_imp, ← ih, List.mapM_cons]
    cases item.asText? with
    | none => simp
    | some text => cases items.mapM asText? <;> simp

end Licensing.Document.Datum
