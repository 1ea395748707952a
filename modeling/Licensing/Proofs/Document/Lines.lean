import Licensing.Proofs.Document.Written
import Mathlib.Data.List.Forall2

/-! # Lines with keys and values

Lines `key = value` with different keys behind the header of an array of tables make up its table (`read?_item`): what
a statement does to the table that is open does not depend on where that table lies.
-/

namespace Licensing.Document.Toml

/-! ## Keys -/

/-- A key that needs no quotes. -/
def IsBare (key : String) : Prop :=
  key.toList ≠ [] ∧ key.toList.all isBareKey = true

instance (key : String) : Decidable (IsBare key) :=
  inferInstanceAs (Decidable (_ ∧ _))

/-- A character of a bare key is no other mark. -/
theorem ne_of_isBareKey {c mark : Char} (bare : isBareKey c = true) (other : isBareKey mark = false) : c ≠ mark := by
  rintro rfl
  simp [bare] at other

theorem isGap_of_isBareKey {c : Char} (bare : isBareKey c = true) : isGap c = false := by
  have space : c ≠ ' ' := ne_of_isBareKey bare (by decide)
  have tab : c ≠ '\t' := ne_of_isBareKey bare (by decide)
  simp [isGap, space, tab]

theorem IsBare.starts {key : String} (bare : IsBare key) :
    ∃ first more, key.toList = first :: more ∧ isBareKey first = true := by
  cases chars : key.toList with
  | nil => exact absurd chars bare.1
  | cons first more => exact ⟨first, more, rfl, List.all_eq_true.mp bare.2 first (by simp [chars])⟩

theorem IsBare.noReturn {key : String} (bare : IsBare key) : '\r' ∉ key.toList := fun inside =>
  absurd (List.all_eq_true.mp bare.2 _ inside) (by decide)

theorem readKeyPart?_bare {key : String} (bare : IsBare key) {mark : Char} (other : isBareKey mark = false)
    (rest : List Char) : readKeyPart? (key.toList ++ mark :: rest) = some (key, mark :: rest) := by
  obtain ⟨first, more, chars, here⟩ := bare.starts
  have taken : (key.toList ++ mark :: rest).takeWhile isBareKey = key.toList := by
    rw [List.takeWhile_append_of_pos (List.all_eq_true.mp bare.2), List.takeWhile_cons, other]
    simp
  unfold readKeyPart?
  split
  next same =>
    rw [chars] at same
    exact absurd (List.cons.inj same).1 (ne_of_isBareKey here (by decide))
  next same =>
    rw [chars] at same
    exact absurd (List.cons.inj same).1 (ne_of_isBareKey here (by decide))
  next => simp [taken, bare.1]

theorem readKey?_bare {key : String} (bare : IsBare key) (mark : Char) (other : isBareKey mark = false)
    (rest : List Char) (single : (skipGap (mark :: rest)).head? ≠ some '.') (fuel : Nat) :
    readKey? (fuel + 1) (key.toList ++ mark :: rest) = some ([key], skipGap (mark :: rest)) := by
  rw [readKey?]
  simp only [readKeyPart?_bare bare other, bind, Option.bind_some]
  split
  next same => simp [same] at single
  next => rfl

/-! ## Single statements -/

theorem skipGap_cons {first : Char} (shown : isGap first = false) (rest : List Char) :
    skipGap (first :: rest) = first :: rest := by
  rw [skipGap, List.dropWhile_cons, shown]
  rfl

/-- What the statement of a line does, and what is read behind it. -/
theorem readStatements?_of_statement {draft draft' : Draft} {first : Char} {more rest : List Char}
    (shown : isGap first = false) (noBreak : first ≠ '\n') (noComment : first ≠ '#')
    (read : readStatement? draft (first :: more) = some (draft', '\n' :: rest)) (fuel : Nat) :
    readStatements? (fuel + 1) draft (first :: more) = readStatements? fuel draft' rest := by
  rw [readStatements?, skipGap_cons shown]
  split
  next same => cases same
  next same => exact absurd (List.cons.inj same).1 noBreak
  next =>
    have behind : skipComment? (skipGap ('\n' :: rest)) = some ('\n' :: rest) := rfl
    simp [noComment, read, behind]

theorem readStatement?_assign {draft draft' : Draft} {key : String} {written : List Char} {value : Datum}
    (bare : IsBare key) (reads : ReadsAs written value) (assigned : draft.assign? [key] value = some draft')
    (rest : List Char) :
    readStatement? draft (key.toList ++ ' ' :: '=' :: ' ' :: (written ++ '\n' :: rest)) =
      some (draft', '\n' :: rest) := by
  obtain ⟨first, more, chars, here⟩ := bare.starts
  obtain ⟨start, others, begins, shown⟩ := reads.starts
  have skipped : skipGap (' ' :: (written ++ '\n' :: rest)) = written ++ '\n' :: rest := by
    rw [begins]
    exact (skipGap_cons shown _ : skipGap (start :: (others ++ '\n' :: rest)) = _)
  have behindKey (behind : List Char) : skipGap (' ' :: '=' :: behind) = '=' :: behind := rfl
  unfold readStatement?
  split
  next same =>
    rw [chars] at same
    exact absurd (List.cons.inj same).1 (ne_of_isBareKey here (by decide))
  next same =>
    rw [chars] at same
    exact absurd (List.cons.inj same).1 (ne_of_isBareKey here (by decide))
  next =>
    have enough : written.length ≤ (key.toList ++ ' ' :: '=' :: ' ' :: (written ++ '\n' :: rest)).length + 1 := by
      simp
      omega
    have keyRead := readKey?_bare bare ' ' (by decide) ('=' :: ' ' :: (written ++ '\n' :: rest))
      (by simp [behindKey])
    have equals (behind : List Char) : expect? '=' ('=' :: behind) = some behind := rfl
    have valueRead := reads.read _ ('\n' :: rest) (by simp) enough
    simp only [bind, keyRead, Option.bind_some, behindKey, equals, skipped, valueRead, assigned]

/-! ## Entries -/

/-- A line that writes an entry of a table. -/
def WritesEntry (line : String) (entry : String × Datum) : Prop :=
  ∃ written, line = entry.1 ++ " = " ++ written ∧ IsBare entry.1 ∧ ReadsAs written.toList entry.2

/-- The characters of lines, each with its line feed. -/
def lineChars (lines : List String) : List Char :=
  lines.flatMap fun line => line.toList ++ ['\n']

theorem toList_join_lines (lines : List String) : (String.join (lines.map (· ++ "\n"))).toList = lineChars lines := by
  simp [lineChars, String.toList_join, List.flatMap_map]

theorem put_of_new {table : Table} {key : String} (fresh : key ∉ table.keys) (value : Datum) :
    table.put key value = table ++ [(key, value)] := by
  induction table with
  | nil => rfl
  | cons entry rest ih =>
    simp only [Table.keys, List.map_cons, List.mem_cons, not_or] at fresh
    have other : (entry.1 == key) = false := by simpa using Ne.symm fresh.1
    simp only [Table.put, other, Bool.false_eq_true, if_false, List.cons_append]
    rw [ih fresh.2]

theorem putNew?_of_new {table : Table} {key : String} (fresh : key ∉ table.keys) (value : Datum) :
    putNew? key value table = some (table ++ [(key, value)]) := by
  have missing : Table.get? table key = none := by
    simp only [Table.get?, Option.map_eq_none_iff, List.find?_eq_none, beq_iff_eq]
    rintro entry member rfl
    exact fresh (List.mem_map_of_mem member)
  simp [putNew?, missing, put_of_new fresh]

/-! ## The open table -/

/-- The table that statements change next: it holds `inner`, and with anything else in its place the document would be
`wrap` of that. -/
structure Draft.OpenAt (draft : Draft) (wrap : Table → Table) (inner : Table) : Prop where
  whole : draft.table = wrap inner
  reached : ∀ change inner, updateAt? true change draft.header (wrap inner) = (change inner).map wrap
  free : draft.marks.has draft.header .closed = false

namespace Draft.OpenAt

variable {draft : Draft} {wrap : Table → Table} {inner : Table}

theorem assign? (opened : draft.OpenAt wrap inner) {key : String} (fresh : key ∉ inner.keys) (value : Datum) :
    ∃ draft', draft.assign? [key] value = some draft' ∧ draft'.OpenAt wrap (inner ++ [(key, value)]) := by
  refine ⟨{ draft with
    table := wrap (inner ++ [(key, value)])
    marks := if isContainer value then (draft.header ++ [key], .closed) :: draft.marks else draft.marks }, ?_,
    ⟨rfl, opened.reached, ?_⟩⟩
  · have parent : draft.header ++ [key].dropLast = draft.header := List.append_nil _
    have updated : updateAt? true (putNew? key value) draft.header draft.table =
        some (wrap (inner ++ [(key, value)])) := by
      rw [opened.whole, opened.reached, putNew?_of_new fresh]
      rfl
    rw [Draft.assign?]
    dsimp only
    rw [parent, opened.free]
    exact congrArg (Option.bind · _) updated
  · split
    · -- What a key holds is closed, and not the table that the key stands in.
      have below : ¬ (draft.header ++ [key]) <+: draft.header := fun prefixed => by
        have := prefixed.length_le
        rw [List.length_append, List.length_singleton] at this
        omega
      have other : (draft.header ++ [key]).isPrefixOf draft.header = false := by
        rwa [Bool.eq_false_iff, ne_eq, List.isPrefixOf_iff_prefix]
      simpa [Marks.has, other] using opened.free
    · exact opened.free

theorem readStatements? (opened : draft.OpenAt wrap inner) {lines : List String} {table : Table}
    (written : List.Forall₂ WritesEntry lines table) (distinct : (Table.keys (inner ++ table)).Nodup)
    {fuel : Nat} (enough : lines.length < fuel) :
    (Toml.readStatements? fuel draft (lineChars lines)).map Draft.table = some (wrap (inner ++ table)) := by
  -- The induction is on the lines, and every line leaves the same table open.
  induction written generalizing draft inner fuel with
  | nil =>
    obtain ⟨fuel, rfl⟩ : ∃ n, fuel = n + 1 := ⟨fuel - 1, by omega⟩
    simp [Toml.readStatements?, lineChars, skipGap, opened.whole]
  | @cons line entry lines table first others ih =>
    obtain ⟨fuel, rfl⟩ : ∃ n, fuel = n + 1 := ⟨fuel - 1, by omega⟩
    obtain ⟨key, value⟩ := entry
    obtain ⟨written, rfl, bare, reads⟩ := first
    have fresh : key ∉ inner.keys := by
      rw [Table.keys, List.map_append, List.nodup_append] at distinct
      exact fun inside => distinct.2.2 key inside key (by simp) rfl
    obtain ⟨draft', assigned, opened'⟩ := opened.assign? fresh value
    have statement := readStatement?_assign bare reads assigned (lineChars lines)
    have whole : lineChars ((key ++ " = " ++ written) :: lines) =
        key.toList ++ ' ' :: '=' :: ' ' :: (written.toList ++ '\n' :: lineChars lines) := by
      simp [lineChars]
    obtain ⟨first, more, keyChars, here⟩ := bare.starts
    rw [whole]
    rw [keyChars, List.cons_append] at statement ⊢
    rw [readStatements?_of_statement (isGap_of_isBareKey here) (ne_of_isBareKey here (by decide))
      (ne_of_isBareKey here (by decide)) statement]
    rw [ih opened' (by simpa using distinct) (by simpa using enough), List.append_assoc]
    rfl

end Draft.OpenAt

/-! ## Documents -/

theorem unifyBreaks_of_not_mem {text : List Char} (none : '\r' ∉ text) : unifyBreaks text = text := by
  fun_induction unifyBreaks text with
  | case1 => simp at none
  | case2 c rest _ ih => rw [ih (by simp_all)]
  | case3 => rfl

theorem return_not_mem_lineChars {lines : List String} {table : Table}
    (written : List.Forall₂ WritesEntry lines table) : '\r' ∉ lineChars lines := by
  induction written with
  | nil => simp [lineChars]
  | @cons line entry lines table first others ih =>
    obtain ⟨written, rfl, bare, reads⟩ := first
    simpa [lineChars, bare.noReturn, reads.noReturn] using ih

theorem length_le_lineChars (lines : List String) : lines.length ≤ (lineChars lines).length := by
  induction lines with
  | nil => simp
  | cons line lines ih =>
    have whole : lineChars (line :: lines) = line.toList ++ '\n' :: lineChars lines := by simp [lineChars]
    rw [whole, List.length_append, List.length_cons, List.length_cons]
    omega

/-- The header of an array of tables that is not there yet opens its first table. -/
theorem readStatement?_item {name : String} (bare : IsBare name) (rest : List Char) :
    readStatement? .empty ('[' :: '[' :: (name.toList ++ ']' :: ']' :: rest)) =
      some (⟨[(name, .list [.table []])], [([name], .declared)], [], [name]⟩, rest) := by
  obtain ⟨first, more, nameChars, here⟩ := bare.starts
  have skipped (behind : List Char) : skipGap (name.toList ++ behind) = name.toList ++ behind := by
    rw [nameChars]
    exact skipGap_cons (isGap_of_isBareKey here) _
  have keyRead := readKey?_bare bare ']' (by decide) (']' :: rest) (by simp [skipGap, isGap])
  have behindKey : skipGap (']' :: ']' :: rest) = ']' :: ']' :: rest := rfl
  have openedItem : Draft.openItem? .empty [name] =
      some ⟨[(name, .list [.table []])], [([name], .declared)], [], [name]⟩ := rfl
  simp [readStatement?, skipped, keyRead, behindKey, openedItem]

theorem read?_item {lines : List String} {table : Table} (written : List.Forall₂ WritesEntry lines table)
    (distinct : table.keys.Nodup) {name : String} (bare : IsBare name) :
    read? ("\n[[" ++ name ++ "]]\n" ++ String.join (lines.map (· ++ "\n"))) =
      some [(name, .list [.table table])] := by
  have whole : ("\n[[" ++ name ++ "]]\n" ++ String.join (lines.map (· ++ "\n"))).toList =
      '\n' :: '[' :: '[' :: (name.toList ++ ']' :: ']' :: '\n' :: lineChars lines) := by
    rw [String.toList_append, toList_join_lines]
    simp
  have none : '\r' ∉ '\n' :: '[' :: '[' :: (name.toList ++ ']' :: ']' :: '\n' :: lineChars lines) := by
    simp [bare.noReturn, return_not_mem_lineChars written]
  have opened : (Draft.mk [(name, .list [.table []])] [([name], .declared)] [] [name]).OpenAt
      (fun inner => [(name, .list [.table inner])]) [] :=
    ⟨rfl, fun change inner => by simp [updateAt?, Table.get?, Table.put], by simp [Marks.has]⟩
  have behindBreak (fuel : Nat) (rest : List Char) :
      readStatements? (fuel + 1) .empty ('\n' :: rest) = readStatements? fuel .empty rest := rfl
  rw [read?, whole, unifyBreaks_of_not_mem none, List.length_cons, List.length_cons, behindBreak,
    readStatements?_of_statement (by decide) (by decide) (by decide) (readStatement?_item bare _)]
  refine opened.readStatements? written (by simpa using distinct) ?_
  have := length_le_lineChars lines
  simp only [List.length_cons, List.length_append]
  omega

end Licensing.Document.Toml
