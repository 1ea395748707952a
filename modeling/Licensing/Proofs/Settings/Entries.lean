import Licensing.Proofs.Document.Kinds
import Licensing.Proofs.Document.Keys
import Licensing.Settings.Basic
import Mathlib.Data.List.Forall2

/-! # Entries of a settings file

What the table of an equivalence rule and that of a policy rule have to hold, and that both lists are read entry by
entry: what is wrong with one entry is reported under its position, whatever the others are, and a list without
defects has one rule for each entry.

* `EquivalenceRule.Describes`, `Rule.Describes` — the schema of an entry.
* `EquivalenceRule.readFrom_eq`, `Rule.readFrom_eq` — the two results of reading a list.
* `RuleDefect.exists_message_eq` — a message starts with the position of the entry.
-/

namespace Licensing

open Document (Datum Table)

theorem someTexts?_eq_some_iff {value : Option Datum} {texts : List String} :
    someTexts? value = some texts ↔ value = some (.list (texts.map .text)) ∧ texts ≠ [] := by
  have read : value.bind Datum.asTexts? = some texts ↔ value = some (.list (texts.map .text)) := by
    rw [Option.bind_eq_some_iff]
    constructor
    · rintro ⟨_, rfl, read⟩
      obtain ⟨items, list, -⟩ := Option.bind_eq_some_iff.mp read
      obtain rfl := Datum.asList?_eq_some_iff.mp list
      rw [Datum.asTexts?_eq_some_iff.mp read]
    · rintro rfl
      exact ⟨_, rfl, Datum.asTexts?_eq_some_iff.mpr rfl⟩
  rw [← read, someTexts?]
  split
  next none =>
    rw [none, Option.some_inj]
    simp [eq_comm]
  next nonempty =>
    refine (and_iff_left_of_imp ?_).symm
    rintro found rfl
    exact nonempty found

/-! ## Wordings -/

/-- A wording that goes on behind the position of an entry. -/
theorem exists_eq_append_rest (list : String) (index : Nat) (rest : String) {after message : String}
    (closed : after = "]" ++ rest) (worded : message = list ++ toString index ++ after) :
    ∃ rest, message = list ++ toString index ++ "]" ++ rest :=
  ⟨rest, by rw [worded, closed, ← String.append_assoc]⟩

theorem EquivalenceRuleDefect.exists_message_eq (defect : EquivalenceRuleDefect) (index : Nat) :
    ∃ rest, defect.message index = s!"equivalence[{index}]" ++ rest := by
  have entry := exists_eq_append_rest "equivalence[" index
  cases defect with
  | notTable kind => exact entry (": expected a table, got " ++ kind) rfl (String.append_assoc ..)
  | missingSource => exact entry ": missing required string field \"from\"" rfl rfl
  | badTargets => exact entry ".to: expected a non-empty list of strings" rfl rfl

theorem RuleDefect.exists_message_eq (defect : RuleDefect) (list : String) (index : Nat) :
    ∃ rest, defect.message list index = s!"{list}[{index}]" ++ rest := by
  have entry := exists_eq_append_rest (list ++ "[") index
  cases defect with
  | notTable kind => exact entry (": expected a table, got " ++ kind) rfl (String.append_assoc ..)
  | unknownKeys keys => exact entry (": unknown keys: " ++ ", ".intercalate keys) rfl (String.append_assoc ..)
  | missingVerdict => exact entry ": missing required string field \"verdict\"" rfl rfl
  | badVerdict text => exact entry (".verdict: " ++ Verdict.unreadable text) rfl (String.append_assoc ..)
  | reasonNotText kind => exact entry (".reason: expected string, got " ++ kind) rfl (String.append_assoc ..)
  | badLicenses => exact entry ".licenses: expected a non-empty list of strings" rfl rfl

/-! ## Equivalence rules -/

namespace EquivalenceRule

variable {value : Datum} {rule : EquivalenceRule}

theorem someText?_eq_some_iff {value : Option Datum} {text : String} :
    someText? value = some text ↔ value = some (.text text) ∧ Text.isAllBlank text = false := by
  simp [someText?, Option.filter_eq_some_iff, Option.bind_eq_some_iff, Datum.asText?_eq_some_iff]

/-- An entry for an equivalence rule: a table with a source that is not blank, and with a list of texts as targets. -/
def Describes (value : Datum) (rule : EquivalenceRule) : Prop :=
  ∃ table : Table, value = .table table ∧
    (table.get? "from" = some (.text rule.source) ∧ Text.isAllBlank rule.source = false) ∧
    (table.get? "to" = some (.list (rule.targets.map .text)) ∧ rule.targets ≠ [])

theorem readOne_eq_ok_iff : readOne value = .ok rule ↔ Describes value rule := by
  simp only [Describes, ← Datum.asTable?_eq_some_iff, ← someText?_eq_some_iff, ← someTexts?_eq_some_iff]
  obtain ⟨source, targets⟩ := rule
  cases table : value.asTable? with
  | none => simp [readOne, table]
  | some found =>
    cases from? : someText? (found.get? "from") with
    | none => simp [readOne, table, from?]
    | some text => cases to? : someTexts? (found.get? "to") <;> simp [readOne, table, from?, to?]

/-- What is wrong with an entry. -/
def faults (value : Datum) : List EquivalenceRuleDefect :=
  match readOne value with
  | .ok _ => []
  | .error defect => [defect]

theorem faults_eq_nil_iff : faults value = [] ↔ ∃ rule, Describes value rule := by
  simp only [← readOne_eq_ok_iff, faults]
  cases readOne value <;> simp

theorem readFrom_eq (index : Nat) (items : List Datum) : readFrom index items =
    (items.filterMap fun item => (readOne item).toOption,
      (items.zipIdx index).flatMap fun row => (faults row.1).map (row.2, ·)) := by
  induction items generalizing index with
  | nil => rfl
  | cons item items ih =>
    cases read : readOne item <;> simp [readFrom, ih, read, faults, Except.toOption]

/-- A list without defects has one rule for each entry. -/
theorem describes_of_readFrom {index : Nat} {items : List Datum} {rules : List EquivalenceRule}
    (read : readFrom index items = (rules, [])) : List.Forall₂ Describes items rules := by
  induction items generalizing index rules with
  | nil =>
    cases read
    exact .nil
  | cons item items ih =>
    rcases behind : readFrom (index + 1) items with ⟨later, defects⟩
    cases first : readOne item with
    | ok rule =>
      simp only [readFrom, behind, first, Prod.mk.injEq] at read
      obtain ⟨rfl, rfl⟩ := read
      exact .cons (readOne_eq_ok_iff.mp first) (ih behind)
    | error defect => simp [readFrom, behind, first] at read

end EquivalenceRule

/-! ## Policy rules -/

namespace Rule

variable {value : Datum} {rule : Rule}

/-- An entry for a policy rule: a table with no keys but those of rules, which holds a verdict, perhaps a reason, and
a list of texts as licenses. -/
def Describes (value : Datum) (rule : Rule) : Prop :=
  ∃ table : Table, value = .table table ∧ (∀ key, (table.get? key).isSome = true → key ∈ keys) ∧
    (∃ word, table.get? "verdict" = some (.text word) ∧ Verdict.parse word = .ok rule.verdict) ∧
    (table.get? "reason" = none ∧ rule.reason = "" ∨ table.get? "reason" = some (.text rule.reason)) ∧
    table.get? "licenses" = some (.list (rule.licenses.map .text)) ∧ rule.licenses ≠ []

theorem readFields_eq_ok_iff {table : Table} : readFields table = .ok rule ↔
    (∃ word, table.get? "verdict" = some (.text word) ∧ Verdict.parse word = .ok rule.verdict) ∧
      (table.get? "reason" = none ∧ rule.reason = "" ∨ table.get? "reason" = some (.text rule.reason)) ∧
      table.get? "licenses" = some (.list (rule.licenses.map .text)) ∧ rule.licenses ≠ [] := by
  have wording (word : String) : table.get? "verdict" = some (.text word) ↔
      (table.get? "verdict").bind Datum.asText? = some word := by
    simp [Option.bind_eq_some_iff, Datum.asText?_eq_some_iff]
  -- A reason that is left out is read as the empty text.
  have reason (why : String) : table.get? "reason" = none ∧ why = "" ∨ table.get? "reason" = some (.text why) ↔
      ((table.get? "reason").getD (.text "")).asText? = some why := by
    cases table.get? "reason" with
    | none =>
      rw [Option.getD_none, Datum.asText?_eq_some_iff]
      simp [eq_comm]
    | some given => simp [Datum.asText?_eq_some_iff]
  simp only [wording, reason, ← someTexts?_eq_some_iff, readFields]
  obtain ⟨licenses, verdict, why⟩ := rule
  generalize (table.get? "verdict").bind Datum.asText? = word?
  generalize (table.get? "reason").getD (.text "") = given
  generalize someTexts? (table.get? "licenses") = licenses?
  cases word? with
  | none => simp
  | some word =>
    simp only [Option.some_inj, exists_eq_left']
    generalize Verdict.parse word = parsed
    cases parsed with
    | error fault => simp [Except.mapError, bind, Except.bind]
    | ok verdict' =>
      cases given.asText? with
      | none => simp [Except.mapError, bind, Except.bind]
      | some why' =>
        cases licenses? with
        | none => simp [Except.mapError, bind, Except.bind]
        | some licenses' =>
          simp [Except.mapError, bind, Except.bind]
          tauto

theorem readOne_eq_iff : readOne value = (some rule, []) ↔ Describes value rule := by
  simp only [Describes, ← Datum.asTable?_eq_some_iff, ← readFields_eq_ok_iff]
  cases found : value.asTable? with
  | none => simp [readOne, found]
  | some table =>
    have known : SortedSet.ofList (table.keys.filter (!keys.contains ·)) = [] ↔
        ∀ key, (table.get? key).isSome = true → key ∈ keys := by
      simp [List.eq_nil_iff_forall_not_mem, SortedSet.mem_ofList, Document.Table.isSome_get?_iff]
    simp only [readOne, found, Option.some_inj, exists_eq_left', ← known]
    generalize SortedSet.ofList (table.keys.filter (!keys.contains ·)) = unknown
    cases readFields table with
    | error defect => simp
    | ok rule' => cases unknown <;> simp

theorem faults_eq_nil_iff : (readOne value).2 = [] ↔ ∃ rule, Describes value rule := by
  simp only [← readOne_eq_iff]
  constructor
  · intro faultless
    cases found : value.asTable? with
    | none => simp [readOne, found] at faultless
    | some table =>
      cases fields : readFields table with
      | error defect => simp [readOne, found, fields] at faultless
      | ok rule =>
        simp only [readOne, found, fields] at faultless ⊢
        exact ⟨rule, by rw [faultless]⟩
  · rintro ⟨rule, read⟩
    rw [read]

theorem readFrom_eq (index : Nat) (items : List Datum) : readFrom index items =
    (items.filterMap fun item => (readOne item).1,
      (items.zipIdx index).flatMap fun row => (readOne row.1).2.map (row.2, ·)) := by
  induction items generalizing index with
  | nil => rfl
  | cons item items ih =>
    rcases read : readOne item with ⟨_ | rule, defects⟩ <;> simp [readFrom, ih, read]

/-- A list without defects has one rule for each entry. -/
theorem describes_of_readFrom {index : Nat} {items : List Datum} {rules : List Rule}
    (read : readFrom index items = (rules, [])) : List.Forall₂ Describes items rules := by
  induction items generalizing index rules with
  | nil =>
    cases read
    exact .nil
  | cons item items ih =>
    rcases behind : readFrom (index + 1) items with ⟨later, defects⟩
    rcases first : readOne item with ⟨rule, found⟩
    simp only [readFrom, behind, first, Prod.mk.injEq, List.append_eq_nil_iff, List.map_eq_nil_iff] at read
    obtain ⟨rfl, rfl, rfl⟩ := read
    obtain ⟨rule', describes⟩ := faults_eq_nil_iff.mp (congrArg Prod.snd first)
    cases first.symm.trans (readOne_eq_iff.mpr describes)
    exact .cons describes (ih behind)

end Rule

end Licensing
