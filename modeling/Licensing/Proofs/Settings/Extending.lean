import Licensing.Proofs.Document.Appending
import Licensing.Proofs.Document.Keys
import Licensing.Proofs.Files.Writing
import Licensing.Proofs.Outcome
import Licensing.Proofs.Settings.Entries
import Licensing.Settings.Edit

/-! # One more rule

The lines that are written for a rule read as a table that is read as that rule, and settings whose document has one
more rule are the settings before with that rule at the end.
-/

namespace Licensing

open Document (Datum Table)
open Document.Toml

/-! ## The table of a rule -/

namespace Rule

/-- The entries of the table of a rule. -/
def entries (rule : Rule) : Table :=
  [("verdict", .text rule.verdict.word)] ++
    (if rule.reason.isEmpty then [] else [("reason", .text rule.reason)]) ++
    [("licenses", .list (rule.licenses.map .text))]

theorem keys_of_entries (rule : Rule) : rule.entries.keys.filter (!keys.contains ·) = [] := by
  unfold entries
  split <;> simp [Table.keys, keys]

theorem readFields_entries {rule : Rule} (listed : rule.licenses ≠ []) : readFields rule.entries = .ok rule := by
  have verdict : Verdict.parse rule.verdict.word = .ok rule.verdict :=
    Outcome.toOption_eq_some.mp (Verdict.parse_word _)
  have reason : rule.entries.get? "reason" = none ∧ rule.reason = "" ∨
      rule.entries.get? "reason" = some (.text rule.reason) := by
    unfold entries
    split
    next none => exact .inl ⟨rfl, by simpa using none⟩
    next => exact .inr rfl
  have licenses : rule.entries.get? "licenses" = some (.list (rule.licenses.map .text)) := by
    unfold entries
    split <;> rfl
  exact readFields_eq_ok_iff.mpr ⟨⟨_, rfl, verdict⟩, reason, licenses, listed⟩

theorem readOne_entries {rule : Rule} (listed : rule.licenses ≠ []) :
    readOne (.table rule.entries) = (some rule, []) := by
  have known : SortedSet.ofList (rule.entries.keys.filter (!keys.contains ·)) = [] := by
    rw [keys_of_entries]
    rfl
  simp only [readOne, Datum.asTable?, known, readFields_entries listed]
  rfl

theorem readFrom_append {index : Nat} {items : List Datum} {rules : List Rule} {defects : List (Nat × RuleDefect)}
    {value : Datum} {rule : Rule} (before : readFrom index items = (rules, defects))
    (last : readOne value = (some rule, [])) :
    readFrom index (items ++ [value]) = (rules ++ [rule], defects) := by
  induction items generalizing index rules defects with
  | nil =>
    cases before
    simp [readFrom, last]
  | cons item items ih =>
    rcases behind : readFrom (index + 1) items with ⟨later, faults⟩
    simp only [readFrom, behind, Prod.mk.injEq] at before
    obtain ⟨rfl, rfl⟩ := before
    simp [readFrom, ih behind]

end Rule

namespace NewRule

variable {new : NewRule} {reason : String}

theorem table?_entries (proper : new.reason.text? = some reason) : new.entries.table? = some new.rule.entries := by
  obtain ⟨licenses, verdict, _⟩ := new
  obtain rfl := RawText.text?_eq_some_iff.mp proper
  have texts : (licenses.map RawText.ofString).mapM RawText.text? = some licenses :=
    (RawText.mapM_eq_some_iff fun _ _ => RawText.text?_eq_some_iff).mpr rfl
  have blank : (RawText.ofString reason).isEmpty = reason.isEmpty := by
    rw [Bool.eq_iff_iff]
    simp [RawText.ofString, RawText.ofChars]
  simp only [entries, rule, Rule.entries, blank, RawText.shown_ofString]
  cases reason.isEmpty <;> simp [NewTable.table?, NewValue.datum?, texts]

theorem table?_entries_of_surrogate (improper : new.reason.text? = none) : new.entries.table? = none := by
  have filled : new.reason.isEmpty = false := by
    rw [Bool.eq_false_iff, ne_eq, List.isEmpty_iff]
    intro none
    simp [none, RawText.text?] at improper
  simp [entries, filled, NewTable.table?_cons, NewValue.datum?, improper]

/-- In a new document, the table of a rule is read as it was written. -/
theorem faithful_empty (new : NewRule) : sectionEditor.Faithful "" [] policyKey new.entries := by
  have keys : (new.entries.map Prod.fst).Sublist ["verdict", "reason", "licenses"] := by
    unfold entries
    split <;> simp
  have bare : ∀ key ∈ ["verdict", "reason", "licenses"], IsBare key := by decide
  exact Document.Toml.faithful_empty (by decide)
    (fun entry listed => bare _ (keys.subset (List.mem_map_of_mem listed))) (keys.nodup (by decide))

end NewRule

/-! ## Settings -/

namespace Settings

variable {files files' : Files} {path : Files.Path} {table extended : Table} {settings : Settings}

theorem unknownKeys_eq_nil_iff :
    unknownKeys table = [] ↔ ∀ key, (table.get? key).isSome = true → key ∈ keys := by
  simp [unknownKeys, List.eq_nil_iff_forall_not_mem, SortedSet.mem_ofList, Table.isSome_get?_iff]

/-- Settings are read if each of them is, and no key is unknown. -/
theorem ofTable_eq_ok_iff : ofTable files path table = .ok settings ↔
    readThreshold table = .ok settings.threshold ∧ readLimit table = .ok settings.limit ∧
      readLicenses files path table = .ok settings.licenses ∧
      readEquivalences table = (settings.equivalences, []) ∧ readRules table = (settings.rules, []) ∧
      unknownKeys table = [] := by
  rcases equivalences : readEquivalences table with ⟨found, faults⟩
  rcases rules : readRules table with ⟨found', faults'⟩
  simp only [ofTable, equivalences, rules]
  constructor
  · intro read
    split at read
    next threshold limit licenses =>
      split at read
      next none =>
        cases read
        simp_all
      next => cases read
    next => cases read
  · rintro ⟨threshold, limit, licenses, same, same', unknown⟩
    simp_all [defectOf]

theorem readRules_of_gains {rules : List Rule} {rule : Rule} (read : readRules table = (rules, []))
    (listed : rule.licenses ≠ []) (gains : Gains policyKey rule.entries table extended) :
    readRules extended = (rules ++ [rule], []) := by
  obtain ⟨items, before, after⟩ := gains.listed
  rcases found : Rule.readFrom 0 items with ⟨rules', faults⟩
  simp only [readRules, before, Datum.asList?, found, Prod.mk.injEq, List.map_eq_nil_iff] at read
  obtain ⟨rfl, rfl⟩ := read
  simp [readRules, after, Datum.asList?, Rule.readFrom_append found (Rule.readOne_entries listed)]

theorem readLicenses_of_sets {text : String} (sets : files.Sets path text files')
    {licenses : Option Files.Path} (read : readLicenses files path table = .ok licenses) :
    readLicenses files' path table = .ok licenses := by
  have named (name : String) : fileNamed files' path name = fileNamed files path name := sets.locate _
  unfold readLicenses at read ⊢
  simp only [named]
  split at read
  next => exact read
  next =>
    dsimp only at read ⊢
    split at read
    next there =>
      rw [if_pos (sets.isFile there)]
      exact read
    next => cases read
  next => cases read

/-- With one more rule in a rewritten document and everything else as it was, there is one more rule in the
settings. -/
theorem ofTable_of_gains {text : String} {rule : Rule} (sets : files.Sets path text files')
    (read : ofTable files path table = .ok settings) (listed : rule.licenses ≠ [])
    (gains : Gains policyKey rule.entries table extended) :
    ofTable files' path extended = .ok { settings with rules := settings.rules ++ [rule] } := by
  obtain ⟨threshold, limit, licenses, equivalences, rules, known⟩ := ofTable_eq_ok_iff.mp read
  -- Only the rules are read from the key that has changed.
  refine ofTable_eq_ok_iff.mpr ⟨?_, ?_, ?_, ?_, readRules_of_gains rules listed gains, ?_⟩
  · simpa only [readThreshold, gains.others "similarity_threshold" (by decide)] using threshold
  · simpa only [readLimit, gains.others "candidate_limit" (by decide)] using limit
  · simpa only [readLicenses, gains.others "licenses_toml" (by decide)] using readLicenses_of_sets sets licenses
  · simpa only [readEquivalences, gains.others "equivalence" (by decide)] using equivalences
  · rw [unknownKeys_eq_nil_iff] at known ⊢
    intro key found
    by_cases policy : key = policyKey
    · simp [policy, keys]
    · exact known key (gains.others key policy ▸ found)

/-- A document that gains a rule has no obstacle more. -/
theorem obstacle?_of_gains {text : String} {rule : Rule} (sets : files.Sets path text files')
    (read : readLicenses files path table = .ok settings.licenses)
    (gains : Gains policyKey rule.entries table extended) (free : obstacle? files path table = none) :
    obstacle? files' path extended = none := by
  have named (name : String) : fileNamed files' path name = fileNamed files path name := sets.locate _
  have number : hasLongThreshold extended = hasLongThreshold table := by
    rw [hasLongThreshold, gains.others "similarity_threshold" (by decide), hasLongThreshold]
  unfold obstacle? at free ⊢
  rw [number]
  split at free
  next => cases free
  next short =>
    rw [if_neg short]
    rw [Option.map_eq_none_iff] at free ⊢
    unfold licensesBarrier? at free ⊢
    rw [gains.others "licenses_toml" (by decide)]
    split at free
    next name given =>
      split at free
      next => cases free
      next usable =>
        -- The file with further licenses is there, so it is found again.
        have there : files.isFile (fileNamed files path name) = true := by
          simp only [readLicenses, given] at read
          split at read
          next there => exact there
          next => cases read
        rw [if_neg usable, named, Files.lookFor_of_isFile (sets.isFile there)]
    next => rfl

theorem load_eq_ok_iff : load files path = .ok settings ↔ ∃ text table, files.read path = .ok text ∧
    read? text = some table ∧ obstacle? files path table = none ∧ ofTable files path table = .ok settings := by
  unfold load
  cases read : files.read path with
  | error fault => cases fault <;> simp
  | ok text =>
    cases found : read? text with
    | none => simp [found]
    | some table => cases free : obstacle? files path table <;> simp [found, free, Outcome.mapError_eq_ok]

/-! ## Adding -/

/-- The text that a rule is added to: that of the file, or the empty one where nothing stands. -/
def Finds (files : Files) (path : Files.Path) (text : String) : Prop :=
  (∃ content, files.read path = .ok content ∧ text = Files.withUnifiedLineEnds content) ∨
    files.exists? path = false ∧ text = ""

/-- The same text with the table that it is read as. -/
def FindsTable (files : Files) (path : Files.Path) (text : String) (table : Table) : Prop :=
  (∃ content, files.read path = .ok content ∧ text = Files.withUnifiedLineEnds content ∧
      read? content = some table) ∨
    files.exists? path = false ∧ text = "" ∧ table = []

section Adding

variable {editor : Editor} {new : NewRule}

theorem exists_finds_of_edited {raw : RawText} (found : edited editor files path new = .ok raw) :
    ∃ text, Finds files path text ∧ editor.withTable text policyKey new.entries = .ok raw := by
  have unfolded : edited editor files path new =
      (if files.exists? path then (files.readLines path).mapError .file else .ok "").bind fun text =>
        (withRule editor path text new).mapError .defects := by
    unfold edited
    dsimp only
    split <;> rfl
  rw [unfolded] at found
  obtain ⟨text, read, found⟩ := Outcome.bind_eq_ok.mp found
  refine ⟨text, ?_, Outcome.mapError_eq_ok.mp (Outcome.mapError_eq_ok.mp found)⟩
  split at read
  next =>
    obtain ⟨content, stands, rfl⟩ := Outcome.map_eq_ok.mp (Outcome.mapError_eq_ok.mp read)
    exact .inl ⟨content, stands, rfl⟩
  next absent =>
    cases read
    exact .inr ⟨by simpa using absent, rfl⟩

/-- A rule is written, or its text cannot be encoded and the file is empty, or everything is as it was. -/
theorem addRule_cases (editor : Editor) (files : Files) (path : Files.Path) (new : NewRule) :
    (∃ text raw, Finds files path text ∧ editor.withTable text policyKey new.entries = .ok raw ∧
        ((∃ after, (addRule editor files path new).1 = .ok () ∧ raw.text? = some after ∧
            files.Sets path after (addRule editor files path new).2) ∨
          ∃ fault, (addRule editor files path new).1 = .error fault ∧ raw.text? = none ∧
            files.Sets path "" (addRule editor files path new).2)) ∨
      ∃ fault, (addRule editor files path new).1 = .error fault ∧ (addRule editor files path new).2 = files := by
  cases found : edited editor files path new with
  | error fault => exact .inr ⟨fault, by simp [addRule, found], by simp [addRule, found]⟩
  | ok raw =>
    obtain ⟨text, finds, added⟩ := exists_finds_of_edited found
    have result : (addRule editor files path new).1 = (files.write path raw).1.mapError .ofWriteFault := by
      simp [addRule, found]
    have left : (addRule editor files path new).2 = (files.write path raw).2 := by simp [addRule, found]
    rw [result, left]
    obtain ⟨after, written, proper, sets⟩ | ⟨fault, failed, same⟩ | ⟨fault, failed, improper, sets⟩ :=
      files.write_cases path raw
    · exact .inl ⟨text, raw, finds, added, .inl ⟨after, by rw [written]; rfl, proper, sets⟩⟩
    · exact .inr ⟨_, by rw [failed]; rfl, same⟩
    · exact .inl ⟨text, raw, finds, added, .inr ⟨_, by rw [failed]; rfl, improper, sets⟩⟩

/-- The document that settings were loaded from, or the empty one, is that of the text that a rule is added to. -/
theorem exists_table_of_finds {text : String} (finds : Finds files path text)
    (before : load files path = .ok settings ∨ files.isFile path = false ∧ settings = {}) :
    ∃ table, FindsTable files path text table ∧ obstacle? files path table = none ∧
      ofTable files path table = .ok settings := by
  obtain loaded | ⟨noFile, rfl⟩ := before
  · obtain ⟨content, table, read, found, free, kept⟩ := load_eq_ok_iff.mp loaded
    obtain ⟨content', read', rfl⟩ | ⟨absent, -⟩ := finds
    · cases read.symm.trans read'
      exact ⟨table, .inl ⟨content, read, rfl, found⟩, free, kept⟩
    · simp [Files.exists?_of_read read] at absent
  · obtain ⟨content, read, -⟩ | ⟨absent, rfl⟩ := finds
    · cases noFile.symm.trans (Files.isFile_iff.mpr ⟨content, read⟩)
    · exact ⟨[], .inr ⟨absent, rfl, rfl⟩, rfl, rfl⟩

/-- A rule whose table is read from the new text is the last one of the settings that are loaded. -/
theorem load_of_gains {after : String} (sets : files.Sets path after files') (read : read? after = some extended)
    (free : obstacle? files path table = none) (kept : ofTable files path table = .ok settings)
    (listed : new.licenses ≠ []) (gains : Gains policyKey new.rule.entries table extended) :
    load files' path = .ok { settings with rules := settings.rules ++ [new.rule] } :=
  load_eq_ok_iff.mpr ⟨after, extended, sets.read, read,
    obstacle?_of_gains sets (ofTable_eq_ok_iff.mp kept).2.2.1 gains free, ofTable_of_gains sets kept listed gains⟩

/-- With a faithful editor, the settings gain a rule whose reason a file can hold; one with any other reason costs them
their file, if it can be opened at all. -/
theorem addRule_spec (listed : new.licenses ≠ [])
    (faithful : ∀ text table, FindsTable files path text table → editor.Faithful text table policyKey new.entries)
    (before : load files path = .ok settings ∨ files.isFile path = false ∧ settings = {}) :
    (∃ reason after, (addRule editor files path new).1 = .ok () ∧ new.reason.text? = some reason ∧
        files.Sets path after (addRule editor files path new).2 ∧
        load (addRule editor files path new).2 path = .ok { settings with rules := settings.rules ++ [new.rule] }) ∨
      (∃ fault, (addRule editor files path new).1 = .error fault ∧ new.reason.text? = none ∧
        files.Sets path "" (addRule editor files path new).2) ∨
      ∃ fault, (addRule editor files path new).1 = .error fault ∧ (addRule editor files path new).2 = files := by
  obtain ⟨text, raw, finds, added, state⟩ | refused := addRule_cases editor files path new
  · obtain ⟨table, document, free, kept⟩ := exists_table_of_finds finds before
    obtain ⟨gains, surrogates⟩ := faithful text table document
    -- The editor hands on what the reason holds, so the reason alone decides how far writing gets.
    cases held : new.reason.text? with
    | some reason =>
      obtain ⟨after, extended, plain, read, gains⟩ := gains raw _ added (NewRule.table?_entries held)
      obtain ⟨_, done, plain', sets⟩ | ⟨fault, -, improper, -⟩ := state
      · cases plain.symm.trans plain'
        exact .inl ⟨reason, after, done, rfl, sets, load_of_gains sets read free kept listed gains⟩
      · cases plain.symm.trans improper
    | none =>
      have improper := surrogates raw added (NewRule.table?_entries_of_surrogate held)
      obtain ⟨_, -, plain, -⟩ | ⟨fault, failed, -, sets⟩ := state
      · cases plain.symm.trans improper
      · exact .inr (.inl ⟨fault, failed, rfl, sets⟩)
  · exact .inr (.inr refused)

/-- In a new file, a rule is the only one, whatever its reason is. -/
theorem load_of_addRule_of_missing (noFile : files.isFile path = false) (listed : new.licenses ≠ [])
    (added : (addRule sectionEditor files path new).1 = .ok ()) :
    load (addRule sectionEditor files path new).2 path = .ok { rules := [new.rule] } := by
  have faithful (text : String) (table : Table) (found : FindsTable files path text table) :
      sectionEditor.Faithful text table policyKey new.entries := by
    obtain ⟨content, read, -⟩ | ⟨-, rfl, rfl⟩ := found
    · cases noFile.symm.trans (Files.isFile_iff.mpr ⟨content, read⟩)
    · exact new.faithful_empty
  obtain ⟨_, _, -, -, -, loads⟩ | ⟨_, failed, -⟩ | ⟨_, failed, -⟩ :=
    addRule_spec listed faithful (.inr ⟨noFile, rfl⟩)
  · exact loads
  · cases added.symm.trans failed
  · cases added.symm.trans failed

end Adding

end Settings

end Licensing
