import Licensing.Proofs.Engine.Bundled
import Licensing.Proofs.Equivalence.Union
import Licensing.Proofs.Equivalence.VersionRanges
import Licensing.Proofs.Grammar.RoundTrip

/-! # Equivalence rules of the settings

The rules of the settings become one table on top of the version ranges.  What this table says depends only
on which sources the rules send to which targets (`EquivalenceRule.Regroups`), so rules may stand in any
order, and a rule may be split into several with the same source, without any change in what the engine
expands to (`Engine.expand_of_regrouping`).

* `EquivalenceTable.exists_ofRules_iff`, `EquivalenceTable.mem_find_ofRules` — the table of a list of rules.
* `Interpreter.build_of_alike` — an interpreter needs expansions only.
-/

namespace Licensing

open Licensing.Equivalence

variable {registry : Registry}

/-! ## Regrouping rules -/

namespace EquivalenceRule

/-- The rules name the same sources, and send each of them to the same targets. -/
structure Regroups (rules rules' : List EquivalenceRule) : Prop where
  sources : ∀ source, (∃ rule ∈ rules, rule.source = source) ↔ ∃ rule ∈ rules', rule.source = source
  targets : ∀ source target, (∃ rule ∈ rules, rule.source = source ∧ target ∈ rule.targets) ↔
    ∃ rule ∈ rules', rule.source = source ∧ target ∈ rule.targets

variable {rules rules' : List EquivalenceRule}

theorem Regroups.trans {rules'' : List EquivalenceRule} (first : Regroups rules rules')
    (second : Regroups rules' rules'') : Regroups rules rules'' :=
  ⟨fun source => (first.sources source).trans (second.sources source),
    fun source target => (first.targets source target).trans (second.targets source target)⟩

theorem Regroups.of_perm (perm : rules.Perm rules') : Regroups rules rules' :=
  ⟨fun _ => by simp only [perm.mem_iff], fun _ _ => by simp only [perm.mem_iff]⟩

/-- A rule may be split into two with the same source. -/
theorem Regroups.of_split (before behind : List EquivalenceRule) (source : String)
    (first second : List String) :
    Regroups (before ++ ⟨source, first ++ second⟩ :: behind)
      (before ++ ⟨source, first⟩ :: ⟨source, second⟩ :: behind) := by
  constructor
  · intro s
    simp only [List.mem_append, List.mem_cons, or_and_right, exists_or, exists_eq_left, or_self_left]
  · intro s t
    simp only [List.mem_append, List.mem_cons, or_and_right, exists_or, exists_eq_left, and_or_left,
      or_assoc]

theorem Regroups.isEmpty_eq (regroups : Regroups rules rules') : rules.isEmpty = rules'.isEmpty := by
  cases rules with
  | nil =>
    cases rules' with
    | nil => rfl
    | cons rule rest =>
      obtain ⟨_, none, -⟩ := (regroups.sources rule.source).mpr ⟨rule, List.mem_cons_self, rfl⟩
      cases none
  | cons rule rest =>
    cases rules' with
    | nil =>
      obtain ⟨_, none, -⟩ := (regroups.sources rule.source).mp ⟨rule, List.mem_cons_self, rfl⟩
      cases none
    | cons _ _ => rfl

theorem read_eq_ok {rule : EquivalenceRule} {addition : Expression × List Expression} :
    rule.read registry = .ok addition ↔ Expression.parse registry rule.source = .ok addition.1 ∧
      rule.targets.mapM (Expression.parse registry) = .ok addition.2 := by
  constructor
  · intro done
    obtain ⟨source, first, done⟩ := Outcome.bind_eq_ok.mp done
    obtain ⟨targets, second, same⟩ := Outcome.bind_eq_ok.mp done
    cases same
    exact ⟨first, second⟩
  · rintro ⟨first, second⟩
    exact Outcome.bind_eq_ok.mpr ⟨_, first, Outcome.bind_eq_ok.mpr ⟨_, second, rfl⟩⟩

/-- A rule can be read if all its texts can. -/
theorem exists_read_iff {rule : EquivalenceRule} :
    (∃ addition, rule.read registry = .ok addition) ↔
      (∃ e, Expression.parse registry rule.source = .ok e) ∧
        ∀ target ∈ rule.targets, ∃ e, Expression.parse registry target = .ok e := by
  simp only [read_eq_ok, Prod.exists, exists_and_left, exists_and_right, Outcome.exists_mapM_iff]

end EquivalenceRule

/-! ## The table of the rules -/

namespace EquivalenceTable

variable {rules : List EquivalenceRule} {table : EquivalenceTable} {key d : Expression}

theorem addRules_eq_extend (registry : Registry) (index : Nat) (table : EquivalenceTable)
    {additions : List (Expression × List Expression)}
    (readable : rules.mapM (EquivalenceRule.read registry) = .ok additions) :
    addRules registry index table rules = (table.extend additions, []) := by
  induction rules generalizing index table additions with
  | nil =>
    cases readable
    rfl
  | cons rule rules ih =>
    rw [Outcome.mapM_cons] at readable
    obtain ⟨addition, first, later⟩ := Outcome.bind_eq_ok.mp readable
    obtain ⟨rest, others, rfl⟩ := Outcome.map_eq_ok.mp later
    rw [addRules, first]
    exact ih (index + 1) (table.add addition.1 addition.2) others

theorem readable_of_addRules {index : Nat} (sound : (addRules registry index table rules).2 = []) :
    ∀ rule ∈ rules, ∃ addition, rule.read registry = .ok addition := by
  induction rules generalizing index table with
  | nil => simp
  | cons rule rules ih =>
    rw [addRules] at sound
    cases first : rule.read registry with
    | error cause => simp [first] at sound
    | ok addition =>
      rw [first] at sound
      intro other member
      cases List.mem_cons.mp member with
      | inl same => exact ⟨addition, same ▸ first⟩
      | inr later => exact ih sound other later

theorem ofRules_eq_ok : ofRules registry rules = .ok table ↔
    ∃ additions, rules.mapM (EquivalenceRule.read registry) = .ok additions ∧
      table = extend [] additions := by
  constructor
  · intro accepted
    have sound : (addRules registry 0 [] rules).2 = [] := by
      unfold ofRules at accepted
      split at accepted
      next _ same => rw [same]
      next => cases accepted
    obtain ⟨additions, readable⟩ := Outcome.exists_mapM_iff.mpr (readable_of_addRules sound)
    simp only [ofRules, addRules_eq_extend registry 0 [] readable, Except.ok.injEq] at accepted
    exact ⟨additions, readable, accepted.symm⟩
  · rintro ⟨additions, readable, rfl⟩
    simp only [ofRules, addRules_eq_extend registry 0 [] readable]

/-- There is a table exactly if all texts of all rules can be read. -/
theorem exists_ofRules_iff : (∃ table, ofRules registry rules = .ok table) ↔
    ∀ rule ∈ rules, (∃ e, Expression.parse registry rule.source = .ok e) ∧
      ∀ target ∈ rule.targets, ∃ e, Expression.parse registry target = .ok e := by
  simp only [ofRules_eq_ok, ← EquivalenceRule.exists_read_iff]
  rw [← Outcome.exists_mapM_iff]
  constructor
  · rintro ⟨_, additions, readable, -⟩
    exact ⟨additions, readable⟩
  · rintro ⟨additions, readable⟩
    exact ⟨_, additions, readable, rfl⟩

/-- An expression is listed if a rule sends a text of the key to a text of the expression. -/
theorem mem_find_ofRules (accepted : ofRules registry rules = .ok table) :
    d ∈ table.find key ↔ ∃ source target, Expression.parse registry source = .ok key ∧
      Expression.parse registry target = .ok d ∧
        ∃ rule ∈ rules, rule.source = source ∧ target ∈ rule.targets := by
  obtain ⟨additions, readable, rfl⟩ := ofRules_eq_ok.mp accepted
  have nothing : d ∉ find [] key := by simp [find]
  rw [mem_find_extend, or_iff_right nothing]
  constructor
  · rintro ⟨added, member, inside⟩
    obtain ⟨rule, inRules, done⟩ := Outcome.exists_of_mem_mapM readable member
    obtain ⟨source, targets⟩ := EquivalenceRule.read_eq_ok.mp done
    obtain ⟨target, inTargets, parsed⟩ := Outcome.exists_of_mem_mapM targets inside
    exact ⟨rule.source, target, source, parsed, rule, inRules, rfl, inTargets⟩
  · rintro ⟨_, target, source, parsed, rule, inRules, rfl, inTargets⟩
    obtain ⟨addition, member, done⟩ := Outcome.exists_mem_of_mapM readable inRules
    obtain ⟨source', targets⟩ := EquivalenceRule.read_eq_ok.mp done
    obtain ⟨found, inside, parsed'⟩ := Outcome.exists_mem_of_mapM targets inTargets
    cases Except.ok.inj (source.symm.trans source')
    cases Except.ok.inj (parsed.symm.trans parsed')
    exact ⟨addition.2, member, inside⟩

theorem canonical_of_ofRules (accepted : ofRules registry rules = .ok table) :
    ∀ d ∈ table.values, d.Canonical := by
  obtain ⟨additions, readable, rfl⟩ := ofRules_eq_ok.mp accepted
  intro d member
  obtain none | ⟨key, added, inside, inAdded⟩ := mem_values_extend.mp member
  · simp [values] at none
  · obtain ⟨rule, -, done⟩ := Outcome.exists_of_mem_mapM readable inside
    obtain ⟨-, targets⟩ := EquivalenceRule.read_eq_ok.mp done
    obtain ⟨target, -, parsed⟩ := Outcome.exists_of_mem_mapM targets inAdded
    exact (Expression.printable_of_parse parsed).canonical

/-- Regrouped rules have a table as well, and it says the same. -/
theorem exists_ofRules_of_regroups {rules' : List EquivalenceRule}
    (regroups : EquivalenceRule.Regroups rules rules') (accepted : ofRules registry rules = .ok table) :
    ∃ table', ofRules registry rules' = .ok table' ∧
      ∀ key d, d ∈ table'.find key ↔ d ∈ table.find key := by
  have readable := exists_ofRules_iff.mp ⟨table, accepted⟩
  obtain ⟨table', accepted'⟩ : ∃ table', ofRules registry rules' = .ok table' := by
    refine exists_ofRules_iff.mpr fun rule' member => ⟨?_, fun target inTargets => ?_⟩
    · obtain ⟨rule, inRules, same⟩ := (regroups.sources rule'.source).mpr ⟨rule', member, rfl⟩
      exact same ▸ (readable rule inRules).1
    · obtain ⟨rule, inRules, -, inside⟩ :=
        (regroups.targets rule'.source target).mpr ⟨rule', member, rfl, inTargets⟩
      exact (readable rule inRules).2 target inside
  refine ⟨table', accepted', fun key d => ?_⟩
  simp only [mem_find_ofRules accepted, mem_find_ofRules accepted', regroups.targets]

end EquivalenceTable

/-! ## Policies and interpreters -/

theorem Policy.keys_register {policy extended : Policy} {decision : Decision} {es : List Expression}
    {fault : Option PolicyFault} (registered : policy.register decision es = (extended, fault)) :
    extended.keys ⊆ policy.keys ++ es := by
  induction es generalizing policy with
  | nil =>
    cases registered
    exact List.subset_append_left ..
  | cons e es ih =>
    rw [Policy.register] at registered
    split at registered
    next =>
      cases registered
      exact List.subset_append_left ..
    next => simpa [Policy.push, Policy.keys] using ih registered

/-- What a policy decides on has been read, so it is canonical. -/
theorem Policy.canonical_of_ofRules {policy : Policy} {rules : List Rule}
    (accepted : Policy.ofRules registry rules = .ok policy) : ∀ e ∈ policy.keys, e.Canonical := by
  refine Outcome.foldlM_invariant (P := fun policy : Policy => ∀ e ∈ policy.keys, e.Canonical)
    (by simp [Policy.empty, Policy.keys]) ?_ accepted
  intro policy canonical rule _ extended added e member
  obtain ⟨es, read, registered⟩ := Outcome.bind_eq_ok.mp added
  split at registered
  next result =>
    cases registered
    cases List.mem_append.mp (Policy.keys_register result member) with
    | inl before => exact canonical e before
    | inr new =>
      obtain ⟨text, -, parsed⟩ := Outcome.exists_of_mem_mapM read new
      exact (Expression.printable_of_parse (Outcome.mapError_eq_ok.mp parsed)).canonical
  next => cases registered

namespace Interpreter

variable {equivalence other : Equivalence} {policy : Policy} {interpreter : Interpreter}

theorem index_of_alike (alike : Alike other equivalence) {key : Expression} (canonical : key.Canonical)
    {parts parts' : List (Expression × Expression)} (indexed : index equivalence parts key = .ok parts') :
    index other parts key = .ok parts' := by
  obtain ⟨expanded, found, covered⟩ := Outcome.bind_eq_ok.mp indexed
  have ended := (alike.expand key canonical _ (settled_ok expanded)).mpr (Outcome.mapError_eq_ok.mp found)
  exact Outcome.bind_eq_ok.mpr ⟨expanded, Outcome.mapError_eq_ok.mpr ended, covered⟩

/-- An interpreter needs the expansions of its entries only. -/
theorem build_of_alike (alike : Alike other equivalence) (canonical : ∀ e ∈ policy.keys, e.Canonical)
    (built : build equivalence policy = .ok interpreter) :
    build other policy = .ok ⟨other, policy, interpreter.parts⟩ := by
  obtain ⟨parts, indexed, same⟩ := Outcome.bind_eq_ok.mp built
  cases same
  refine Outcome.bind_eq_ok.mpr ⟨parts, ?_, rfl⟩
  exact Outcome.foldlM_congr (fun key member _ _ => index_of_alike alike (canonical key member)) indexed

end Interpreter

/-! ## Engines -/

namespace Engine

open Reporting

theorem Layers.canonical {rules : List EquivalenceRule} {equivalence : Equivalence}
    (layers : Layers registry rules equivalence) : equivalence.Canonical := by
  cases layers with
  | plain accepted => exact VersionTable.tables accepted
  | ruled accepted _ read =>
    intro d member
    simp only [values, List.flatMap_cons, List.flatMap_nil, List.append_nil, List.mem_append] at member
    obtain inVersions | inRules := member
    · exact VersionTable.tables accepted d (by simpa [values] using inVersions)
    · exact EquivalenceTable.canonical_of_ofRules read d inRules

/-- With regrouped rules there are such tables as well, and they answer alike. -/
theorem Layers.exists_alike {rules rules' : List EquivalenceRule}
    (regroups : EquivalenceRule.Regroups rules rules') {equivalence : Equivalence}
    (layers : Layers registry rules equivalence) :
    ∃ other, Layers registry rules' other ∧ Alike other equivalence := by
  cases layers with
  | plain accepted none =>
    have layers' : Layers registry rules' _ := .plain accepted (regroups.isEmpty_eq ▸ none)
    exact ⟨_, layers', .of_entries layers'.canonical layers'.canonical fun _ _ => Iff.rfl⟩
  | ruled accepted some read =>
    have layers : Layers registry rules _ := .ruled accepted some read
    obtain ⟨table', read', same⟩ := EquivalenceTable.exists_ofRules_of_regroups regroups read
    have layers' : Layers registry rules' _ := .ruled accepted (regroups.isEmpty_eq ▸ some) read'
    refine ⟨_, layers', .of_entries layers'.canonical layers.canonical fun key d => ?_⟩
    simp only [List.mem_cons, List.not_mem_nil, or_false, exists_eq_or_imp, exists_eq_left, same]

/-- If there is an engine for some settings, there is one for the settings with regrouped rules. -/
theorem exists_ofSettings_of_regroups {files : Files} {settings : Settings} {rules : List EquivalenceRule}
    (regroups : EquivalenceRule.Regroups settings.equivalences rules) {engine : Engine}
    (built : (ofSettings files settings).outcome.1 = .ok engine) :
    ∃ engine', (ofSettings files { settings with equivalences := rules }).outcome.1 = .ok engine' ∧
      engine'.registry = engine.registry ∧ Alike engine'.equivalence engine.equivalence := by
  simp only [outcome_eq_ok, ofSettings, buildGuesser, runFrom_bind_eq_ok, runFrom_note_eq_ok,
    runFrom_lift_eq_ok, runFrom_pure_eq_ok] at built ⊢
  obtain ⟨_, registry, _, loaded, equivalence, _, tables, _, _, ⟨⟨⟩, _, rfl, rfl, rfl⟩, policy, _,
    ⟨accepted, rfl⟩, ⟨⟩, _, rfl, interpreter, _, indexed, rfl, rfl⟩ := built
  obtain ⟨other, layers, alike⟩ :=
    ((exists_runFrom_buildEquivalence _).mp ⟨_, tables⟩).exists_alike regroups
  have indexed := Interpreter.build_of_alike alike (Policy.canonical_of_ofRules accepted)
    ((exists_runFrom_buildInterpreter _).mp ⟨_, indexed⟩)
  obtain ⟨_, tables⟩ := (exists_runFrom_buildEquivalence _).mpr layers
  obtain ⟨_, indexed⟩ := (exists_runFrom_buildInterpreter _).mpr indexed
  exact ⟨_, ⟨_, registry, _, loaded, other, _, tables, _, _, ⟨⟨⟩, _, rfl, rfl, rfl⟩, policy, _,
    ⟨accepted, rfl⟩, ⟨⟩, _, rfl, _, _, indexed, rfl, rfl⟩, rfl, alike⟩

/-- Neither the order of tables matters nor how their entries are spread over them: reordered or united tables
have the same look-ups and expansions, with the same values and the same faults.  So rules of the settings
that are regrouped make an engine that expands as before. -/
theorem expand_of_regrouping (tables : List EquivalenceTable)
    (canonical : (Equivalence.mk tables).Canonical) :
    (∀ tables' : List EquivalenceTable, tables'.Perm tables → Alike ⟨tables'⟩ ⟨tables⟩) ∧
      Alike ⟨[EquivalenceTable.united tables]⟩ ⟨tables⟩ ∧
      (EquivalenceTable.united tables).keys.Nodup ∧
      ∀ (files : Files) (settings : Settings) (rules : List EquivalenceRule) (engine : Engine),
        EquivalenceRule.Regroups settings.equivalences rules →
        (ofSettings files settings).outcome.1 = .ok engine →
        ∃ engine', (ofSettings files { settings with equivalences := rules }).outcome.1 = .ok engine' ∧
          engine'.registry = engine.registry ∧ Alike engine'.equivalence engine.equivalence ∧
          ∀ e, e.Canonical → ∀ r, Settled r →
            ((engine'.expand e).outcome.1 = r.mapError .expansion ↔
              (engine.expand e).outcome.1 = r.mapError .expansion) := by
  refine ⟨fun tables' perm => .of_perm canonical perm, .united canonical,
    EquivalenceTable.nodup_keys_united tables, fun files settings rules engine regroups built => ?_⟩
  obtain ⟨engine', built', registry, alike⟩ := exists_ofSettings_of_regroups regroups built
  refine ⟨engine', built', registry, alike, fun e canonical r settled => ?_⟩
  have injective : ∀ a b : ExpansionFault, Failure.expansion a = .expansion b → a = b :=
    fun _ _ same => Failure.expansion.inj same
  rw [outcome_expand, outcome_expand, Outcome.mapError_inj injective, Outcome.mapError_inj injective]
  exact alike.expand e canonical r settled

/-- Two tables share the key `A` and reach one another, and one of them sends a license with an exception to a
choice; the rule that sends `A` to `B` and `C` is split, and the parts are swapped. -/
theorem expand_of_regrouping_shared_keys :
    let a : License := .free ⟨"A", []⟩
    let b : License := .free ⟨"B", []⟩
    let c : License := .free ⟨"C", []⟩
    let x : LicenseException := .free ⟨"x", []⟩
    let first : EquivalenceTable := [(.just a, [.just b]), (.withException (.exact a) x, [.just c])]
    let second : EquivalenceTable := [(.just a, [.just c]), (.just b, [.just a])]
    let split : List EquivalenceRule := [⟨"A", ["C"]⟩, ⟨"A", ["B"]⟩]
    Alike ⟨[second, first]⟩ ⟨[first, second]⟩ ∧
      Alike ⟨[[(.withException (.exact a) x, [.just c]), (.just a, [.just b, .just c]),
        (.just b, [.just a])]]⟩ ⟨[first, second]⟩ ∧
      ∃ engine engine' : Engine,
        (ofSettings ⟨⟨"", []⟩, [], [], []⟩ { equivalences := [⟨"A", ["B", "C"]⟩] }).outcome.1 = .ok engine ∧
        (ofSettings ⟨⟨"", []⟩, [], [], []⟩ { equivalences := split }).outcome.1 = .ok engine' ∧
        engine'.registry = engine.registry ∧ Alike engine'.equivalence engine.equivalence := by
  intro a b c x first second split
  have canonical : (Equivalence.mk [first, second]).Canonical := by
    simp [first, second, Equivalence.Canonical, values, EquivalenceTable.values, Expression.Canonical]
  have same : EquivalenceTable.united [first, second] =
      [(.withException (.exact a) x, [.just c]), (.just a, [.just b, .just c]), (.just b, [.just a])] := by
    decide +kernel
  obtain ⟨reordered, united, -, regrouped⟩ := expand_of_regrouping [first, second] canonical
  have named : IsName "A" ∧ IsName "B" ∧ IsName "C" := by decide +kernel
  have readable (word : String) (name : IsName word) :
      ∃ e, Expression.parse Registry.standard word = .ok e := ⟨_, Expression.parse_of_isName _ name⟩
  let whole : List EquivalenceRule := [⟨"A", ["B", "C"]⟩]
  have read : ∃ table, EquivalenceTable.ofRules Registry.standard whole = .ok table := by
    refine EquivalenceTable.exists_ofRules_iff.mpr fun rule member => ?_
    cases List.mem_singleton.mp member
    refine ⟨readable "A" named.1, fun target inside => ?_⟩
    obtain rfl | inside := List.mem_cons.mp inside
    · exact readable "B" named.2.1
    · exact List.mem_singleton.mp inside ▸ readable "C" named.2.2
  obtain ⟨engine, built⟩ := exists_ofSettings ⟨⟨"", []⟩, [], [], []⟩
    (show ({ equivalences := whole } : Settings).licenses = none from rfl) rfl read
  have regroups : EquivalenceRule.Regroups whole split :=
    (EquivalenceRule.Regroups.of_split [] [] "A" ["B"] ["C"]).trans (.of_perm (.swap ..))
  obtain ⟨engine', built', registry, alike, -⟩ := regrouped _ _ split engine regroups built
  exact ⟨reordered _ (.swap ..), same ▸ united, engine, engine', built, built', registry, alike⟩

end Engine

end Licensing
