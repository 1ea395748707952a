import Licensing.Proofs.Compatibility.Coverage

/-! # Reasons and what they go back to

A resolution gives its reasons as texts.  `Explains` keeps beside them what each goes back to: an entry
of the policy, quoted for its key or for an alternative of it, or the lack of one, behind the labels
that joining put in front.  Every join keeps such an account (`Explains.join`), so every evaluation has
one (`Evaluates.explained`).
-/

namespace Licensing

/-- What a reason goes back to. -/
inductive Ground where
  | entry (key : Expression) (decision : Decision) (quoted : Expression)
  | missing (e : Expression)

/-- A ground behind the verdicts that were put in front of it. -/
structure Account where
  labels : List Verdict
  ground : Ground

namespace Ground

def verdict : Ground → Verdict
  | .entry _ decision _ => decision.verdict
  | .missing _ => .unknown

def line : Ground → String
  | .entry _ decision quoted =>
    quoted.text ++ ": " ++
      if decision.reason.isEmpty then decision.verdict.name else decision.reason
  | .missing e => "No rules found for " ++ e.text

/-- An entry is quoted for its key or for an alternative that it covers.  It is missed where there is
none, and none that covers the expansion. -/
def Known (equivalence : Equivalence) (policy : Policy) : Ground → Prop
  | .entry key decision quoted => policy.find? key = some decision ∧
      (quoted = key ∨ Interpreter.Covers equivalence key quoted)
  | .missing e => policy.find? e = none ∧ ∃ own, equivalence.expand e = .ok own ∧
      ∀ key ∈ policy.keys, ¬ Interpreter.Covers equivalence key own

end Ground

namespace Account

def text (account : Account) : String :=
  account.labels.foldr (fun label reason => label.name ++ ": " ++ reason) account.ground.line

def labelled (v : Verdict) (account : Account) : Account :=
  ⟨v :: account.labels, account.ground⟩

theorem exists_text_eq (account : Account) :
    ∃ front, account.text = front ++ account.ground.line := by
  obtain ⟨labels, ground⟩ := account
  induction labels with
  | nil => exact ⟨"", (String.empty_append ..).symm⟩
  | cons label labels ih =>
    obtain ⟨front, same⟩ := ih
    refine ⟨label.name ++ ": " ++ front, ?_⟩
    rw [String.append_assoc, ← same]
    rfl

end Account

theorem Resolution.labelled_eq {r : Resolution} {accounts : List Account}
    (texts : r.reasons = accounts.map Account.text) :
    r.labelled = (accounts.map (Account.labelled r.verdict)).map Account.text := by
  rw [labelled, texts, List.map_map, List.map_map]
  rfl

/-- Everything that a join can do. -/
theorem Resolution.join_cases (connective : Connective) (a b : Resolution) :
    a.verdict = b.verdict ∧ join connective a b = ⟨a.verdict, a.reasons ++ b.reasons⟩ ∨
    join connective a b = a ∨ join connective a b = b ∨
    ∃ mixed, (mixed = a.verdict ∨ mixed = b.verdict) ∧ mixed ≠ .allow ∧
      join connective a b = ⟨mixed, a.labelled ++ b.labelled⟩ := by
  obtain ⟨v, reasons⟩ := a
  obtain ⟨w, others⟩ := b
  cases connective <;> cases v <;> cases w <;> simp [join, both, either]

namespace Interpreter

/-! ## Accounts of resolutions -/

/-- The accounts of the reasons of a resolution. -/
structure Explains (equivalence : Equivalence) (policy : Policy) (accounts : List Account)
    (r : Resolution) : Prop where
  texts : r.reasons = accounts.map Account.text
  known : ∀ account ∈ accounts, account.ground.Known equivalence policy
  /-- Some ground has the verdict itself. -/
  attained : ∃ account ∈ accounts, account.ground.verdict = r.verdict
  /-- What is allowed has no reasons but grounds that allow. -/
  allowed : r.verdict = .allow → ∀ account ∈ accounts,
    account.labels = [] ∧ account.ground.verdict = .allow

variable {equivalence : Equivalence} {policy : Policy}

theorem Explains.append {before behind : List Account} {a b : Resolution}
    (left : Explains equivalence policy before a) (right : Explains equivalence policy behind b)
    (same : a.verdict = b.verdict) :
    Explains equivalence policy (before ++ behind) ⟨a.verdict, a.reasons ++ b.reasons⟩ where
  texts := by rw [List.map_append, left.texts, right.texts]
  known account member := by
    cases List.mem_append.mp member with
    | inl first => exact left.known account first
    | inr second => exact right.known account second
  attained := by
    obtain ⟨account, member, attained⟩ := left.attained
    exact ⟨account, List.mem_append_left _ member, attained⟩
  allowed allow account member := by
    cases List.mem_append.mp member with
    | inl first => exact left.allowed allow account first
    | inr second => exact right.allowed (same ▸ allow) account second

theorem Explains.mix {before behind : List Account} {a b : Resolution} {mixed : Verdict}
    (left : Explains equivalence policy before a) (right : Explains equivalence policy behind b)
    (source : mixed = a.verdict ∨ mixed = b.verdict) (strict : mixed ≠ .allow) :
    Explains equivalence policy
      (before.map (Account.labelled a.verdict) ++ behind.map (Account.labelled b.verdict))
      ⟨mixed, a.labelled ++ b.labelled⟩ where
  texts := by
    rw [List.map_append, Resolution.labelled_eq left.texts, Resolution.labelled_eq right.texts]
  known account member := by
    cases List.mem_append.mp member with
    | inl first =>
      obtain ⟨inner, source, rfl⟩ := List.mem_map.mp first
      exact left.known inner source
    | inr second =>
      obtain ⟨inner, source, rfl⟩ := List.mem_map.mp second
      exact right.known inner source
  attained := by
    cases source with
    | inl first =>
      obtain ⟨account, member, attained⟩ := left.attained
      exact ⟨_, List.mem_append_left _ (List.mem_map_of_mem member), attained.trans first.symm⟩
    | inr second =>
      obtain ⟨account, member, attained⟩ := right.attained
      exact ⟨_, List.mem_append_right _ (List.mem_map_of_mem member), attained.trans second.symm⟩
  allowed allow := absurd allow strict

theorem Explains.join {before behind : List Account} {a b : Resolution}
    (left : Explains equivalence policy before a) (right : Explains equivalence policy behind b)
    (connective : Connective) :
    ∃ accounts, Explains equivalence policy accounts (Resolution.join connective a b) := by
  obtain ⟨same, joined⟩ | joined | joined | ⟨mixed, source, strict, joined⟩ :=
    Resolution.join_cases connective a b
  · rw [joined]
    exact ⟨_, left.append right same⟩
  · rw [joined]
    exact ⟨before, left⟩
  · rw [joined]
    exact ⟨behind, right⟩
  · rw [joined]
    exact ⟨_, left.mix right source strict⟩

theorem explains_resolve {key quoted : Expression} {decision : Decision}
    (entry : policy.find? key = some decision)
    (quotable : quoted = key ∨ Covers equivalence key quoted) :
    Explains equivalence policy [⟨[], .entry key decision quoted⟩] (decision.resolve quoted) where
  texts := rfl
  known := by simpa [Ground.Known] using ⟨entry, quotable⟩
  attained := by simp [Ground.verdict, Decision.resolve]
  allowed := by simp [Ground.verdict, Decision.resolve]

theorem explains_unlisted {e own : Expression} (unlisted : policy.find? e = none)
    (expanded : equivalence.expand e = .ok own)
    (uncovered : ∀ key ∈ policy.keys, ¬ Covers equivalence key own) :
    Explains equivalence policy [⟨[], .missing e⟩] (.unlisted e) where
  texts := rfl
  known := by simpa [Ground.Known] using ⟨unlisted, own, expanded, uncovered⟩
  attained := by simp [Ground.verdict, Resolution.unlisted]
  allowed := by simp [Resolution.unlisted]

/-! ## Accounts of evaluations -/

variable {interpreter : Interpreter}

theorem explains_ascribe (built : build equivalence policy = .ok interpreter) {e own : Expression}
    (unlisted : policy.find? e = none) (expanded : equivalence.expand e = .ok own) :
    ∃ accounts, Explains equivalence policy accounts (interpreter.ascribe e own) := by
  obtain ⟨-, rfl, indexed⟩ := build_spec built
  rw [ascribe]
  cases covering : interpreter.covering? own with
  | none =>
    refine ⟨_, explains_unlisted unlisted expanded ?_⟩
    -- An entry that covers the expansion would have been found in the index.
    rintro key listed ⟨whole, ownExpanded, part⟩
    obtain ⟨decision, entry⟩ := exists_find?_of_mem_keys listed
    rw [covering?, indexed key listed whole ownExpanded own part] at covering
    exact absurd (entry.symm.trans covering) (Option.some_ne_none decision)
  | some decision =>
    obtain ⟨owner, found, entry⟩ := Option.bind_eq_some_iff.mp covering
    exact ⟨_, explains_resolve entry (.inr (build_sound built found).2)⟩

mutual

theorem Evaluates.explained (built : build equivalence policy = .ok interpreter) {e : Expression}
    {r : Resolution} :
    Evaluates interpreter e r → ∃ accounts, Explains equivalence policy accounts r
  | .listed entry => by
    rw [(build_spec built).2.1] at entry
    exact ⟨_, explains_resolve entry (.inl rfl)⟩
  | .compound _ _ head tail => by
    obtain ⟨accounts, explains⟩ := head.explained built
    exact tail.explained built explains
  | .alone unlisted expanded _ => by
    rw [(build_spec built).2.1] at unlisted
    rw [(build_spec built).1] at expanded
    exact explains_ascribe built unlisted expanded

theorem Folds.explained (built : build equivalence policy = .ok interpreter)
    {connective : Connective} {rest : List Expression} {start r : Resolution}
    {accounts : List Account} :
    Folds interpreter connective start rest r → Explains equivalence policy accounts start →
      ∃ accounts, Explains equivalence policy accounts r
  | .done, explains => ⟨accounts, explains⟩
  | .next head tail, explains => by
    obtain ⟨others, operand⟩ := head.explained built
    obtain ⟨joined, step⟩ := explains.join operand connective
    exact tail.explained built step

end

/-! ## What a verdict rests on -/

/-- The text of an entry with a verdict, for its key or for an alternative that it covers. -/
def Quotes (equivalence : Equivalence) (policy : Policy) (v : Verdict) (line : String) : Prop :=
  ∃ key decision quoted, policy.find? key = some decision ∧ decision.verdict = v ∧
    (quoted = key ∨ Covers equivalence key quoted) ∧
    line = quoted.text ++ ": " ++ if decision.reason.isEmpty then v.name else decision.reason

theorem quotes_of_known {ground : Ground} (known : ground.Known equivalence policy)
    (decided : ground.verdict ≠ .unknown) :
    Quotes equivalence policy ground.verdict ground.line := by
  cases ground with
  | entry key decision quoted => exact ⟨key, decision, quoted, known.1, rfl, known.2, rfl⟩
  | missing e => exact absurd rfl decided

theorem exists_entry_of_quotes {v : Verdict} {line : String}
    (quotes : Quotes equivalence policy v line) : ∃ entry ∈ policy.entries, entry.2.verdict = v := by
  obtain ⟨key, decision, quoted, found, verdict, -⟩ := quotes
  obtain ⟨before, behind, same, -⟩ := List.lookup_eq_some_iff.mp found
  exact ⟨(key, decision), by simp [same], verdict⟩

/-- Every reason has an account.  What is allowed rests on entries that allow alone, what is rejected
on an entry that rejects, and neither verdict comes from a policy without such an entry. -/
theorem evaluate_justified (built : build equivalence policy = .ok interpreter) {e : Expression}
    {r : Resolution} (evaluated : interpreter.evaluate e = .ok r) :
    (∃ accounts, Explains equivalence policy accounts r) ∧ r.reasons ≠ [] ∧
    (r.verdict = .allow → ∀ reason ∈ r.reasons, Quotes equivalence policy .allow reason) ∧
    (r.verdict = .reject → ∃ reason ∈ r.reasons, ∃ front line,
      reason = front ++ line ∧ Quotes equivalence policy .reject line) ∧
    ∀ v, v ≠ .unknown → (∀ entry ∈ policy.entries, entry.2.verdict ≠ v) → r.verdict ≠ v := by
  obtain ⟨accounts, explains⟩ := (evaluates_of_evaluate evaluated).explained built
  obtain ⟨account, member, attained⟩ := explains.attained
  have given : account.text ∈ r.reasons := explains.texts ▸ List.mem_map_of_mem member
  have quoted (decided : r.verdict ≠ .unknown) :
      Quotes equivalence policy r.verdict account.ground.line := by
    have quotes := quotes_of_known (explains.known account member) (attained ▸ decided)
    rwa [attained] at quotes
  refine ⟨⟨accounts, explains⟩, List.ne_nil_of_mem given, ?_, ?_, ?_⟩
  · intro allow reason listed
    rw [explains.texts] at listed
    obtain ⟨⟨labels, ground⟩, among, rfl⟩ := List.mem_map.mp listed
    obtain ⟨rfl, verdict⟩ := explains.allowed allow _ among
    have quotes := quotes_of_known (explains.known _ among) (by simp [verdict])
    rwa [verdict] at quotes
  · intro reject
    obtain ⟨front, same⟩ := account.exists_text_eq
    exact ⟨_, given, front, _, same, reject ▸ quoted (by simp [reject])⟩
  · intro v decided without same
    obtain ⟨entry, listed, verdict⟩ := exists_entry_of_quotes (quoted (same ▸ decided))
    exact without entry listed (verdict.trans same)

/-- `X` is allowed and stands for `A` and `B`, `C` is rejected, and nothing is said about `U`. -/
theorem evaluate_justified_of_mixed_operands :
    let a : Expression := .just (.free ⟨"A", []⟩)
    let b : Expression := .just (.free ⟨"B", []⟩)
    let c : Expression := .just (.free ⟨"C", []⟩)
    let u : Expression := .just (.free ⟨"U", []⟩)
    let x : Expression := .just (.free ⟨"X", []⟩)
    let equivalence : Equivalence := ⟨[[(x, [a, b])]]⟩
    let policy : Policy := ⟨[(x, ⟨.allow, ""⟩), (c, ⟨.reject, "never"⟩)]⟩
    let choice : Resolution := ⟨.allow, ["A: ALLOW"]⟩
    let combination : Resolution :=
      ⟨.reject, ["REJECT: C: never", "UNKNOWN: No rules found for U"]⟩
    ∃ interpreter, build equivalence policy = .ok interpreter ∧
      interpreter.evaluate ((a.or c).or u) = .ok choice ∧
      interpreter.evaluate ((a.and c).and u) = .ok combination ∧
      (∀ reason ∈ choice.reasons, Quotes equivalence policy .allow reason) ∧
      ∃ reason ∈ combination.reasons, ∃ front line,
        reason = front ++ line ∧ Quotes equivalence policy .reject line := by
  intro a b c u x equivalence policy choice combination
  have built : build equivalence policy = .ok ⟨equivalence, policy, [(a, x), (b, x), (c, c)]⟩ :=
    Outcome.toOption_eq_some.mp (by decide +kernel)
  let interpreter : Interpreter := ⟨equivalence, policy, [(a, x), (b, x), (c, c)]⟩
  have chosen : interpreter.evaluate ((a.or c).or u) = .ok choice :=
    Outcome.toOption_eq_some.mp (by decide +kernel)
  have combined : interpreter.evaluate ((a.and c).and u) = .ok combination :=
    Outcome.toOption_eq_some.mp (by decide +kernel)
  exact ⟨interpreter, built, chosen, combined, (evaluate_justified built chosen).2.2.1 rfl,
    (evaluate_justified built combined).2.2.2.1 rfl⟩

end Interpreter

end Licensing
