import Licensing.Proofs.Compatibility.Extension
import Licensing.Proofs.Grammar.RoundTrip
import Licensing.Proofs.Lookup
import Licensing.Proofs.Pairing

/-! # How a policy grows

A policy is filled by calls that each give one decision to several expressions.  A call adds the expressions up to
the first one that has a decision already, which may be one that it has just added (`Policy.registers_of_register`), so
entries are only ever added behind the others.  A policy of rules is accepted exactly if every text can be read and
no two texts are read as the same expression; its entries are then the texts in order (`Policy.ofRules_eq_ok_iff`).

* `Expression.SameSets` — equality of expressions whose operands are sets.
* `Policy.after` — a policy after several calls, failed ones among them.
* `Policy.lines` — the texts of rules, each with its decision.
-/

namespace Licensing

/-! ## Expressions as sets -/

namespace Expression

/-- The same expression if the operands of `AND` and `OR` are compared as sets: every operand of one side is paired
with one of the other. -/
inductive SameSets : Expression → Expression → Prop
  | sentinel (name : String) : SameSets (.sentinel name) (.sentinel name)
  | simple (term : SimpleTerm) : SameSets (.simple term) (.simple term)
  | withException (term : SimpleTerm) (exception : LicenseException) :
      SameSets (.withException term exception) (.withException term exception)
  | compound (connective : Connective) {as bs : List Expression} (pairs : List (Expression × Expression))
      (same : ∀ pair ∈ pairs, SameSets pair.1 pair.2) (left : ∀ a, a ∈ as ↔ a ∈ pairs.map Prod.fst)
      (right : ∀ b, b ∈ bs ↔ b ∈ pairs.map Prod.snd) : SameSets (.compound connective as) (.compound connective bs)

theorem sameSets_refl (e : Expression) : e.SameSets e := by
  induction e using induction with
  | single e single =>
    cases e with
    | sentinel name => exact .sentinel name
    | simple term => exact .simple term
    | withException term exception => exact .withException term exception
    | compound connective es => exact absurd rfl (single connective es)
  | compound connective es ih =>
    refine .compound connective (es.map fun e => (e, e)) ?_ (by simp) (by simp)
    intro pair member
    obtain ⟨e, inside, rfl⟩ := List.mem_map.mp member
    exact ih e inside

theorem SameSets.eq {a b : Expression} (same : a.SameSets b) (left : a.Canonical) (right : b.Canonical) : a = b := by
  induction same with
  | sentinel | simple | withException => rfl
  | compound connective pairs _ inLeft inRight ih =>
    obtain ⟨-, sorted, parts, -⟩ := canonical_compound_iff.mp left
    obtain ⟨-, sorted', parts', -⟩ := canonical_compound_iff.mp right
    have equal (pair : Expression × Expression) (member : pair ∈ pairs) : pair.1 = pair.2 :=
      ih pair member (parts _ ((inLeft _).mpr (List.mem_map_of_mem member)))
        (parts' _ ((inRight _).mpr (List.mem_map_of_mem member)))
    have halves : pairs.map Prod.fst = pairs.map Prod.snd := List.map_congr_left equal
    rw [SortedSet.eq_of_mem_iff sorted sorted' fun d => by rw [inLeft, inRight, halves]]

/-- The canonical form makes equal sets equal values. -/
theorem sameSets_iff {a b : Expression} (left : a.Canonical) (right : b.Canonical) : a.SameSets b ↔ a = b :=
  ⟨fun same => same.eq left right, fun same => same ▸ sameSets_refl a⟩

end Expression

namespace Policy

variable {policy extended : Policy} {decision : Decision} {e a : Expression} {es : List Expression}

/-! ## Calls -/

theorem find?_eq_none_iff : policy.find? e = none ↔ e ∉ policy.keys := by
  rw [find?, keys, List.lookup_eq_none_iff]
  constructor
  · intro absent member
    obtain ⟨entry, inside, rfl⟩ := List.mem_map.mp member
    simpa using absent entry inside
  · intro absent entry inside
    have other : e ≠ entry.1 := fun same => absent (same ▸ List.mem_map_of_mem inside)
    simpa using other

theorem find?_push (fresh : policy.find? e = none) :
    (policy.push e decision).find? a = if a = e then some decision else policy.find? a := by
  by_cases here : a = e
  · subst here
    rw [find?] at fresh
    simp [find?, push, List.lookup_append, fresh]
  · simp [find?, push, List.lookup_append, lookup_cons_eq_if, here]

/-- What a call does: it adds all of its expressions, or those before the first one that has a decision, from before
the call or from the call itself. -/
inductive Registers (policy : Policy) (decision : Decision) : List Expression → Policy → Option PolicyFault → Prop
  | all {es : List Expression} (fresh : ∀ e ∈ es, policy.find? e = none) (once : es.Nodup) :
      Registers policy decision es ⟨policy.entries ++ es.map (·, decision)⟩ none
  | upTo {added behind : List Expression} {e : Expression} {before : Decision}
      (fresh : ∀ a ∈ added, policy.find? a = none) (once : added.Nodup)
      (taken : policy.find? e = some before ∨ e ∈ added ∧ before = decision) :
      Registers policy decision (added ++ e :: behind) ⟨policy.entries ++ added.map (·, decision)⟩
        (some (.listedTwice e before.verdict decision.verdict))

/-- One more expression in front that has no decision yet. -/
theorem Registers.cons {fault : Option PolicyFault} (new : policy.find? e = none)
    (later : Registers (policy.push e decision) decision es extended fault) :
    Registers policy decision (e :: es) extended fault := by
  have pushed (a : Expression) : (policy.push e decision).find? a = none ↔ a ≠ e ∧ policy.find? a = none := by
    rw [find?_push new]
    split <;> simp_all
  have entries (added : List Expression) : (policy.push e decision).entries ++ added.map (·, decision) =
      policy.entries ++ (e :: added).map (·, decision) := by
    simp [push]
  cases later with
  | all fresh once =>
    rw [entries]
    refine .all (List.forall_mem_cons.mpr ⟨new, fun a member => ((pushed a).mp (fresh a member)).2⟩) ?_
    exact List.nodup_cons.mpr ⟨fun member => ((pushed e).mp (fresh e member)).1 rfl, once⟩
  | @upTo added behind last before fresh once taken =>
    rw [entries, ← List.cons_append]
    refine .upTo (List.forall_mem_cons.mpr ⟨new, fun a member => ((pushed a).mp (fresh a member)).2⟩)
      (List.nodup_cons.mpr ⟨fun member => ((pushed e).mp (fresh e member)).1 rfl, once⟩) ?_
    -- The decision that is there already is the one of this expression, an older one, or one of the later ones.
    obtain found | ⟨member, rfl⟩ := taken
    · rw [find?_push new] at found
      split at found
      next same => exact .inr ⟨same ▸ List.mem_cons_self, (Option.some.inj found).symm⟩
      next => exact .inl found
    · exact .inr ⟨.tail _ member, rfl⟩

theorem registers_of_register {fault : Option PolicyFault}
    (registered : policy.register decision es = (extended, fault)) : Registers policy decision es extended fault := by
  induction es generalizing policy with
  | nil =>
    cases registered
    have nothing : Registers extended decision [] ⟨extended.entries ++ ([] : List Expression).map (·, decision)⟩ none :=
      .all (by simp) List.nodup_nil
    simpa using nothing
  | cons e es ih =>
    unfold register at registered
    split at registered
    next before found =>
      cases registered
      have atOnce : Registers extended decision ([] ++ e :: es)
          ⟨extended.entries ++ ([] : List Expression).map (·, decision)⟩ _ :=
        .upTo (by simp) List.nodup_nil (.inl found)
      simpa using atOnce
    next new => exact (ih registered).cons new

theorem nodup_append {added : List Expression} (unique : policy.keys.Nodup) (once : added.Nodup)
    (fresh : ∀ e ∈ added, e ∉ policy.keys) : (policy.keys ++ added).Nodup :=
  List.nodup_append.mpr ⟨unique, once, fun _ listed _ member same => fresh _ member (same ▸ listed)⟩

/-- A call fails exactly if an expression has a decision already or comes up twice. -/
theorem isSome_register_iff :
    (policy.register decision es).2.isSome = true ↔ (∃ e ∈ es, e ∈ policy.keys) ∨ ¬ es.Nodup := by
  rcases registered : policy.register decision es with ⟨after, fault⟩
  cases registers_of_register registered with
  | all fresh once =>
    have apart : ¬ ∃ e ∈ es, e ∈ policy.keys := fun ⟨e, member, listed⟩ =>
      find?_eq_none_iff.mp (fresh e member) listed
    simp [apart, once]
  | @upTo added behind e before fresh once taken =>
    simp only [Option.isSome_some, true_iff]
    obtain found | ⟨member, -⟩ := taken
    · refine .inl ⟨e, by simp, Decidable.byContradiction fun absent => ?_⟩
      simp [find?_eq_none_iff.mpr absent] at found
    · refine .inr fun distinct => ?_
      obtain ⟨-, -, apart⟩ := List.nodup_append.mp distinct
      exact apart e member e (by simp) rfl

theorem register_eq_none_iff (unique : policy.keys.Nodup) : policy.register decision es = (extended, none) ↔
    extended = ⟨policy.entries ++ es.map (·, decision)⟩ ∧ extended.keys.Nodup := by
  have keys : (Policy.mk (policy.entries ++ es.map (·, decision))).keys = policy.keys ++ es := by
    simp [Policy.keys, Function.comp_def]
  constructor
  · intro registered
    cases registers_of_register registered with
    | all fresh once =>
      exact ⟨rfl, keys ▸ nodup_append unique once fun e member => find?_eq_none_iff.mp (fresh e member)⟩
  · rintro ⟨rfl, distinct⟩
    rw [keys] at distinct
    obtain ⟨-, once, apart⟩ := List.nodup_append.mp distinct
    have failed : (policy.register decision es).2.isSome = true ↔ _ := isSome_register_iff
    rcases registered : policy.register decision es with ⟨after, fault⟩
    rw [registered] at failed
    cases registers_of_register registered with
    | all => rfl
    | upTo =>
      obtain ⟨e, member, listed⟩ | repeated := failed.mp rfl
      · exact absurd rfl (apart e listed e member)
      · exact absurd once repeated

/-! ## Several calls -/

/-- One decision on several expressions. -/
structure Call where
  decision : Decision
  expressions : List Expression

/-- A policy after several calls.  What a call adds before it fails stays. -/
def after (policy : Policy) (calls : List Call) : Policy :=
  calls.foldl (fun policy call => (policy.register call.decision call.expressions).1) policy

theorem after_append (policy : Policy) (calls more : List Call) :
    policy.after (calls ++ more) = (policy.after calls).after more :=
  List.foldl_append

/-- A call adds entries at the end, with expressions that are new. -/
theorem exists_register_entries (policy : Policy) (decision : Decision) (es : List Expression) :
    ∃ added : List Expression, (policy.register decision es).1.entries = policy.entries ++ added.map (·, decision) ∧
      added.Nodup ∧ ∀ e ∈ added, e ∉ policy.keys := by
  rcases registered : policy.register decision es with ⟨after, fault⟩
  cases registers_of_register registered with
  | all fresh once => exact ⟨es, rfl, once, fun e member => find?_eq_none_iff.mp (fresh e member)⟩
  | @upTo added _ _ _ fresh once _ => exact ⟨added, rfl, once, fun e member => find?_eq_none_iff.mp (fresh e member)⟩

theorem entries_prefix_after (policy : Policy) (calls : List Call) :
    policy.entries <+: (policy.after calls).entries := by
  induction calls generalizing policy with
  | nil => exact List.prefix_rfl
  | cons call calls ih =>
    obtain ⟨added, entries, -⟩ := exists_register_entries policy call.decision call.expressions
    exact (entries ▸ List.prefix_append ..).trans (ih _)

theorem extends_after (policy : Policy) (calls : List Call) : (policy.after calls).Extends policy := by
  obtain ⟨more, entries⟩ := entries_prefix_after policy calls
  have kept := extends_append policy more
  rwa [entries] at kept

theorem nodup_keys_after (unique : policy.keys.Nodup) (calls : List Call) : (policy.after calls).keys.Nodup := by
  induction calls generalizing policy with
  | nil => exact unique
  | cons call calls ih =>
    obtain ⟨added, entries, once, fresh⟩ := exists_register_entries policy call.decision call.expressions
    refine ih ?_
    have keys : (policy.register call.decision call.expressions).1.keys = policy.keys ++ added := by
      simp [Policy.keys, entries, Function.comp_def]
    rw [keys]
    exact nodup_append unique once fresh

/-! ## Rules -/

/-- The texts of rules in order, each with the decision of its rule. -/
def lines (rules : List Rule) : List (String × Decision) :=
  rules.flatMap fun rule => rule.licenses.map (·, ⟨rule.verdict, rule.reason⟩)

variable {registry : Registry} {rule : Rule} {rules : List Rule}

/-- A text is read as the expression of an entry, and the entry has its decision. -/
def Reads (registry : Registry) (line : String × Decision) (entry : Expression × Decision) : Prop :=
  Expression.parse registry line.1 = .ok entry.1 ∧ entry.2 = line.2

theorem expressionsOf_eq_ok_iff : expressionsOf registry rule = .ok es ↔
    List.Forall₂ (fun text e => Expression.parse registry text = .ok e) rule.licenses es := by
  unfold expressionsOf
  induction rule.licenses generalizing es with
  | nil => simp [pure, Except.pure, eq_comm]
  | cons text texts ih =>
    rw [Outcome.mapM_cons, Outcome.bind_eq_ok]
    simp only [Outcome.mapError_eq_ok, Outcome.map_eq_ok, ih]
    constructor
    · rintro ⟨e, read, others, rest, rfl⟩
      exact .cons read rest
    · rintro (_ | ⟨read, rest⟩)
      exact ⟨_, read, _, rest, rfl⟩

theorem addRule_eq_ok_iff : addRule registry policy rule = .ok extended ↔ ∃ es,
    List.Forall₂ (fun text e => Expression.parse registry text = .ok e) rule.licenses es ∧
      policy.register ⟨rule.verdict, rule.reason⟩ es = (extended, none) := by
  refine Outcome.bind_eq_ok.trans (exists_congr fun es => and_congr expressionsOf_eq_ok_iff ?_)
  rcases policy.register ⟨rule.verdict, rule.reason⟩ es with ⟨after, _ | fault⟩ <;> simp

/-- The expressions of a rule as entries. -/
theorem reads_rule_iff {entries : List (Expression × Decision)} :
    List.Forall₂ (Reads registry) (lines [rule]) entries ↔ ∃ es,
      List.Forall₂ (fun text e => Expression.parse registry text = .ok e) rule.licenses es ∧
        entries = es.map (·, ⟨rule.verdict, rule.reason⟩) := by
  simp only [lines, List.flatMap_cons, List.flatMap_nil, List.append_nil, List.forall₂_map_left_iff]
  induction rule.licenses generalizing entries with
  | nil => simp
  | cons text texts ih =>
    constructor
    · rintro (_ | ⟨⟨read, decided⟩, rest⟩)
      obtain ⟨es, others, rfl⟩ := ih.mp rest
      exact ⟨_, .cons read others, by rw [List.map_cons, List.cons.injEq]; exact ⟨Prod.ext rfl decided, rfl⟩⟩
    · rintro ⟨_, _ | ⟨read, others⟩, rfl⟩
      exact .cons ⟨read, rfl⟩ (ih.mpr ⟨_, others, rfl⟩)

/-- Rules are added one after the other, and so are their entries. -/
theorem foldlM_addRule_eq_ok_iff (unique : policy.keys.Nodup) :
    rules.foldlM (addRule registry) policy = .ok extended ↔ ∃ more : List (Expression × Decision),
      List.Forall₂ (Reads registry) (lines rules) more ∧ extended = ⟨policy.entries ++ more⟩ ∧
        extended.keys.Nodup := by
  induction rules generalizing policy with
  | nil =>
    show Except.ok policy = .ok extended ↔ _
    constructor
    · rintro ⟨⟩
      exact ⟨[], .nil, by simp, unique⟩
    · rintro ⟨_, ⟨⟩, rfl, -⟩
      simp
  | cons rule rules ih =>
    have split : lines (rule :: rules) = lines [rule] ++ lines rules := by simp [lines]
    rw [List.foldlM_cons, split]
    refine Outcome.bind_eq_ok.trans ?_
    constructor
    · rintro ⟨between, added, later⟩
      obtain ⟨es, read, registered⟩ := addRule_eq_ok_iff.mp added
      obtain ⟨rfl, distinct⟩ := (register_eq_none_iff unique).mp registered
      obtain ⟨more, readMore, rfl, distinctAll⟩ := (ih distinct).mp later
      refine ⟨_ ++ more, forall₂_append_iff.mpr ⟨_, _, reads_rule_iff.mpr ⟨es, read, rfl⟩, readMore, rfl⟩, ?_,
        distinctAll⟩
      rw [List.append_assoc]
    · rintro ⟨_, reads, rfl, distinct⟩
      obtain ⟨front, back, first, second, rfl⟩ := forall₂_append_iff.mp reads
      obtain ⟨es, read, rfl⟩ := reads_rule_iff.mp first
      have soFar : (Policy.mk (policy.entries ++ es.map (·, ⟨rule.verdict, rule.reason⟩))).keys.Nodup :=
        distinct.sublist (((List.Sublist.refl _).append (List.sublist_append_left ..)).map _)
      refine ⟨_, addRule_eq_ok_iff.mpr ⟨es, read, (register_eq_none_iff unique).mpr ⟨rfl, soFar⟩⟩,
        (ih soFar).mpr ⟨back, second, ?_, distinct⟩⟩
      rw [List.append_assoc]

/-- A policy of rules is accepted exactly if every text is read and no two as the same expression.  It then has an
entry for each text, in order. -/
theorem ofRules_eq_ok_iff : ofRules registry rules = .ok policy ↔
    List.Forall₂ (Reads registry) (lines rules) policy.entries ∧ policy.keys.Nodup := by
  have unique : empty.keys.Nodup := List.nodup_nil
  rw [ofRules, foldlM_addRule_eq_ok_iff unique]
  constructor
  · rintro ⟨more, read, rfl, distinct⟩
    exact ⟨read, distinct⟩
  · rintro ⟨read, distinct⟩
    exact ⟨policy.entries, read, rfl, distinct⟩

/-- The texts are not read as the same expression. -/
def Apart (registry : Registry) (a b : String × Decision) : Prop :=
  ∀ e f, Expression.parse registry a.1 = .ok e → Expression.parse registry b.1 = .ok f → ¬ e.SameSets f

theorem Reads.apart_iff {a b : String × Decision} {entry other : Expression × Decision} (read : Reads registry a entry)
    (read' : Reads registry b other) : Apart registry a b ↔ entry.1 ≠ other.1 := by
  have same := Expression.sameSets_iff (Expression.printable_of_parse read.1).canonical
    (Expression.printable_of_parse read'.1).canonical
  constructor
  · exact fun apart equal => apart _ _ read.1 read'.1 (same.mpr equal)
  · intro different e f found found' alike
    cases read.1.symm.trans found
    cases read'.1.symm.trans found'
    exact different (same.mp alike)

theorem nodup_keys_iff {texts : List (String × Decision)} {entries : List (Expression × Decision)}
    (reads : List.Forall₂ (Reads registry) texts entries) :
    (entries.map Prod.fst).Nodup ↔ texts.Pairwise (Apart registry) := by
  induction reads with
  | nil => simp
  | @cons line entry texts entries first rest ih =>
    rw [List.map_cons, List.nodup_cons, List.pairwise_cons, ih]
    refine and_congr_left fun _ => ?_
    constructor
    · intro new other member
      obtain ⟨entry', inside, read⟩ := exists_of_forall₂ rest member
      exact (first.apart_iff read).mpr fun same => new (same ▸ List.mem_map_of_mem inside)
    · intro apart listed
      obtain ⟨entry', inside, same⟩ := List.mem_map.mp listed
      obtain ⟨other, member, read⟩ := exists_of_forall₂_right rest inside
      exact (first.apart_iff read).mp (apart other member) same.symm

theorem exists_reads_iff {texts : List (String × Decision)} :
    (∃ entries, List.Forall₂ (Reads registry) texts entries) ↔
      ∀ line ∈ texts, ∃ e, Expression.parse registry line.1 = .ok e := by
  induction texts with
  | nil => simp
  | cons line texts ih =>
    rw [List.forall_mem_cons, ← ih]
    constructor
    · rintro ⟨_, _ | ⟨first, rest⟩⟩
      exact ⟨⟨_, first.1⟩, _, rest⟩
    · rintro ⟨⟨e, read⟩, entries, rest⟩
      exact ⟨(e, line.2) :: entries, .cons ⟨read, rfl⟩ rest⟩

theorem exists_ofRules_iff : (∃ policy, ofRules registry rules = .ok policy) ↔
    (∀ line ∈ lines rules, ∃ e, Expression.parse registry line.1 = .ok e) ∧
      (lines rules).Pairwise (Apart registry) := by
  simp only [ofRules_eq_ok_iff, ← exists_reads_iff]
  constructor
  · rintro ⟨policy, reads, distinct⟩
    exact ⟨⟨_, reads⟩, (nodup_keys_iff reads).mp distinct⟩
  · rintro ⟨⟨entries, reads⟩, apart⟩
    exact ⟨⟨entries⟩, reads, (nodup_keys_iff reads).mpr apart⟩

/-! ## Rules that are not accepted -/

/-- Why rules are not accepted: a text cannot be read, or two texts are read as the same expression. -/
inductive Rejects (registry : Registry) (rules : List Rule) : PolicyFault → Prop
  | unreadable {line : String × Decision} {cause : ParseError} (listed : line ∈ lines rules)
      (failed : Expression.parse registry line.1 = .error cause) : Rejects registry rules (.badExpression cause)
  | repeated {first second : String} {before now : Decision} {e : Expression}
      (ordered : [(first, before), (second, now)].Sublist (lines rules))
      (read : Expression.parse registry first = .ok e) (again : Expression.parse registry second = .ok e) :
      Rejects registry rules (.listedTwice e before.verdict now.verdict)

variable {fault : PolicyFault}

theorem exists_of_expressionsOf_eq_error (failed : expressionsOf registry rule = .error fault) :
    ∃ text ∈ rule.licenses, ∃ cause, Expression.parse registry text = .error cause ∧ fault = .badExpression cause := by
  obtain ⟨text, listed, failed⟩ := Outcome.exists_of_mapM_eq_error failed
  cases parsed : Expression.parse registry text with
  | ok e =>
    rw [parsed] at failed
    cases failed
  | error cause =>
    rw [parsed] at failed
    cases failed
    exact ⟨text, listed, cause, parsed, rfl⟩

/-- A call that fails in a rule behind rules that are accepted. -/
theorem rejects_of_register {before behind : List Rule} {after : Policy}
    (accepted : ofRules registry before = .ok policy) (read : expressionsOf registry rule = .ok es)
    (registered : policy.register ⟨rule.verdict, rule.reason⟩ es = (after, some fault)) :
    Rejects registry (before ++ rule :: behind) fault := by
  obtain ⟨readBefore, unique⟩ := ofRules_eq_ok_iff.mp accepted
  have reads := reads_rule_iff.mpr ⟨es, expressionsOf_eq_ok_iff.mp read, rfl⟩
  have split : lines (before ++ rule :: behind) = lines before ++ (lines [rule] ++ lines behind) := by simp [lines]
  cases registers_of_register registered with
  | @upTo added rest e decision _ _ taken =>
    rw [List.map_append, List.map_cons] at reads
    obtain ⟨front, back, readFront, readBack, parts⟩ := forall₂_append_iff.mp reads.flip
    obtain _ | @⟨_, ⟨second, now⟩, _, back, ⟨again, same⟩, _⟩ := readBack
    obtain rfl : ⟨rule.verdict, rule.reason⟩ = now := same
    -- The earlier text stands in one of the rules before, or before this text in the same rule.
    obtain found | ⟨member, rfl⟩ := taken
    · obtain ⟨⟨first, before⟩, inside, read, same⟩ :=
        exists_of_forall₂_right readBefore ((mem_iff_lookup unique).mpr found)
      obtain rfl : decision = before := same
      refine .repeated ?_ read again
      rw [split]
      exact (List.singleton_sublist.mpr inside).append (List.singleton_sublist.mpr (by simp [parts]))
    · obtain ⟨⟨first, before⟩, inside, read, same⟩ := exists_of_forall₂ readFront (List.mem_map_of_mem member)
      obtain rfl : ⟨rule.verdict, rule.reason⟩ = before := same
      have inRule : [(first, Decision.mk rule.verdict rule.reason), (second, ⟨rule.verdict, rule.reason⟩)].Sublist
          (lines [rule]) :=
        parts ▸ (List.singleton_sublist.mpr inside).append (List.singleton_sublist.mpr List.mem_cons_self)
      refine .repeated ?_ read again
      rw [split]
      exact (inRule.trans (List.sublist_append_left ..)).trans (List.sublist_append_right ..)

theorem rejects_of_ofRules (failed : ofRules registry rules = .error fault) : Rejects registry rules fault := by
  obtain ⟨before, rule, behind, policy, rfl, accepted, failed⟩ := Outcome.exists_of_foldlM_eq_error failed
  obtain failed | ⟨es, read, failed⟩ := Outcome.bind_eq_error.mp failed
  · obtain ⟨text, listed, cause, unread, rfl⟩ := exists_of_expressionsOf_eq_error failed
    exact .unreadable (List.mem_flatMap.mpr ⟨rule, by simp, List.mem_map_of_mem listed⟩) unread
  · rcases registered : policy.register ⟨rule.verdict, rule.reason⟩ es with ⟨after, _ | other⟩
    · simp [registered] at failed
    · simp only [registered, Except.error.injEq] at failed
      exact rejects_of_register accepted read (failed ▸ registered)

/-! ## Policies -/

/-- Whatever calls are made, entries are only added behind the others, and no expression gets a second one.  A call
fails exactly if one of its expressions has a decision or comes up twice, and adds those before the first such one.
Rules are accepted exactly if all of their texts are read, as expressions that differ as sets; the policy then has an
entry for each text, with the decision of its rule, and otherwise the fault names a text or an expression. -/
theorem register_appends (registry : Registry) :
    (∀ (policy : Policy) (calls more : List Call),
      (policy.after calls).entries <+: (policy.after (calls ++ more)).entries ∧
      (policy.after (calls ++ more)).Extends (policy.after calls) ∧
      (policy.keys.Nodup → (policy.after calls).keys.Nodup)) ∧
    (∀ (policy : Policy) (decision : Decision) (es : List Expression) (extended : Policy) (fault : Option PolicyFault),
      policy.register decision es = (extended, fault) → Registers policy decision es extended fault ∧
        (fault.isSome = true ↔ (∃ e ∈ es, e ∈ policy.keys) ∨ ¬ es.Nodup)) ∧
    ∀ rules : List Rule,
      ((∃ policy, ofRules registry rules = .ok policy) ↔
        (∀ line ∈ lines rules, ∃ e, Expression.parse registry line.1 = .ok e) ∧
          (lines rules).Pairwise (Apart registry)) ∧
      (∀ policy, ofRules registry rules = .ok policy →
        List.Forall₂ (Reads registry) (lines rules) policy.entries) ∧
      ∀ fault, ofRules registry rules = .error fault → Rejects registry rules fault := by
  refine ⟨fun policy calls more => ?_, fun policy decision es extended fault registered => ?_, fun rules => ?_⟩
  · rw [after_append]
    exact ⟨entries_prefix_after _ more, extends_after _ more, fun unique => nodup_keys_after unique calls⟩
  · have failed : (policy.register decision es).2.isSome = true ↔ _ := isSome_register_iff
    rw [registered] at failed
    exact ⟨registers_of_register registered, failed⟩
  · exact ⟨exists_ofRules_iff, fun policy accepted => (ofRules_eq_ok_iff.mp accepted).1,
      fun fault failed => rejects_of_ofRules failed⟩

/-- A call fails behind its first expression and the next one succeeds; of two rules the second writes the expression
of the first with its operands swapped and repeated, and in parentheses. -/
theorem register_appends_with_swapped_operands :
    let registry : Registry := ⟨[], []⟩
    let a : Expression := .just (.free ⟨"A", []⟩)
    let b : Expression := .just (.free ⟨"B", []⟩)
    let calls : List Call := [⟨⟨.allow, ""⟩, [a]⟩, ⟨⟨.reject, "twice"⟩, [b, a, .none]⟩]
    let more : List Call := [⟨⟨.unknown, ""⟩, [.none]⟩]
    ((empty.after calls).entries <+: (empty.after (calls ++ more)).entries ∧
      (empty.after calls).entries = [(a, ⟨.allow, ""⟩), (b, ⟨.reject, "twice"⟩)]) ∧
    (∃ policy, ofRules registry [⟨["A or B"], .allow, ""⟩, ⟨["A", "B"], .reject, "no"⟩] = .ok policy ∧
      policy.entries = [(a.or b, ⟨.allow, ""⟩), (a, ⟨.reject, "no"⟩), (b, ⟨.reject, "no"⟩)]) ∧
    ∃ fault, ofRules registry [⟨["A or B"], .allow, ""⟩, ⟨["((B) or A or B)"], .reject, "no"⟩] = .error fault ∧
      Rejects registry [⟨["A or B"], .allow, ""⟩, ⟨["((B) or A or B)"], .reject, "no"⟩] fault := by
  intro registry a b calls more
  obtain ⟨appends, -, built⟩ := register_appends registry
  have accepted : ofRules registry [⟨["A or B"], .allow, ""⟩, ⟨["A", "B"], .reject, "no"⟩] =
      .ok ⟨[(a.or b, ⟨.allow, ""⟩), (a, ⟨.reject, "no"⟩), (b, ⟨.reject, "no"⟩)]⟩ :=
    Outcome.toOption_eq_some.mp (by decide +kernel)
  refine ⟨⟨(appends empty calls more).1, by decide +kernel⟩, ⟨_, accepted, rfl⟩, ?_⟩
  cases failed : ofRules registry [⟨["A or B"], .allow, ""⟩, ⟨["((B) or A or B)"], .reject, "no"⟩] with
  | ok policy =>
    have none : (ofRules registry
        [⟨["A or B"], .allow, ""⟩, ⟨["((B) or A or B)"], .reject, "no"⟩]).toOption = none := by
      decide +kernel
    simp [failed, Except.toOption] at none
  | error fault => exact ⟨fault, rfl, (built _).2.2 fault failed⟩

end Policy

end Licensing
