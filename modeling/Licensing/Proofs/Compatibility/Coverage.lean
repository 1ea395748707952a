import Licensing.Proofs.Compatibility.Evaluation
import Licensing.Proofs.Equivalence.Bounds

/-! # What entries cover

The index of an interpreter sends each alternative of the expansion of a key to that key, and to no
other one, because overlapping entries are refused (`build_spec`).  An alternative is decided
by the index if its own expansion stays within the alternatives of the key, and no `AND` has to be taken
apart on the way (`evaluate_part`); `evaluate_uncovered_parts` shows the two ways to miss it.
-/

namespace Licensing.Interpreter

variable {equivalence : Equivalence} {policy : Policy}

/-! ## The index -/

/-- Whatever the first index knows, the second one knows as well. -/
def Extends (parts parts' : List (Expression × Expression)) : Prop :=
  ∀ p owner, parts.lookup p = some owner → parts'.lookup p = some owner

theorem cover_spec {key : Expression} {ps : List Expression}
    {parts parts' : List (Expression × Expression)} (covered : cover key parts ps = .ok parts') :
    Extends parts parts' ∧ ∀ p ∈ ps, parts'.lookup p = some key := by
  induction ps generalizing parts with
  | nil =>
    cases covered
    exact ⟨fun _ _ found => found, by simp⟩
  | cons p ps ih =>
    unfold cover at covered
    split at covered
    next => cases covered
    next fresh =>
      obtain ⟨extension, others⟩ := ih covered
      have first : parts'.lookup p = some key := by
        apply extension
        rw [List.lookup_append, fresh]
        simp
      -- New pairs come behind the old ones, so no look-up that succeeded changes.
      refine ⟨?_, ?_⟩
      · intro q owner found
        apply extension
        rw [List.lookup_append, found]
        rfl
      · intro q member
        cases List.mem_cons.mp member with
        | inl same => exact same ▸ first
        | inr later => exact others q later

theorem index_spec {key : Expression} {parts parts' : List (Expression × Expression)}
    (indexed : index equivalence parts key = .ok parts') :
    Extends parts parts' ∧ ∀ whole, equivalence.expand key = .ok whole →
      ∀ p ∈ whole.operands .or, parts'.lookup p = some key := by
  obtain ⟨expanded, found, covered⟩ := Outcome.bind_eq_ok.mp indexed
  obtain ⟨extension, all⟩ := cover_spec (Outcome.mapError_eq_ok.mp covered)
  refine ⟨extension, fun whole same => ?_⟩
  cases Except.ok.inj (same.symm.trans (Outcome.mapError_eq_ok.mp found))
  exact all

theorem foldlM_index_spec {keys : List Expression} {parts parts' : List (Expression × Expression)}
    (indexed : keys.foldlM (index equivalence) parts = .ok parts') :
    Extends parts parts' ∧ ∀ key ∈ keys, ∀ whole, equivalence.expand key = .ok whole →
      ∀ p ∈ whole.operands .or, parts'.lookup p = some key := by
  induction keys generalizing parts with
  | nil =>
    cases indexed
    exact ⟨fun _ _ found => found, by simp⟩
  | cons key keys ih =>
    obtain ⟨next, head, tail⟩ := Outcome.bind_eq_ok.mp indexed
    obtain ⟨extension, all⟩ := index_spec head
    obtain ⟨extension', others⟩ := ih tail
    refine ⟨fun p owner found => extension' p owner (extension p owner found), ?_⟩
    intro key' member whole expanded p part
    cases List.mem_cons.mp member with
    | inl same =>
      subst same
      exact extension' p key' (all whole expanded p part)
    | inr later => exact others key' later whole expanded p part

theorem build_spec {interpreter : Interpreter}
    (built : build equivalence policy = .ok interpreter) :
    interpreter.equivalence = equivalence ∧ interpreter.policy = policy ∧
      ∀ key ∈ policy.keys, ∀ whole, equivalence.expand key = .ok whole →
        ∀ p ∈ whole.operands .or, interpreter.parts.lookup p = some key := by
  obtain ⟨parts, indexed, same⟩ := Outcome.bind_eq_ok.mp built
  cases same
  exact ⟨rfl, rfl, (foldlM_index_spec indexed).2⟩

/-- What the index knows after an entry has been added was known before, or comes from the entry. -/
theorem cover_sound {key : Expression} {ps : List Expression}
    {parts parts' : List (Expression × Expression)} (covered : cover key parts ps = .ok parts')
    {p owner : Expression} (found : parts'.lookup p = some owner) :
    parts.lookup p = some owner ∨ owner = key ∧ p ∈ ps := by
  induction ps generalizing parts with
  | nil =>
    cases covered
    exact .inl found
  | cons first ps ih =>
    unfold cover at covered
    split at covered
    next => cases covered
    next =>
      obtain old | ⟨same, later⟩ := ih covered
      · rw [List.lookup_append, Option.or_eq_some_iff] at old
        obtain old | ⟨-, added⟩ := old
        · exact .inl old
        · rw [List.lookup_cons] at added
          split at added
          next same => exact .inr ⟨(Option.some.inj added).symm, by simp [eq_of_beq same]⟩
          next => cases added
      · exact .inr ⟨same, .tail _ later⟩

/-- The alternatives of the expansion of a key. -/
def Covers (equivalence : Equivalence) (key p : Expression) : Prop :=
  ∃ whole, equivalence.expand key = .ok whole ∧ p ∈ whole.operands .or

theorem build_sound {interpreter : Interpreter} (built : build equivalence policy = .ok interpreter)
    {p owner : Expression} (found : interpreter.parts.lookup p = some owner) :
    owner ∈ policy.keys ∧ Covers equivalence owner p := by
  obtain ⟨parts, indexed, same⟩ := Outcome.bind_eq_ok.mp built
  cases same
  refine Outcome.foldlM_invariant
    (P := fun parts : List (Expression × Expression) => ∀ p owner, parts.lookup p = some owner →
      owner ∈ policy.keys ∧ Covers equivalence owner p) ?_ ?_ indexed p owner found
  · intro p owner none
    cases none
  · intro before known key member after step p owner found
    obtain ⟨whole, expanded, covered⟩ := Outcome.bind_eq_ok.mp step
    obtain old | ⟨rfl, part⟩ := cover_sound (Outcome.mapError_eq_ok.mp covered) found
    · exact known p owner old
    · exact ⟨member, whole, Outcome.mapError_eq_ok.mp expanded, part⟩

theorem mem_keys_of_find? {key : Expression} {decision : Decision}
    (entry : policy.find? key = some decision) : key ∈ policy.keys := by
  obtain ⟨before, behind, same, -⟩ := List.lookup_eq_some_iff.mp entry
  simp [Policy.keys, same]

theorem exists_find?_of_mem_keys {key : Expression} (listed : key ∈ policy.keys) :
    ∃ decision, policy.find? key = some decision := by
  apply Option.ne_none_iff_exists'.mp
  intro unlisted
  obtain ⟨entry, member, same⟩ := List.mem_map.mp listed
  have other := List.lookup_eq_none_iff.mp unlisted entry member
  simp [same] at other

/-! ## Entries behind alternatives -/

variable {interpreter : Interpreter} {connective : Connective}

section Covered

variable (built : build interpreter.equivalence interpreter.policy = .ok interpreter)
variable {e key p : Expression} {decision : Decision}
variable (entry : interpreter.policy.find? key = some decision)
variable (covers : Covers interpreter.equivalence key p)

include built entry covers

theorem covering?_of_covers : interpreter.covering? p = some decision := by
  obtain ⟨whole, expanded, part⟩ := covers
  rw [covering?, (build_spec built).2.2 key (mem_keys_of_find? entry) whole expanded p part]
  exact entry

theorem ascribe_of_covers : interpreter.ascribe e p = decision.resolve p := by
  rw [ascribe, covering?_of_covers built entry covers]

/-- An unlisted expression whose expansion is covered is decided by the entry behind it. -/
theorem evaluateAt_covered {depth : Nat} (unlisted : interpreter.policy.find? e = none)
    (expanded : interpreter.equivalence.expand e = .ok p)
    (single : ∀ connective es, p ≠ .compound connective es) :
    interpreter.evaluateAt (depth + 1) e = .ok (decision.resolve p) := by
  rw [evaluateAt_alone unlisted expanded fun connective first rest => single connective _,
    ascribe_of_covers built entry covers]

end Covered

/-! ## Alternatives that the index decides -/

/-- Operands that all have one verdict give it to the compound expression. -/
theorem fold_verdict {evaluate : Expression → Except ExpansionFault Resolution} {v : Verdict}
    {rest : List Expression} {start : Resolution} (first : start.verdict = v)
    (others : ∀ e ∈ rest, ∃ r, evaluate e = .ok r ∧ r.verdict = v) :
    ∃ r, fold connective evaluate start rest = .ok r ∧ r.verdict = v := by
  induction rest generalizing start with
  | nil => exact ⟨start, rfl, first⟩
  | cons e rest ih =>
    obtain ⟨operand, head, same⟩ := others e (by simp)
    simp only [fold, head]
    exact ih (Resolution.join_verdict_eq first same) fun d member => others d (.tail _ member)

/-- The alternatives of the expansion of `p` are among those of `whole`; they stand for nothing else and
are no combinations. -/
def StaysWithin (equivalence : Equivalence) (whole p : Expression) : Prop :=
  ∃ own, equivalence.expand p = .ok own ∧ ∀ q ∈ own.operands .or,
    q ∈ whole.operands .or ∧ equivalence.expand q = .ok q ∧ ∀ es, q ≠ .compound .and es

/-- An alternative that stands for nothing else stays within its choice. -/
theorem staysWithin_of_fixed {whole p : Expression} (part : p ∈ whole.operands .or)
    (fixed : equivalence.expand p = .ok p) (single : ∀ connective es, p ≠ .compound connective es) :
    StaysWithin equivalence whole p := by
  refine ⟨p, fixed, fun q member => ?_⟩
  obtain rfl := (Expression.mem_operands_alone (single .or)).mp member
  exact ⟨part, fixed, single .and⟩

section Built

variable {key whole : Expression} {decision : Decision}
variable (built : build interpreter.equivalence interpreter.policy = .ok interpreter)
variable (entry : interpreter.policy.find? key = some decision)
variable (expanded : interpreter.equivalence.expand key = .ok whole)

include built entry expanded

/-- Two keys never share an alternative. -/
theorem eq_of_shared_part {other whole' q : Expression} {decision' : Decision}
    (listed : interpreter.policy.find? other = some decision')
    (expanded' : interpreter.equivalence.expand other = .ok whole') (inOther : q ∈ whole'.operands .or)
    (inWhole : q ∈ whole.operands .or) : other = key := by
  obtain ⟨-, -, indexed⟩ := build_spec built
  have first := indexed other (mem_keys_of_find? listed) whole' expanded' q inOther
  have second := indexed key (mem_keys_of_find? entry) whole expanded q inWhole
  exact Option.some.inj (first.symm.trans second)

theorem evaluateAt_fixed {depth : Nat} {q : Expression} (part : q ∈ whole.operands .or)
    (fixed : interpreter.equivalence.expand q = .ok q)
    (single : ∀ connective es, q ≠ .compound connective es) :
    ∃ r, interpreter.evaluateAt (depth + 1) q = .ok r ∧ r.verdict = decision.verdict := by
  cases listed : interpreter.policy.find? q with
  | some other =>
    have itself : q ∈ q.operands .or := (Expression.mem_operands_alone (single .or)).mpr rfl
    have same := eq_of_shared_part built entry expanded listed fixed itself part
    subst same
    exact ⟨_, evaluateAt_listed entry, rfl⟩
  | none =>
    exact ⟨_, evaluateAt_covered built entry ⟨whole, expanded, part⟩ listed fixed single, rfl⟩

theorem evaluateAt_of_staysWithin {depth : Nat} {p own : Expression} (canonical : own.Canonical)
    (ownExpanded : interpreter.equivalence.expand p = .ok own)
    (alternatives : ∀ q ∈ own.operands .or, q ∈ whole.operands .or ∧
      interpreter.equivalence.expand q = .ok q ∧ ∀ es, q ≠ .compound .and es) :
    ∃ r, interpreter.evaluateAt (depth + 1 + 1) p = .ok r ∧ r.verdict = decision.verdict := by
  have single (q : Expression) (member : q ∈ own.operands .or) (connective : Connective)
      (es : List Expression) : q ≠ .compound connective es := by
    cases connective with
    | and => exact (alternatives q member).2.2 es
    | or => exact (canonical.of_mem_operands member).2 es
  cases listed : interpreter.policy.find? p with
  | some other =>
    -- A part with an entry of its own shares alternatives with the key, and so it is the key.
    obtain ⟨q, member⟩ := List.exists_mem_of_ne_nil _ (canonical.operands_ne_nil .or)
    have inWhole := (alternatives q member).1
    have same := eq_of_shared_part built entry expanded listed ownExpanded member inWhole
    subst same
    exact ⟨_, evaluateAt_listed entry, rfl⟩
  | none =>
    cases Expression.joined_or_alone .or own with
    | inl joined =>
      obtain ⟨es, rfl⟩ := joined
      simp only [Expression.operands_compound] at alternatives single
      have decided (q : Expression) (member : q ∈ es) :
          ∃ r, interpreter.evaluateAt (depth + 1) q = .ok r ∧ r.verdict = decision.verdict := by
        obtain ⟨inWhole, fixed, -⟩ := alternatives q member
        exact evaluateAt_fixed built entry expanded inWhole fixed (single q member)
      match es with
      | [] => exact absurd rfl (canonical.operands_ne_nil .or)
      | first :: rest =>
        obtain ⟨start, head, same⟩ := decided first (by simp)
        rw [evaluateAt_compound listed ownExpanded head]
        exact fold_verdict same fun q member => decided q (.tail _ member)
    | inr alone =>
      have member : own ∈ own.operands .or := (Expression.mem_operands_alone alone).mpr rfl
      have inWhole := (alternatives own member).1
      have covers : Covers interpreter.equivalence key own := ⟨whole, expanded, inWhole⟩
      exact ⟨_, evaluateAt_covered built entry covers listed ownExpanded (single own member), rfl⟩

end Built

theorem exists_depth_eq (interpreter : Interpreter) (e : Expression) :
    ∃ depth, interpreter.depth e = depth + 1 + 1 := by
  have positive : 1 ≤ interpreter.equivalence.reach e := by
    simp only [Equivalence.reach, List.length_cons]
    omega
  refine ⟨interpreter.depth e - 2, ?_⟩
  simp only [depth]
  omega

/-- The entry of a key decides each alternative of its expansion that is the key itself, or whose own
expansion stays within the alternatives of the key. -/
theorem evaluate_part {p key whole : Expression} {decision : Decision}
    (tables : equivalence.Canonical) (keys : ∀ key ∈ policy.keys, key.Canonical)
    (built : build equivalence policy = .ok interpreter)
    (entry : policy.find? key = some decision) (expanded : equivalence.expand key = .ok whole)
    (part : p ∈ whole.operands .or) (covered : p = key ∨ StaysWithin equivalence whole p) :
    ∃ r, interpreter.evaluate p = .ok r ∧ r.verdict = decision.verdict := by
  obtain ⟨rfl, rfl, -⟩ := build_spec built
  obtain ⟨depth, levels⟩ := exists_depth_eq interpreter p
  rw [evaluate, levels]
  obtain rfl | ⟨own, ownExpanded, alternatives⟩ := covered
  · exact ⟨_, evaluateAt_listed entry, rfl⟩
  · have wholeCanonical := tables.expand (keys key (mem_keys_of_find? entry)) expanded
    have ownCanonical := tables.expand (wholeCanonical.of_mem_operands part).1 ownExpanded
    exact evaluateAt_of_staysWithin built entry expanded ownCanonical ownExpanded alternatives

/-- `X` stands for `A` and `B`, so an entry for `X` decides both. -/
theorem evaluate_part_of_expanded_key :
    let a : Expression := .just (.free ⟨"A", []⟩)
    let b : Expression := .just (.free ⟨"B", []⟩)
    let x : Expression := .just (.free ⟨"X", []⟩)
    let equivalence : Equivalence := ⟨[[(x, [a, b])]]⟩
    let policy : Policy := ⟨[(x, ⟨.allow, ""⟩)]⟩
    ∃ interpreter, build equivalence policy = .ok interpreter ∧
      equivalence.expand x = .ok (a.or b) ∧
      (∃ r, interpreter.evaluate a = .ok r ∧ r.verdict = .allow) ∧
      ∃ r, interpreter.evaluate b = .ok r ∧ r.verdict = .allow := by
  intro a b x equivalence policy
  have tables : equivalence.Canonical := by
    simp [equivalence, a, b, Equivalence.Canonical, Equivalence.values, EquivalenceTable.values,
      Expression.Canonical]
  have keys : ∀ key ∈ policy.keys, key.Canonical := by
    simp [policy, x, Policy.keys, Expression.Canonical]
  have built : build equivalence policy = .ok ⟨equivalence, policy, [(a, x), (b, x)]⟩ :=
    Outcome.toOption_eq_some.mp (by decide +kernel)
  have entry : policy.find? x = some ⟨.allow, ""⟩ := by decide +kernel
  have expanded : equivalence.expand x = .ok (a.or b) :=
    Outcome.toOption_eq_some.mp (by decide +kernel)
  have parts : a ∈ (a.or b).operands .or ∧ b ∈ (a.or b).operands .or := by decide +kernel
  have first : StaysWithin equivalence (a.or b) a :=
    staysWithin_of_fixed parts.1 (Outcome.toOption_eq_some.mp (by decide +kernel)) (by simp [a])
  have second : StaysWithin equivalence (a.or b) b :=
    staysWithin_of_fixed parts.2 (Outcome.toOption_eq_some.mp (by decide +kernel)) (by simp [b])
  exact ⟨_, built, expanded,
    evaluate_part tables keys built entry expanded parts.1 (.inr first),
    evaluate_part tables keys built entry expanded parts.2 (.inr second)⟩

/-- Alternatives that are combinations, or that stand for something else, are not decided by the entry
that they come from. -/
theorem evaluate_uncovered_parts :
    let a : Expression := .just (.free ⟨"A", []⟩)
    let b : Expression := .just (.free ⟨"B", []⟩)
    let c : Expression := .just (.free ⟨"C", []⟩)
    let combination : Policy := ⟨[((a.and b).or c, ⟨.allow, ""⟩)]⟩
    let choice : Policy := ⟨[(a.or b, ⟨.allow, ""⟩)]⟩
    let table : Equivalence := ⟨[[(a, [c])]]⟩
    (∃ interpreter r, build ⟨[]⟩ combination = .ok interpreter ∧
      Equivalence.expand ⟨[]⟩ ((a.and b).or c) = .ok ((a.and b).or c) ∧
      a.and b ∈ ((a.and b).or c).operands .or ∧
      interpreter.evaluate (a.and b) = .ok r ∧ r.verdict = .unknown) ∧
    ∃ interpreter r, build table choice = .ok interpreter ∧
      table.expand (a.or b) = .ok (a.or b) ∧ a ∈ (a.or b).operands .or ∧
      interpreter.evaluate a = .ok r ∧ r.verdict = .unknown := by
  intro a b c combination choice table
  have builtCombination : build ⟨[]⟩ combination = .ok ⟨⟨[]⟩, combination,
      [(c, (a.and b).or c), (a.and b, (a.and b).or c)]⟩ :=
    Outcome.toOption_eq_some.mp (by decide +kernel)
  have builtChoice : build table choice = .ok ⟨table, choice, [(a, a.or b), (b, a.or b)]⟩ :=
    Outcome.toOption_eq_some.mp (by decide +kernel)
  refine ⟨⟨_, ⟨.unknown, ["No rules found for A", "No rules found for B"]⟩, builtCombination,
      ?_, by decide +kernel, ?_, rfl⟩,
    ⟨_, ⟨.unknown, ["No rules found for A"]⟩, builtChoice, ?_, by decide +kernel, ?_, rfl⟩⟩
  · exact Outcome.toOption_eq_some.mp (by decide +kernel)
  · exact Outcome.toOption_eq_some.mp (by decide +kernel)
  · exact Outcome.toOption_eq_some.mp (by decide +kernel)
  · exact Outcome.toOption_eq_some.mp (by decide +kernel)

end Licensing.Interpreter
