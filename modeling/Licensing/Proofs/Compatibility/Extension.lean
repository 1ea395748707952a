import Licensing.Proofs.Compatibility.Expansion

/-! # Extending a policy

A policy may be extended by entries of any shape.  What it has decided stays as it is
(`evaluate_extension`), because the interpreter of the extended policy is built only if no two of its
entries cover the same alternative: the entries behind the alternatives of an expression are the same as
before, and the expression itself cannot have become one that is listed (`GrowsInto.unlisted`).
-/

namespace Licensing

/-! ## Policies with further entries -/

namespace Policy

/-- All decisions of a policy are decisions of the extended one. -/
def Extends (extended policy : Policy) : Prop :=
  ∀ key decision, policy.find? key = some decision → extended.find? key = some decision

theorem extends_append (policy : Policy) (more : List (Expression × Decision)) :
    Extends ⟨policy.entries ++ more⟩ policy := by
  intro key decision entry
  rw [find?] at entry ⊢
  rw [List.lookup_append, entry, Option.some_or]

end Policy

namespace Interpreter

open Licensing.Equivalence (SimpleTables)

/-! ## Interpreters of extended policies -/

/-- An interpreter for the same tables and an extended policy. -/
structure GrowsInto (interpreter extended : Interpreter) : Prop where
  before : build interpreter.equivalence interpreter.policy = .ok interpreter
  after : build extended.equivalence extended.policy = .ok extended
  tables : extended.equivalence = interpreter.equivalence
  policy : extended.policy.Extends interpreter.policy

/-- The policy lists the expression, or an entry for every alternative of its expansion. -/
def Decides (equivalence : Equivalence) (policy : Policy) (e : Expression) : Prop :=
  e ∈ policy.keys ∨ ∃ expanded, equivalence.expand e = .ok expanded ∧
    ∀ p ∈ expanded.operands .or, ∃ key ∈ policy.keys, Covers equivalence key p

variable {extended interpreter : Interpreter}

theorem ascribe_congr {e p : Expression} (same : extended.covering? p = interpreter.covering? p) :
    extended.ascribe e p = interpreter.ascribe e p := by
  rw [ascribe, ascribe, same]

theorem choose_congr {first : Expression} {rest : List Expression}
    (same : ∀ p ∈ first :: rest, extended.covering? p = interpreter.covering? p) :
    extended.choose first rest = interpreter.choose first rest := by
  have others : rest.map (fun p => extended.ascribe p p) =
      rest.map fun p => interpreter.ascribe p p :=
    List.map_congr_left fun p member => ascribe_congr (same p (.tail _ member))
  rw [choose, choose, others, ascribe_congr (same first List.mem_cons_self)]

namespace GrowsInto

variable (grows : interpreter.GrowsInto extended) {e expanded p : Expression}

include grows

theorem covering? {key : Expression} (listed : key ∈ interpreter.policy.keys)
    (covers : Covers interpreter.equivalence key p) :
    extended.covering? p = interpreter.covering? p := by
  obtain ⟨decision, entry⟩ := exists_find?_of_mem_keys listed
  rw [covering?_of_covers grows.before entry covers]
  rw [← grows.tables] at covers
  exact covering?_of_covers grows.after (grows.policy key decision entry) covers

/-- An expression with an alternative that an entry has covered before is not listed now either. -/
theorem unlisted {key : Expression} (unlisted : interpreter.policy.find? e = none)
    (ended : interpreter.equivalence.expand e = .ok expanded) (part : p ∈ expanded.operands .or)
    (listed : key ∈ interpreter.policy.keys) (covers : Covers interpreter.equivalence key p) :
    extended.policy.find? e = none := by
  obtain ⟨decision, entry⟩ := exists_find?_of_mem_keys listed
  obtain ⟨whole, ended', part'⟩ := covers
  rw [← grows.tables] at ended ended'
  cases now : extended.policy.find? e with
  | none => rfl
  | some decision' =>
    -- The new entry and the old one would cover the same alternative.
    have same : e = key := eq_of_shared_part grows.after
      (grows.policy key decision entry) ended' now ended part part'
    rw [same, entry] at unlisted
    cases unlisted

/-- What is listed by neither policy, and has alternatives with the same entries, is said to be the same. -/
theorem evaluates_of_agree (simple : SimpleTables interpreter.equivalence)
    (single : ∀ connective es, e ≠ .compound connective es)
    (unlisted : interpreter.policy.find? e = none) (unlisted' : extended.policy.find? e = none)
    (ended : interpreter.equivalence.expand e = .ok expanded)
    (agree : ∀ p ∈ expanded.operands .or, extended.covering? p = interpreter.covering? p) :
    ∃ r, Evaluates interpreter e r ∧ Evaluates extended e r := by
  have ended' := ended
  rw [← grows.tables] at ended'
  obtain ⟨own, same, fixed⟩ | ⟨first, rest, same, fixed⟩ := alternatives_cases simple single
  · cases Except.ok.inj (ended.symm.trans same)
    have alone (connective : Connective) (first : Expression) (rest : List Expression) :=
      fixed.single connective (first :: rest)
    have itself := (Expression.mem_operands_alone (fixed.single .or)).mpr rfl
    refine ⟨_, .alone unlisted ended alone, ?_⟩
    rw [← ascribe_congr (agree expanded itself)]
    exact .alone unlisted' ended' alone
  · cases Except.ok.inj (ended.symm.trans same)
    have fixed' (p : Expression) (part : p ∈ first :: rest) : Fixed extended p :=
      ⟨grows.tables ▸ (fixed p part).itself, (fixed p part).single⟩
    refine ⟨_, evaluates_choice grows.before unlisted ended fixed, ?_⟩
    rw [← choose_congr agree]
    exact evaluates_choice grows.after unlisted' ended' fixed'

theorem evaluates (simple : SimpleTables interpreter.equivalence)
    (single : ∀ connective es, e ≠ .compound connective es)
    (decided : Decides interpreter.equivalence interpreter.policy e) :
    ∃ r, Evaluates interpreter e r ∧ Evaluates extended e r := by
  cases entry : interpreter.policy.find? e with
  | some decision => exact ⟨_, .listed entry, .listed (grows.policy e decision entry)⟩
  | none =>
    obtain listed | ⟨expanded, ended, covered⟩ := decided
    · obtain ⟨decision, entry'⟩ := exists_find?_of_mem_keys listed
      cases entry.symm.trans entry'
    · have canonical := simple.canonical.expand (Expression.canonical_of_single single) ended
      obtain ⟨p, part⟩ := List.exists_mem_of_ne_nil _ (canonical.operands_ne_nil .or)
      obtain ⟨key, listed, covers⟩ := covered p part
      apply grows.evaluates_of_agree simple single entry
        (grows.unlisted entry ended part listed covers) ended
      intro q alternative
      obtain ⟨owner, listed', covers'⟩ := covered q alternative
      exact grows.covering? listed' covers'

end GrowsInto

/-! ## Decisions stay as they are -/

/-- What is listed, or has alternatives that are all covered, has the same verdict and the same reasons
under every extended policy that is accepted. -/
theorem evaluate_extension {equivalence : Equivalence} {policy policy' : Policy}
    (simple : SimpleTables equivalence) (extending : policy'.Extends policy)
    (built : build equivalence policy = .ok interpreter)
    (built' : build equivalence policy' = .ok extended) {e : Expression}
    (single : ∀ connective es, e ≠ .compound connective es) (decided : Decides equivalence policy e) :
    ∃ r, interpreter.evaluate e = .ok r ∧ extended.evaluate e = .ok r := by
  obtain ⟨rfl, rfl, -⟩ := build_spec built
  obtain ⟨tables, rfl, -⟩ := build_spec built'
  have canonical := Expression.canonical_of_single single
  have grows : interpreter.GrowsInto extended := ⟨built, tables ▸ built', tables, extending⟩
  obtain ⟨r, run, run'⟩ := grows.evaluates simple single decided
  exact ⟨r, (evaluate_eq_ok_iff simple.canonical canonical).mpr run,
    (evaluate_eq_ok_iff (tables ▸ simple.canonical) canonical).mpr run'⟩

/-- `A` or later covers `B`, which `B` or later stands for; a combination and a choice are added. -/
theorem evaluate_extension_by_compound_entries :
    let a : License := .free ⟨"A", []⟩
    let b : License := .free ⟨"B", []⟩
    let c : Expression := .just (.free ⟨"C", []⟩)
    let d : Expression := .just (.free ⟨"D", []⟩)
    let equivalence : Equivalence :=
      ⟨[[(.orLater a, [.just a, .orLater b]), (.orLater b, [.just b])]]⟩
    let policy : Policy := ⟨[(.orLater a, ⟨.allow, "any version"⟩)]⟩
    let policy' : Policy :=
      ⟨policy.entries ++ [((Expression.just b).and c, ⟨.reject, ""⟩), (c.or d, ⟨.unknown, "ask"⟩)]⟩
    ∃ interpreter extended, build equivalence policy = .ok interpreter ∧
      build equivalence policy' = .ok extended ∧ policy'.Extends policy ∧
      SimpleTables equivalence ∧ Decides equivalence policy (.orLater b) ∧
      ∃ r, interpreter.evaluate (.orLater b) = .ok r ∧ extended.evaluate (.orLater b) = .ok r := by
  intro a b c d equivalence policy policy'
  have built : build equivalence policy =
      .ok ⟨equivalence, policy, [(.just a, .orLater a), (.just b, .orLater a)]⟩ :=
    Outcome.toOption_eq_some.mp (by decide +kernel)
  have built' : build equivalence policy' = .ok ⟨equivalence, policy',
      [(.just a, .orLater a), (.just b, .orLater a),
        ((Expression.just b).and c, (Expression.just b).and c), (c, c.or d), (d, c.or d)]⟩ :=
    Outcome.toOption_eq_some.mp (by decide +kernel)
  have simple : SimpleTables equivalence := by decide +kernel
  have extending : policy'.Extends policy := Policy.extends_append policy _
  have single (connective : Connective) (es : List Expression) :
      Expression.orLater b ≠ .compound connective es := nofun
  have ended : equivalence.expand (.orLater b) = .ok (.just b) :=
    Outcome.toOption_eq_some.mp (by decide +kernel)
  have key : equivalence.expand (.orLater a) = .ok ((Expression.just a).or (.just b)) :=
    Outcome.toOption_eq_some.mp (by decide +kernel)
  have decided : Decides equivalence policy (.orLater b) := by
    refine .inr ⟨_, ended, fun p part => ⟨.orLater a, List.mem_cons_self, _, key, ?_⟩⟩
    obtain rfl := List.mem_singleton.mp part
    decide +kernel
  exact ⟨_, _, built, built', extending, simple, decided,
    evaluate_extension simple extending built built' single decided⟩

end Interpreter

end Licensing
