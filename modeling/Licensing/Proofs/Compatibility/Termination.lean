import Licensing.Proofs.Compatibility.Conclusion
import Licensing.Proofs.Equivalence.Closure
import Licensing.Proofs.Expression.Nodes

/-! # When evaluation ends

Where every expansion ends, an evaluation ends exactly if no expression is evaluated again inside its own
evaluation, and then the bound of `Interpreter.evaluate` is not met (`evaluation_ends_iff`).  For one that
ends without a fault the bound is always large enough (`evaluate_eq_ok_iff`).

All that an evaluation comes to evaluate are nodes of its expression and of the values of the tables,
except for licenses to which an expansion has attached an exception; but those are ends, and nothing is
evaluated inside their evaluation.  So an evaluation that goes down further than there are such nodes has
come to one of them twice (`exists_descent`).
-/

namespace Licensing.Interpreter

open Licensing.Equivalence (Expands Settled settled_ok settled_error_iff)

variable {interpreter : Interpreter} {connective : Connective}

/-! ## One level of an evaluation -/

/-- The combined resolutions of operands. -/
def reduce (connective : Connective) (evaluate : Expression → Except ExpansionFault Resolution)
    (first : Expression) (rest : List Expression) : Except ExpansionFault Resolution :=
  (evaluate first).bind fun start => fold connective evaluate start rest

theorem evaluateAt_cases (interpreter : Interpreter) (depth : Nat) (e : Expression) :
    (∃ decision, interpreter.policy.find? e = some decision ∧
      interpreter.evaluateAt (depth + 1) e = .ok (decision.resolve e)) ∨
    (interpreter.policy.find? e = none ∧
      ((∃ fault, interpreter.equivalence.expand e = .error fault ∧
          interpreter.evaluateAt (depth + 1) e = .error fault) ∨
        (∃ own, interpreter.equivalence.expand e = .ok own ∧
          (∀ connective first rest, own ≠ .compound connective (first :: rest)) ∧
          interpreter.evaluateAt (depth + 1) e = .ok (interpreter.ascribe e own)) ∨
        ∃ connective first rest,
          interpreter.equivalence.expand e = .ok (.compound connective (first :: rest)) ∧
          interpreter.evaluateAt (depth + 1) e =
            reduce connective (interpreter.evaluateAt depth) first rest)) := by
  cases listed : interpreter.policy.find? e with
  | some decision => exact .inl ⟨decision, rfl, evaluateAt_listed listed⟩
  | none =>
    refine .inr ⟨rfl, ?_⟩
    cases expanded : interpreter.equivalence.expand e with
    | error fault => exact .inl ⟨fault, rfl, by simp only [evaluateAt, listed, expanded]⟩
    | ok own =>
      refine .inr ?_
      cases own with
      | compound connective es =>
        cases es with
        | nil => exact .inl ⟨_, rfl, by simp, evaluateAt_alone listed expanded (by simp)⟩
        | cons first rest =>
          refine .inr ⟨connective, first, rest, rfl, ?_⟩
          simp only [evaluateAt, listed, expanded, reduce]
          cases interpreter.evaluateAt depth first <;> rfl
      | sentinel | simple | withException =>
        exact .inl ⟨_, rfl, by simp, evaluateAt_alone listed expanded (by simp)⟩

section Operands

variable {evaluate : Expression → Except ExpansionFault Resolution}

theorem gathers_of_fold (sound : ∀ e, Settled (evaluate e) → Concludes interpreter e (evaluate e))
    {rest : List Expression} {result : Resolution}
    (settled : Settled (fold connective evaluate result rest)) :
    Gathers interpreter connective (some result) rest (fold connective evaluate result rest) := by
  induction rest generalizing result with
  | nil => exact .done
  | cons e rest ih =>
    cases head : evaluate e with
    | error fault =>
      simp only [fold, head] at settled ⊢
      exact .fault (head ▸ sound e (head ▸ settled))
    | ok operand =>
      simp only [fold, head] at settled ⊢
      exact .next (head ▸ sound e (head ▸ settled_ok operand)) (ih settled)

theorem gathers_of_reduce (sound : ∀ e, Settled (evaluate e) → Concludes interpreter e (evaluate e))
    {first : Expression} {rest : List Expression}
    (settled : Settled (reduce connective evaluate first rest)) :
    Gathers interpreter connective none (first :: rest) (reduce connective evaluate first rest) := by
  unfold reduce at settled ⊢
  cases head : evaluate first with
  | error fault =>
    rw [head] at settled
    exact .fault (head ▸ sound first (head ▸ settled))
  | ok start =>
    rw [head] at settled
    exact .next (head ▸ sound first (head ▸ settled_ok start)) (gathers_of_fold sound settled)

/-- Operands are evaluated up to the first one that meets a bound. -/
theorem exists_unsettled_of_fold {rest : List Expression} {result : Resolution}
    (failed : ¬ Settled (fold connective evaluate result rest)) :
    ∃ before inner after, rest = before ++ inner :: after ∧
      (∀ d ∈ before, ∃ r, evaluate d = .ok r) ∧ ¬ Settled (evaluate inner) := by
  induction rest generalizing result with
  | nil => exact absurd (settled_ok result) failed
  | cons e rest ih =>
    cases head : evaluate e with
    | error fault =>
      simp only [fold, head] at failed
      exact ⟨[], e, rest, rfl, by simp, head ▸ failed⟩
    | ok operand =>
      simp only [fold, head] at failed
      obtain ⟨before, inner, after, rfl, resolved, unsettled⟩ := ih failed
      refine ⟨e :: before, inner, after, rfl, ?_, unsettled⟩
      simpa [head] using resolved

theorem exists_unsettled_of_reduce {first : Expression} {rest : List Expression}
    (failed : ¬ Settled (reduce connective evaluate first rest)) :
    ∃ before inner after, first :: rest = before ++ inner :: after ∧
      (∀ d ∈ before, ∃ r, evaluate d = .ok r) ∧ ¬ Settled (evaluate inner) := by
  unfold reduce at failed
  cases head : evaluate first with
  | error fault =>
    rw [head] at failed
    exact ⟨[], first, rest, rfl, by simp, head ▸ failed⟩
  | ok start =>
    rw [head] at failed
    obtain ⟨before, inner, after, rfl, resolved, unsettled⟩ := exists_unsettled_of_fold failed
    refine ⟨first :: before, inner, after, rfl, ?_, unsettled⟩
    simpa [head] using resolved

end Operands

theorem concludes_of_evaluateAt {depth : Nat} {e : Expression}
    (settled : Settled (interpreter.evaluateAt depth e)) :
    Concludes interpreter e (interpreter.evaluateAt depth e) := by
  induction depth generalizing e with
  | zero => exact absurd rfl (settled e)
  | succ depth ih =>
    have expands (run : Settled (interpreter.equivalence.expand e)) :
        Expands interpreter.equivalence e (interpreter.equivalence.expand e) :=
      Equivalence.expands_of_expandWith (Equivalence.looksUp_of_lookupAt _ _) run
    obtain ⟨decision, entry, same⟩ | ⟨unlisted, ⟨fault, failed, same⟩ |
      ⟨own, expanded, single, same⟩ | ⟨connective, first, rest, expanded, same⟩⟩ :=
      interpreter.evaluateAt_cases depth e
    · exact same ▸ .listed entry
    · rw [same] at settled ⊢
      -- The fault is passed on as it is, so the expansion has not met its bound either.
      have bounded : Settled (interpreter.equivalence.expand e) := by
        rw [failed]
        exact settled_error_iff.mpr (settled_error_iff.mp settled)
      exact .fault unlisted (failed ▸ expands bounded)
    · exact same ▸ .alone unlisted (expanded ▸ expands (expanded ▸ settled_ok own)) single
    · rw [same] at settled ⊢
      exact .compound unlisted (expanded ▸ expands (expanded ▸ settled_ok _))
        (gathers_of_reduce (fun _ => ih) settled)

/-! ## What an evaluation comes to evaluate -/

/-- The nodes of an expression, and those of the values of the tables. -/
def evaluable (interpreter : Interpreter) (root : Expression) : List Expression :=
  (root :: interpreter.equivalence.values).flatMap Expression.nodes

theorem foldl_size (start : Nat) (es : List Expression) :
    (es.map Expression.size).foldl (· + ·) start = start + (es.flatMap Expression.nodes).length := by
  induction es generalizing start with
  | nil => rfl
  | cons e es ih =>
    simp only [List.map_cons, List.foldl_cons, ih, List.flatMap_cons, List.length_append,
      Expression.length_nodes]
    omega

theorem depth_eq (interpreter : Interpreter) (root : Expression) :
    interpreter.depth root =
      (interpreter.evaluable root).length + interpreter.equivalence.reach root + 1 := by
  simp only [depth, foldl_size, evaluable]
  omega

theorem mem_evaluable {root d : Expression} :
    d ∈ interpreter.evaluable root ↔
      ∃ e ∈ root :: interpreter.equivalence.values, d ∈ e.nodes :=
  List.mem_flatMap

theorem mem_evaluable_of_mem_nodes {root d e : Expression} (below : d ∈ e.nodes)
    (known : e ∈ interpreter.evaluable root) : d ∈ interpreter.evaluable root := by
  obtain ⟨top, listed, inside⟩ := mem_evaluable.mp known
  exact mem_evaluable.mpr ⟨top, listed, Expression.nodes_subset below inside⟩

/-- A single expression that expands to itself; nothing is evaluated inside its evaluation. -/
structure Fixed (interpreter : Interpreter) (e : Expression) : Prop where
  itself : interpreter.equivalence.expand e = .ok e
  single : ∀ connective es, e ≠ .compound connective es

theorem fixed_of_leaf {t e : Expression} (leaf : interpreter.equivalence.lookup t = .ok [])
    (single : ∀ connective es, t ≠ .compound connective es) (node : e ∈ t.nodes) :
    Fixed interpreter e := by
  rw [Expression.nodes_eq_singleton single, List.mem_singleton] at node
  exact node ▸ ⟨Equivalence.expand_of_leaf leaf, single⟩

section Tables

variable (tables : interpreter.equivalence.Canonical) {root : Expression}

include tables

theorem canonical_of_evaluable (canonical : root.Canonical) {e : Expression}
    (known : e ∈ interpreter.evaluable root) : e.Canonical := by
  obtain ⟨top, listed, inside⟩ := mem_evaluable.mp known
  cases List.mem_cons.mp listed with
  | inl same => exact (same ▸ canonical).of_mem_nodes inside
  | inr value => exact (tables top value).of_mem_nodes inside

theorem Fixed.not_inside {e inner : Expression} (fixed : Fixed interpreter e) :
    ¬ interpreter.Inside inner e := by
  rintro ⟨-, connective, before, after, run, -⟩
  have canonical := Expression.canonical_of_single fixed.single
  have expanded := ((Equivalence.expands_iff tables canonical _).mp run).1
  exact fixed.single _ _ (Except.ok.inj (fixed.itself.symm.trans expanded))

/-- An operand of an expansion is an operand of what is expanded, or a node of one of its ends. -/
theorem operand_or_node_of_end {e inner : Expression} (canonical : e.Canonical)
    (inside : interpreter.Inside inner e) :
    (∃ connective es, e = .compound connective es ∧ inner ∈ es) ∨
    ∃ t, interpreter.equivalence.lookup t = .ok [] ∧ inner ∈ t.nodes ∧
      (Equivalence.hasException t = true ∨ t ∈ interpreter.equivalence.values) := by
  obtain ⟨-, connective, before, after, run, -⟩ := inside
  have ended := ((Equivalence.expands_iff tables canonical _).mp run).1
  have operand : inner ∈ before ++ inner :: after := by simp
  generalize before ++ inner :: after = es at ended operand
  by_cases changed : Expression.compound connective es = e
  · exact .inl ⟨connective, es, changed.symm, operand⟩
  · obtain ⟨p, alternative, below⟩ := Expression.exists_alternative_of_operand operand
    obtain ⟨t, reached, leaf, part⟩ :=
      (Equivalence.mem_operands_expand tables canonical ended changed p).mp alternative
    refine .inr ⟨t, leaf, Expression.nodes_subset below (Expression.mem_nodes_of_mem_operands part), ?_⟩
    cases carries : Equivalence.hasException t with
    | true => exact .inl rfl
    | false => exact .inr (Equivalence.mem_values_of_reaches tables reached carries)

/-- What is evaluated inside is known, or a license to which an expansion has attached an exception. -/
theorem evaluable_or_fixed {e inner : Expression} (canonical : e.Canonical)
    (known : e ∈ interpreter.evaluable root) (inside : interpreter.Inside inner e) :
    inner ∈ interpreter.evaluable root ∨ Fixed interpreter inner := by
  obtain ⟨connective, es, rfl, operand⟩ | ⟨t, leaf, node, carries | value⟩ :=
    operand_or_node_of_end tables canonical inside
  · exact .inl (mem_evaluable_of_mem_nodes (Expression.mem_nodes_of_operand operand) known)
  · obtain ⟨term, exception, rfl⟩ := Equivalence.withException_of_hasException carries
    exact .inr (fixed_of_leaf leaf nofun node)
  · exact .inl (mem_evaluable.mpr ⟨t, .tail _ value, node⟩)

end Tables

/-! ## Calls on lower and lower levels -/

section Descent

variable (tables : interpreter.equivalence.Canonical) (stuck : Nat → Expression → Prop)
variable (deeper : ∀ depth e, e.Canonical → stuck (depth + 1) e →
  ∃ inner, interpreter.Inside inner e ∧ stuck depth inner)

include tables deeper

/-- What is passed on to a call on the level below goes down all levels, and stays among the nodes. -/
theorem exists_descent {root : Expression} (start : root.Canonical) {depth : Nat} {e : Expression}
    (known : e ∈ interpreter.evaluable root) (failed : stuck (depth + 1) e) :
    ∃ path, path.length = depth ∧ Descent interpreter.Inside (e :: path) ∧
      e :: path ⊆ interpreter.evaluable root := by
  -- Each level adds one expression to the path; what is evaluated on the next level is known as well.
  induction depth generalizing e with
  | zero => exact ⟨[], rfl, List.pairwise_singleton _ e, by simpa using known⟩
  | succ depth ih =>
    have canonical := canonical_of_evaluable tables start known
    obtain ⟨inner, inside, below⟩ := deeper _ e canonical failed
    have known' : inner ∈ interpreter.evaluable root := by
      refine (evaluable_or_fixed tables canonical known inside).resolve_right fun fixed => ?_
      -- Nothing is evaluated inside the evaluation of such an expression, so nothing is passed on.
      obtain ⟨d, inside', -⟩ := deeper _ inner (Expression.canonical_of_single fixed.single) below
      exact fixed.not_inside tables inside'
    obtain ⟨path, levels, descent, inside'⟩ := ih known' below
    exact ⟨inner :: path, by rw [List.length_cons, levels], .cons inside descent,
      List.cons_subset.mpr ⟨known, inside'⟩⟩

theorem circular_of_stuck {e : Expression} (canonical : e.Canonical)
    (failed : stuck (interpreter.depth e) e) : Circular interpreter e := by
  rw [depth_eq] at failed
  have known : e ∈ interpreter.evaluable e :=
    mem_evaluable.mpr ⟨e, by simp, Expression.mem_nodes_self e⟩
  obtain ⟨path, levels, descent, inside⟩ := exists_descent tables stuck deeper canonical known failed
  -- The bound of an evaluation is larger than the number of these expressions.
  obtain ⟨repeated, member, cycle⟩ := descent.exists_cycle inside (by
    rw [List.length_cons, levels]
    omega)
  exact ⟨repeated, descent.reaches member, cycle⟩

end Descent

/-! ## Bounds that are met -/

section Bounded

variable (tables : interpreter.equivalence.Canonical)
variable (total : ∀ d : Expression, d.Canonical → ∃ r, Expands interpreter.equivalence d r)

include tables total

/-- An evaluation that meets its bound has met it in a call on the level below. -/
theorem exists_inside_of_not_settled {depth : Nat} {e : Expression} (canonical : e.Canonical)
    (failed : ¬ Settled (interpreter.evaluateAt (depth + 1) e)) :
    ∃ inner, interpreter.Inside inner e ∧ ¬ Settled (interpreter.evaluateAt depth inner) := by
  obtain ⟨r, run⟩ := total e canonical
  obtain ⟨rfl, bounded⟩ := (Equivalence.expands_iff tables canonical r).mp run
  obtain ⟨decision, -, same⟩ | ⟨unlisted, ⟨fault, fails, same⟩ | ⟨own, -, -, same⟩ |
    ⟨connective, first, rest, expanded, same⟩⟩ := interpreter.evaluateAt_cases depth e
  · exact absurd (settled_ok _) (same ▸ failed)
  · rw [fails] at bounded
    rw [same] at failed
    exact absurd (settled_error_iff.mpr (settled_error_iff.mp bounded)) failed
  · exact absurd (settled_ok _) (same ▸ failed)
  · rw [same] at failed
    obtain ⟨before, inner, after, operands, resolved, unsettled⟩ := exists_unsettled_of_reduce failed
    refine ⟨inner, ⟨unlisted, connective, before, after, ?_, ?_⟩, unsettled⟩
    · rw [← operands, ← expanded]
      exact run
    · intro d member
      obtain ⟨result, evaluated⟩ := resolved d member
      exact ⟨result, evaluated ▸ concludes_of_evaluateAt (evaluated ▸ settled_ok result)⟩

theorem circular_of_evaluate {e : Expression} (canonical : e.Canonical)
    (failed : ¬ Settled (interpreter.evaluate e)) : Circular interpreter e := by
  refine circular_of_stuck tables (fun depth d => ¬ Settled (interpreter.evaluateAt depth d))
    (fun _ _ canonical' failed' => ?_) canonical failed
  exact exists_inside_of_not_settled tables total canonical' failed'

end Bounded

/-! ## Evaluations without faults -/

mutual

theorem Evaluates.concludes (tables : interpreter.equivalence.Canonical) {e : Expression}
    {r : Resolution} : Evaluates interpreter e r → e.Canonical → Concludes interpreter e (.ok r)
  | .listed entry, _ => .listed entry
  | .compound unlisted expanded head tail, canonical => by
    have run := (Equivalence.expands_iff tables canonical _).mpr ⟨expanded, settled_ok _⟩
    obtain ⟨-, -, parts, -⟩ :=
      Expression.canonical_compound_iff.mp (tables.expand canonical expanded)
    exact .compound unlisted run (.next (head.concludes tables (parts _ List.mem_cons_self))
      (tail.gathers tables fun d member => parts d (.tail _ member)))
  | .alone unlisted expanded single, canonical =>
    .alone unlisted ((Equivalence.expands_iff tables canonical _).mpr ⟨expanded, settled_ok _⟩) single

theorem Folds.gathers (tables : interpreter.equivalence.Canonical) {connective : Connective}
    {rest : List Expression} {result r : Resolution} :
    Folds interpreter connective result rest r → (∀ d ∈ rest, d.Canonical) →
      Gathers interpreter connective (some result) rest (.ok r)
  | .done, _ => .done
  | .next head tail, parts => .next (head.concludes tables (parts _ List.mem_cons_self))
      (tail.gathers tables fun d member => parts d (.tail _ member))

end

theorem fold_of_folds {evaluate : Expression → Except ExpansionFault Resolution}
    {rest : List Expression} {result r : Resolution}
    (complete : ∀ d ∈ rest, ∀ s, Evaluates interpreter d s → evaluate d = .ok s)
    (run : Folds interpreter connective result rest r) :
    fold connective evaluate result rest = .ok r := by
  induction rest generalizing result with
  | nil =>
    cases run with
    | done => rfl
  | cons d rest ih =>
    obtain ⟨operand, head, tail⟩ := run.cases
    rw [fold, complete d List.mem_cons_self operand head]
    exact ih (fun d member => complete d (.tail _ member)) tail

section Resolved

variable (tables : interpreter.equivalence.Canonical)

include tables

/-- A level that misses a resolution has missed one in a call on the level below. -/
theorem exists_inside_of_unequal {depth : Nat} {e : Expression} {r : Resolution}
    (canonical : e.Canonical) (run : Evaluates interpreter e r)
    (unequal : interpreter.evaluateAt (depth + 1) e ≠ .ok r) :
    ∃ inner, interpreter.Inside inner e ∧
      ∃ s, Evaluates interpreter inner s ∧ interpreter.evaluateAt depth inner ≠ .ok s := by
  obtain ⟨decision, entry, rfl⟩ | ⟨unlisted, connective, first, rest, start, expanded, head, tail⟩ |
    ⟨unlisted, own, expanded, single, rfl⟩ := run.cases
  · exact absurd (evaluateAt_listed entry) unequal
  · have expansion := (Equivalence.expands_iff tables canonical _).mpr ⟨expanded, settled_ok _⟩
    obtain ⟨-, -, parts, -⟩ :=
      Expression.canonical_compound_iff.mp (tables.expand canonical expanded)
    have resolved (d : Expression) (member : d ∈ first :: rest) : ∃ s, Evaluates interpreter d s := by
      cases List.mem_cons.mp member with
      | inl same => exact ⟨start, same ▸ head⟩
      | inr later =>
        obtain ⟨operand, run', -⟩ := tail.verdict.2.1 d later
        exact ⟨operand, run'⟩
    by_contra none
    -- Otherwise the level below has the resolutions of all operands, and this one their combination.
    have complete (d : Expression) (member : d ∈ first :: rest) (s : Resolution)
        (run' : Evaluates interpreter d s) : interpreter.evaluateAt depth d = .ok s := by
      by_contra missed
      obtain ⟨before, after, split⟩ := List.append_of_mem member
      refine none ⟨d, ⟨unlisted, connective, before, after, split ▸ expansion, ?_⟩, s, run', missed⟩
      intro c earlier
      have inside : c ∈ first :: rest := split ▸ List.mem_append_left _ earlier
      obtain ⟨operand, run''⟩ := resolved c inside
      exact ⟨operand, run''.concludes tables (parts c inside)⟩
    apply unequal
    rw [evaluateAt_compound unlisted expanded (complete first List.mem_cons_self start head)]
    exact fold_of_folds (fun d member => complete d (.tail _ member)) tail
  · exact absurd (evaluateAt_alone unlisted expanded single) unequal

/-- The bound of an evaluation is large enough for every evaluation that ends without a fault. -/
theorem evaluate_eq_ok_iff {e : Expression} (canonical : e.Canonical) {r : Resolution} :
    interpreter.evaluate e = .ok r ↔ Evaluates interpreter e r := by
  refine ⟨evaluates_of_evaluate, fun run => ?_⟩
  by_contra missed
  refine not_circular_of_concludes (run.concludes tables canonical) (circular_of_stuck tables
    (fun depth d => ∃ s, Evaluates interpreter d s ∧ interpreter.evaluateAt depth d ≠ .ok s)
    (fun depth d canonical' => ?_) canonical ⟨r, run, missed⟩)
  rintro ⟨s, run', unequal⟩
  exact exists_inside_of_unequal tables canonical' run' unequal

end Resolved

/-! ## Ends and circles -/

/-- Where every expansion ends, an evaluation ends exactly if nothing is evaluated again inside its own
evaluation; then the bounded function has the same outcome, and otherwise it says that there is no end. -/
theorem evaluation_ends_iff {e : Expression} (tables : interpreter.equivalence.Canonical)
    (total : ∀ d : Expression, d.Canonical → ∃ r, Expands interpreter.equivalence d r)
    (canonical : e.Canonical) :
    ((∃ r, Concludes interpreter e r) ↔ ¬ Circular interpreter e) ∧
    ∀ r, Concludes interpreter e r ↔ interpreter.evaluate e = r ∧ Settled r := by
  have settled (acyclic : ¬ Circular interpreter e) : Settled (interpreter.evaluate e) := by
    by_contra failed
    exact acyclic (circular_of_evaluate tables total canonical failed)
  refine ⟨⟨?_, fun acyclic => ⟨_, concludes_of_evaluateAt (settled acyclic)⟩⟩, fun r => ⟨?_, ?_⟩⟩
  · rintro ⟨r, run⟩
    exact not_circular_of_concludes run
  · intro run
    have bounded := settled (not_circular_of_concludes run)
    have same : interpreter.evaluate e = r := (concludes_of_evaluateAt bounded).unique run
    exact ⟨same, same ▸ bounded⟩
  · rintro ⟨rfl, bounded⟩
    exact concludes_of_evaluateAt bounded

/-- `A` stands for `D` and for `B AND C`; `P` stands for `P AND Q`, whose evaluation has no end, but the
evaluation of `A` does not come to it. -/
theorem evaluation_ends_beside_circle :
    let a : Expression := .just (.free ⟨"A", []⟩)
    let b : Expression := .just (.free ⟨"B", []⟩)
    let c : Expression := .just (.free ⟨"C", []⟩)
    let d : Expression := .just (.free ⟨"D", []⟩)
    let p : Expression := .just (.free ⟨"P", []⟩)
    let q : Expression := .just (.free ⟨"Q", []⟩)
    let equivalence : Equivalence := ⟨[[(a, [d, b.and c]), (p, [p.and q])]]⟩
    let policy : Policy := ⟨[(b, ⟨.allow, ""⟩), (d, ⟨.reject, ""⟩)]⟩
    ∃ interpreter, build equivalence policy = .ok interpreter ∧
      interpreter.equivalence.Canonical ∧ a.Canonical ∧
      (∀ e : Expression, e.Canonical → ∃ r, Expands interpreter.equivalence e r) ∧
      ¬ Circular interpreter a ∧
      Concludes interpreter a
        (.ok ⟨.unknown, ["REJECT: D: REJECT", "UNKNOWN: No rules found for C"]⟩) := by
  intro a b c d p q equivalence policy
  have plain (license : License) : (Expression.just license).Canonical := by
    simp [Expression.Canonical]
  have both (e e' : Expression) (left : e.Canonical) (right : e'.Canonical) : (e.and e').Canonical :=
    left.combine (by simpa using right)
  have tables : equivalence.Canonical := by
    simp [equivalence, Equivalence.Canonical, Equivalence.values, EquivalenceTable.values, d, b, c, p,
      q, plain, both]
  have total (e : Expression) (canonical : e.Canonical) : ∃ r, Expands equivalence e r :=
    Equivalence.expands_of_plain_values tables canonical (by decide +kernel)
  have built : build equivalence policy = .ok ⟨equivalence, policy, [(b, b), (d, d)]⟩ :=
    Outcome.toOption_eq_some.mp (by decide +kernel)
  have evaluated : evaluate ⟨equivalence, policy, [(b, b), (d, d)]⟩ a =
      .ok ⟨.unknown, ["REJECT: D: REJECT", "UNKNOWN: No rules found for C"]⟩ :=
    Outcome.toOption_eq_some.mp (by decide +kernel)
  obtain ⟨ends, runs⟩ := @evaluation_ends_iff ⟨equivalence, policy, [(b, b), (d, d)]⟩ a tables total
    (plain _)
  have run := (runs _).mpr ⟨evaluated, settled_ok _⟩
  exact ⟨_, built, tables, plain _, total, ends.mp ⟨_, run⟩, run⟩

/-- An expression that stands for a combination with itself as a part has no evaluation, though it has an
expansion. -/
theorem not_concludes_of_own_part :
    let a : Expression := .just (.free ⟨"A", []⟩)
    let b : Expression := .just (.free ⟨"B", []⟩)
    let equivalence : Equivalence := ⟨[[(a, [a.and b])]]⟩
    ∃ interpreter, build equivalence .empty = .ok interpreter ∧ equivalence.Canonical ∧
      a.Canonical ∧ (∀ e : Expression, e.Canonical → ∃ r, Expands equivalence e r) ∧
      ¬ ∃ r, Concludes interpreter a r := by
  intro a b equivalence
  have plain (license : License) : (Expression.just license).Canonical := by
    simp [Expression.Canonical]
  have both : (a.and b).Canonical := (plain _).combine (by simp [b, plain])
  have tables : equivalence.Canonical := by
    simp [equivalence, Equivalence.Canonical, Equivalence.values, EquivalenceTable.values, both]
  have total (e : Expression) (canonical : e.Canonical) : ∃ r, Expands equivalence e r :=
    Equivalence.expands_of_plain_values tables canonical (by decide +kernel)
  refine ⟨⟨equivalence, .empty, []⟩, rfl, tables, plain _, total, ?_⟩
  rintro ⟨r, run⟩
  have expanded : equivalence.expand a = .ok (.compound .and ([] ++ a :: [b])) :=
    Outcome.toOption_eq_some.mp (by decide +kernel)
  have expansion := (Equivalence.expands_iff tables (plain _) _).mpr ⟨expanded, settled_ok _⟩
  have inside : Inside ⟨equivalence, .empty, []⟩ a a := ⟨rfl, .and, [], [b], expansion, by simp⟩
  exact not_circular_of_concludes run ⟨a, .refl, .single inside⟩

/-! ## Tables without compound expressions -/

/-- Tables that lead to single expressions only have no circles: operands are smaller, and ends are
fixed. -/
theorem accessible_of_single_values (tables : interpreter.equivalence.Canonical)
    (values : ∀ e ∈ interpreter.equivalence.values, ∀ connective es, e ≠ .compound connective es)
    {e : Expression} (canonical : e.Canonical) : Acc interpreter.Inside e := by
  induction size : e.size using Nat.strongRecOn generalizing e with
  | ind bound ih =>
    refine .intro e fun inner inside => ?_
    have stop (fixed : Fixed interpreter inner) : Acc interpreter.Inside inner :=
      .intro inner fun d deeper => absurd deeper (fixed.not_inside tables)
    obtain ⟨connective, es, rfl, operand⟩ | ⟨t, leaf, node, carries | value⟩ :=
      operand_or_node_of_end tables canonical inside
    · have part := (Expression.canonical_compound_iff.mp canonical).2.2.1 inner operand
      exact ih inner.size (size ▸ Expression.size_lt_of_operand operand) part rfl
    · obtain ⟨term, exception, rfl⟩ := Equivalence.withException_of_hasException carries
      exact stop (fixed_of_leaf leaf nofun node)
    · exact stop (fixed_of_leaf leaf (values t value) node)

/-- With tables that lead to single expressions only, such as those for versions of licenses, every
evaluation ends where every expansion does. -/
theorem concludes_of_single_values {e : Expression} (tables : interpreter.equivalence.Canonical)
    (values : ∀ e ∈ interpreter.equivalence.values, ∀ connective es, e ≠ .compound connective es)
    (total : ∀ d : Expression, d.Canonical → ∃ r, Expands interpreter.equivalence d r)
    (canonical : e.Canonical) : ∃ r, Concludes interpreter e r := by
  have settled : Settled (interpreter.evaluate e) := by
    by_contra failed
    exact not_cycle_of_acc (accessible_of_single_values tables values canonical)
      (circular_of_evaluate tables total canonical failed)
  exact ⟨_, concludes_of_evaluateAt settled⟩

end Licensing.Interpreter
