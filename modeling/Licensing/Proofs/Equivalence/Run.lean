import Licensing.Equivalence.Expand
import Licensing.Proofs.Outcome

/-! # Runs of look-ups and expansions

Look-up and expansion call one another: the look-up of a license with an exception expands the
license, and an expansion looks up everything that its walk visits.  `LooksUp`, `Walks` and `Expands`
are the finite runs of this recursion, without any bound on their depth or length.  A run is
determined by what it starts from (`Expands.unique`), and its outcome is never
`ExpansionFault.unending`, which only says that a bound was met.

* `Settled` — outcomes that are no such fault.
* `looksUp_of_lookupAt`, `expands_of_expandWith` — bounded look-ups and expansions that settle are
  runs.
-/

namespace Licensing.Equivalence

/-! ## Runs -/

/-- What a license with an exception stands for, when its license has been expanded. -/
def carried (equivalence : Equivalence) (term : SimpleTerm) (exception : LicenseException) :
    Except ExpansionFault Expression → Except ExpansionFault (List Expression)
  | .error fault => .error fault
  | .ok expanded =>
    let known := equivalence.direct (.withException term exception)
    if expanded = .simple term then .ok known
    else (distribute term exception expanded).map (SortedSet.union · known)

/-- The choice between the ends of a walk; without ends the expression itself. -/
def choiceOr (e : Expression) (terminals : List Expression) : Expression :=
  (Expression.combine? .or terminals).getD e

/-- The successors that have not been seen yet. -/
def fresh (seen successors : List Expression) : List Expression :=
  successors.filter (!seen.contains ·)

/-- Adds an expression without successors to the ends of a walk. -/
def collect (e : Expression) (terminal : Bool) (terminals : List Expression) : List Expression :=
  if terminal then e :: terminals else terminals

mutual

/-- A look-up that ends. -/
inductive LooksUp (equivalence : Equivalence) :
    Expression → Except ExpansionFault (List Expression) → Prop
  | direct {e : Expression} (plain : hasException e = false) :
      LooksUp equivalence e (.ok (equivalence.direct e))
  | carried {term : SimpleTerm} {exception : LicenseException}
      {outcome : Except ExpansionFault Expression}
      (inside : Expands equivalence (.simple term) outcome) :
      LooksUp equivalence (.withException term exception)
        (equivalence.carried term exception outcome)

/-- A walk that ends, from the expressions in a queue to its ends. -/
inductive Walks (equivalence : Equivalence) :
    (queue seen : List Expression) → Except ExpansionFault (List Expression) → Prop
  | done {seen : List Expression} : Walks equivalence [] seen (.ok [])
  | fault {e : Expression} {queue seen : List Expression} {fault : ExpansionFault}
      (head : LooksUp equivalence e (.error fault)) :
      Walks equivalence (e :: queue) seen (.error fault)
  | visit {e : Expression} {queue seen successors : List Expression}
      {outcome : Except ExpansionFault (List Expression)}
      (head : LooksUp equivalence e (.ok successors))
      (rest : Walks equivalence (queue ++ fresh seen successors) (seen ++ fresh seen successors)
        outcome) :
      Walks equivalence (e :: queue) seen (outcome.map (collect e successors.isEmpty))

/-- An expansion that ends. -/
inductive Expands (equivalence : Equivalence) :
    Expression → Except ExpansionFault Expression → Prop
  | fault {e : Expression} {fault : ExpansionFault}
      (start : LooksUp equivalence e (.error fault)) : Expands equivalence e (.error fault)
  | itself {e : Expression} (start : LooksUp equivalence e (.ok [])) : Expands equivalence e (.ok e)
  | walk {e : Expression} {start : List Expression}
      {outcome : Except ExpansionFault (List Expression)}
      (first : LooksUp equivalence e (.ok start)) (nonempty : start ≠ [])
      (rest : Walks equivalence start start outcome) :
      Expands equivalence e (outcome.map (choiceOr e))

end

variable {equivalence : Equivalence}

/-! ## What a run starts with -/

theorem LooksUp.inside {term : SimpleTerm} {exception : LicenseException}
    {r : Except ExpansionFault (List Expression)}
    (run : LooksUp equivalence (.withException term exception) r) :
    ∃ outcome, Expands equivalence (.simple term) outcome ∧
      r = equivalence.carried term exception outcome := by
  cases run with
  | direct plain => simp [hasException] at plain
  | carried inside => exact ⟨_, inside, rfl⟩

theorem LooksUp.plain {e : Expression} {r : Except ExpansionFault (List Expression)}
    (run : LooksUp equivalence e r) (plain : hasException e = false) :
    r = .ok (equivalence.direct e) := by
  cases run with
  | direct => rfl
  | carried => simp [hasException] at plain

theorem Walks.head {e : Expression} {queue seen : List Expression}
    {r : Except ExpansionFault (List Expression)} (run : Walks equivalence (e :: queue) seen r) :
    (∃ fault, LooksUp equivalence e (.error fault) ∧ r = .error fault) ∨
    (∃ successors outcome, LooksUp equivalence e (.ok successors) ∧
      Walks equivalence (queue ++ fresh seen successors) (seen ++ fresh seen successors) outcome ∧
      r = outcome.map (collect e successors.isEmpty)) := by
  cases run with
  | fault head => exact .inl ⟨_, head, rfl⟩
  | visit head rest => exact .inr ⟨_, _, head, rest, rfl⟩

theorem Expands.start {e : Expression} {r : Except ExpansionFault Expression}
    (run : Expands equivalence e r) :
    (∃ fault, LooksUp equivalence e (.error fault) ∧ r = .error fault) ∨
    (LooksUp equivalence e (.ok []) ∧ r = .ok e) ∨
    (∃ start outcome, LooksUp equivalence e (.ok start) ∧ start ≠ [] ∧
      Walks equivalence start start outcome ∧ r = outcome.map (choiceOr e)) := by
  cases run with
  | fault start => exact .inl ⟨_, start, rfl⟩
  | itself start => exact .inr (.inl ⟨start, rfl⟩)
  | walk first nonempty rest => exact .inr (.inr ⟨_, _, first, nonempty, rest, rfl⟩)

/-! ## Runs are determined -/

mutual

theorem LooksUp.unique {e : Expression} {a b : Except ExpansionFault (List Expression)} :
    LooksUp equivalence e a → LooksUp equivalence e b → a = b
  | .direct plain, right => (right.plain plain).symm
  | .carried inside, right => by
    obtain ⟨outcome, inside', rfl⟩ := right.inside
    rw [inside.unique inside']

theorem Walks.unique {queue seen : List Expression}
    {a b : Except ExpansionFault (List Expression)} :
    Walks equivalence queue seen a → Walks equivalence queue seen b → a = b
  | .done, right => by
    cases right with
    | done => rfl
  | .fault head, right => by
    obtain ⟨fault', head', rfl⟩ | ⟨successors, outcome, head', -, -⟩ := right.head
    · exact congrArg _ (Except.error.inj (head.unique head'))
    · cases head.unique head'
  | .visit head rest, right => by
    obtain ⟨fault', head', rfl⟩ | ⟨successors, outcome, head', rest', rfl⟩ := right.head
    · cases head.unique head'
    · have same := Except.ok.inj (head.unique head')
      rw [← same] at rest' ⊢
      rw [rest.unique rest']

theorem Expands.unique {e : Expression} {a b : Except ExpansionFault Expression} :
    Expands equivalence e a → Expands equivalence e b → a = b
  | .fault start, right => by
    obtain ⟨fault', start', rfl⟩ | ⟨start', -⟩ | ⟨found, outcome, start', -⟩ := right.start
    · exact congrArg _ (Except.error.inj (start.unique start'))
    · cases start.unique start'
    · cases start.unique start'
  | .itself start, right => by
    obtain ⟨fault', start', rfl⟩ | ⟨start', rfl⟩ | ⟨found, outcome, start', nonempty, -⟩ := right.start
    · cases start.unique start'
    · rfl
    · exact absurd (Except.ok.inj (start.unique start')).symm nonempty
  | .walk start nonempty rest, right => by
    obtain ⟨fault', start', rfl⟩ | ⟨start', rfl⟩ | ⟨found, outcome, start', -, rest', rfl⟩ :=
      right.start
    · cases start.unique start'
    · exact absurd (Except.ok.inj (start.unique start')) nonempty
    · have same := Except.ok.inj (start.unique start')
      rw [← same] at rest'
      rw [rest.unique rest']

end

/-! ## Outcomes that no bound has cut off -/

/-- Anything but the fault that a bound was met. -/
def Settled {α : Type} (r : Except ExpansionFault α) : Prop :=
  ∀ e, r ≠ .error (.unending e)

theorem not_settled_iff {α : Type} {r : Except ExpansionFault α} :
    ¬ Settled r ↔ ∃ e, r = .error (.unending e) := by
  simp [Settled]

theorem settled_ok {α : Type} (a : α) : Settled (.ok a : Except ExpansionFault α) := by
  intro e same
  cases same

theorem settled_error_iff {α : Type} {fault : ExpansionFault} :
    Settled (.error fault : Except ExpansionFault α) ↔ ∀ e, fault ≠ .unending e := by
  simp [Settled]

theorem settled_map {α β : Type} {f : α → β} {r : Except ExpansionFault α} :
    Settled (r.map f) ↔ Settled r := by
  cases r with
  | ok a => simp [Settled, Except.map]
  | error fault => simp [Settled, Except.map]

/-- Attaching an exception has faults of its own, but never the one of a bound. -/
theorem settled_distribute (term : SimpleTerm) (exception : LicenseException)
    (expanded : Expression) : Settled (distribute term exception expanded) := by
  intro e failed
  unfold distribute at failed
  split at failed
  next => cases failed
  next operands =>
    obtain ⟨operand, -, found⟩ := Outcome.exists_of_mapM_eq_error failed
    split at found
    next => cases found
    next => cases found
  next => cases failed

theorem settled_carried {term : SimpleTerm} {exception : LicenseException}
    {outcome : Except ExpansionFault Expression} :
    Settled (equivalence.carried term exception outcome) ↔ Settled outcome := by
  cases outcome with
  | error fault => simp only [carried, settled_error_iff]
  | ok expanded =>
    refine iff_of_true ?_ (settled_ok expanded)
    simp only [carried]
    split
    next => exact settled_ok _
    next => exact settled_map.mpr (settled_distribute term exception expanded)

/-! ## Bounded computations are runs -/

/-- The ends that a walk has found, or its fault. -/
def ends (found : Walk ExpansionFault) : Except ExpansionFault (List Expression) :=
  match found.fault with
  | some fault => .error fault
  | none => .ok found.terminals

theorem ends_visit (found : Walk ExpansionFault) (e : Expression) (terminal : Bool) :
    ends (found.visit e terminal) = (ends found).map (collect e terminal) := by
  obtain ⟨visited, terminals, fault⟩ := found
  cases fault with
  | some fault => rfl
  | none => rfl

theorem expandWith_eq (next : Expression → Except ExpansionFault (List Expression)) (fuel : Nat)
    (e : Expression) :
    expandWith next fuel e =
      match next e with
      | .error fault => .error fault
      | .ok [] => .ok e
      | .ok start => (ends (walk next (.unending e) fuel start start)).map (choiceOr e) := by
  unfold expandWith walkFrom
  cases next e with
  | error fault => rfl
  | ok start =>
    cases start with
    | nil => rfl
    | cons first rest =>
      simp only [ends]
      cases (walk next (.unending e) fuel (first :: rest) (first :: rest)).fault with
      | some fault => rfl
      | none => rfl

theorem lookupAt_plain {e : Expression} (fuel depth : Nat) (plain : hasException e = false) :
    equivalence.lookupAt fuel depth e = .ok (equivalence.direct e) := by
  cases e with
  | withException term exception => simp [hasException] at plain
  | _ => cases depth <;> rfl

theorem lookupAt_withException (fuel depth : Nat) (term : SimpleTerm)
    (exception : LicenseException) :
    equivalence.lookupAt fuel (depth + 1) (.withException term exception) =
      equivalence.carried term exception
        (expandWith (equivalence.lookupAt fuel depth) fuel (.simple term)) := by
  rw [lookupAt]
  cases expandWith (equivalence.lookupAt fuel depth) fuel (.simple term) with
  | error fault => rfl
  | ok expanded => rfl

section Soundness

variable {next : Expression → Except ExpansionFault (List Expression)}
variable (sound : ∀ e, Settled (next e) → LooksUp equivalence e (next e))

include sound

theorem looksUp_of_eq_ok {e : Expression} {successors : List Expression}
    (found : next e = .ok successors) : LooksUp equivalence e (.ok successors) := by
  rw [← found]
  apply sound
  rw [found]
  exact settled_ok successors

theorem walks_of_walk (mark : Expression) {fuel : Nat} {queue seen : List Expression}
    (settled : Settled (ends (walk next (.unending mark) fuel queue seen))) :
    Walks equivalence queue seen (ends (walk next (.unending mark) fuel queue seen)) := by
  induction fuel generalizing queue seen with
  | zero =>
    -- Without fuel the walk has ended, or it has not settled.
    cases queue with
    | nil => exact .done
    | cons e queue => exact absurd rfl (settled mark)
  | succ fuel ih =>
    cases queue with
    | nil => exact .done
    | cons e queue =>
      cases found : next e with
      | error fault =>
        simp only [walk, found] at settled ⊢
        have head := sound e (found ▸ settled)
        exact .fault (found ▸ head)
      | ok successors =>
        simp only [walk, found, ends_visit, settled_map] at settled ⊢
        exact .visit (looksUp_of_eq_ok sound found) (ih settled)

theorem expands_of_expandWith {fuel : Nat} {e : Expression}
    (settled : Settled (expandWith next fuel e)) :
    Expands equivalence e (expandWith next fuel e) := by
  rw [expandWith_eq] at settled ⊢
  cases found : next e with
  | error fault =>
    simp only [found, settled_error_iff] at settled ⊢
    have start := sound e (found ▸ settled_error_iff.mpr settled)
    exact .fault (found ▸ start)
  | ok start =>
    have first := looksUp_of_eq_ok sound found
    cases start with
    | nil => exact .itself first
    | cons head rest =>
      simp only [found, settled_map] at settled ⊢
      exact .walk first (by simp) (walks_of_walk sound e settled)

end Soundness

theorem looksUp_of_lookupAt (fuel depth : Nat) (e : Expression)
    (settled : Settled (equivalence.lookupAt fuel depth e)) :
    LooksUp equivalence e (equivalence.lookupAt fuel depth e) := by
  induction depth generalizing e with
  | zero =>
    match e with
    -- At the lowest level, a license with an exception is the only thing that meets the bound.
    | .withException term exception => exact absurd rfl (settled _)
    | .sentinel _ | .simple _ | .compound .. => exact .direct rfl
  | succ depth ih =>
    match e with
    | .withException term exception =>
      rw [lookupAt_withException] at settled ⊢
      exact .carried (expands_of_expandWith ih (settled_carried.mp settled))
    | .sentinel _ | .simple _ | .compound .. => exact .direct rfl

end Licensing.Equivalence
