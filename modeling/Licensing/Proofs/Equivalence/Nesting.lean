import Licensing.Proofs.Descent
import Licensing.Proofs.Equivalence.Run

/-! # Expansions inside expansions

The expansion of an expression asks for the expansion of a license whenever its walk visits that
license with an exception.  A run is finite, so no license can be asked for again inside its own
expansion: this module says so for a single run (`not_endless_of_expands`), by following the nesting
of the run itself.

* `Advances` — the states of a walk, one look-up after another.
* `Visits`, `Asks` — what an expansion looks up, and the licenses that it expands on the way.
* `Endless` — somewhere inside the expansion, a license leads back to itself.
-/

namespace Licensing.Equivalence

variable {equivalence : Equivalence}

/-! ## What an expansion visits -/

/-- A walk leads from one state to another; all look-ups in between succeed. -/
inductive Advances (equivalence : Equivalence) :
    (queue seen queue' seen' : List Expression) → Prop
  | here {queue seen : List Expression} : Advances equivalence queue seen queue seen
  | visit {e : Expression} {queue seen successors queue' seen' : List Expression}
      (head : LooksUp equivalence e (.ok successors))
      (rest : Advances equivalence (queue ++ fresh seen successors)
        (seen ++ fresh seen successors) queue' seen') :
      Advances equivalence (e :: queue) seen queue' seen'

/-- The expansion of `e` looks up `c`. -/
inductive Visits (equivalence : Equivalence) (e : Expression) : Expression → Prop
  | itself : Visits equivalence e e
  | queued {c : Expression} {start queue seen : List Expression}
      (first : LooksUp equivalence e (.ok start))
      (advances : Advances equivalence start start (c :: queue) seen) : Visits equivalence e c

/-- The expansion of `e` asks for the expansion of the license `term`. -/
def Asks (equivalence : Equivalence) (e : Expression) (term : SimpleTerm) : Prop :=
  ∃ exception, Visits equivalence e (.withException term exception)

/-- `inner` is expanded as a part of the expansion of `outer`. -/
def Within (equivalence : Equivalence) (inner outer : SimpleTerm) : Prop :=
  Asks equivalence (.simple outer) inner

/-- Inside the expansion of `e`, a license is asked for again inside its own expansion. -/
def Endless (equivalence : Equivalence) (e : Expression) : Prop :=
  ∃ asked term, Asks equivalence e asked ∧
    Relation.ReflTransGen equivalence.Within term asked ∧
    Relation.TransGen equivalence.Within term term

theorem Advances.cases {e c : Expression} {queue seen queue' seen' : List Expression}
    (advances : Advances equivalence (e :: queue) seen (c :: queue') seen') :
    c = e ∨ ∃ successors, LooksUp equivalence e (.ok successors) ∧
      Advances equivalence (queue ++ fresh seen successors) (seen ++ fresh seen successors)
        (c :: queue') seen' := by
  cases advances with
  | here => exact .inl rfl
  | visit head rest => exact .inr ⟨_, head, rest⟩

theorem Asks.cases {e : Expression} {term : SimpleTerm} (asks : Asks equivalence e term) :
    (∃ exception, e = .withException term exception) ∨
    ∃ exception start queue seen, LooksUp equivalence e (.ok start) ∧
      Advances equivalence start start (.withException term exception :: queue) seen := by
  obtain ⟨exception, visits⟩ := asks
  cases visits with
  | itself => exact .inl ⟨exception, rfl⟩
  | queued first advances => exact .inr ⟨exception, _, _, _, first, advances⟩

/-! ## The nesting of a finite run -/

mutual

theorem LooksUp.accessible {e : Expression} {r : Except ExpansionFault (List Expression)} :
    LooksUp equivalence e r → ∀ term exception, e = .withException term exception →
      Acc equivalence.Within term
  | .direct plain, _, _, same => by
    subst same
    simp [hasException] at plain
  | .carried inside, term, _, same => by
    -- Whatever is expanded within the expansion of `term` is asked for by the run inside.
    cases same
    exact .intro _ inside.accessible

/-- The walk of a run goes through exactly the states that its queue advances to. -/
theorem Walks.accessible {queue seen : List Expression}
    {r : Except ExpansionFault (List Expression)} :
    Walks equivalence queue seen r → ∀ term exception queue' seen',
      Advances equivalence queue seen (.withException term exception :: queue') seen' →
      Acc equivalence.Within term
  | .done, _, _, _, _, advances => nomatch advances
  | .fault head, term, exception, _, _, advances => by
    obtain same | ⟨_, head', -⟩ := advances.cases
    · exact head.accessible term exception same.symm
    · cases head.unique head'
  | .visit head rest, term, exception, _, _, advances => by
    obtain same | ⟨_, head', rest'⟩ := advances.cases
    · exact head.accessible term exception same.symm
    · -- Look-ups are determined, so both go on with the same queue.
      have same := Except.ok.inj (head.unique head')
      rw [← same] at rest'
      exact rest.accessible _ _ _ _ rest'

theorem Expands.accessible {e : Expression} {r : Except ExpansionFault Expression} :
    Expands equivalence e r → ∀ term, Asks equivalence e term → Acc equivalence.Within term
  | .fault start, term, asks => by
    obtain ⟨exception, same⟩ | ⟨_, _, _, _, first, -⟩ := asks.cases
    · exact start.accessible term exception same
    · cases start.unique first
  | .itself start, term, asks => by
    obtain ⟨exception, same⟩ | ⟨_, _, _, _, first, advances⟩ := asks.cases
    · exact start.accessible term exception same
    · have same := Except.ok.inj (start.unique first)
      rw [← same] at advances
      nomatch advances
  | .walk start _ rest, term, asks => by
    obtain ⟨exception, same⟩ | ⟨_, _, _, _, first, advances⟩ := asks.cases
    · exact start.accessible term exception same
    · have same := Except.ok.inj (start.unique first)
      rw [← same] at advances
      exact rest.accessible _ _ _ _ advances

end

/-- An expansion that ends meets no license again inside its own expansion. -/
theorem not_endless_of_expands {e : Expression} {r : Except ExpansionFault Expression}
    (run : Expands equivalence e r) : ¬ Endless equivalence e := by
  rintro ⟨asked, term, asks, inside, cycle⟩
  exact not_cycle_of_acc (run.accessible asked asks) ⟨term, inside, cycle⟩

end Licensing.Equivalence
