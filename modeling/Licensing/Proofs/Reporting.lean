import Licensing.Proofs.Outcome
import Licensing.Reporting

/-! # Runs of reporting computations

A reporting computation starts from the events noted so far and ends with an outcome and all events.  A
sequence succeeds exactly if its parts do, one after the other (`runFrom_bind_eq_ok`).
-/

namespace Licensing.Reporting

variable {α β ε : Type} {before behind : List Event}

/-- The outcome of a computation after some events, and all events then. -/
def runFrom (computation : Reporting α) (before : List Event) : Except Failure α × List Event :=
  (ExceptT.run computation).run before

theorem outcome_eq_ok {computation : Reporting α} {a : α} :
    computation.outcome.1 = .ok a ↔ ∃ behind, runFrom computation [] = (.ok a, behind) := by
  show (runFrom computation []).1 = .ok a ↔ _
  constructor
  · intro ended
    exact ⟨(runFrom computation []).2, Prod.ext ended rfl⟩
  · rintro ⟨behind, same⟩
    rw [same]

theorem runFrom_bind_eq_ok {first : Reporting α} {next : α → Reporting β} {b : β} :
    runFrom (first >>= next) before = (.ok b, behind) ↔
      ∃ a between, runFrom first before = (.ok a, between) ∧
        runFrom (next a) between = (.ok b, behind) :=
  Outcome.run_bind_eq_ok

theorem runFrom_pure_eq_ok {a b : α} :
    runFrom (pure a) before = (.ok b, behind) ↔ a = b ∧ before = behind := by
  show (Except.ok a, before) = (.ok b, behind) ↔ _
  simp

theorem runFrom_lift_eq_ok {wrap : ε → Failure} {result : Except ε α} {a : α} :
    runFrom (lift wrap result) before = (.ok a, behind) ↔ result = .ok a ∧ before = behind := by
  cases result with
  | error fault =>
    show (Except.error (wrap fault), before) = (.ok a, behind) ↔ _
    simp
  | ok value =>
    show (Except.ok value, before) = (.ok a, behind) ↔ _
    simp

theorem runFrom_note_eq_ok {event : Event} {u : Unit} :
    runFrom (note event) before = (.ok u, behind) ↔ before ++ [event] = behind := by
  show (Except.ok (), before ++ [event]) = (.ok u, behind) ↔ _
  simp

theorem runFrom_noteAll_eq_ok {events : List Event} {u : Unit} :
    runFrom (noteAll events) before = (.ok u, behind) ↔ before ++ events = behind := by
  show (Except.ok (), before ++ events) = (.ok u, behind) ↔ _
  simp

end Licensing.Reporting
