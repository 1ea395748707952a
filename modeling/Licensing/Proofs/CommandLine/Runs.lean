import Licensing.CommandLine.Session
import Licensing.Proofs.Outcome

/-! # Runs of sessions

A session starts from files and events and ends with an outcome and what has become of both.

* `Session.runFrom` — the run; one lemma for each way to put sessions together.
* `Session.Keeps` — the files stay as they are, whatever the outcome.  Only `Session.change` does not keep them, and
  what it leaves behind when it fails is up to the change.
-/

namespace Licensing.CommandLine.Session

variable {α β ε : Type}

/-- The outcome of a session, and the files and events then. -/
def runFrom (session : Session α) (before : Progress) : Except Failure α × Progress :=
  (ExceptT.run session).run before

section Steps

variable {before after : Progress}

theorem runFrom_bind_eq_iff {first : Session α} {next : α → Session β} {result : Except Failure β} :
    runFrom (first >>= next) before = (result, after) ↔
      (∃ failure, result = .error failure ∧ runFrom first before = (.error failure, after)) ∨
        ∃ a between, runFrom first before = (.ok a, between) ∧ runFrom (next a) between = (result, after) :=
  Outcome.run_bind_eq_iff

theorem runFrom_bind_eq_ok {first : Session α} {next : α → Session β} {b : β} :
    runFrom (first >>= next) before = (.ok b, after) ↔
      ∃ a between, runFrom first before = (.ok a, between) ∧ runFrom (next a) between = (.ok b, after) :=
  Outcome.run_bind_eq_ok

theorem runFrom_bind_of_ok {first : Session α} {a : α} {between : Progress}
    (ended : runFrom first before = (.ok a, between)) (next : α → Session β) :
    runFrom (first >>= next) before = runFrom (next a) between :=
  runFrom_bind_eq_iff.mpr (.inr ⟨a, between, ended, rfl⟩)

theorem runFrom_report (work : Files → Reporting α) (before : Progress) :
    runFrom (report work) before = ((work before.files).outcome.1,
      { before with events := before.events ++ (work before.files).outcome.2 }) := by
  have started : runFrom get before = (.ok before, before) := rfl
  rw [report, runFrom_bind_of_ok started]
  dsimp only
  cases (work before.files).outcome with
  | mk result events =>
    cases result with
    | ok a => rfl
    | error failure => rfl

theorem runFrom_lift (wrap : ε → Failure) (result : Except ε α) (before : Progress) :
    runFrom (lift wrap result) before = (result.mapError wrap, before) := by
  have noted : (Reporting.lift wrap result).outcome = (result.mapError wrap, []) := by
    cases result <;> rfl
  rw [lift, runFrom_report, noted, List.append_nil]

theorem runFrom_files (before : Progress) : runFrom files before = (.ok before.files, before) :=
  rfl

theorem runFrom_note (event : Event) (before : Progress) :
    runFrom (note event) before = (.ok (), { before with events := before.events ++ [event] }) :=
  runFrom_report _ _

theorem runFrom_change (wrap : ε → Failure) (edit : Files → Except ε Unit × Files) (before : Progress) :
    runFrom (change wrap edit) before =
      ((edit before.files).1.mapError wrap, { before with files := (edit before.files).2 }) := by
  have stored (progress : Progress) : runFrom (modify fun _ => progress) before = (.ok (), progress) := rfl
  rw [change, runFrom_bind_of_ok (runFrom_files before)]
  exact (runFrom_bind_of_ok (stored _) _).trans (runFrom_lift _ _ _)

/-! When a step succeeds, whatever it notes. -/

theorem exists_runFrom_report {work : Files → Reporting α} {a : α} :
    (∃ after, runFrom (report work) before = (.ok a, after)) ↔ (work before.files).outcome.1 = .ok a := by
  simp [runFrom_report]

theorem exists_runFrom_lift {wrap : ε → Failure} {result : Except ε α} {a : α} :
    (∃ after, runFrom (lift wrap result) before = (.ok a, after)) ↔ result = .ok a := by
  simp [runFrom_lift, Outcome.mapError_eq_ok]

end Steps

/-! ## Files that stay -/

/-- The files stay as they are. -/
def Keeps (session : Session α) : Prop :=
  ∀ before result after, runFrom session before = (result, after) → after.files = before.files

section Rules

variable {first : Session α} {next : α → Session β}

theorem keeps_report (work : Files → Reporting α) : Keeps (report work) := by
  intro before result after ran
  rw [runFrom_report] at ran
  cases ran
  rfl

theorem keeps_files : Keeps files := by
  rintro before result after ⟨⟩
  rfl

theorem keeps_pure (a : α) : Keeps (pure a) := by
  rintro before result after ⟨⟩
  rfl

theorem Keeps.bind (keeps : Keeps first) (later : ∀ a, Keeps (next a)) : Keeps (first >>= next) := by
  intro before result after ran
  obtain ⟨_, rfl, failed⟩ | ⟨a, between, ended, ran⟩ := runFrom_bind_eq_iff.mp ran
  · exact keeps _ _ _ failed
  · exact (later a _ _ _ ran).trans (keeps _ _ _ ended)

end Rules

end Licensing.CommandLine.Session
