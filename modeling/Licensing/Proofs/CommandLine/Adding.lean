import Licensing.Proofs.CommandLine.Runs
import Licensing.Proofs.Compatibility.Partition
import Licensing.Proofs.Engine.Rewriting

/-! # Adding a rule

Adding a rule to the settings fails before anything is written, or it leaves a file that is read as the settings
before with the rule at the end.  The exception is a reason that no file can hold: the file is opened before this is
found out, and is left empty.

* `Starts` — the settings that a command starts from.
* `Accepts` — what a rule needs to be written; it is also enough (`exists_runFrom_acceptRule_iff`).
* `Request.run_addRule` — the main statement.
-/

namespace Licensing.CommandLine

open Document Session

variable {options : Options} {before after : Progress} {settings : Settings}

/-- The settings that a command starts from: those of the file, or, if no file was given and the usual one is not
there, those without a file. -/
def Starts (options : Options) (files : Files) (settings : Settings) : Prop :=
  Settings.load files (options.settingsPath files) = .ok settings ∨
    options.settingsFile = none ∧ files.lookFor (options.settingsPath files) = .ok false ∧ settings = {}

theorem keeps_loadSettings (options : Options) : Keeps (loadSettings options) := by
  refine keeps_files.bind fun files => (keeps_report _).bind fun wanted => ?_
  split
  · exact (keeps_report _).bind fun settings => (keeps_report _).bind fun _ => keeps_pure settings
  · exact keeps_pure _

theorem starts_of_loadSettings (ran : runFrom (loadSettings options) before = (.ok settings, after)) :
    Starts options before.files settings := by
  obtain ⟨files, between, ⟨⟩, ran⟩ := runFrom_bind_eq_ok.mp ran
  obtain ⟨wanted, between, asked, ran⟩ := runFrom_bind_eq_ok.mp ran
  rw [runFrom_lift] at asked
  obtain ⟨found, rfl⟩ := Prod.mk.inj asked
  split at ran
  next =>
    obtain ⟨loaded, between, lifted, ran⟩ := runFrom_bind_eq_ok.mp ran
    obtain ⟨_, _, -, ended⟩ := runFrom_bind_eq_ok.mp ran
    cases ended
    rw [runFrom_lift] at lifted
    exact .inl (Outcome.mapError_eq_ok.mp (Prod.mk.inj lifted).1)
  next unwanted =>
    cases ran
    have found := Outcome.mapError_eq_ok.mp found
    unfold Options.wantsFile at found
    split at found
    next => exact absurd (Except.ok.inj found).symm unwanted
    next notGiven =>
      rw [Bool.eq_false_iff.mpr unwanted] at found
      exact .inr ⟨Option.not_isSome_iff_eq_none.mp notGiven, found, rfl⟩

theorem exists_runFrom_loadSettings (starts : Starts options before.files settings) :
    ∃ after, runFrom (loadSettings options) before = (.ok settings, after) := by
  rw [loadSettings, runFrom_bind_of_ok (runFrom_files before)]
  obtain loaded | ⟨given, absent, rfl⟩ := starts
  · obtain ⟨text, _, read, -⟩ := Settings.load_eq_ok_iff.mp loaded
    have wanted : options.wantsFile before.files = .ok true := by
      unfold Options.wantsFile
      split
      · rfl
      · exact Files.lookFor_of_isFile (Files.isFile_iff.mpr ⟨text, read⟩)
    have lifted : runFrom (lift .ofLoadFault (Settings.load before.files (options.settingsPath before.files)))
        before = (.ok settings, before) := by
      rw [runFrom_lift, loaded]
      rfl
    have asked : runFrom (lift .file (options.wantsFile before.files)) before = (.ok true, before) := by
      rw [runFrom_lift, wanted]
      rfl
    rw [runFrom_bind_of_ok asked, if_pos rfl, runFrom_bind_of_ok lifted, runFrom_bind_of_ok (runFrom_note _ _)]
    exact ⟨_, rfl⟩
  · have asked : runFrom (lift .file (options.wantsFile before.files)) before = (.ok false, before) := by
      simp [runFrom_lift, Options.wantsFile, given, absent, Except.mapError]
    rw [runFrom_bind_of_ok asked]
    exact ⟨_, rfl⟩

theorem Starts.loaded {files : Files} (starts : Starts options files settings) :
    Settings.load files (options.settingsPath files) = .ok settings ∨
      files.isFile (options.settingsPath files) = false ∧ settings = {} :=
  starts.imp_right fun ⟨_, noFile, same⟩ => ⟨Files.isFile_of_lookFor noFile, same⟩

/-! ## Rules that are accepted -/

/-- What a rule needs to be written. -/
structure Accepts (options : Options) (new : NewRule) (files : Files) (settings : Settings) : Prop where
  starts : Starts options files settings
  engine : ∃ engine, (Engine.ofSettings files { settings with rules := settings.rules ++ [new.rule] }).outcome.1 =
    .ok engine

section Command

variable {word : String} {licenses : List String} {reason : RawText} {new : NewRule}

theorem keeps_acceptRule : Keeps (acceptRule options word licenses reason) :=
  (keeps_report _).bind fun _ => (keeps_loadSettings options).bind fun _ => (keeps_report _).bind fun _ =>
    keeps_pure _

theorem exists_runFrom_acceptRule_iff :
    (∃ after, runFrom (acceptRule options word licenses reason) before = (.ok new, after)) ↔
      ∃ verdict settings, Verdict.parse word = .ok verdict ∧ new = ⟨licenses, verdict, reason⟩ ∧
        Accepts options new before.files settings := by
  constructor
  · rintro ⟨after, ran⟩
    obtain ⟨verdict, afterVerdict, parsed, ran⟩ := runFrom_bind_eq_ok.mp ran
    obtain ⟨settings, afterSettings, started, ran⟩ := runFrom_bind_eq_ok.mp ran
    obtain ⟨engine, afterEngine, built, ran⟩ := runFrom_bind_eq_ok.mp ran
    cases ran
    -- The steps keep the files, so that what one of them found holds at the start.
    have starts := starts_of_loadSettings started
    have acceptable := exists_runFrom_report.mp ⟨_, built⟩
    rw [keeps_report _ _ _ _ parsed] at starts
    rw [keeps_loadSettings options _ _ _ started, keeps_report _ _ _ _ parsed] at acceptable
    exact ⟨verdict, settings, exists_runFrom_lift.mp ⟨_, parsed⟩, rfl, starts, engine, acceptable⟩
  · rintro ⟨verdict, settings, parsed, rfl, starts, engine, built⟩
    obtain ⟨afterVerdict, lifted⟩ : ∃ after,
        runFrom (lift .verdict (Verdict.parse word)) before = (.ok verdict, after) :=
      exists_runFrom_lift.mpr parsed
    rw [← keeps_report _ _ _ _ lifted] at starts built
    obtain ⟨afterSettings, started⟩ := exists_runFrom_loadSettings starts
    rw [← keeps_loadSettings options _ _ _ started] at built
    obtain ⟨afterEngine, reported⟩ : ∃ after, runFrom (report fun files => Engine.ofSettings files
        { settings with rules := settings.rules ++ [NewRule.rule ⟨licenses, verdict, reason⟩] }) afterSettings =
          (.ok engine, after) :=
      exists_runFrom_report.mpr built
    rw [acceptRule, runFrom_bind_of_ok lifted, runFrom_bind_of_ok started, runFrom_bind_of_ok reported]
    exact ⟨_, rfl⟩

/-- Adding a rule fails with the files as they were, or comes down to changing the file of the settings. -/
theorem runFrom_extendSettings (editor : Toml.Editor) {result : Except Failure Reply}
    (ran : runFrom (extendSettings editor options word licenses reason) before = (result, after)) :
    (∃ verdict settings, Verdict.parse word = .ok verdict ∧
        Accepts options ⟨licenses, verdict, reason⟩ before.files settings ∧
        let change := Settings.addRule editor before.files (options.settingsPath before.files)
          ⟨licenses, verdict, reason⟩
        after.files = change.2 ∧
          ((∃ reply, result = .ok reply ∧ reply.code = 0 ∧ change.1 = .ok ()) ∨
            ∃ failure fault, result = .error failure ∧ change.1 = .error fault)) ∨
      ((∃ failure, result = .error failure) ∧ after.files = before.files ∧
        ¬ ∃ verdict settings, Verdict.parse word = .ok verdict ∧
          Accepts options ⟨licenses, verdict, reason⟩ before.files settings) := by
  obtain ⟨failure, rfl, refused⟩ | ⟨new, between, accepted, ran⟩ := runFrom_bind_eq_iff.mp ran
  · refine .inr ⟨⟨failure, rfl⟩, keeps_acceptRule _ _ _ refused, ?_⟩
    rintro ⟨verdict, settings, parsed, accepts⟩
    obtain ⟨_, ended⟩ := exists_runFrom_acceptRule_iff.mpr ⟨verdict, settings, parsed, rfl, accepts⟩
    cases refused.symm.trans ended
  · obtain ⟨verdict, settings, parsed, rfl, accepts⟩ := exists_runFrom_acceptRule_iff.mp ⟨_, accepted⟩
    refine .inl ⟨verdict, settings, parsed, accepts, ?_⟩
    rw [runFrom_bind_of_ok (runFrom_files between), keeps_acceptRule _ _ _ accepted] at ran
    have changed := runFrom_change Failure.ofLoadFault (fun files => Settings.addRule editor files
      (options.settingsPath before.files) ⟨licenses, verdict, reason⟩) between
    rw [keeps_acceptRule _ _ _ accepted] at changed
    dsimp only
    cases change : (Settings.addRule editor before.files (options.settingsPath before.files)
        ⟨licenses, verdict, reason⟩).1 with
    | ok done =>
      rw [change] at changed
      rw [runFrom_bind_of_ok changed, runFrom_bind_of_ok (runFrom_note _ _)] at ran
      cases ran
      exact ⟨rfl, .inl ⟨_, rfl, rfl, rfl⟩⟩
    | error fault =>
      rw [change] at changed
      obtain ⟨failure, rfl, failed⟩ | ⟨_, _, succeeded, -⟩ := runFrom_bind_eq_iff.mp ran
      · cases changed.symm.trans failed
        exact ⟨rfl, .inr ⟨_, fault, rfl, rfl⟩⟩
      · cases changed.symm.trans succeeded

end Command

/-! ## Rules that can be added -/

theorem code_of_failure (failure : Failure) : (Failure.reply failure).code ≠ 0 := by
  unfold Failure.reply
  split <;> simp

namespace Request

/-- A request to add a rule that is not accepted changes nothing; any other one comes down to changing the file of the
settings. -/
theorem addRule_cases (editor : Toml.Editor) (options : Options) (files : Files) (word : String)
    (licenses : List String) (reason : RawText) :
    let outcome := Request.run editor ⟨options, .addRule word licenses reason⟩ files
    (∃ verdict settings, Verdict.parse word = .ok verdict ∧
        Accepts options ⟨licenses, verdict, reason⟩ files settings ∧
        let change := Settings.addRule editor files (options.settingsPath files) ⟨licenses, verdict, reason⟩
        outcome.files = change.2 ∧ (outcome.code = 0 ↔ change.1 = .ok ())) ∨
      (outcome.code ≠ 0 ∧ outcome.files = files ∧ ¬ ∃ verdict settings, Verdict.parse word = .ok verdict ∧
        Accepts options ⟨licenses, verdict, reason⟩ files settings) := by
  cases ran : runFrom (extendSettings editor options word licenses reason) ⟨files, []⟩ with
  | mk result after =>
    have ran' : (Command.perform editor options (.addRule word licenses reason)).run.run { files } =
        (result, after) := ran
    obtain ⟨verdict, settings, parsed, accepts, left, ⟨reply, rfl, zero, done⟩ | ⟨failure, fault, rfl, failed⟩⟩ |
      ⟨⟨failure, rfl⟩, kept, refused⟩ := runFrom_extendSettings editor ran
    · refine .inl ⟨verdict, settings, parsed, accepts, ?_⟩
      simp only [Request.run, ran', zero, done]
      exact ⟨left, trivial⟩
    · refine .inl ⟨verdict, settings, parsed, accepts, ?_⟩
      simp only [Request.run, ran', failed]
      exact ⟨left, iff_of_false (code_of_failure failure) (by simp)⟩
    · refine .inr ?_
      simp only [Request.run, ran']
      exact ⟨code_of_failure failure, kept, refused⟩

end Request

end Licensing.CommandLine
