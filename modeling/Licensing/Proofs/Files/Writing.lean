import Licensing.Files.Basic
import Licensing.Proofs.Lookup
import Licensing.Proofs.Text.Raw

/-! # Written files

What can be read after a file was written: its new text, and every other file as before.  A text that cannot be
encoded leaves an empty file behind, and a file that cannot be opened leaves everything as it was (`write_cases`).

* `Sets` — what becomes of the files when one of them gets a text.
-/

namespace Licensing.Files

variable {files files' : Files} {path other : Path} {text content : String}

theorem lookup_put (place : Path) (text : String) (texts : List (Path × String)) (q : Path) :
    (put place text texts).lookup q = if q = place then some text else texts.lookup q := by
  induction texts with
  | nil => simp [put, lookup_cons_eq_if]
  | cons entry rest ih =>
    obtain ⟨p, old⟩ := entry
    by_cases here : p = place
    · subst here
      by_cases same : q = p <;> simp [put, lookup_cons_eq_if, same]
    · by_cases same : q = p
      · subst same
        simp [put, here]
      · simp [put, lookup_cons_eq_if, here, same, ih]

/-! ## Reading -/

theorem kindAt?_eq_file_iff {place : Path} :
    files.kindAt? place = some (.file content) ↔ files.texts.lookup place = some content := by
  unfold kindAt?
  split
  next text found => simp [found]
  next none =>
    rw [none]
    split <;> simp

theorem read_eq_ok_iff : files.read path = .ok content ↔
    files.barrier? path = none ∧ files.texts.lookup (files.locate path) = some content := by
  rw [← kindAt?_eq_file_iff]
  unfold read kindOf?
  cases files.barrier? path with
  | some fault => simp
  | none => split <;> simp_all

theorem isFile_iff : files.isFile path = true ↔ ∃ content, files.read path = .ok content := by
  unfold isFile read
  cases files.kindOf? path with
  | none => simp
  | some kind => cases kind <;> simp

theorem read_congr (same : files.locate other = files.locate path) (free : files.barrier? other = none)
    (read : files.read path = .ok content) : files.read other = .ok content := by
  rw [read_eq_ok_iff] at read ⊢
  exact ⟨free, same ▸ read.2⟩

theorem exists?_of_read (read : files.read path = .ok content) : files.exists? path = true := by
  obtain ⟨free, found⟩ := read_eq_ok_iff.mp read
  simp [exists?, kindOf?, kindAt?, free, found]

theorem lookFor_of_isFile (there : files.isFile path = true) : files.lookFor path = .ok true := by
  obtain ⟨content, read⟩ := isFile_iff.mp there
  simp [lookFor, read]

theorem isFile_of_lookFor (absent : files.lookFor path = .ok false) : files.isFile path = false :=
  Bool.eq_false_iff.mpr fun there => by cases absent.symm.trans (lookFor_of_isFile there)

/-! ## Writing -/

/-- A file has got a text, and everything else is as it was. -/
structure Sets (files : Files) (path : Path) (text : String) (files' : Files) : Prop where
  free : files.barrier? path = none
  here : files'.workingDirectory = files.workingDirectory
  refused : files'.refused = files.refused
  texts : ∀ place, files'.texts.lookup place =
    if place = files.locate path then some text else files.texts.lookup place

namespace Sets

theorem locate (sets : Sets files path text files') (other : Path) : files'.locate other = files.locate other := by
  rw [Files.locate, sets.here, Files.locate]

theorem barrier? (sets : Sets files path text files') (other : Path) :
    files'.barrier? other = files.barrier? other := by
  rw [Files.barrier?, sets.locate, sets.refused, Files.barrier?]

theorem read (sets : Sets files path text files') : files'.read path = .ok text := by
  rw [read_eq_ok_iff, sets.locate, sets.texts, if_pos rfl, sets.barrier?]
  exact ⟨sets.free, rfl⟩

theorem read_other (sets : Sets files path text files') (elsewhere : files.locate other ≠ files.locate path) :
    files'.read other = .ok content ↔ files.read other = .ok content := by
  rw [read_eq_ok_iff, sets.locate, sets.texts, if_neg elsewhere, sets.barrier?, read_eq_ok_iff]

theorem isFile (sets : Sets files path text files') (there : files.isFile other = true) :
    files'.isFile other = true := by
  rw [isFile_iff] at there ⊢
  obtain ⟨content, found⟩ := there
  by_cases same : files.locate other = files.locate path
  · have same' : files'.locate other = files'.locate path := by rw [sets.locate, same, sets.locate]
    have free : files'.barrier? other = none := by rw [sets.barrier?, (read_eq_ok_iff.mp found).1]
    exact ⟨text, read_congr same' free sets.read⟩
  · exact ⟨content, (sets.read_other same).mpr found⟩

end Sets

theorem sets_of_clear (cleared : files.clear path = .ok files') : Sets files path "" files' := by
  have opened : files.barrier? path = none ∧
      files' = { files with texts := put (files.locate path) "" files.texts } := by
    unfold clear kindOf? at cleared
    cases barrier : files.barrier? path with
    | some fault => simp [barrier] at cleared
    | none =>
      refine ⟨rfl, ?_⟩
      dsimp only at cleared
      split at cleared
      next => cases cleared
      next => exact (Except.ok.inj cleared).symm
      next =>
        split at cleared
        next => cases cleared
        next =>
          split at cleared
          next => exact (Except.ok.inj cleared).symm
          next => cases cleared
  obtain ⟨free, rfl⟩ := opened
  exact ⟨free, rfl, rfl, fun place => lookup_put _ _ _ _⟩

/-- What has become of the files, by how far writing got. -/
theorem write_cases (files : Files) (path : Path) (raw : RawText) :
    (∃ text, (files.write path raw).1 = .ok () ∧ raw.text? = some text ∧
        Sets files path text (files.write path raw).2) ∨
      (∃ fault, (files.write path raw).1 = .error (.file fault) ∧ (files.write path raw).2 = files) ∨
      (∃ fault, (files.write path raw).1 = .error (.encoding fault) ∧ raw.text? = none ∧
        Sets files path "" (files.write path raw).2) := by
  -- The file is opened before the text is encoded: only the first of the two can fail without a trace.
  cases opened : files.clear path with
  | error fault => exact .inr (.inl ⟨fault, by simp [write, opened], by simp [write, opened]⟩)
  | ok cleared =>
    have empty := sets_of_clear opened
    cases encoded : raw.encode with
    | error fault =>
      refine .inr (.inr ⟨fault, by simp [write, opened, encoded],
        RawText.exists_encode_eq_error_iff.mp ⟨fault, encoded⟩, ?_⟩)
      simpa [write, opened, encoded] using empty
    | ok text =>
      refine .inl ⟨text, by simp [write, opened, encoded], RawText.encode_eq_ok_iff.mp encoded, empty.free, ?_, ?_,
        fun place => ?_⟩
      · simpa [write, opened, encoded] using empty.here
      · simpa [write, opened, encoded] using empty.refused
      · simp only [write, opened, encoded, lookup_put, empty.texts]
        split <;> rfl

end Licensing.Files
