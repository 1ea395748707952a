/-! # Computations that may fail

Inversion lemmas for `Except`: where a computation that is put together from parts has succeeded,
the parts have.  `foldlM_invariant` carries a property through a loop, and `run_bind_eq_iff` takes
apart computations that have a state besides.
-/

namespace Licensing.Outcome

variable {ε α β : Type}

theorem map_eq_ok {f : α → β} {x : Except ε α} {b : β} :
    x.map f = .ok b ↔ ∃ a, x = .ok a ∧ f a = b := by
  cases x with
  | error fault => simp [Except.map]
  | ok a => simp [Except.map]

theorem map_eq_error {f : α → β} {x : Except ε α} {fault : ε} :
    x.map f = .error fault ↔ x = .error fault := by
  cases x with
  | error other => simp [Except.map]
  | ok a => simp [Except.map]

theorem bind_eq_ok {f : α → Except ε β} {x : Except ε α} {b : β} :
    x.bind f = .ok b ↔ ∃ a, x = .ok a ∧ f a = .ok b := by
  cases x with
  | error fault => simp [Except.bind]
  | ok a => simp [Except.bind]

theorem bind_eq_error {f : α → Except ε β} {x : Except ε α} {fault : ε} :
    x.bind f = .error fault ↔ x = .error fault ∨ ∃ a, x = .ok a ∧ f a = .error fault := by
  cases x with
  | error other => simp [Except.bind]
  | ok a => simp [Except.bind]

theorem mapError_eq_ok {δ : Type} {f : ε → δ} {x : Except ε α} {a : α} :
    x.mapError f = .ok a ↔ x = .ok a := by
  cases x with
  | error fault =>
    show Except.error (f fault) = .ok a ↔ _
    simp
  | ok b =>
    show Except.ok b = .ok a ↔ _
    simp

theorem mapError_map {δ : Type} (g : ε → δ) (f : α → β) (x : Except ε α) :
    (x.map f).mapError g = (x.mapError g).map f := by
  cases x <;> rfl

theorem mapError_bind {δ : Type} (g : ε → δ) (x : Except ε α) (f : α → Except ε β) :
    (x >>= f).mapError g = x.mapError g >>= fun a => (f a).mapError g := by
  cases x <;> rfl

theorem mapError_inj {δ : Type} {f : ε → δ} (injective : ∀ a b, f a = f b → a = b)
    {x y : Except ε α} : x.mapError f = y.mapError f ↔ x = y := by
  constructor
  · intro same
    cases x with
    | error fault =>
      cases y with
      | error other => exact congrArg Except.error (injective _ _ (Except.error.inj same))
      | ok _ => cases same
    | ok a =>
      cases y with
      | error _ => cases same
      | ok _ =>
        cases same
        rfl
  · rintro rfl
    rfl

theorem toOption_eq_some {x : Except ε α} {a : α} : x.toOption = some a ↔ x = .ok a := by
  cases x with
  | error fault => simp [Except.toOption]
  | ok a => simp [Except.toOption]

/-! ## Loops -/

theorem mapM_cons (f : α → Except ε β) (x : α) (xs : List α) :
    (x :: xs).mapM f = (f x).bind fun y => (xs.mapM f).map (y :: ·) := by
  rw [List.mapM_cons]
  cases f x with
  | error fault => rfl
  | ok y =>
    cases xs.mapM f with
    | error fault => rfl
    | ok ys => rfl

/-- A loop that fails has failed at one of its steps. -/
theorem exists_of_mapM_eq_error {f : α → Except ε β} {xs : List α} {fault : ε}
    (failed : xs.mapM f = .error fault) : ∃ x ∈ xs, f x = .error fault := by
  induction xs with
  | nil => cases failed
  | cons x xs ih =>
    rw [mapM_cons] at failed
    cases first : f x with
    | error other =>
      simp only [first, Except.bind, Except.error.injEq] at failed
      exact ⟨x, by simp, by rw [first, failed]⟩
    | ok y =>
      cases rest : xs.mapM f with
      | error other =>
        simp only [first, rest, Except.bind, Except.map, Except.error.injEq] at failed
        obtain ⟨z, member, found⟩ := ih (by rw [rest, failed])
        exact ⟨z, .tail _ member, found⟩
      | ok ys => simp [first, rest, Except.bind, Except.map] at failed

/-- Every result of a loop comes from one of its steps. -/
theorem exists_of_mem_mapM {f : α → Except ε β} {xs : List α} {ys : List β}
    (ran : xs.mapM f = .ok ys) {y : β} (member : y ∈ ys) : ∃ x ∈ xs, f x = .ok y := by
  induction xs generalizing ys with
  | nil =>
    cases ran
    cases member
  | cons x xs ih =>
    rw [mapM_cons] at ran
    obtain ⟨head, first, later⟩ := bind_eq_ok.mp ran
    obtain ⟨tail, rest, rfl⟩ := map_eq_ok.mp later
    cases List.mem_cons.mp member with
    | inl same => exact ⟨x, by simp, same ▸ first⟩
    | inr behind =>
      obtain ⟨z, inRest, found⟩ := ih rest behind
      exact ⟨z, .tail _ inRest, found⟩

/-- Every step of a loop that succeeds has left its result. -/
theorem exists_mem_of_mapM {f : α → Except ε β} {xs : List α} {ys : List β}
    (ran : xs.mapM f = .ok ys) {x : α} (member : x ∈ xs) : ∃ y ∈ ys, f x = .ok y := by
  induction xs generalizing ys with
  | nil => cases member
  | cons z xs ih =>
    rw [mapM_cons] at ran
    obtain ⟨head, first, later⟩ := bind_eq_ok.mp ran
    obtain ⟨tail, rest, rfl⟩ := map_eq_ok.mp later
    cases List.mem_cons.mp member with
    | inl same => exact ⟨head, by simp, same ▸ first⟩
    | inr behind =>
      obtain ⟨y, inTail, found⟩ := ih rest behind
      exact ⟨y, .tail _ inTail, found⟩

theorem exists_mapM_iff {f : α → Except ε β} {xs : List α} :
    (∃ ys, xs.mapM f = .ok ys) ↔ ∀ x ∈ xs, ∃ y, f x = .ok y := by
  constructor
  · rintro ⟨ys, ran⟩ x member
    obtain ⟨y, -, found⟩ := exists_mem_of_mapM ran member
    exact ⟨y, found⟩
  · intro all
    cases ran : xs.mapM f with
    | ok ys => exact ⟨ys, rfl⟩
    | error fault =>
      obtain ⟨x, member, failed⟩ := exists_of_mapM_eq_error ran
      obtain ⟨y, found⟩ := all x member
      cases failed.symm.trans found

/-- A loop whose steps succeed maps. -/
theorem mapM_eq_map {f : α → Except ε β} {g : α → β} {xs : List α}
    (all : ∀ x ∈ xs, f x = .ok (g x)) : xs.mapM f = .ok (xs.map g) := by
  induction xs with
  | nil => rfl
  | cons x xs ih =>
    obtain ⟨first, others⟩ := List.forall_mem_cons.mp all
    rw [mapM_cons, first, ih others]
    rfl

/-- What holds at the start of a loop and is kept by every step holds at its end. -/
theorem foldlM_invariant {P : β → Prop} {step : β → α → Except ε β} {xs : List α} {b c : β}
    (start : P b) (kept : ∀ b, P b → ∀ x ∈ xs, ∀ c, step b x = .ok c → P c)
    (ran : xs.foldlM step b = .ok c) : P c := by
  induction xs generalizing b with
  | nil =>
    cases ran
    exact start
  | cons x xs ih =>
    obtain ⟨next, first, rest⟩ := bind_eq_ok.mp ran
    refine ih (kept b start x (by simp) next first) ?_ rest
    exact fun b holds y member => kept b holds y (.tail _ member)

/-- A loop that fails has succeeded up to the step that fails. -/
theorem exists_of_foldlM_eq_error {step : β → α → Except ε β} {xs : List α} {b : β} {fault : ε}
    (failed : xs.foldlM step b = .error fault) :
    ∃ before x behind c, xs = before ++ x :: behind ∧ before.foldlM step b = .ok c ∧
      step c x = .error fault := by
  induction xs generalizing b with
  | nil => cases failed
  | cons x xs ih =>
    obtain first | ⟨next, first, rest⟩ := bind_eq_error.mp failed
    · exact ⟨[], x, xs, b, rfl, rfl, first⟩
    · obtain ⟨before, y, behind, c, rfl, ran, last⟩ := ih rest
      exact ⟨x :: before, y, behind, c, rfl, bind_eq_ok.mpr ⟨next, first, ran⟩, last⟩

/-- A loop whose steps succeed in the same way for another step function. -/
theorem foldlM_congr {step step' : β → α → Except ε β} {xs : List α} {b c : β}
    (same : ∀ x ∈ xs, ∀ b c, step b x = .ok c → step' b x = .ok c) (ran : xs.foldlM step b = .ok c) :
    xs.foldlM step' b = .ok c := by
  induction xs generalizing b with
  | nil => exact ran
  | cons x xs ih =>
    obtain ⟨next, first, rest⟩ := bind_eq_ok.mp ran
    refine bind_eq_ok.mpr ⟨next, same x (by simp) b next first, ih ?_ rest⟩
    exact fun y member => same y (.tail _ member)

/-! ## Computations with a state -/

section State

variable {σ : Type} {first : ExceptT ε (StateM σ) α} {next : α → ExceptT ε (StateM σ) β} {before after : σ}

/-- A sequence ends where its first part fails, or else as its second part does. -/
theorem run_bind_eq_iff {result : Except ε β} : (first >>= next).run.run before = (result, after) ↔
    (∃ fault, result = .error fault ∧ first.run.run before = (.error fault, after)) ∨
      ∃ a between, first.run.run before = (.ok a, between) ∧ (next a).run.run between = (result, after) := by
  unfold ExceptT.run StateT.run
  simp only [bind, ExceptT.bind, ExceptT.mk, StateT.bind, ExceptT.bindCont]
  cases first before with
  | mk outcome between =>
    cases outcome with
    | error fault =>
      constructor
      · rintro ⟨⟩
        exact .inl ⟨fault, rfl, rfl⟩
      · rintro (⟨_, rfl, ⟨⟩⟩ | ⟨_, _, ⟨⟩, _⟩)
        rfl
    | ok a =>
      constructor
      · exact fun ended => .inr ⟨a, between, rfl, ended⟩
      · rintro (⟨_, _, ⟨⟩⟩ | ⟨_, _, ⟨⟩, ended⟩)
        exact ended

theorem run_bind_eq_ok {b : β} : (first >>= next).run.run before = (.ok b, after) ↔
    ∃ a between, first.run.run before = (.ok a, between) ∧ (next a).run.run between = (.ok b, after) := by
  rw [run_bind_eq_iff]
  constructor
  · rintro (⟨_, ⟨⟩, _⟩ | ended)
    exact ended
  · exact .inr

end State

end Licensing.Outcome
