import Licensing.Normalization.Guess
import Licensing.Proofs.Grammar.RoundTrip
import Licensing.Proofs.Normalization.Structural

/-! # What guessing resolves

A guesser takes every license that it finds from its registry, if its guesses do (`Guesser.Registered`).  So a
resolved leaf names a listed license, and a leaf that stays is one that would stay again.

* `Guesser.Replaces` — what becomes of a term.
* `Guesser.settled_of_normalize` — nothing is left that stands for anything.
* `Guesser.printable_of_normalize` — what can be printed stays so.
-/

namespace Licensing

/-- A listed license is what its identifier designates, if that is a name. -/
theorem Registry.knowsLicense_of_listed {registry : Registry} {entry : Listed}
    (listed : entry ∈ registry.licenses) (name : IsName entry.id) :
    registry.KnowsLicense (.standard entry.id) where
  name := name
  reads := by
    have known : (registry.findLicense? entry.id).isSome = true := by
      simpa [findLicense?, Listed.find?] using ⟨entry, listed, rfl⟩
    obtain ⟨other, found⟩ := Option.isSome_iff_exists.mp known
    have same : other.id = entry.id := by simpa using List.find?_some found
    show (registry.readLicense entry.id).named = _
    rw [readLicense, found, Designation.named, same]

theorem Similarity.upTo_prefix {α : Type} (limit : Int) (xs : List α) : upTo limit xs <+: xs := by
  unfold upTo
  split
  · exact List.take_prefix _ _
  · exact List.take_prefix _ _

namespace Guesser

variable {R : Type} {guesser : Guesser R}

/-- The guesses are licenses of the registry. -/
def Registered (guesser : Guesser R) : Prop :=
  ∀ title, ∀ guess ∈ guesser.rank title, guess.1 ∈ guesser.registry.licenses

theorem registered_ofModel (registry : Registry) (model : Similarity.Model String Float) (threshold : Float)
    (limit : Int) : (ofModel registry model threshold limit).Registered := by
  intro title guess member
  obtain ⟨⟨id, score⟩, -, found⟩ := List.mem_filterMap.mp member
  obtain ⟨entry, listed, rfl⟩ := Option.map_eq_some_iff.mp found
  exact List.mem_of_find?_eq_some listed

/-! ## Findings -/

theorem mem_licenses_of_known? {registry : Registry} {title : String} {finding : Finding R} {entry : Listed}
    (known : known? registry title = some finding) (found : finding.found? = some entry) :
    entry ∈ registry.licenses := by
  unfold known? at known
  dsimp only at known
  split at known
  next publicDomain domain =>
    cases known
    obtain rfl := Option.some.inj found
    split at domain
    next => exact List.mem_of_find?_eq_some domain
    next => cases domain
  next =>
    obtain ⟨identified, listed, rfl⟩ := Option.map_eq_some_iff.mp known
    obtain rfl := Option.some.inj found
    exact List.mem_of_find?_eq_some listed

variable [Similarity.Scalar R]

@[simp] theorem rules_license (guesser : Guesser R) (text : FreeText) :
    guesser.rules.license text = guesser.license? text := by
  rw [rules]

@[simp] theorem rules_exception (guesser : Guesser R) : guesser.rules.exception = id := by
  rw [rules]

theorem mem_guesses_of_guessed {uris : List String} {guesses : List (Listed × R)} {entry : Listed}
    (found : (guesser.guessed uris guesses).found? = some entry) : ∃ score, (entry, score) ∈ guesses := by
  unfold guessed at found
  split at found
  next finding byUri =>
    obtain ⟨⟨fitting, score⟩, first, rfl⟩ := Option.map_eq_some_iff.mp byUri
    obtain rfl := Option.some.inj found
    exact ⟨score, (Similarity.upTo_prefix _ _).subset (List.mem_of_find?_eq_some first)⟩
  next => cases found
  next best score others _ =>
    split at found
    next =>
      obtain rfl := Option.some.inj found
      exact ⟨score, List.mem_cons_self⟩
    next => cases found

/-- What a term becomes: its license stays if it stands for nothing, and is a listed one otherwise. -/
structure Replaces (guesser : Guesser R) (term found : SimpleTerm) : Prop where
  unresolved : ∀ text, found.freeText? = some text → guesser.license? text = none
  origin : found = term ∨ ∃ entry ∈ guesser.registry.licenses, found.license = .standard entry.id

variable (registered : guesser.Registered)

include registered

theorem exists_of_license? {text : FreeText} {e : Expression} (resolved : guesser.license? text = some e) :
    ∃ entry ∈ guesser.registry.licenses, e = .just (.standard entry.id) := by
  obtain ⟨entry, found, rfl⟩ := Option.map_eq_some_iff.mp resolved
  refine ⟨entry, ?_, rfl⟩
  unfold resolve at found
  dsimp only at found
  split at found
  next finding known => exact mem_licenses_of_known? known found
  next =>
    obtain ⟨score, member⟩ := mem_guesses_of_guessed found
    exact registered _ _ member

/-! ## Leaves -/

theorem exists_normalize_term (term : SimpleTerm) :
    ∃ found, term.normalize guesser.rules false = .ok (.simple found) ∧ guesser.Replaces term found := by
  unfold SimpleTerm.normalize
  split
  next id standard => exact ⟨term, rfl, by simp [SimpleTerm.freeText?, standard], .inl rfl⟩
  next text free =>
    cases resolved : guesser.license? text with
    | none =>
      exact ⟨term, by simp [resolved], by simp [SimpleTerm.freeText?, free, resolved], .inl rfl⟩
    | some e =>
      obtain ⟨entry, listed, rfl⟩ := exists_of_license? registered resolved
      -- The new license is a listed one, so no free text is left in the term.
      have license : (term.withLicense (.standard entry.id)).license = .standard entry.id := by
        cases term <;> rfl
      refine ⟨term.withLicense (.standard entry.id), by simp [resolved, SimpleTerm.license], ?_,
        .inr ⟨entry, listed, license⟩⟩
      simp [SimpleTerm.freeText?, license]

variable {e r : Expression}

/-- What a guesser makes of an expression that is no compound one. -/
theorem normalize_cases (single : ∀ connective es, e ≠ .compound connective es)
    (normalized : e.normalize guesser.rules false = .ok r) :
    (∃ name, e = .sentinel name ∧ r = .sentinel name) ∨
    (∃ term found, e = .simple term ∧ r = .simple found ∧ guesser.Replaces term found) ∨
    ∃ term found exception, e = .withException term exception ∧ r = .withException found exception ∧
      guesser.Replaces term found := by
  match e with
  | .compound connective es => exact absurd rfl (single connective es)
  | .sentinel name =>
    rw [Expression.normalize] at normalized
    cases normalized
    exact .inl ⟨name, rfl, rfl⟩
  | .simple term =>
    obtain ⟨found, same, replaces⟩ := exists_normalize_term registered term
    rw [Expression.normalize, same] at normalized
    cases normalized
    exact .inr (.inl ⟨term, found, rfl, rfl, replaces⟩)
  | .withException term exception =>
    obtain ⟨found, same, replaces⟩ := exists_normalize_term registered term
    rw [Expression.normalize, same] at normalized
    cases normalized
    exact .inr (.inr ⟨term, found, exception, rfl, rfl, replaces⟩)

/-! ## Expressions -/

/-- Nothing that is left would be resolved. -/
theorem settled_of_normalize (canonical : e.Canonical)
    (normalized : e.normalize guesser.rules false = .ok r) : r.Canonical ∧ r.Settled guesser.rules := by
  have leaf (d r : Expression) (single : ∀ connective es, d ≠ .compound connective es) (_ : True)
      (normalized : d.normalize guesser.rules false = .ok r) :
      r.Canonical ∧ r.Settled guesser.rules := by
    obtain ⟨name, rfl, rfl⟩ | ⟨term, found, rfl, rfl, replaces⟩ |
      ⟨term, found, exception, rfl, rfl, replaces⟩ := normalize_cases registered single normalized
    · simp [Expression.Canonical, Expression.Settled, Expression.freeTexts]
    · simpa [Expression.Canonical, Expression.Settled, Expression.freeTexts] using replaces.unresolved
    · simpa [Expression.Canonical, Expression.Settled, Expression.freeTexts] using replaces.unresolved
  exact Expression.holds_of_normalize Expression.ofOperands_settled (Q := fun _ => True)
    (fun _ _ => by simp) leaf canonical trivial normalized

theorem normalize_of_normalize (canonical : e.Canonical)
    (normalized : e.normalize guesser.rules false = .ok r) : r.normalize guesser.rules false = .ok r := by
  obtain ⟨canonical', settled⟩ := settled_of_normalize registered canonical normalized
  exact Expression.normalize_eq_self (rules_exception guesser) canonical' settled

variable (names : ∀ entry ∈ guesser.registry.licenses, IsName entry.id)

include names

omit registered in
theorem knowsLicense_of_replaces {term found : SimpleTerm} (replaces : guesser.Replaces term found)
    (knows : guesser.registry.KnowsLicense term.license) :
    guesser.registry.KnowsLicense found.license := by
  obtain rfl | ⟨entry, listed, license⟩ := replaces.origin
  · exact knows
  · rw [license]
    exact Registry.knowsLicense_of_listed listed (names entry listed)

/-- Where the registry lists names, a printable expression has a printable normal form. -/
theorem printable_of_normalize (printable : e.Printable guesser.registry)
    (normalized : e.normalize guesser.rules false = .ok r) : r.Printable guesser.registry := by
  have leaf (d r : Expression) (single : ∀ connective es, d ≠ .compound connective es)
      (legible : d.Legible guesser.registry) (normalized : d.normalize guesser.rules false = .ok r) :
      r.Canonical ∧ r.Legible guesser.registry := by
    obtain ⟨name, rfl, rfl⟩ | ⟨term, found, rfl, rfl, replaces⟩ |
      ⟨term, found, exception, rfl, rfl, replaces⟩ := normalize_cases registered single normalized
    · exact ⟨by simp [Expression.Canonical], legible⟩
    · simp only [Expression.Legible] at legible ⊢
      exact ⟨by simp [Expression.Canonical], knowsLicense_of_replaces names replaces legible⟩
    · simp only [Expression.Legible] at legible ⊢
      exact ⟨by simp [Expression.Canonical], knowsLicense_of_replaces names replaces legible.1, legible.2⟩
  obtain ⟨canonical, legible⟩ := Expression.holds_of_normalize Expression.legible_iff_operands
    Expression.legible_iff_operands leaf printable.canonical printable.legible normalized
  exact ⟨canonical, legible⟩

end Guesser

end Licensing
