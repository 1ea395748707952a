import Licensing.Proofs.Normalization.Guessing
import Licensing.Proofs.Similarity.Numbers

/-! # Guessing with other settings

A guess is taken because it fits an address, or else because the best guess is close enough.  The settings act on
these two reasons in one direction only: a lower threshold lets more guesses be close, more addresses let more
guesses fit, and a higher limit checks more of them after those that were checked already.

* `Guesser.found?_guessed` — the guess that is taken.
* `Guesser.resolve_transfer` — what holds of guessing holds of resolving.
* `Guesser.resolve_monotone` — the main statement.
-/

namespace Licensing

open Similarity

theorem Similarity.upTo_prefix_upTo {α : Type} {limit limit' : Int} (nonneg : 0 ≤ limit) (higher : limit ≤ limit')
    (xs : List α) : upTo limit xs <+: upTo limit' xs := by
  have nonneg' : 0 ≤ limit' := by omega
  rw [upTo, if_pos nonneg, upTo, if_pos nonneg']
  exact List.take_prefix_take_left (by omega)

namespace Guesser

variable {R : Type}

theorem matchesUri_mono {uris uris' : List String} {entry : Listed} (more : uris ⊆ uris')
    (fits : matchesUri uris entry = true) : matchesUri uris' entry = true := by
  obtain ⟨uri, member, same⟩ := List.any_eq_true.mp fits
  exact List.any_eq_true.mpr ⟨uri, more member, same⟩

/-! ## The guess that is taken -/

/-- The first guess, among those checked, that fits an address. -/
def fitting? (limit : Int) (uris : List String) (guesses : List (Listed × R)) : Option (Listed × R) :=
  (upTo limit guesses).find? fun guess => matchesUri uris guess.1

theorem fitting?_of_limit {limit limit' : Int} {uris : List String} {guesses : List (Listed × R)}
    {guess : Listed × R} (nonneg : 0 ≤ limit) (higher : limit ≤ limit')
    (fits : fitting? limit uris guesses = some guess) : fitting? limit' uris guesses = some guess :=
  (upTo_prefix_upTo nonneg higher guesses).find?_eq_some fits

theorem isSome_fitting?_of_uris {limit : Int} {uris uris' : List String} {guesses : List (Listed × R)}
    (more : uris ⊆ uris') (fits : (fitting? limit uris guesses).isSome = true) :
    (fitting? limit uris' guesses).isSome = true := by
  obtain ⟨guess, checked, fits⟩ := List.find?_isSome.mp fits
  exact List.find?_isSome.mpr ⟨guess, checked, matchesUri_mono more fits⟩

theorem byUri?_eq_map (guesser : Guesser R) (uris : List String) (guesses : List (Listed × R)) :
    guesser.byUri? uris guesses = (fitting? guesser.limit uris guesses).map fun guess => .byUri guess.1 guess.2 :=
  rfl

variable [Scalar R]

/-- The best guess, if it scores above the threshold. -/
def close? (threshold : R) (guesses : List (Listed × R)) : Option (Listed × R) :=
  guesses.head?.filter fun guess => Scalar.lt threshold (percent guess.2)

theorem close?_of_threshold {threshold threshold' : R} {guesses : List (Listed × R)} {guess : Listed × R}
    (ordered : Ordered (threshold :: threshold' :: guesses.map fun guess => percent guess.2))
    (lower : Scalar.lt threshold threshold' = false) (close : close? threshold guesses = some guess) :
    close? threshold' guesses = some guess := by
  obtain ⟨best, above⟩ := Option.filter_eq_some_iff.mp close
  refine Option.filter_eq_some_iff.mpr ⟨best, ?_⟩
  rw [← Bool.not_eq_false] at above ⊢
  intro below
  -- A score that is not above the lower threshold is not above the higher one.
  have score : percent guess.2 ∈ guesses.map fun guess => percent guess.2 :=
    List.mem_map_of_mem (List.mem_of_mem_head? best)
  exact above (ordered.trans threshold (by simp) threshold' (by simp) _ (by simp [score]) lower below)

theorem found?_guessed (guesser : Guesser R) (uris : List String) (guesses : List (Listed × R)) :
    (guesser.guessed uris guesses).found? =
      ((fitting? guesser.limit uris guesses).or (close? guesser.threshold guesses)).map Prod.fst := by
  unfold guessed
  rw [byUri?_eq_map]
  cases fitting? guesser.limit uris guesses with
  | some guess => rfl
  | none =>
    cases guesses with
    | nil => rfl
    | cons guess others =>
      cases close : Scalar.lt guesser.threshold (percent guess.2) with
      | true =>
        simp only [close?, List.head?_cons, Option.filter_some, close, if_true, Option.none_or, Option.map_none,
          Option.map_some, Finding.found?]
      | false => simp [close?, close, Finding.found?]

theorem isSome_found?_guessed {guesser : Guesser R} {uris : List String} {guesses : List (Listed × R)} :
    (guesser.guessed uris guesses).found?.isSome = true ↔
      (fitting? guesser.limit uris guesses).isSome = true ∨ (close? guesser.threshold guesses).isSome = true := by
  rw [found?_guessed, Option.isSome_map, Option.isSome_or, Bool.or_eq_true]

theorem guessed_eq_byUri_iff {guesser : Guesser R} {uris : List String} {guesses : List (Listed × R)}
    {entry : Listed} {score : R} : guesser.guessed uris guesses = .byUri entry score ↔
      fitting? guesser.limit uris guesses = some (entry, score) := by
  unfold guessed
  rw [byUri?_eq_map]
  cases fitting? guesser.limit uris guesses with
  | some guess => simp [Prod.ext_iff]
  | none =>
    cases guesses with
    | nil => simp
    | cons guess others =>
      cases close : Scalar.lt guesser.threshold (percent guess.2) with
      | true => simp [close]
      | false => simp [close]

/-! ## Resolving -/

variable {guesser guesser' : Guesser R} {text text' : FreeText}

/-- Two runs on the same title agree, or both of them guess. -/
theorem resolve_transfer {P : Finding R → Finding R → Prop} (registry : guesser'.registry = guesser.registry)
    (rank : guesser'.rank = guesser.rank) (title : text'.title = text.title) (same : ∀ finding, P finding finding)
    (guessed : P (guesser.guessed text.uris (guesser.rank (Text.stripString text.title)))
      (guesser'.guessed text'.uris (guesser.rank (Text.stripString text.title)))) :
    P (guesser.resolve text) (guesser'.resolve text') := by
  unfold resolve
  rw [registry, rank, title]
  dsimp only
  split
  next finding _ => exact same finding
  next => exact guessed

theorem isSome_found?_of_fitting (registry : guesser'.registry = guesser.registry)
    (rank : guesser'.rank = guesser.rank) (threshold : guesser'.threshold = guesser.threshold)
    (title : text'.title = text.title)
    (fits : ∀ guesses : List (Listed × R), (fitting? guesser.limit text.uris guesses).isSome = true →
      (fitting? guesser'.limit text'.uris guesses).isSome = true)
    (found : (guesser.resolve text).found?.isSome = true) : (guesser'.resolve text').found?.isSome = true := by
  revert found
  refine resolve_transfer (P := fun before after => before.found?.isSome = true → after.found?.isSome = true)
    registry rank title (fun _ found => found) fun found => ?_
  rw [isSome_found?_guessed] at found ⊢
  rw [threshold]
  exact found.imp_left (fits _)

/-- A lower threshold keeps every license that is found; further addresses leave nothing that was resolved without a
license; nor does a higher limit, which besides keeps every guess that fits an address. -/
theorem resolve_monotone (guesser : Guesser R) (text : FreeText) :
    (∀ threshold entry, Ordered (guesser.threshold :: threshold ::
        (guesser.rank (Text.stripString text.title)).map fun guess => percent guess.2) →
      Scalar.lt guesser.threshold threshold = false →
      (guesser.resolve text).found? = some entry →
      ({ guesser with threshold := threshold }.resolve text).found? = some entry) ∧
    (∀ uris, text.uris ⊆ uris → (guesser.resolve text).found?.isSome = true →
      (guesser.resolve { text with uris := uris }).found?.isSome = true) ∧
    ∀ limit, 0 < guesser.limit → guesser.limit ≤ limit →
      ((guesser.resolve text).found?.isSome = true →
        ({ guesser with limit := limit }.resolve text).found?.isSome = true) ∧
      ∀ entry score, guesser.resolve text = .byUri entry score →
        { guesser with limit := limit }.resolve text = .byUri entry score := by
  refine ⟨fun threshold entry ordered lower => ?_, fun uris more => ?_, fun limit positive higher => ⟨?_, ?_⟩⟩
  · refine resolve_transfer (P := fun before after => before.found? = some entry → after.found? = some entry)
      rfl rfl rfl (fun _ found => found) fun found => ?_
    rw [found?_guessed, Option.map_eq_some_iff] at found ⊢
    obtain ⟨guess, taken, rfl⟩ := found
    refine ⟨guess, ?_, rfl⟩
    -- The addresses are looked at before the threshold, so a guess that fits one stays.
    rw [Option.or_eq_some_iff] at taken ⊢
    exact taken.imp_right fun ⟨unfit, close⟩ => ⟨unfit, close?_of_threshold ordered lower close⟩
  · exact isSome_found?_of_fitting rfl rfl rfl rfl fun _ => isSome_fitting?_of_uris more
  · refine isSome_found?_of_fitting rfl rfl rfl rfl fun guesses fits => ?_
    obtain ⟨guess, fits⟩ := Option.isSome_iff_exists.mp fits
    exact Option.isSome_iff_exists.mpr ⟨guess, fitting?_of_limit positive.le higher fits⟩
  · intro entry score
    refine resolve_transfer (P := fun before after => before = .byUri entry score → after = .byUri entry score)
      rfl rfl rfl (fun _ found => found) fun found => ?_
    rw [guessed_eq_byUri_iff] at found ⊢
    exact fitting?_of_limit positive.le higher found

/-- A title that is resolved because it is close, and by its address once two guesses are checked. -/
theorem resolve_monotone_of_second_guess :
    let apache : Listed := ⟨"Apache-2.0", "Apache License 2.0", ["https://www.apache.org/licenses/LICENSE-2.0"], "SPDX"⟩
    let mit : Listed := ⟨"MIT", "MIT License", ["https://opensource.org/licenses/MIT"], "SPDX"⟩
    let guesser : Guesser ℝ := ⟨⟨[apache, mit], []⟩, 42, 1, fun _ => [(apache, 1 / 2), (mit, 2 / 5)]⟩
    let wider : Guesser ℝ := { guesser with limit := 2 }
    let text : FreeText := ⟨"Some License", ["http://opensource.org/licenses/MIT.txt"]⟩
    let uris := ["http://opensource.org/licenses/MIT.txt", "https://example.org/license"]
    ((guesser.resolve text).found? = some apache ∧
      ({ guesser with threshold := 30 }.resolve text).found? = some apache) ∧
    (text.uris ⊆ uris ∧ (guesser.resolve { text with uris := uris }).found?.isSome = true) ∧
    (wider.resolve text).found?.isSome = true ∧
    wider.resolve text = .byUri mit (2 / 5) ∧
    { wider with limit := 20 }.resolve text = .byUri mit (2 / 5) := by
  intro apache mit guesser wider text uris
  have title : Text.stripString text.title = "Some License" := by decide +kernel
  have unknown : known? (R := ℝ) ⟨[apache, mit], []⟩ "Some License" = none := by
    have lower : (Text.lowerString "Some License" == "public domain") = false := by decide +kernel
    simp [known?, lower, Registry.findLicense?, Listed.find?, apache, mit]
  have close : (guesser.resolve text).found? = some apache := by
    have unfit : fitting? 1 text.uris [(apache, (1 / 2 : ℝ)), (mit, 2 / 5)] = none := by
      have other : matchesUri text.uris apache = false := by decide +kernel
      simp [fitting?, upTo, other]
    have close : close? 42 [(apache, (1 / 2 : ℝ)), (mit, 2 / 5)] = some (apache, 1 / 2) := by
      simp [close?, Option.filter, Scalar.lt, percent, Scalar.mul, Scalar.ofNat]
      norm_num
    simp only [guesser, resolve, title, unknown, found?_guessed, unfit, close]
    rfl
  have fits : wider.resolve text = .byUri mit (2 / 5) := by
    have fits : fitting? 2 text.uris [(apache, (1 / 2 : ℝ)), (mit, 2 / 5)] = some (mit, 2 / 5) := by
      have other : matchesUri text.uris apache = false := by decide +kernel
      have same : matchesUri text.uris mit = true := by decide +kernel
      simp [fitting?, upTo, other, same]
    simp only [wider, guesser, resolve, title, unknown, guessed_eq_byUri_iff, fits]
  have more : text.uris ⊆ uris := by simp [text, uris]
  obtain ⟨threshold, addresses, limit⟩ := resolve_monotone guesser text
  have kept := threshold 30 apache (ordered_real _) (by simp [guesser, ← Bool.not_eq_true, lt_real_iff]; norm_num) close
  refine ⟨⟨close, kept⟩, ⟨more, addresses uris more (by rw [close]; rfl)⟩,
    (limit 2 (by decide) (by decide)).1 (by rw [close]; rfl), fits, ?_⟩
  exact ((resolve_monotone wider text).2.2 20 (by decide) (by decide)).2 mit (2 / 5) fits

end Guesser

end Licensing
