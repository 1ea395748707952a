import Licensing.Proofs.Normalization.Guessing
import Licensing.Proofs.Normalization.Joining

/-! # What normalization leaves

Joining neither drops nor adds a license: what a normal form mentions is what its leaves have become
(`mentions_of_normalize`).  For a guesser this leaves licenses of its registry, listed licenses that were there
before, and free text that it cannot resolve.

* `Mentions` — an expression names a license, alone, as "or later" or with an exception.
* `Guesser.normalize_complete` — the normal form that a guesser finds.
-/

namespace Licensing

namespace Expression

variable {rules : LeafRules} {strict : Bool} {connective : Connective} {license : License}

/-! ## Mentioned licenses -/

/-- The expression, or something below it, is a term of the license, with or without an exception. -/
def Mentions (e : Expression) (license : License) : Prop :=
  ∃ term : SimpleTerm, term.license = license ∧
    (.simple term ∈ e.nodes ∨ ∃ exception, .withException term exception ∈ e.nodes)

@[simp] theorem mentions_sentinel {name : String} : ¬ (sentinel name).Mentions license := by
  simp [Mentions, nodes]

@[simp] theorem mentions_simple {term : SimpleTerm} : (simple term).Mentions license ↔ term.license = license := by
  simp [Mentions, nodes]

@[simp] theorem mentions_withException {term : SimpleTerm} {exception : LicenseException} :
    (withException term exception).Mentions license ↔ term.license = license := by
  simp [Mentions, nodes]

theorem mentions_compound {es : List Expression} :
    (compound connective es).Mentions license ↔ ∃ e ∈ es, e.Mentions license := by
  simp only [Mentions, mem_nodes_compound, reduceCtorEq, false_or]
  constructor
  · rintro ⟨term, same, ⟨e, member, inside⟩ | ⟨exception, e, member, inside⟩⟩
    · exact ⟨e, member, term, same, .inl inside⟩
    · exact ⟨e, member, term, same, .inr ⟨exception, inside⟩⟩
  · rintro ⟨e, member, term, same, inside | ⟨exception, inside⟩⟩
    · exact ⟨term, same, .inl ⟨e, member, inside⟩⟩
    · exact ⟨term, same, .inr ⟨exception, e, member, inside⟩⟩

theorem mentions_iff_operands (connective : Connective) {e : Expression} :
    e.Mentions license ↔ ∃ d ∈ e.operands connective, d.Mentions license := by
  cases joined_or_alone connective e with
  | inl joined =>
    obtain ⟨ds, rfl⟩ := joined
    rw [mentions_compound, operands_compound]
  | inr alone => simp [operands_eq_singleton alone]

/-- What is joined mentions what its parts mention. -/
theorem mentions_of_combine? {es : List Expression} {e : Expression} (parts : ∀ d ∈ es, d.Canonical)
    (made : combine? connective es = some e) : e.Mentions license ↔ ∃ d ∈ es, d.Mentions license := by
  rw [mentions_iff_operands connective]
  constructor
  · rintro ⟨d, operand, mentions⟩
    obtain ⟨a, member, inside⟩ := (mem_operands_of_combine? parts made d).mp operand
    exact ⟨a, member, (mentions_iff_operands connective).mpr ⟨d, inside, mentions⟩⟩
  · rintro ⟨a, member, mentions⟩
    obtain ⟨d, inside, mentions⟩ := (mentions_iff_operands connective).mp mentions
    exact ⟨d, (mem_operands_of_combine? parts made d).mpr ⟨a, member, inside⟩, mentions⟩

theorem mem_freeTexts_iff {text : FreeText} {e : Expression} :
    text ∈ e.freeTexts ↔ e.Mentions (.free text) := by
  have leaf (term : SimpleTerm) : text ∈ term.freeText?.toList ↔ term.license = .free text := by
    cases license : term.license <;> simp [SimpleTerm.freeText?, license, eq_comm]
  induction e using Expression.induction with
  | single e single =>
    cases e with
    | compound connective es => exact absurd rfl (single connective es)
    | sentinel _ => simp [freeTexts]
    | simple term => simp [freeTexts, leaf]
    | withException term _ => simp [freeTexts, leaf]
  | compound connective es ih =>
    rw [freeTexts, mem_allFreeTexts, mentions_compound]
    exact exists_congr fun d => and_congr_right fun member => ih d member

/-! ## Normal forms -/

/-- A normal form mentions what the leaves have become. -/
theorem mentions_of_normalize (sound : rules.Canonical) {e r : Expression} (canonical : e.Canonical)
    (normalized : e.normalize rules strict = .ok r) :
    r.Mentions license ↔ ∃ leaf ∈ e.nodes, (∀ connective es, leaf ≠ .compound connective es) ∧
      ∃ n, leaf.normalize rules strict = .ok n ∧ n.Mentions license := by
  induction e using Expression.induction generalizing r with
  | single e single => simp [nodes_eq_singleton single, single, normalized]
  | compound connective es ih =>
    obtain ⟨-, -, parts, -⟩ := canonical_compound_iff.mp canonical
    obtain ⟨found, ran, made⟩ := (normalize_compound_eq_ok_iff sound canonical).mp normalized
    have canonical' (n : Expression) (member : n ∈ found) : n.Canonical := by
      obtain ⟨d, inside, same⟩ := Outcome.exists_of_mem_mapM ran member
      exact canonical_of_normalize sound (parts d inside) same
    -- Each way, a mention goes through one operand and what that operand has become.
    rw [mentions_of_combine? canonical' (joined_eq_ok.mp made)]
    constructor
    · rintro ⟨n, member, mentions⟩
      obtain ⟨d, inside, same⟩ := Outcome.exists_of_mem_mapM ran member
      obtain ⟨leaf, below, rest⟩ := (ih d inside (parts d inside) same).mp mentions
      exact ⟨leaf, mem_nodes_compound.mpr (.inr ⟨d, inside, below⟩), rest⟩
    · rintro ⟨leaf, below, single, rest⟩
      obtain rfl | ⟨d, inside, deeper⟩ := mem_nodes_compound.mp below
      · exact absurd rfl (single connective es)
      · obtain ⟨n, member, same⟩ := Outcome.exists_mem_of_mapM ran inside
        exact ⟨n, member, (ih d inside (parts d inside) same).mpr ⟨leaf, deeper, single, rest⟩⟩

theorem Mentions.of_mem_nodes {d e : Expression} (inside : d ∈ e.nodes) (mentions : d.Mentions license) :
    e.Mentions license := by
  obtain ⟨term, same, below | ⟨exception, below⟩⟩ := mentions
  · exact ⟨term, same, .inl (nodes_subset below inside)⟩
  · exact ⟨term, same, .inr ⟨exception, nodes_subset below inside⟩⟩

end Expression

/-! ## Guessing -/

namespace Guesser

variable {R : Type} [Similarity.Scalar R] {guesser : Guesser R}

theorem canonical_rules (guesser : Guesser R) : guesser.rules.Canonical := by
  intro text e stands
  obtain ⟨entry, -, rfl⟩ := Option.map_eq_some_iff.mp (guesser.rules_license text ▸ stands)
  exact Expression.canonical_of_single (by simp)

/-- A license in what a leaf becomes: it was there and is not resolved, or it is a listed one. -/
theorem mentions_of_normalize_leaf (registered : guesser.Registered) {leaf n : Expression} {license : License}
    (single : ∀ connective es, leaf ≠ .compound connective es)
    (normalized : leaf.normalize guesser.rules false = .ok n) (mentions : n.Mentions license) :
    (∃ text, license = .free text ∧ leaf.Mentions license ∧ guesser.license? text = none) ∨
      ∃ id, license = .standard id ∧
        (leaf.Mentions license ∨ ∃ entry ∈ guesser.registry.licenses, entry.id = id) := by
  have term {old found : SimpleTerm} (replaces : guesser.Replaces old found) (same : found.license = license) :
      (∃ text, license = .free text ∧ old.license = license ∧ guesser.license? text = none) ∨
        ∃ id, license = .standard id ∧
          (old.license = license ∨ ∃ entry ∈ guesser.registry.licenses, entry.id = id) := by
    obtain rfl | ⟨entry, listed, standard⟩ := replaces.origin
    · cases license with
      | free text =>
        exact .inl ⟨text, rfl, same, replaces.unresolved text (by simp [SimpleTerm.freeText?, same])⟩
      | standard id => exact .inr ⟨id, rfl, .inl same⟩
    · exact .inr ⟨entry.id, same.symm.trans standard, .inr ⟨entry, listed, rfl⟩⟩
  obtain ⟨name, rfl, rfl⟩ | ⟨old, found, rfl, rfl, replaces⟩ | ⟨old, found, exception, rfl, rfl, replaces⟩ :=
    normalize_cases registered single normalized
  · exact absurd mentions Expression.mentions_sentinel
  · simpa using term replaces (by simpa using mentions)
  · simpa using term replaces (by simpa using mentions)

/-- A guesser, with any registry, threshold and limit and any ranking of the licenses of its registry, finds a
normal form.  Free text in it, wherever it stands, was there before and cannot be resolved; any other license in it
is a listed one, which was there before or comes from the registry; and the normal form is its own normal form. -/
theorem normalize_complete (registered : guesser.Registered) {e : Expression} (canonical : e.Canonical) :
    ∃ r, e.normalize guesser.rules false = .ok r ∧
      (∀ license, r.Mentions license →
        (∃ text, license = .free text ∧ e.Mentions license ∧ guesser.license? text = none) ∨
          ∃ id, license = .standard id ∧
            (e.Mentions license ∨ ∃ entry ∈ guesser.registry.licenses, entry.id = id)) ∧
      r.normalize guesser.rules false = .ok r := by
  obtain ⟨r, normalized⟩ := Expression.exists_normalize guesser.rules e
  refine ⟨r, normalized, fun license mentions => ?_, normalize_of_normalize registered canonical normalized⟩
  obtain ⟨leaf, below, single, n, becomes, inside⟩ :=
    (Expression.mentions_of_normalize guesser.canonical_rules canonical normalized).mp mentions
  obtain ⟨text, same, old, unresolved⟩ | ⟨id, same, old | listed⟩ :=
    mentions_of_normalize_leaf registered single becomes inside
  · exact .inl ⟨text, same, old.of_mem_nodes below, unresolved⟩
  · exact .inr ⟨id, same, .inl (old.of_mem_nodes below)⟩
  · exact .inr ⟨id, same, .inr listed⟩

/-- Free text under every kind of node: resolved by its title, resolved by its address although it carries an
exception and a plus sign, and not resolved. -/
theorem normalize_complete_of_mixed_stages :
    let mit : Listed := ⟨"MIT", "MIT License", ["https://opensource.org/licenses/MIT"], "SPDX"⟩
    let zero : Listed := ⟨"CC0-1.0", "Creative Commons Zero", [], "SPDX"⟩
    let guesser : Guesser Float :=
      ⟨⟨[mit, zero], []⟩, 42, 20, fun title => if title = "Massachusetts License" then [(mit, 1)] else []⟩
    let found : FreeText := ⟨"Massachusetts License", ["http://www.opensource.org/licenses/MIT.txt"]⟩
    let other : Expression := .orLater (.free ⟨"Qwerty", []⟩)
    let exception : LicenseException := .free ⟨"x", []⟩
    let e := ((Expression.just (.free ⟨"Public Domain", []⟩)).and
      (.withException (.orLater (.free found)) exception)).or other
    let r := ((Expression.just (.standard "CC0-1.0")).and
      (.withException (.orLater (.standard "MIT")) exception)).or other
    guesser.Registered ∧ e.Canonical ∧ e.normalize guesser.rules false = .ok r ∧
      r.Mentions (.free ⟨"Qwerty", []⟩) ∧ guesser.license? ⟨"Qwerty", []⟩ = none ∧
      r.normalize guesser.rules false = .ok r := by
  intro mit zero guesser found other exception e r
  have registered : guesser.Registered := by
    intro title guess member
    simp only [guesser] at member ⊢
    split at member
    next =>
      rw [List.mem_singleton.mp member]
      exact List.mem_cons_self
    next => cases member
  have canonical : e.Canonical := by
    refine Expression.Canonical.combine (Expression.Canonical.combine ?_ ?_) ?_ <;>
      simp [other, Expression.Canonical]
  obtain ⟨r', normalized, mentioned, again⟩ := normalize_complete registered canonical
  have becomes : e.normalize guesser.rules false = .ok r := Outcome.toOption_eq_some.mp (by decide +kernel)
  cases becomes.symm.trans normalized
  have left : r.Mentions (.free ⟨"Qwerty", []⟩) := Expression.mem_freeTexts_iff.mp (by decide +kernel)
  obtain ⟨_, ⟨⟩, -, unresolved⟩ | ⟨_, ⟨⟩, -⟩ := mentioned _ left
  exact ⟨registered, canonical, becomes, left, unresolved, again⟩

end Guesser

end Licensing
