import Licensing.BundleHeader
import Licensing.Normalization.Guess

/-! # Addresses that look the same

Two addresses look the same exactly if they have the same canonical form, so to look the same is an equivalence.
A look-up by address sees nothing but what looks the same, hence it cannot tell such addresses apart.

* `Uri.looksLike_iff` — looking the same as an equality.
* `Uri.looksLike_congr_left` — the comparison respects itself; every look-up follows it.
* `Uri.looksLike_respected` — the main statement.
-/

namespace Licensing

namespace Uri

variable {a b : String}

/-- What counts of an address. -/
def canonicalForm (uri : String) : List Char :=
  canonical (withoutScheme uri.toList)

/-- Equal texts behind the schemes are no case of their own. -/
theorem looksLike_iff : looksLike a b = true ↔ canonicalForm a = canonicalForm b := by
  simp only [looksLike, Bool.or_eq_true, beq_iff_eq]
  constructor
  · rintro (same | same)
    · exact congrArg canonical same
    · exact same
  · exact .inr

theorem looksLike_refl (a : String) : looksLike a a = true :=
  looksLike_iff.mpr rfl

theorem looksLike_symm (same : looksLike a b = true) : looksLike b a = true :=
  looksLike_iff.mpr (looksLike_iff.mp same).symm

theorem looksLike_trans {c : String} (first : looksLike a b = true) (second : looksLike b c = true) :
    looksLike a c = true :=
  looksLike_iff.mpr ((looksLike_iff.mp first).trans (looksLike_iff.mp second))

theorem looksLike_congr_left (same : looksLike a b = true) : looksLike a = looksLike b := by
  funext c
  rw [Bool.eq_iff_iff, looksLike_iff, looksLike_iff, looksLike_iff.mp same]

/-- Each address of either list looks like one of the other list. -/
def Alike (uris uris' : List String) : Prop :=
  (∀ a ∈ uris, ∃ b ∈ uris', looksLike a b = true) ∧ ∀ b ∈ uris', ∃ a ∈ uris, looksLike b a = true

theorem Alike.symm {uris uris' : List String} (alike : Alike uris uris') : Alike uris' uris :=
  ⟨alike.2, alike.1⟩

end Uri

/-! ## Look-ups -/

theorem Registry.findByUri?_congr {a b : String} (same : Uri.looksLike a b = true) (registry : Registry) :
    registry.findByUri? a = registry.findByUri? b := by
  rw [findByUri?, findByUri?, Uri.looksLike_congr_left same]

namespace Guesser

variable {uris uris' : List String}

theorem matchesUri_of_alike (alike : Uri.Alike uris uris') {entry : Listed}
    (fits : matchesUri uris entry = true) : matchesUri uris' entry = true := by
  obtain ⟨a, member, reference⟩ := List.any_eq_true.mp fits
  obtain ⟨b, member', same⟩ := alike.1 a member
  exact List.any_eq_true.mpr ⟨b, member', Uri.looksLike_congr_left same ▸ reference⟩

theorem matchesUri_congr (alike : Uri.Alike uris uris') : matchesUri uris = matchesUri uris' := by
  funext entry
  exact Bool.eq_iff_iff.mpr ⟨matchesUri_of_alike alike, matchesUri_of_alike alike.symm⟩

variable {R : Type} [Similarity.Scalar R]

theorem resolve_congr (guesser : Guesser R) (title : String) (alike : Uri.Alike uris uris') :
    guesser.resolve ⟨title, uris⟩ = guesser.resolve ⟨title, uris'⟩ := by
  unfold resolve guessed byUri?
  rw [matchesUri_congr alike]

end Guesser

namespace BundleHeader

/-- The header is the address of a license. -/
structure IsAddress (value : String) : Prop where
  single : value.toList.contains ',' = false
  http : "http".toList.isPrefixOf value.toList = true
  valid : Uri.isValid value = true

theorem read_of_isAddress {value : String} (address : IsAddress value) (registry : Registry)
    (findByUri : String → Option Expression) :
    read registry findByUri value = (findByUri value).elim .unknownUri .declared := by
  simp only [read, address.single, address.http, address.valid, Bool.false_eq_true, if_false, if_true,
    Bool.not_true]
  cases findByUri value <;> rfl

theorem read_congr {a b : String} (same : Uri.looksLike a b = true) (addressA : IsAddress a)
    (addressB : IsAddress b) (registry : Registry) :
    read registry (registered registry) a = read registry (registered registry) b := by
  rw [read_of_isAddress addressA, read_of_isAddress addressB, registered, registered,
    Registry.findByUri?_congr same]

end BundleHeader

/-! ## The comparison as a whole -/

/-- To look the same is an equivalence that has equal canonical forms as its only reason, and no look-up by address
tells addresses apart that look the same: neither in a registry, nor among guesses, nor from a header. -/
theorem Uri.looksLike_respected :
    ((∀ a, looksLike a a = true) ∧ (∀ a b, looksLike a b = true → looksLike b a = true) ∧
      ∀ a b c, looksLike a b = true → looksLike b c = true → looksLike a c = true) ∧
    (∀ a b, looksLike a b = true ↔
      canonical (withoutScheme a.toList) = canonical (withoutScheme b.toList)) ∧
    (∀ a b, looksLike a b = true → ∀ registry : Registry,
      registry.findByUri? a = registry.findByUri? b ∧
      (∀ others entry, Guesser.matchesUri (a :: others) entry = Guesser.matchesUri (b :: others) entry) ∧
      (BundleHeader.IsAddress a → BundleHeader.IsAddress b →
        BundleHeader.read registry (BundleHeader.registered registry) a =
          BundleHeader.read registry (BundleHeader.registered registry) b)) ∧
    ∀ (R : Type) [Similarity.Scalar R] (guesser : Guesser R) title uris uris', Alike uris uris' →
      guesser.resolve ⟨title, uris⟩ = guesser.resolve ⟨title, uris'⟩ := by
  refine ⟨⟨looksLike_refl, fun _ _ => looksLike_symm, fun _ _ _ => looksLike_trans⟩, fun a b => looksLike_iff,
    fun a b same registry => ⟨?_, ?_, ?_⟩, ?_⟩
  · exact registry.findByUri?_congr same
  · intro others entry
    simp only [Guesser.matchesUri, List.any_cons, looksLike_congr_left same]
  · exact fun addressA addressB => BundleHeader.read_congr same addressA addressB registry
  · exact fun R _ guesser title uris uris' alike => guesser.resolve_congr title alike

/-- Two spellings of an address find the same license in every way. -/
theorem Uri.looksLike_respected_of_two_spellings :
    let a := "http://www.apache.org/licenses/LICENSE-2.0.txt"
    let b := "https://apache.org/licenses/LICENSE-2.0.md"
    let apache : Listed := ⟨"Apache-2.0", "Apache License 2.0", ["https://www.apache.org/licenses/LICENSE-2.0"], "SPDX"⟩
    let registry : Registry := ⟨[⟨"MIT", "MIT License", ["https://opensource.org/licenses/MIT"], "SPDX"⟩, apache], []⟩
    let guesser : Guesser Float := ⟨registry, 42, 20, fun _ => registry.licenses.map (·, 1 / 2)⟩
    looksLike a b = true ∧
      registry.findByUri? a = some apache ∧ registry.findByUri? b = some apache ∧
      BundleHeader.IsAddress a ∧ BundleHeader.IsAddress b ∧
      BundleHeader.read registry (BundleHeader.registered registry) a =
        BundleHeader.read registry (BundleHeader.registered registry) b ∧
      Alike ["ftp://example.org", a] [b, "https://example.org"] ∧
      guesser.resolve ⟨"Some License", ["ftp://example.org", a]⟩ =
        guesser.resolve ⟨"Some License", [b, "https://example.org"]⟩ := by
  intro a b apache registry guesser
  have same : looksLike a b = true := by decide +kernel
  have found : registry.findByUri? b = some apache := by decide +kernel
  have addressA : BundleHeader.IsAddress a := ⟨by decide +kernel, by decide +kernel, by decide +kernel⟩
  have addressB : BundleHeader.IsAddress b := ⟨by decide +kernel, by decide +kernel, by decide +kernel⟩
  have alike : Alike ["ftp://example.org", a] [b, "https://example.org"] := by
    rw [Alike]
    decide +kernel
  obtain ⟨-, -, pair, texts⟩ := looksLike_respected
  obtain ⟨sameLicense, -, sameReading⟩ := pair a b same registry
  exact ⟨same, sameLicense.trans found, found, addressA, addressB, sameReading addressA addressB, alike,
    texts Float guesser "Some License" _ _ alike⟩

end Licensing
