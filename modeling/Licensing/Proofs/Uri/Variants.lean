import Licensing.Proofs.Uri.Likeness

/-! # Variants of an address

The address of a place can be written with any scheme, with or without `www.` in front, and with or without one of
the endings `.txt` and `.md`.  Canonical forms lose one `www.` and each ending once, so the variants of a place all
look the same exactly if the place has nothing of this kind itself (`IsPlain`).  Of any other place, the variants
that differ in the scheme look the same, and those that differ in one thing besides if that is not in the place.

* `Uri.looksLike_of_same_host` — variants that differ in scheme and ending.
* `Uri.looksLike_of_same_ending` — variants that differ in scheme and `www.`.
* `Uri.looksLike_variants` — the main statement.
-/

namespace Licensing.Uri

/-! ## Variants -/

/-- The endings that an address of a text can have. -/
inductive Ending where
  | plain
  | txt
  | md
deriving DecidableEq, Repr

def Ending.text : Ending → String
  | .plain => ""
  | .txt => ".txt"
  | .md => ".md"

/-- A way to write the address of a place. -/
structure Variant where
  scheme : String
  www : Bool
  ending : Ending
  nonempty : scheme ≠ ""
  proper : '/' ∉ scheme.toList ∧ ':' ∉ scheme.toList

/-- The place, with or without `www.` in front. -/
def host (www : Bool) (place : String) : String :=
  (if www then "www." else "") ++ place

def Variant.uri (v : Variant) (place : String) : String :=
  v.scheme ++ "://" ++ host v.www place ++ v.ending.text

theorem withoutScheme_append {scheme : List Char} (nonempty : scheme ≠ []) (proper : '/' ∉ scheme ∧ ':' ∉ scheme)
    (rest : List Char) : withoutScheme (scheme ++ ':' :: rest) = rest := by
  have front : (scheme ++ ':' :: rest).takeWhile (· ≠ ':') = scheme := by
    rw [List.takeWhile_append_of_pos]
    · simp
    · intro c member
      simpa using fun same : c = ':' => proper.2 (same ▸ member)
  unfold withoutScheme
  rw [front]
  simp [nonempty, proper.1]

theorem canonicalForm_uri (v : Variant) (place : String) : canonicalForm (v.uri place) =
    canonical ('/' :: '/' :: (host v.www place).toList ++ v.ending.text.toList) := by
  have chars : (v.uri place).toList =
      v.scheme.toList ++ ':' :: '/' :: '/' :: ((host v.www place).toList ++ v.ending.text.toList) := by
    simp [Variant.uri]
  rw [canonicalForm, chars, withoutScheme_append (by simpa using v.nonempty) v.proper]
  rfl

theorem looksLike_uri_iff {v v' : Variant} {place : String} : looksLike (v.uri place) (v'.uri place) = true ↔
    canonical ('/' :: '/' :: (host v.www place).toList ++ v.ending.text.toList) =
      canonical ('/' :: '/' :: (host v'.www place).toList ++ v'.ending.text.toList) := by
  rw [looksLike_iff, canonicalForm_uri, canonicalForm_uri]

/-! ## Endings -/

variable {ending text : List Char}

theorem dropEnding_append (ending text : List Char) : dropEnding ending (text ++ ending) = text := by
  simp [dropEnding]

theorem dropEnding_of_not_suffix (other : ¬ ending <:+ text) : dropEnding ending text = text := by
  simp [dropEnding, other]

theorem isPrefix_dropEnding (ending text : List Char) : dropEnding ending text <+: text := by
  unfold dropEnding
  split
  · exact List.take_prefix ..
  · exact List.prefix_rfl

theorem dropEnding_append_left {front : List Char} (inside : ending <:+ front ++ text → ending <:+ text) :
    dropEnding ending (front ++ text) = front ++ dropEnding ending text := by
  by_cases ends : ending <:+ text
  · obtain ⟨rest, rfl⟩ := ends
    rw [dropEnding_append, ← List.append_assoc, dropEnding_append]
  · rw [dropEnding_of_not_suffix ends, dropEnding_of_not_suffix (mt inside ends)]

theorem count_dropEnding {c : Char} (other : c ∉ ending) : (dropEnding ending text).count c = text.count c := by
  by_cases ends : ending <:+ text
  · obtain ⟨rest, rfl⟩ := ends
    rw [dropEnding_append, List.count_append, List.count_eq_zero.mpr other, Nat.add_zero]
  · rw [dropEnding_of_not_suffix ends]

theorem not_txt_suffix_append_md (text : List Char) : ¬ ".txt".toList <:+ text ++ ".md".toList := by
  rintro ⟨front, same⟩
  simpa using congrArg List.getLast? same

/-- The text has no ending that canonical forms lose. -/
def EndsPlainly (text : List Char) : Prop :=
  ¬ ".txt".toList <:+ text ∧ ¬ ".md".toList <:+ text

instance : DecidablePred EndsPlainly := fun _ => inferInstanceAs (Decidable (_ ∧ _))

theorem endsPlainly_slashes : EndsPlainly ('/' :: '/' :: text) ↔ EndsPlainly text := by
  simp [EndsPlainly, List.suffix_cons_iff]

theorem endsPlainly_www : EndsPlainly ("www.".toList ++ text) ↔
    EndsPlainly text ∧ text ≠ "txt".toList ∧ text ≠ "md".toList := by
  simp only [EndsPlainly, String.reduceToList, List.cons_append, List.nil_append, List.suffix_cons_iff,
    List.cons.injEq, Char.reduceEq, false_and, true_and, false_or, ne_eq, not_or, @eq_comm _ text]
  grind

/-- The text in front of its endings. -/
def withoutEndings (text : List Char) : List Char :=
  dropEnding ".md".toList (dropEnding ".txt".toList text)

theorem canonical_eq (text : List Char) : canonical text = dropWww (withoutEndings text) :=
  rfl

theorem withoutEndings_append (text : List Char) (ending : Ending) : withoutEndings (text ++ ending.text.toList) =
    match ending with
      | .plain => withoutEndings text
      | .txt => dropEnding ".md".toList text
      | .md => text := by
  cases ending with
  | plain => simp [Ending.text]
  | txt => rw [withoutEndings, Ending.text, dropEnding_append]
  | md => rw [withoutEndings, Ending.text, dropEnding_of_not_suffix (not_txt_suffix_append_md text), dropEnding_append]

theorem canonical_append_of_endsPlainly (plain : EndsPlainly text) (ending : Ending) :
    canonical (text ++ ending.text.toList) = dropWww text := by
  rw [canonical_eq, withoutEndings_append, withoutEndings, dropEnding_of_not_suffix plain.1,
    dropEnding_of_not_suffix plain.2]
  cases ending <;> rfl

theorem count_dropWww {c : Char} (letter : c ≠ 'w') (dot : c ≠ '.') : (dropWww text).count c = text.count c := by
  unfold dropWww
  split
  next => simp [List.count_cons, letter.symm, dot.symm]
  next => rfl

/-- An ending that is there already makes a difference when it is added once more. -/
theorem endsPlainly_of_canonical_append
    (alike : ∀ ending : Ending, canonical (text ++ ending.text.toList) = canonical text) : EndsPlainly text := by
  -- The two forms differ in the number of letters `x`, or of letters `d`.
  constructor
  · rintro ⟨rest, rfl⟩
    have same := congrArg (List.count 'x') (alike .txt)
    rw [canonical_eq, withoutEndings_append, canonical_eq, withoutEndings, dropEnding_append] at same
    simp [count_dropWww, count_dropEnding] at same
  · rintro ⟨rest, rfl⟩
    have same := congrArg (List.count 'd') (alike .md)
    rw [canonical_eq, withoutEndings_append, canonical_eq, withoutEndings,
      dropEnding_of_not_suffix (not_txt_suffix_append_md rest), dropEnding_append] at same
    simp [count_dropWww] at same

/-! ## What may differ -/

/-- The variant with the usual scheme. -/
def Variant.http (www : Bool) (ending : Ending) : Variant :=
  ⟨"http", www, ending, by decide, by decide +kernel⟩

theorem looksLike_of_same_host_iff {www : Bool} {place : String} :
    (∀ v v' : Variant, v.www = www → v'.www = www → looksLike (v.uri place) (v'.uri place) = true) ↔
      EndsPlainly (host www place).toList := by
  rw [← endsPlainly_slashes]
  constructor
  · intro alike
    refine endsPlainly_of_canonical_append fun ending => ?_
    have same := looksLike_uri_iff.mp (alike (.http www ending) (.http www .plain) rfl rfl)
    simpa [Variant.http, Ending.text] using same
  · rintro plain v v' rfl same
    rw [looksLike_uri_iff, canonical_append_of_endsPlainly plain, same, canonical_append_of_endsPlainly (same ▸ plain)]

theorem dropWww_slashes (noWww : ¬ "www.".toList <+: text) : dropWww ('/' :: '/' :: text) = '/' :: '/' :: text := by
  unfold dropWww
  split
  next rest same =>
    obtain rfl : text = 'w' :: 'w' :: 'w' :: '.' :: rest := by simpa using same
    exact absurd ⟨rest, rfl⟩ noWww
  next => rfl

/-- What comes before the endings begins with `www.` only if the place does. -/
theorem isPrefix_withoutEndings (text : List Char) (ending : Ending) :
    withoutEndings (text ++ ending.text.toList) <+: text := by
  rw [withoutEndings_append]
  cases ending with
  | plain => exact (isPrefix_dropEnding ..).trans (isPrefix_dropEnding ..)
  | txt => exact isPrefix_dropEnding ..
  | md => exact List.prefix_rfl

theorem withoutEndings_append_left {front : List Char} (txt : ".txt".toList <:+ front ++ text → ".txt".toList <:+ text)
    (md : ".md".toList <:+ front ++ dropEnding ".txt".toList text → ".md".toList <:+ dropEnding ".txt".toList text) :
    withoutEndings (front ++ text) = front ++ withoutEndings text := by
  rw [withoutEndings, dropEnding_append_left txt, dropEnding_append_left md, withoutEndings]

theorem canonical_slashes (noWww : ¬ "www.".toList <+: withoutEndings text) :
    canonical ('/' :: '/' :: text) = '/' :: '/' :: withoutEndings text := by
  have inside : withoutEndings (['/', '/'] ++ text) = ['/', '/'] ++ withoutEndings text :=
    withoutEndings_append_left (by simp [List.suffix_cons_iff]) (by simp [List.suffix_cons_iff])
  exact (congrArg dropWww inside).trans (dropWww_slashes noWww)

/-- The endings are not looked for in `www.` itself, unless next to nothing follows it. -/
theorem canonical_slashes_www (apart : text ∉ ["txt".toList, "md".toList, "md.txt".toList]) :
    canonical ('/' :: '/' :: ("www.".toList ++ text)) = '/' :: '/' :: withoutEndings text := by
  simp only [List.mem_cons, List.not_mem_nil, or_false, not_or] at apart
  obtain ⟨noTxt, noMd, noBoth⟩ := apart
  have md : dropEnding ".txt".toList text ≠ "md".toList := by
    intro same
    by_cases ends : ".txt".toList <:+ text
    · obtain ⟨rest, rfl⟩ := ends
      rw [dropEnding_append] at same
      exact noBoth (by rw [same]; rfl)
    · exact noMd (dropEnding_of_not_suffix ends ▸ same)
  have inside : withoutEndings ("//www.".toList ++ text) = "//www.".toList ++ withoutEndings text := by
    refine withoutEndings_append_left (fun ends => ?_) (fun ends => ?_)
    · have found : text = "txt".toList ∨ ".txt".toList <:+ text := by
        simpa [List.suffix_cons_iff, @eq_comm _ _ text] using ends
      exact found.resolve_left noTxt
    · have found : dropEnding ".txt".toList text = "md".toList ∨ ".md".toList <:+ dropEnding ".txt".toList text := by
        simpa [List.suffix_cons_iff, @eq_comm _ _ (dropEnding _ text)] using ends
      exact found.resolve_left md
  exact congrArg dropWww inside

theorem looksLike_of_same_ending {place : String} {ending : Ending} (noWww : ¬ "www.".toList <+: place.toList)
    (apart : place ++ ending.text ∉ ["txt", "md", "md.txt"]) {v v' : Variant} (same : v.ending = ending)
    (same' : v'.ending = ending) : looksLike (v.uri place) (v'.uri place) = true := by
  have apart' : (place ++ ending.text).toList ∉ ["txt".toList, "md".toList, "md.txt".toList] := by
    simpa only [List.mem_cons, List.not_mem_nil, or_false, String.toList_inj] using apart
  rw [String.toList_append] at apart'
  have form (www : Bool) : canonical ('/' :: '/' :: (host www place).toList ++ ending.text.toList) =
      '/' :: '/' :: withoutEndings (place.toList ++ ending.text.toList) := by
    cases www with
    | false =>
      exact canonical_slashes fun www => noWww (www.trans (isPrefix_withoutEndings place.toList ending))
    | true =>
      rw [← canonical_slashes_www apart', host, if_pos rfl, String.toList_append, List.cons_append, List.cons_append,
        List.append_assoc]
  rw [looksLike_uri_iff, same, same', form, form]

/-- A place that begins and ends with nothing that a variant adds. -/
structure IsPlain (place : String) : Prop where
  noWww : ¬ "www.".toList <+: place.toList
  endsPlainly : EndsPlainly place.toList
  apart : place ≠ "txt" ∧ place ≠ "md"

theorem IsPlain.endsPlainly_host {place : String} (plain : IsPlain place) (www : Bool) :
    EndsPlainly (host www place).toList := by
  cases www with
  | false => simpa [host] using plain.endsPlainly
  | true =>
    rw [host, if_pos rfl, String.toList_append]
    exact endsPlainly_www.mpr ⟨plain.endsPlainly, mt String.toList_inj.mp plain.apart.1,
      mt String.toList_inj.mp plain.apart.2⟩

theorem looksLike_of_isPlain {place : String} (plain : IsPlain place) (v v' : Variant) :
    looksLike (v.uri place) (v'.uri place) = true := by
  let bare (w : Variant) : Variant := { w with ending := .plain }
  have toBare (w : Variant) : looksLike (w.uri place) ((bare w).uri place) = true :=
    looksLike_of_same_host_iff.mpr (plain.endsPlainly_host w.www) w (bare w) rfl rfl
  have between : looksLike ((bare v).uri place) ((bare v').uri place) = true := by
    have ends : place ≠ "md.txt" := fun same => plain.endsPlainly.1 (same ▸ ⟨"md".toList, by decide +kernel⟩)
    have apart : place ++ Ending.plain.text ∉ ["txt", "md", "md.txt"] := by
      simpa [Ending.text, ends] using plain.apart
    exact looksLike_of_same_ending plain.noWww apart rfl rfl
  exact looksLike_trans (looksLike_trans (toBare v) between)
    (looksLike_symm (toBare v'))

theorem isPlain_of_looksLike {place : String}
    (alike : ∀ v v' : Variant, looksLike (v.uri place) (v'.uri place) = true) : IsPlain place := by
  have plainly (www : Bool) : EndsPlainly (host www place).toList :=
    looksLike_of_same_host_iff.mp fun v v' _ _ => alike v v'
  have ends := plainly true
  rw [host, if_pos rfl, String.toList_append, endsPlainly_www] at ends
  obtain ⟨ends, noTxt, noMd⟩ := ends
  refine ⟨?_, ends, fun same => noTxt (congrArg String.toList same), fun same => noMd (congrArg String.toList same)⟩
  rintro ⟨rest, begins⟩
  have form (www : Bool) : canonical ('/' :: '/' :: (host www place).toList ++ (Ending.plain).text.toList) =
      dropWww ('/' :: '/' :: (host www place).toList) :=
    canonical_append_of_endsPlainly (endsPlainly_slashes.mpr (plainly www)) .plain
  have same := looksLike_uri_iff.mp (alike (.http false .plain) (.http true .plain))
  simp only [Variant.http, form] at same
  -- Without the second `www.` the first one is lost, and with it only the second one.
  have lengths : rest.length = rest.length + 4 := by
    simpa [host, ← begins, dropWww] using congrArg List.length same
  omega

/-- The variants of a place all look the same exactly if the place is plain.  Whatever the place is, schemes make no
difference; endings make none exactly if what stands behind the slashes has none of its own; and `www.` makes none
if the place does not begin with it and is more than the rest of an ending. -/
theorem looksLike_variants (place : String) :
    ((∀ v v' : Variant, looksLike (v.uri place) (v'.uri place) = true) ↔ IsPlain place) ∧
    (∀ v v' : Variant, v.www = v'.www → v.ending = v'.ending →
      looksLike (v.uri place) (v'.uri place) = true) ∧
    (∀ www, (∀ v v' : Variant, v.www = www → v'.www = www → looksLike (v.uri place) (v'.uri place) = true) ↔
      EndsPlainly (host www place).toList) ∧
    ∀ ending : Ending, ¬ "www.".toList <+: place.toList → place ++ ending.text ∉ ["txt", "md", "md.txt"] →
      ∀ v v' : Variant, v.ending = ending → v'.ending = ending →
        looksLike (v.uri place) (v'.uri place) = true := by
  refine ⟨⟨isPlain_of_looksLike, looksLike_of_isPlain⟩, fun v v' www ending => ?_,
    fun www => looksLike_of_same_host_iff, fun ending noWww apart v v' same same' => ?_⟩
  · rw [looksLike_uri_iff, www, ending]
  · exact looksLike_of_same_ending noWww apart same same'

/-- A plain place, and a place with `www.` and an ending, whose variants look the same in part. -/
theorem looksLike_variants_of_two_places :
    let plain := "apache.org/licenses/LICENSE-2.0"
    let marked := "www.apache.org/LICENSE.md"
    let v : Variant := ⟨"ftp", true, .md, by decide, by decide +kernel⟩
    let v' : Variant := ⟨"https", true, .md, by decide, by decide +kernel⟩
    (IsPlain plain ∧ looksLike "ftp://www.apache.org/licenses/LICENSE-2.0.md"
      "http://apache.org/licenses/LICENSE-2.0" = true) ∧
    (¬ IsPlain marked ∧ v.www = v'.www ∧ v.ending = v'.ending ∧
      looksLike "ftp://www.www.apache.org/LICENSE.md.md" "https://www.www.apache.org/LICENSE.md.md" = true) ∧
    ¬ "www.".toList <+: "example.org/LICENSE.md".toList ∧
      "example.org/LICENSE.md" ++ Ending.txt.text ∉ ["txt", "md", "md.txt"] ∧
      looksLike "http://example.org/LICENSE.md.txt" "http://www.example.org/LICENSE.md.txt" = true := by
  intro plain marked v v'
  have isPlain : IsPlain plain := ⟨by decide +kernel, by decide +kernel, by decide +kernel⟩
  have notPlain : ¬ IsPlain marked := fun isPlain => isPlain.noWww ⟨"apache.org/LICENSE.md".toList, by decide +kernel⟩
  obtain ⟨all, -⟩ := looksLike_variants plain
  obtain ⟨-, schemes, -⟩ := looksLike_variants marked
  obtain ⟨-, -, -, hosts⟩ := looksLike_variants "example.org/LICENSE.md"
  have noWww : ¬ "www.".toList <+: "example.org/LICENSE.md".toList := by decide +kernel
  have apart : "example.org/LICENSE.md" ++ Ending.txt.text ∉ ["txt", "md", "md.txt"] := by decide +kernel
  exact ⟨⟨isPlain, all.mpr isPlain v (.http false .plain)⟩, ⟨notPlain, rfl, rfl, schemes v v' rfl rfl⟩, noWww, apart,
    hosts .txt noWww apart (.http false .txt) (.http true .txt) rfl rfl⟩

/-- Not all variants look the same: a second `www.` or a second ending is not lost, and `.md` behind `www` is. -/
theorem looksLike_variants_of_repeated_parts :
    let alike (place : String) := ∀ v v' : Variant, looksLike (v.uri place) (v'.uri place) = true
    ¬ alike "www.example.org/LICENSE" ∧ ¬ alike "example.org/LICENSE.txt" ∧ ¬ alike "example.org/LICENSE.md" ∧
      ¬ alike "md" := by
  have different {place : String} (v v' : Variant) (other : looksLike (v.uri place) (v'.uri place) = false) :
      ¬ ∀ v v' : Variant, looksLike (v.uri place) (v'.uri place) = true := by
    intro alike
    rw [alike v v'] at other
    cases other
  exact ⟨different (.http false .plain) (.http true .plain) (by decide +kernel),
    different (.http false .plain) (.http false .txt) (by decide +kernel),
    different (.http false .plain) (.http false .md) (by decide +kernel),
    different (.http false .plain) (.http true .plain) (by decide +kernel)⟩

end Licensing.Uri
