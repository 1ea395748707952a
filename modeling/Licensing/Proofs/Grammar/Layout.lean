import Licensing.Proofs.Grammar.Lexeme
import Licensing.Proofs.Outcome

/-! # Where tokens stand

A text that can be cut is its tokens in order, with white space between them, and each token has the place
where it stands (`Laid`).  So the range of a token is never empty and lies inside the text.  A text that
cannot be cut has, at the place of the fault, a character that occurs in no token and is no white space.

* `laid_of_scanFrom` — the tokens of a text.
* `covers_of_scan` — the tokens cover all but the white space, in order.
* `stray_of_scanFrom` — the fault of a text that cannot be cut.
-/

namespace Licensing.Token

/-- `Laid offset tokens text` — the text, which begins at `offset`, consists of the tokens, each at its place,
and of white space. -/
inductive Laid : (offset : Nat) → List Token → List Char → Prop
  | blank {offset : Nat} {space : List Char} (blank : ∀ c ∈ space, Text.isBlank c = true) : Laid offset [] space
  | cons {offset : Nat} {token : Token} {tokens : List Token} {rest : List Char} (space : List Char)
      (blank : ∀ c ∈ space, Text.isBlank c = true) (nonempty : token.text ≠ "")
      (solid : ∀ c ∈ token.text.toList, Text.isBlank c = false) (start : token.start = offset + space.length)
      (stop : token.stop = token.start + token.text.toList.length) (following : Laid token.stop tokens rest) :
      Laid offset (token :: tokens) (space ++ token.text.toList ++ rest)

/-- The token is a part of the text, and stands at its place. -/
structure StandsIn (token : Token) (text : List Char) : Prop where
  nonempty : token.text ≠ ""
  place : ∃ before after, text = before ++ token.text.toList ++ after ∧ token.start = before.length ∧
    token.stop = token.start + token.text.toList.length

theorem StandsIn.range {token : Token} {text : List Char} (stands : token.StandsIn text) :
    token.start < token.stop ∧ token.stop ≤ text.length := by
  obtain ⟨before, after, rfl, start, stop⟩ := stands.place
  have wide : 0 < token.text.toList.length := List.length_pos_iff.mpr (by simpa using stands.nonempty)
  simp only [List.length_append]
  omega

theorem Laid.exists_place {offset : Nat} {tokens : List Token} {text : List Char} (laid : Laid offset tokens text)
    {token : Token} (member : token ∈ tokens) :
    token.text ≠ "" ∧ ∃ before after, text = before ++ token.text.toList ++ after ∧
      token.start = offset + before.length ∧ token.stop = token.start + token.text.toList.length := by
  induction laid with
  | blank _ => cases member
  | @cons offset first tokens rest space _ nonempty _ start stop _ ih =>
    cases List.mem_cons.mp member with
    | inl same =>
      subst same
      exact ⟨nonempty, space, rest, rfl, start, stop⟩
    | inr later =>
      obtain ⟨nonempty', before, after, rfl, start', stop'⟩ := ih later
      refine ⟨nonempty', space ++ first.text.toList ++ before, after, by simp, ?_, stop'⟩
      simp only [List.length_append]
      omega

/-! ## Cutting -/

/-- White space in front. -/
theorem Laid.space {offset : Nat} {tokens : List Token} {rest : List Char} {c : Char} (blank : Text.isBlank c = true)
    (laid : Laid (offset + 1) tokens rest) : Laid offset tokens (c :: rest) := by
  cases laid with
  | blank all => exact .blank (List.forall_mem_cons.mpr ⟨blank, all⟩)
  | cons space all nonempty solid start stop following =>
    refine .cons (c :: space) (List.forall_mem_cons.mpr ⟨blank, all⟩) nonempty solid ?_ stop following
    simp only [List.length_cons]
    omega

theorem isBlank_of_isWordCharacter {c : Char} (letter : isWordCharacter c = true) : Text.isBlank c = false := by
  cases blank : Text.isBlank c with
  | false => rfl
  | true => simp [isWordCharacter_of_isBlank blank] at letter

/-- A word in front, as far as one was begun. -/
theorem Laid.word {offset : Nat} {tokens : List Token} {begun rest : List Char}
    (letters : ∀ c ∈ begun, isWordCharacter c = true) (laid : Laid (offset + begun.length) tokens rest) :
    Laid offset (wordBefore (offset + begun.length) begun ++ tokens) (begun.reverse ++ rest) := by
  cases begun with
  | nil => simpa using laid
  | cons c begun =>
    have solid : ∀ d ∈ (c :: begun).reverse, Text.isBlank d = false :=
      fun d member => isBlank_of_isWordCharacter (letters d (List.mem_reverse.mp member))
    have word := @Laid.cons offset
      ⟨symbolOf (String.ofList (c :: begun).reverse), String.ofList (c :: begun).reverse, offset,
        offset + (c :: begun).length⟩ tokens rest [] (by simp) (by simp) (by simpa using solid) (by simp)
      (by simp) laid
    simpa [wordBefore] using word

theorem isBlank_of_mark? {c : Char} {symbol : Symbol} (mark : mark? c = some symbol) : Text.isBlank c = false := by
  unfold mark? at mark
  split at mark
  next => decide
  next => decide
  next => decide
  next => cases mark

/-- A mark in front. -/
theorem Laid.mark {offset : Nat} {tokens : List Token} {rest : List Char} {c : Char} {symbol : Symbol}
    (mark : mark? c = some symbol) (laid : Laid (offset + 1) tokens rest) :
    Laid offset (⟨symbol, String.singleton c, offset, offset + 1⟩ :: tokens) (c :: rest) := by
  have single := @Laid.cons offset ⟨symbol, String.singleton c, offset, offset + 1⟩ tokens rest [] (by simp)
    (by simp) (by simpa using isBlank_of_mark? mark) (by simp) (by simp) laid
  simpa using single

/-- The tokens of a text behind a word that was begun, and of that word. -/
theorem laid_of_scanFrom {text begun : List Char} {offset : Nat} {tokens : List Token}
    (letters : ∀ c ∈ begun, isWordCharacter c = true)
    (scanned : scanFrom (offset + begun.length) begun text = .ok tokens) :
    Laid offset tokens (begun.reverse ++ text) := by
  induction text generalizing offset begun tokens with
  | nil =>
    obtain rfl := Except.ok.inj scanned
    simpa using Laid.word letters (@Laid.blank _ [] (by simp))
  | cons c text ih =>
    rw [scanFrom] at scanned
    split at scanned
    next letter =>
      have onward := @ih (c :: begun) offset tokens (List.forall_mem_cons.mpr ⟨letter, letters⟩) scanned
      simpa using onward
    next =>
      -- Whatever the character is, a word that was begun ends in front of it.
      split at scanned
      next blank =>
        obtain ⟨later, found, rfl⟩ := Outcome.map_eq_ok.mp scanned
        exact .word letters (.space blank (@ih [] _ _ (by simp) found))
      next =>
        split at scanned
        next symbol mark =>
          obtain ⟨later, found, rfl⟩ := Outcome.map_eq_ok.mp scanned
          exact .word letters (.mark mark (@ih [] _ _ (by simp) found))
        next => cases scanned

/-- The tokens of a text stand in it. -/
theorem standsIn_of_scan {text : List Char} {tokens : List Token} (scanned : scan text = .ok tokens) {token : Token}
    (member : token ∈ tokens) : token.StandsIn text := by
  have laid := @laid_of_scanFrom text [] 0 tokens (by simp) scanned
  obtain ⟨nonempty, before, after, split, start, stop⟩ := laid.exists_place member
  exact ⟨nonempty, before, after, by simpa using split, by simpa using start, stop⟩

theorem Laid.le_start {offset : Nat} {tokens : List Token} {text : List Char} (laid : Laid offset tokens text) :
    ∀ token ∈ tokens, offset ≤ token.start := by
  intro token member
  obtain ⟨-, before, after, -, start, -⟩ := laid.exists_place member
  omega

theorem Laid.apart {offset : Nat} {tokens : List Token} {text : List Char} (laid : Laid offset tokens text) :
    tokens.Pairwise fun token next => token.stop ≤ next.start := by
  induction laid with
  | blank _ => exact .nil
  | cons _ _ _ _ _ _ following ih => exact .cons following.le_start ih

/-- A character belongs to a token exactly if it is no white space. -/
theorem Laid.mem_iff {offset : Nat} {tokens : List Token} {text : List Char} (laid : Laid offset tokens text) {i : Nat}
    {c : Char} (here : text[i]? = some c) :
    (∃ token ∈ tokens, token.start ≤ offset + i ∧ offset + i < token.stop) ↔ Text.isBlank c = false := by
  induction laid generalizing i with
  | blank blank =>
    have white := blank c (List.mem_of_getElem? here)
    simp [white]
  | @cons offset first tokens rest space blank _ solid start stop following ih =>
    have behind := following.le_start
    rw [List.append_assoc] at here
    obtain inSpace | past := Nat.lt_or_ge i space.length
    · rw [List.getElem?_append_left inSpace] at here
      have white := blank c (List.mem_of_getElem? here)
      refine iff_of_false ?_ (by simp [white])
      rintro ⟨token, member, low, -⟩
      obtain rfl | later := List.mem_cons.mp member
      · omega
      · have := behind token later
        omega
    rw [List.getElem?_append_right past] at here
    obtain inFirst | past' := Nat.lt_or_ge (i - space.length) first.text.toList.length
    · rw [List.getElem?_append_left inFirst] at here
      exact iff_of_true ⟨first, List.mem_cons_self, by omega, by omega⟩ (solid c (List.mem_of_getElem? here))
    · rw [List.getElem?_append_right past'] at here
      rw [← ih here]
      have place : first.stop + (i - space.length - first.text.toList.length) = offset + i := by omega
      have outside : ¬ (first.start ≤ offset + i ∧ offset + i < first.stop) := by omega
      simp [place, outside]

/-- The tokens stand in the text, each behind the one before it, and the characters that belong to none of them are
the white space. -/
structure Covers (tokens : List Token) (text : List Char) : Prop where
  stands : ∀ token ∈ tokens, token.StandsIn text
  apart : tokens.Pairwise fun token next => token.stop ≤ next.start
  solid : ∀ i c, text[i]? = some c →
    ((∃ token ∈ tokens, token.start ≤ i ∧ i < token.stop) ↔ Text.isBlank c = false)

theorem covers_of_scan {text : List Char} {tokens : List Token} (scanned : scan text = .ok tokens) :
    Covers tokens text := by
  have laid : Laid 0 tokens text := @laid_of_scanFrom text [] 0 tokens (by simp) scanned
  exact ⟨fun token => standsIn_of_scan scanned, laid.apart, fun i c here => by simpa using laid.mem_iff here⟩

theorem Covers.nodup {text : List Char} {tokens : List Token} (covers : Covers tokens text) : tokens.Nodup := by
  refine covers.apart.imp_of_mem fun {token next} member _ apart same => ?_
  have range := (covers.stands token member).range
  rw [← same] at apart
  omega

/-! ## Characters that belong to no token -/

/-- A character that occurs in no token and is no white space. -/
def IsStray (c : Char) : Prop :=
  isWordCharacter c = false ∧ Text.isBlank c = false ∧ mark? c = none

/-- A text that cannot be cut, behind a word that was begun, has a stray character where the fault is. -/
theorem stray_of_scanFrom {text begun : List Char} {offset : Nat} {fault : ParseFault}
    (failed : scanFrom (offset + begun.length) begun text = .error fault) :
    ∃ before c after, text = before ++ c :: after ∧ IsStray c ∧
      fault = ⟨.unexpectedCharacter c, (offset + begun.length + before.length : Nat),
        (offset + begun.length + before.length : Nat) + 1⟩ := by
  induction text generalizing offset begun with
  | nil => cases failed
  | cons c text ih =>
    have later (offset' : Nat) (begun' : List Char) (place : offset' + begun'.length = offset + begun.length + 1)
        (failed' : scanFrom (offset' + begun'.length) begun' text = .error fault) :
        ∃ before d after, c :: text = before ++ d :: after ∧ IsStray d ∧
          fault = ⟨.unexpectedCharacter d, (offset + begun.length + before.length : Nat),
            (offset + begun.length + before.length : Nat) + 1⟩ := by
      obtain ⟨before, d, after, rfl, stray, same⟩ := ih failed'
      have shift : offset' + begun'.length + before.length = offset + begun.length + (c :: before).length := by
        simp only [List.length_cons]
        omega
      exact ⟨c :: before, d, after, rfl, stray, shift ▸ same⟩
    rw [scanFrom] at failed
    split at failed
    next => exact later offset (c :: begun) rfl failed
    next other =>
      split at failed
      next => exact later _ [] rfl (Outcome.map_eq_error.mp failed)
      next solid =>
        split at failed
        next => exact later _ [] rfl (Outcome.map_eq_error.mp failed)
        next unknown =>
          refine ⟨[], c, text, rfl, ⟨by simpa using other, by simpa using solid, unknown⟩, ?_⟩
          exact (Except.error.inj failed).symm

end Licensing.Token
