import Licensing.Proofs.Grammar.Scanning

/-! # Lexemes and their spellings

A lexeme is what a token means, wherever the token stands and however its operator is written.  Many
texts spell the same lexemes: an operator may be written in any letter case, and there may be white
space of any kind around a lexeme.  It is needed only where two words would run together.

* `Spells` — the texts of some lexemes.
* `tokens_of_spells` — a text is cut into the lexemes that it spells.
-/

namespace Licensing

/-- What a token means. -/
inductive Lexeme where
  | opening
  | closing
  | orLater
  | withException
  | join (connective : Connective)
  | word (text : String)
deriving DecidableEq, Repr

def Token.lexeme (token : Token) : Lexeme :=
  match token.symbol with
  | .opening => .opening
  | .closing => .closing
  | .orLater => .orLater
  | .withException => .withException
  | .join connective => .join connective
  | .word => .word token.text

namespace Lexeme

def symbol : Lexeme → Symbol
  | .opening => .opening
  | .closing => .closing
  | .orLater => .orLater
  | .withException => .withException
  | .join connective => .join connective
  | .word _ => .word

/-- Whether a lexeme is written with letters, so that it can run together with the next one. -/
def isLettered : Lexeme → Bool
  | .withException | .join _ | .word _ => true
  | .opening | .closing | .orLater => false

/-- A way to write a lexeme. -/
inductive Spelled : Lexeme → List Char → Prop
  | opening : Spelled .opening ['(']
  | closing : Spelled .closing [')']
  | orLater : Spelled .orLater ['+']
  | withException {letters : List Char} (anyCase : letters.map Char.toUpper = ['W', 'I', 'T', 'H']) :
      Spelled .withException letters
  | join {connective : Connective} {letters : List Char}
      (anyCase : letters.map Char.toUpper = connective.word.toList) :
      Spelled (.join connective) letters
  | word {text : String} (characters : Token.IsWordText text)
      (name : Token.symbolOf text = .word) : Spelled (.word text) text.toList

end Lexeme

/-- `Spells lexemes text` — the text consists of the lexemes and of white space. -/
inductive Spells : List Lexeme → List Char → Prop
  | blank {space : List Char} (blank : ∀ c ∈ space, Text.isBlank c = true) : Spells [] space
  | cons {lexeme : Lexeme} {lexemes : List Lexeme} {rest : List Char} (space spelling : List Char)
      (blank : ∀ c ∈ space, Text.isBlank c = true) (spelled : lexeme.Spelled spelling)
      (apart : lexeme.isLettered = true → ∀ c ∈ rest.head?, Token.isWordCharacter c = false)
      (following : Spells lexemes rest) : Spells (lexeme :: lexemes) (space ++ spelling ++ rest)

/-- `Spells.cons` with conditions that can be computed. -/
theorem Spells.of_all {lexeme : Lexeme} {lexemes : List Lexeme} {rest : List Char}
    (space spelling : List Char) (blank : space.all Text.isBlank = true)
    (spelled : lexeme.Spelled spelling)
    (apart : (lexeme.isLettered && rest.head?.any Token.isWordCharacter) = false)
    (following : Spells lexemes rest) : Spells (lexeme :: lexemes) (space ++ spelling ++ rest) := by
  refine .cons space spelling (List.all_eq_true.mp blank) spelled (fun lettered c head => ?_) following
  rw [Option.mem_def] at head
  simpa [lettered, head] using apart

namespace Token

theorem symbol_eq_of_lexeme {token : Token} {lexeme : Lexeme} (lexed : token.lexeme = lexeme) :
    token.symbol = lexeme.symbol := by
  subst lexed
  unfold lexeme
  split <;> assumption

theorem lexeme_eq_word {token : Token} {text : String} :
    token.lexeme = .word text ↔ token.symbol = .word ∧ token.text = text := by
  unfold lexeme
  split <;> simp_all

theorem exists_enclosed {lexemes : List Lexeme} {tokens : List Token}
    (lexed : tokens.map Token.lexeme = .opening :: lexemes ++ [.closing]) :
    ∃ opening inside closing, tokens = opening :: inside ++ [closing] ∧
      opening.symbol = .opening ∧ closing.symbol = .closing ∧ inside.map Token.lexeme = lexemes := by
  obtain ⟨opening, others, rfl, opens, rest⟩ := List.map_eq_cons_iff.mp lexed
  obtain ⟨inside, right, rfl, within, last⟩ := List.map_eq_append_iff.mp rest
  obtain ⟨closing, rfl, closes⟩ := List.map_eq_singleton_iff.mp last
  exact ⟨opening, inside, closing, rfl, symbol_eq_of_lexeme opens, symbol_eq_of_lexeme closes, within⟩

/-! ## Characters -/

theorem isAlphanum_iff {c : Char} :
    c.isAlphanum = true ↔ (65 ≤ c.toNat ∧ c.toNat ≤ 90) ∨ (97 ≤ c.toNat ∧ c.toNat ≤ 122) ∨
      (48 ≤ c.toNat ∧ c.toNat ≤ 57) := by
  have upper : c.isUpper = decide (c.val ≥ 65 ∧ c.val ≤ 90) := rfl
  have lower : c.isLower = (decide (c.val ≥ 97) && decide (c.val ≤ 122)) := rfl
  have digit : c.isDigit = (decide (c.val ≥ 48) && decide (c.val ≤ 57)) := rfl
  have ranges : c.isAlphanum = (c.isUpper || c.isLower || c.isDigit) := rfl
  simp [ranges, upper, lower, digit, UInt32.le_iff_toNat_le, ← Char.toNat_val, or_assoc]

/-- White space does not occur in words. -/
theorem isWordCharacter_of_isBlank {c : Char} (blank : Text.isBlank c = true) :
    isWordCharacter c = false := by
  have mark (d : Char) (inside : Text.isBlank d = false) : c ≠ d := by
    rintro rfl
    simp [blank] at inside
  have other : c.isAlphanum = false := by
    -- Letters and digits lie in three ranges, and white space between or behind them.
    rw [Bool.eq_false_iff, Ne, isAlphanum_iff]
    simp only [Text.isBlank, Text.CodeRanges.has_iff, Text.blanks, List.mem_cons, List.not_mem_nil,
      or_false, exists_eq_or_imp, exists_eq_left] at blank
    omega
  simp [isWordCharacter, other, mark '-' (by decide), mark '_' (by decide), mark '.' (by decide),
    mark ':' (by decide)]

theorem isAlphanum_of_toUpper {c : Char} (letter : c.toUpper.isAlphanum = true) :
    c.isAlphanum = true := by
  unfold Char.toUpper at letter
  split at letter
  next lower =>
    simp only [UInt32.le_iff_toNat_le] at lower
    exact isAlphanum_iff.mpr (.inr (.inl lower))
  next => exact letter

/-- A keyword is a word in any letter case. -/
theorem isWordText_of_anyCase {letters keyword : List Char}
    (anyCase : letters.map Char.toUpper = keyword) (nonempty : keyword ≠ [])
    (alphanumeric : keyword.all Char.isAlphanum = true) : IsWordText (String.ofList letters) := by
  subst anyCase
  refine ⟨by simpa using nonempty, ?_⟩
  rw [String.toList_ofList, List.all_eq_true]
  intro c member
  have letter : c.toUpper.isAlphanum = true :=
    List.all_eq_true.mp alphanumeric _ (List.mem_map_of_mem member)
  simp [isWordCharacter, isAlphanum_of_toUpper letter]

/-! ## Cutting a spelled text -/

theorem scanFrom_blanks {space : List Char} (blank : ∀ c ∈ space, Text.isBlank c = true)
    (offset : Nat) (rest : List Char) :
    scanFrom offset [] (space ++ rest) = scanFrom (offset + space.length) [] rest := by
  induction space generalizing offset with
  | nil => rfl
  | cons c space ih =>
    have here : Text.isBlank c = true := blank c (by simp)
    have step : scanFrom offset [] (c :: (space ++ rest)) =
        scanFrom (offset + 1) [] (space ++ rest) := by
      rw [scanFrom, isWordCharacter_of_isBlank here, if_neg Bool.false_ne_true, if_pos here]
      cases scanFrom (offset + 1) [] (space ++ rest) <;> simp [Except.map]
    rw [List.cons_append, step, ih fun d member => blank d (.tail _ member)]
    congr 1
    simp only [List.length_cons]
    omega

/-- A spelling is one token, if no word goes on behind a word. -/
theorem scanFrom_spelled {lexeme : Lexeme} {spelling rest : List Char} {tokens : List Token}
    {offset : Nat} (spelled : lexeme.Spelled spelling)
    (apart : lexeme.isLettered = true → ∀ c ∈ rest.head?, isWordCharacter c = false)
    (scanned : scanFrom (offset + spelling.length) [] rest = .ok tokens) :
    ∃ token, scanFrom offset [] (spelling ++ rest) = .ok (token :: tokens) ∧
      token.lexeme = lexeme := by
  have lettered {letters : List Char} (word : IsWordText (String.ofList letters)) :=
    scanFrom_word word offset
  simp only [String.toList_ofList] at lettered
  cases spelled with
  | opening => exact ⟨_, scanFrom_mark rfl scanned, rfl⟩
  | closing => exact ⟨_, scanFrom_mark rfl scanned, rfl⟩
  | orLater => exact ⟨_, scanFrom_mark rfl scanned, rfl⟩
  | withException anyCase =>
    have word := isWordText_of_anyCase anyCase (by decide) (by decide)
    refine ⟨_, scanFrom_append_ok (apart rfl) (lettered word) scanned, ?_⟩
    simp [Token.lexeme, symbolOf, anyCase]
  | @join connective letters anyCase =>
    have known : connective.word.toList ≠ [] ∧ connective.word.toList.all Char.isAlphanum = true := by
      cases connective <;> decide
    have word := isWordText_of_anyCase anyCase known.1 known.2
    refine ⟨_, scanFrom_append_ok (apart rfl) (lettered word) scanned, ?_⟩
    cases connective <;> simp [Token.lexeme, symbolOf, anyCase, Connective.word]
  | word characters name =>
    refine ⟨_, scanFrom_append_ok (apart rfl) (scanFrom_word characters offset) scanned, ?_⟩
    exact lexeme_eq_word.mpr ⟨name, rfl⟩

/-- What a text spells is what it is cut into. -/
theorem tokens_of_spells {lexemes : List Lexeme} {text : List Char} (spells : Spells lexemes text)
    (offset : Nat) :
    ∃ tokens, scanFrom offset [] text = .ok tokens ∧ tokens.map lexeme = lexemes := by
  induction spells generalizing offset with
  | @blank space blank =>
    have all := scanFrom_blanks blank offset []
    rw [List.append_nil, scanFrom_nil] at all
    exact ⟨[], all, rfl⟩
  | cons space spelling blank spelled apart following ih =>
    obtain ⟨tokens, scanned, lexed⟩ := ih (offset + space.length + spelling.length)
    obtain ⟨token, first, head⟩ := scanFrom_spelled spelled apart scanned
    rw [List.append_assoc, scanFrom_blanks blank]
    exact ⟨_, first, by rw [List.map_cons, head, lexed]⟩

end Token

end Licensing
