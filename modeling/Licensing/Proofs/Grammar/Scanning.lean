import Licensing.Proofs.Grammar.Derivation

/-! # Texts of the grammar

Where a text is cut into tokens does not depend on what stands around it, as long as no word is cut
in two: `scanFrom_append`.  So the grammar can be stated for texts as well as for tokens.  `Writes`
says that a text has the tokens of an expression wherever it stands, and has one lemma for each way
to write an expression; `parse_of_writes` reads the expression back.
-/

namespace Licensing.Token

/-! ## Cutting a text -/

@[simp] theorem wordBefore_nil (offset : Nat) : wordBefore offset [] = [] := rfl

@[simp] theorem scanFrom_nil (offset : Nat) : scanFrom offset [] [] = .ok [] := rfl

/-- What is put in front of the first part stays in front of both. -/
theorem map_bind_append {f : List Token → List Token} (prepends : ∀ a b, f (a ++ b) = f a ++ b)
    (first second : Except ParseFault (List Token)) :
    (first.bind fun tokens => second.map (tokens ++ ·)).map f =
      (first.map f).bind fun tokens => second.map (tokens ++ ·) := by
  cases first with
  | error fault => rfl
  | ok tokens =>
    cases second with
    | error fault => rfl
    | ok following => simp [Except.bind, Except.map, prepends]

/-- A text is cut at a place where no word goes on as if the two parts stood alone. -/
theorem scanFrom_append {first second : List Char}
    (boundary : ∀ c ∈ second.head?, isWordCharacter c = false) (offset : Nat) (begun : List Char) :
    scanFrom offset begun (first ++ second) =
      (scanFrom offset begun first).bind fun tokens =>
        (scanFrom (offset + first.length) [] second).map (tokens ++ ·) := by
  induction first generalizing offset begun with
  | nil =>
    -- The word before the cut ends here, because the second text does not go on with it.
    cases second with
    | nil => simp [scanFrom, Except.bind, Except.map]
    | cons c rest =>
      have other : isWordCharacter c = false := boundary c (by simp)
      simp only [List.nil_append, List.length_nil, Nat.add_zero, scanFrom, other, Bool.false_eq_true,
        if_false, wordBefore_nil, Except.bind]
      split
      next => cases scanFrom (offset + 1) [] rest <;> simp [Except.map]
      next =>
        split
        next => cases scanFrom (offset + 1) [] rest <;> simp [Except.map]
        next => rfl
  | cons c first ih =>
    have shift : offset + (c :: first).length = offset + 1 + first.length := by
      simp only [List.length_cons]
      omega
    simp only [List.cons_append, scanFrom, shift]
    split
    next => exact ih (offset + 1) (c :: begun)
    next =>
      -- Whatever the character is, the word begun before is over, and the rest starts anew.
      rw [ih (offset + 1) []]
      split
      next => exact map_bind_append (by simp) _ _
      next =>
        split
        next => exact map_bind_append (by simp) _ _
        next => rfl

theorem scanFrom_append_ok {first second : List Char} {tokens following : List Token}
    {offset : Nat} (boundary : ∀ c ∈ second.head?, isWordCharacter c = false)
    (scanned : scanFrom offset [] first = .ok tokens)
    (scanned' : scanFrom (offset + first.length) [] second = .ok following) :
    scanFrom offset [] (first ++ second) = .ok (tokens ++ following) := by
  rw [scanFrom_append boundary, scanned, Except.bind, scanned']
  rfl

/-- Texts that can be a word. -/
def IsWordText (text : String) : Prop :=
  text ≠ "" ∧ text.toList.all isWordCharacter = true

instance (text : String) : Decidable (IsWordText text) :=
  inferInstanceAs (Decidable (_ ∧ _))

theorem scanFrom_wordCharacters {word : List Char} (all : ∀ c ∈ word, isWordCharacter c = true)
    (offset : Nat) (begun : List Char) :
    scanFrom offset begun word = .ok (wordBefore (offset + word.length) (word.reverse ++ begun)) := by
  induction word generalizing offset begun with
  | nil => simp [scanFrom]
  | cons c word ih =>
    have head : isWordCharacter c = true := all c (by simp)
    rw [scanFrom, if_pos head, ih fun d member => all d (.tail _ member)]
    simp only [List.length_cons, List.reverse_cons, List.append_assoc, List.cons_append,
      List.nil_append]
    congr 2
    omega

/-- A word alone is one token. -/
theorem scanFrom_word {word : String} (text : IsWordText word) (offset : Nat) :
    scanFrom offset [] word.toList =
      .ok [⟨symbolOf word, word, offset, offset + word.toList.length⟩] := by
  obtain ⟨nonempty, all⟩ := text
  have some : word.toList.reverse.isEmpty = false := by simpa using nonempty
  rw [scanFrom_wordCharacters (List.all_eq_true.mp all), List.append_nil, wordBefore, some]
  simp

/-- A mark is one token, whatever follows. -/
theorem scanFrom_mark {c : Char} {symbol : Symbol} (mark : mark? c = some symbol) {offset : Nat}
    {rest : List Char} {tokens : List Token} (scanned : scanFrom (offset + 1) [] rest = .ok tokens) :
    scanFrom offset [] (c :: rest) =
      .ok (⟨symbol, String.singleton c, offset, offset + 1⟩ :: tokens) := by
  have known : isWordCharacter c = false ∧ Text.isBlank c = false := by
    unfold mark? at mark
    split at mark
    next => decide
    next => decide
    next => decide
    next => cases mark
  rw [scanFrom, known.1, known.2, mark]
  simp [scanned, Except.map]

/-- Space in front of a text moves it. -/
theorem scanFrom_space (offset : Nat) (rest : List Char) :
    scanFrom offset [] (' ' :: rest) = scanFrom (offset + 1) [] rest := by
  have blank : Text.isBlank ' ' = true := by decide
  have other : isWordCharacter ' ' = false := by decide
  rw [scanFrom, other, if_neg Bool.false_ne_true, if_pos blank]
  cases scanFrom (offset + 1) [] rest <;> simp [Except.map]

/-- A keyword between spaces, and a text behind it. -/
theorem scanFrom_keyword {keyword : String} (text : IsWordText keyword) {following : String}
    {offset : Nat} {tokens : List Token}
    (scanned : scanFrom (offset + keyword.toList.length + 2) [] following.toList = .ok tokens) :
    ∃ token : Token, token.symbol = symbolOf keyword ∧
      scanFrom offset [] (" " ++ keyword ++ " " ++ following).toList = .ok (token :: tokens) := by
  have space : scanFrom (offset + 1 + keyword.toList.length) [] (' ' :: following.toList) =
      .ok tokens := by
    rw [scanFrom_space, ← scanned]
    congr 1
    omega
  have split : (" " ++ keyword ++ " " ++ following).toList =
      ' ' :: (keyword.toList ++ ' ' :: following.toList) := by simp
  -- The space behind the keyword keeps it apart from a text that begins with a word.
  have boundary : ∀ c ∈ (' ' :: following.toList).head?, isWordCharacter c = false := by
    simp [isWordCharacter]
  rw [split, scanFrom_space]
  exact ⟨_, rfl, scanFrom_append_ok boundary (scanFrom_word text (offset + 1)) space⟩

/-- A text that ends where a keyword begins. -/
theorem head_keyword (keyword following : String) :
    ∀ c ∈ (" " ++ keyword ++ " " ++ following).toList.head?, isWordCharacter c = false := by
  simp [isWordCharacter]

/-- A text in parentheses. -/
theorem scanFrom_enclosed {text : String} {offset : Nat} {tokens : List Token}
    (scanned : scanFrom (offset + 1) [] text.toList = .ok tokens) :
    ∃ opening closing : Token, opening.symbol = .opening ∧ closing.symbol = .closing ∧
      scanFrom offset [] ("(" ++ text ++ ")").toList = .ok (opening :: tokens ++ [closing]) := by
  have closing := scanFrom_mark (c := ')') rfl (scanFrom_nil (offset + 1 + text.toList.length + 1))
  have rest := scanFrom_append_ok (by simp [isWordCharacter]) scanned closing
  have split : ("(" ++ text ++ ")").toList = '(' :: (text.toList ++ [')']) := by simp
  rw [split]
  exact ⟨_, _, rfl, rfl, scanFrom_mark rfl rest⟩

/-- Two texts with the word of a connective between them. -/
theorem scanFrom_joined {connective : Connective} {left right : String} {offset : Nat} {tokens tokens' : List Token}
    (scanned : scanFrom offset [] left.toList = .ok tokens)
    (scanned' : scanFrom (offset + left.toList.length + connective.word.toList.length + 2) [] right.toList =
      .ok tokens') :
    ∃ operator : Token, operator.symbol = .join connective ∧
      scanFrom offset [] (left ++ (" " ++ connective.word ++ " ") ++ right).toList =
        .ok (tokens ++ operator :: tokens') := by
  have keyword : IsWordText connective.word ∧ symbolOf connective.word = .join connective := by
    cases connective <;> exact ⟨by decide, by decide⟩
  obtain ⟨token, symbol, following⟩ := scanFrom_keyword keyword.1 scanned'
  have whole := scanFrom_append_ok (head_keyword connective.word right) scanned following
  rw [← String.toList_append, ← String.append_assoc] at whole
  exact ⟨token, symbol.trans keyword.2, whole⟩

end Licensing.Token

namespace Licensing

open Token

/-- What passes from two texts to the text that joins them holds of a row of texts, joined from left to right. -/
theorem holds_of_intercalate {α : Type} {P Q : String → Expression → Prop} {connective : Connective}
    (join : ∀ {left right : String} {a b : Expression}, P left a → Q right b →
      P (left ++ (" " ++ connective.word ++ " ") ++ right) (Expression.combine connective a [b]))
    {text : α → String} {meaning : α → Expression} {parts : List α} {start : String} {a : Expression}
    (first : P start a) (others : ∀ p ∈ parts, Q (text p) (meaning p)) :
    P ((" " ++ connective.word ++ " ").intercalate (start :: parts.map text))
      ((parts.map meaning).foldl (fun e d => Expression.combine connective e [d]) a) := by
  induction parts generalizing start a with
  | nil => simpa using first
  | cons p parts ih =>
    obtain ⟨next, others⟩ := List.forall_mem_cons.mp others
    -- What has been joined so far takes the place of the first text.
    rw [List.map_cons, String.intercalate_cons_cons, ← String.intercalate_cons_append]
    exact ih (join first next) others

/-- A word that names a license or an exception: it is no operator and no sentinel. -/
structure IsName (word : String) : Prop where
  text : IsWordText word
  symbol : symbolOf word = .word
  plain : Postfix.isSentinel word = false

instance (word : String) : Decidable (IsName word) :=
  decidable_of_iff
    (IsWordText word ∧ symbolOf word = .word ∧ Postfix.isSentinel word = false)
    ⟨fun ⟨text, symbol, plain⟩ => ⟨text, symbol, plain⟩, fun name => ⟨name.1, name.2, name.3⟩⟩

/-- Wherever the text stands, its tokens write `e`, and each operator outside parentheses binds at
least as tightly as `level`. -/
def Writes (registry : Registry) (level : Nat) (text : String) (e : Expression) : Prop :=
  ∀ offset, ∃ tokens, scanFrom offset [] text.toList = .ok tokens ∧
    Derives registry level tokens e

namespace Writes

variable {registry : Registry} {level : Nat}

theorem loosen {low high : Nat} {text : String} {e : Expression}
    (writes : Writes registry high text e) (le : low ≤ high) : Writes registry low text e := by
  intro offset
  obtain ⟨tokens, scanned, derives⟩ := writes offset
  exact ⟨tokens, scanned, derives.loosen le⟩

theorem sentinel {name : String} (special : Postfix.isSentinel name = true) :
    Writes registry level name (.sentinel name) := by
  have known : name = "NONE" ∨ name = "NOASSERTION" := by simpa [Postfix.isSentinel] using special
  have word : IsWordText name ∧ symbolOf name = .word := by
    obtain rfl | rfl := known <;> exact ⟨by decide, by decide⟩
  intro offset
  exact ⟨_, scanFrom_word word.1 offset, .sentinel word.2 special⟩

theorem license {word : String} (name : IsName word) :
    Writes registry level word (.just (registry.readLicense word).named) :=
  fun offset => ⟨_, scanFrom_word name.text offset, .license name.symbol name.plain⟩

theorem orLater {text : String} {license : License} (loose : level ≤ Symbol.orLater.rank)
    (operand : Writes registry Symbol.orLater.rank text (.just license)) :
    Writes registry level (text ++ "+") (.orLater license) := by
  intro offset
  obtain ⟨tokens, scanned, derives⟩ := operand offset
  have plus := scanFrom_mark (c := '+') rfl (scanFrom_nil (offset + text.toList.length + 1))
  rw [String.toList_append]
  exact ⟨_, scanFrom_append_ok (by simp [isWordCharacter]) scanned plus, derives.orLater loose rfl⟩

theorem withException {text word : String} {term : SimpleTerm}
    (loose : level ≤ Symbol.withException.rank)
    (operand : Writes registry Symbol.orLater.rank text (.simple term)) (name : IsName word) :
    Writes registry level (text ++ " WITH " ++ word)
      (.withException term (registry.readException word).named) := by
  intro offset
  obtain ⟨tokens, scanned, derives⟩ := operand offset
  have keyword : IsWordText "WITH" := by decide
  obtain ⟨token, symbol, following⟩ := scanFrom_keyword keyword (scanFrom_word name.text _)
  have whole := scanFrom_append_ok (head_keyword "WITH" word) scanned following
  rw [← String.toList_append, ← String.append_assoc] at whole
  exact ⟨_, whole, derives.withException loose symbol name.symbol name.plain⟩

theorem join {connective : Connective} {left right : String} {a b : Expression}
    (loose : level ≤ (Symbol.join connective).rank)
    (first : Writes registry (Symbol.join connective).rank left a)
    (second : Writes registry ((Symbol.join connective).rank + 1) right b) :
    Writes registry level (left ++ (" " ++ connective.word ++ " ") ++ right)
      (Expression.combine connective a [b]) := by
  intro offset
  obtain ⟨tokens, scanned, derives⟩ := first offset
  obtain ⟨tokens', scanned', derives'⟩ := second _
  obtain ⟨operator, symbol, whole⟩ := scanFrom_joined scanned scanned'
  exact ⟨_, whole, derives.join loose symbol derives'⟩

theorem parentheses {text : String} {e : Expression}
    (inside : Writes registry (Symbol.join .or).rank text e) :
    Writes registry level ("(" ++ text ++ ")") e := by
  intro offset
  obtain ⟨tokens, scanned, derives⟩ := inside (offset + 1)
  obtain ⟨opening, closing, opens, closes, whole⟩ := scanFrom_enclosed scanned
  exact ⟨_, whole, derives.parentheses opens closes⟩

end Writes

/-- A text that writes an expression is read as that expression. -/
theorem Expression.parse_of_writes {registry : Registry} {text : String} {e : Expression}
    (writes : Writes registry (Symbol.join .or).rank text e) :
    Expression.parse registry text = .ok e := by
  obtain ⟨tokens, scanned, derives⟩ := writes 0
  rw [Expression.parse, scan, scanned]
  simp only [Expression.ofTokens_of_derives derives]
  rfl

end Licensing
