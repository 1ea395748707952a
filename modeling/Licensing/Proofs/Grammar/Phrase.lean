import Licensing.Proofs.Expression.Algebra
import Licensing.Proofs.Grammar.Lexeme

/-! # Phrases

The grammar in its plain form: a unit is a sentinel or a license with what belongs to it, units are
joined by `AND`, and what `AND` joins is joined by `OR`.  Any complete part may stand in parentheses.
`Phrase` gives with every phrase the expression that it denotes, built from the bottom up; how a text
may spell its lexemes is left to `Spells`.

Reading follows the order of precedence of `Derives`, where operators are joined one after the other
from left to right.  `Phrase.derives` takes a phrase there: the kinds of phrases are levels of
precedence, and a series of operands is the left fold of its connective.

* `parse_of_phrase` — every text that spells a phrase is read as what the phrase denotes.
-/

namespace Licensing

/-- The kinds of phrases, from the tightest to the loosest. -/
inductive PhraseKind where
  | license
  | term
  | unit
  | joined (connective : Connective)

/-- What a connective joins. -/
def PhraseKind.below : Connective → PhraseKind
  | .and => .unit
  | .or => .joined .and

mutual

/-- `Phrase registry kind lexemes e` — the lexemes are a phrase of this kind, and denote `e`. -/
inductive Phrase (registry : Registry) : PhraseKind → List Lexeme → Expression → Prop
  | license {word : String} (name : IsName word) :
      Phrase registry .license [.word word] (.just (registry.readLicense word).named)
  | exact {lexemes : List Lexeme} {license : License}
      (operand : Phrase registry .license lexemes (.just license)) :
      Phrase registry .term lexemes (.just license)
  | orLater {lexemes : List Lexeme} {license : License}
      (operand : Phrase registry .license lexemes (.just license)) :
      Phrase registry .term (lexemes ++ [.orLater]) (.orLater license)
  | sentinel {name : String} (special : Postfix.isSentinel name = true) :
      Phrase registry .unit [.word name] (.sentinel name)
  | simple {lexemes : List Lexeme} {term : SimpleTerm}
      (operand : Phrase registry .term lexemes (.simple term)) :
      Phrase registry .unit lexemes (.simple term)
  | withException {lexemes : List Lexeme} {term : SimpleTerm} {word : String}
      (operand : Phrase registry .term lexemes (.simple term)) (name : IsName word) :
      Phrase registry .unit (lexemes ++ [.withException, .word word])
        (.withException term (registry.readException word).named)
  | enclosed {lexemes : List Lexeme} {e : Expression}
      (inside : Phrase registry (.joined .or) lexemes e) :
      Phrase registry .unit (.opening :: lexemes ++ [.closing]) e
  | alone {connective : Connective} {lexemes : List Lexeme} {e : Expression}
      (operand : Phrase registry (.below connective) lexemes e) :
      Phrase registry (.joined connective) lexemes e
  | joined {connective : Connective} {first others : List Lexeme} {e : Expression}
      {es : List Expression} (head : Phrase registry (.below connective) first e)
      (tail : Series registry connective others es) :
      Phrase registry (.joined connective) (first ++ others) (Expression.combine connective e es)
  | parentheses {kind : PhraseKind} {lexemes : List Lexeme} {e : Expression}
      (inside : Phrase registry kind lexemes e) :
      Phrase registry kind (.opening :: lexemes ++ [.closing]) e

/-- One or more operands behind the first one, each with the connective in front of it. -/
inductive Series (registry : Registry) : Connective → List Lexeme → List Expression → Prop
  | last {connective : Connective} {lexemes : List Lexeme} {e : Expression}
      (operand : Phrase registry (.below connective) lexemes e) :
      Series registry connective (.join connective :: lexemes) [e]
  | more {connective : Connective} {lexemes others : List Lexeme} {e : Expression}
      {es : List Expression} (operand : Phrase registry (.below connective) lexemes e)
      (tail : Series registry connective others es) :
      Series registry connective (.join connective :: lexemes ++ others) (e :: es)

end

variable {registry : Registry}

/-! ## Canonical forms -/

mutual

theorem Phrase.canonical {kind : PhraseKind} {lexemes : List Lexeme} {e : Expression} :
    Phrase registry kind lexemes e → e.Canonical
  | .license _ | .sentinel _ | .exact _ | .orLater _ | .simple _ | .withException .. => by
    simp [Expression.Canonical]
  | .enclosed inside => inside.canonical
  | .alone operand => operand.canonical
  | .joined head tail => head.canonical.combine tail.canonical
  | .parentheses inside => inside.canonical

theorem Series.canonical {connective : Connective} {lexemes : List Lexeme} {es : List Expression} :
    Series registry connective lexemes es → ∀ e ∈ es, e.Canonical
  | .last operand => by simpa using operand.canonical
  | .more operand tail => by simpa using ⟨operand.canonical, tail.canonical⟩

end

/-! ## Phrases and precedence -/

/-- How tightly the operators outside parentheses bind in a phrase of this kind. -/
def PhraseKind.rank : PhraseKind → Nat
  | .license | .term => Symbol.orLater.rank
  | .unit => Symbol.withException.rank
  | .joined connective => (Symbol.join connective).rank

theorem PhraseKind.rank_below (connective : Connective) :
    (below connective).rank = (Symbol.join connective).rank + 1 := by
  cases connective <;> rfl

theorem PhraseKind.rank_or_le (kind : PhraseKind) : (joined .or).rank ≤ kind.rank := by
  match kind with
  | .license | .term | .unit => simp [rank, Symbol.rank]
  | .joined .and | .joined .or => simp [rank, Symbol.rank]

mutual

/-- A phrase is derived at the level of its kind. -/
theorem Phrase.derives {kind : PhraseKind} {lexemes : List Lexeme} {e : Expression} :
    Phrase registry kind lexemes e → ∀ tokens, tokens.map Token.lexeme = lexemes →
      Derives registry kind.rank tokens e
  | .license name, tokens, lexed => by
    obtain ⟨token, rfl, word⟩ := List.map_eq_singleton_iff.mp lexed
    obtain ⟨symbol, rfl⟩ := Token.lexeme_eq_word.mp word
    exact .license symbol name.plain
  | .exact operand, tokens, lexed => operand.derives tokens lexed
  | .orLater operand, tokens, lexed => by
    obtain ⟨left, right, rfl, first, last⟩ := List.map_eq_append_iff.mp lexed
    obtain ⟨plus, rfl, symbol⟩ := List.map_eq_singleton_iff.mp last
    exact .orLater (Nat.le_refl _) (Token.symbol_eq_of_lexeme symbol) (operand.derives left first)
  | .sentinel special, tokens, lexed => by
    obtain ⟨token, rfl, word⟩ := List.map_eq_singleton_iff.mp lexed
    obtain ⟨symbol, rfl⟩ := Token.lexeme_eq_word.mp word
    exact .sentinel symbol special
  | .simple operand, tokens, lexed =>
    (operand.derives tokens lexed).loosen (by simp [PhraseKind.rank, Symbol.rank])
  | .withException operand name, tokens, lexed => by
    obtain ⟨left, right, rfl, first, last⟩ := List.map_eq_append_iff.mp lexed
    obtain ⟨keyword, others, rfl, symbol, last⟩ := List.map_eq_cons_iff.mp last
    obtain ⟨token, rfl, word⟩ := List.map_eq_singleton_iff.mp last
    obtain ⟨isWord, rfl⟩ := Token.lexeme_eq_word.mp word
    exact .withException (Nat.le_refl _) (Token.symbol_eq_of_lexeme symbol) isWord name.plain
      (operand.derives left first)
  | .enclosed inside, tokens, lexed => by
    obtain ⟨opening, middle, closing, rfl, opens, closes, within⟩ := Token.exists_enclosed lexed
    exact .parentheses opens closes (inside.derives middle within)
  | .alone operand, tokens, lexed => by
    refine (operand.derives tokens lexed).loosen ?_
    rw [PhraseKind.rank_below]
    exact Nat.le_succ _
  | .joined head tail, tokens, lexed => by
    obtain ⟨left, right, rfl, first, others⟩ := List.map_eq_append_iff.mp lexed
    have start := (head.derives left first).loosen
      (Nat.le_trans (Nat.le_succ _) (Nat.le_of_eq (PhraseKind.rank_below _).symm))
    have folded := tail.derives right others left _ start
    rwa [Expression.foldl_combine_eq_combine head.canonical tail.canonical] at folded
  | @Phrase.parentheses _ kind _ _ inside, tokens, lexed => by
    obtain ⟨opening, middle, closing, rfl, opens, closes, within⟩ := Token.exists_enclosed lexed
    exact .parentheses opens closes ((inside.derives middle within).loosen kind.rank_or_le)

/-- The operands of a series are joined to what stands in front of it, one after the other. -/
theorem Series.derives {connective : Connective} {lexemes : List Lexeme} {es : List Expression} :
    Series registry connective lexemes es → ∀ tokens, tokens.map Token.lexeme = lexemes →
      ∀ left a, Derives registry (Symbol.join connective).rank left a →
        Derives registry (Symbol.join connective).rank (left ++ tokens)
          (es.foldl (fun e d => Expression.combine connective e [d]) a)
  | .last operand, tokens, lexed, left, a, start => by
    obtain ⟨operator, right, rfl, symbol, others⟩ := List.map_eq_cons_iff.mp lexed
    have second := operand.derives right others
    rw [PhraseKind.rank_below] at second
    exact .join (Nat.le_refl _) (Token.symbol_eq_of_lexeme symbol) start second
  | .more operand tail, tokens, lexed, left, a, start => by
    obtain ⟨operator, rest, rfl, symbol, others⟩ := List.map_eq_cons_iff.mp lexed
    obtain ⟨right, behind, rfl, first, later⟩ := List.map_eq_append_iff.mp others
    have second := operand.derives right first
    rw [PhraseKind.rank_below] at second
    have joined := Derives.join (Nat.le_refl _) (Token.symbol_eq_of_lexeme symbol) start second
    have folded := tail.derives behind later _ _ joined
    rwa [List.append_assoc, List.cons_append] at folded

end

/-- Whatever white space and letter case a phrase is written with, it is read as what it denotes. -/
theorem Expression.parse_of_phrase {lexemes : List Lexeme} {text : String} {e : Expression}
    (phrase : Phrase registry (.joined .or) lexemes e) (spells : Spells lexemes text.toList) :
    Expression.parse registry text = .ok e := by
  obtain ⟨tokens, scanned, lexed⟩ := Token.tokens_of_spells spells 0
  have derives := phrase.derives tokens lexed
  rw [Expression.parse, Token.scan, scanned]
  simp only [Expression.ofTokens_of_derives derives]
  rfl

/-- Parentheses around a license, an `OR` below an `AND`, mixed letter case and odd white space. -/
theorem Expression.parse_of_phrase_in_mixed_case :
    let registry : Registry := ⟨[{ id := "MIT" }], [{ id := "x" }]⟩
    let mit : Expression := .withException (.orLater (.standard "MIT")) (.standard "x")
    let e : Expression := mit.and (Expression.none.or (.just (.free ⟨"B", []⟩)))
    let lexemes : List Lexeme :=
      [.opening, .word "MIT", .closing, .orLater, .withException, .word "x", .join .and,
        .opening, .word "NONE", .join .or, .word "B", .closing]
    let text := "(MIT )+\twiTH x aNd(NONE\n or B) "
    Phrase registry (.joined .or) lexemes e ∧ Spells lexemes text.toList ∧
      Expression.parse registry text = .ok e := by
  intro registry mit e lexemes text
  have phrase : Phrase registry (.joined .or) lexemes e := by
    have first : Phrase registry .unit
        [.opening, .word "MIT", .closing, .orLater, .withException, .word "x"] mit :=
      .withException (.orLater (.parentheses (.license (by decide)))) (by decide)
    have none : Phrase registry (.joined .and) [.word "NONE"] Expression.none :=
      .alone (.sentinel (by decide))
    have other : Phrase registry (.joined .and) [.word "B"] (.just (.free ⟨"B", []⟩)) :=
      .alone (.simple (.exact (.license (by decide))))
    have choice : Phrase registry .unit
        [.opening, .word "NONE", .join .or, .word "B", .closing] (Expression.none.or _) :=
      .enclosed (.joined none (.last other))
    exact .alone (@Phrase.joined registry .and _ _ _ _ first (.last choice))
  have spells : Spells lexemes text.toList := by
    have characters : text.toList =
        ['(', 'M', 'I', 'T', ' ', ')', '+', '\t', 'w', 'i', 'T', 'H', ' ', 'x', ' ', 'a', 'N', 'd',
          '(', 'N', 'O', 'N', 'E', '\n', ' ', 'o', 'r', ' ', 'B', ')', ' '] := by decide
    rw [characters]
    refine .of_all [] ['('] (by decide) .opening (by decide) ?_
    refine .of_all [] ['M', 'I', 'T'] (by decide) (.word (by decide) (by decide)) (by decide) ?_
    refine .of_all [' '] [')'] (by decide) .closing (by decide) ?_
    refine .of_all [] ['+'] (by decide) .orLater (by decide) ?_
    refine .of_all ['\t'] ['w', 'i', 'T', 'H'] (by decide) (.withException (by decide)) (by decide) ?_
    refine .of_all [' '] ['x'] (by decide) (.word (by decide) (by decide)) (by decide) ?_
    refine .of_all [' '] ['a', 'N', 'd'] (by decide) (.join (by decide)) (by decide) ?_
    refine .of_all [] ['('] (by decide) .opening (by decide) ?_
    refine .of_all [] ['N', 'O', 'N', 'E'] (by decide) (.word (by decide) (by decide)) (by decide) ?_
    refine .of_all ['\n', ' '] ['o', 'r'] (by decide) (.join (by decide)) (by decide) ?_
    refine .of_all [' '] ['B'] (by decide) (.word (by decide) (by decide)) (by decide) ?_
    refine .of_all [] [')'] (by decide) .closing (by decide) ?_
    exact .blank (List.all_eq_true.mp (by decide))
  exact ⟨phrase, spells, parse_of_phrase phrase spells⟩

end Licensing
