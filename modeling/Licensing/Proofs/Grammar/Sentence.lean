import Mathlib.Data.List.Chain
import Licensing.Proofs.Grammar.Lexeme

/-! # Sentences

The documented grammar lexed only which sequences of lexemes are expressions, and is ambiguous: it
joins any two sentences and leaves the order of operators to their precedence.

* `Sentence` — the sequences that the grammar gives.
* `InPlace` — a weaker, nearly local condition: neighbours may stand next to each other, and
  parentheses in front of `WITH` hold no `AND` and no `OR`.  Whether parentheses match it does not say.
* `Sentence.inPlace` — sentences meet the condition.
* `Sentence.exists_derives` — every sentence can be read with the precedence of operators.

Two pairs of parentheses that close at one place are the same pair, because a sentence, read from its
end, never opens more parentheses than were closed before (`pending`).
-/

namespace Licensing

/-- A license or a license with later versions, in any number of parentheses. -/
inductive SimpleSentence : List Lexeme → Prop
  | license {word : String} (name : Postfix.isSentinel word = false) : SimpleSentence [.word word]
  | orLater {word : String} (name : Postfix.isSentinel word = false) :
      SimpleSentence [.word word, .orLater]
  | parentheses {lexemes : List Lexeme} (inside : SimpleSentence lexemes) :
      SimpleSentence (.opening :: lexemes ++ [.closing])

/-- The expressions of the documented grammar. -/
inductive Sentence : List Lexeme → Prop
  | word {text : String} : Sentence [.word text]
  | orLater {word : String} (name : Postfix.isSentinel word = false) :
      Sentence [.word word, .orLater]
  | withException {operand : List Lexeme} {word : String} (simple : SimpleSentence operand)
      (name : Postfix.isSentinel word = false) :
      Sentence (operand ++ [.withException, .word word])
  | join {connective : Connective} {left right : List Lexeme} (first : Sentence left)
      (second : Sentence right) : Sentence (left ++ .join connective :: right)
  | parentheses {lexemes : List Lexeme} (inside : Sentence lexemes) :
      Sentence (.opening :: lexemes ++ [.closing])

/-! ## Neighbours -/

namespace Lexeme

/-- Whether an operand can begin with the lexeme. -/
def beginsOperand : Lexeme → Bool
  | .word _ | .opening => true
  | _ => false

/-- Whether an operand can end with the lexeme. -/
def endsOperand : Lexeme → Bool
  | .word _ | .orLater | .closing => true
  | _ => false

/-- Whether the second lexeme may stand directly behind the first one. -/
def mayFollow : (first second : Lexeme) → Bool
  | .opening, next | .join _, next => next.beginsOperand
  | .withException, .word _ => true
  | .withException, _ => false
  | .word _, .orLater => true
  | .word _, next | .orLater, next | .closing, next =>
    match next with
    | .withException | .join _ | .closing => true
    | _ => false

end Lexeme

/-- Every lexeme may stand behind the one before it. -/
def Neighbourly (lexemes : List Lexeme) : Prop :=
  lexemes.IsChain fun first second => first.mayFollow second = true

theorem Neighbourly.cons {first second : Lexeme} {rest : List Lexeme}
    (may : first.mayFollow second = true) (others : Neighbourly (second :: rest)) :
    Neighbourly (first :: second :: rest) :=
  List.IsChain.cons_cons may others

/-- The lexemes stand where a sentence can have them. -/
structure InPlace (lexemes : List Lexeme) : Prop where
  neighbourly : Neighbourly (.opening :: lexemes ++ [.closing])
  carriers : ∀ before inside after,
    lexemes = before ++ .opening :: inside ++ .closing :: .withException :: after →
    Sentence inside → ∀ connective, .join connective ∉ inside

theorem Lexeme.mayFollow_withException {last : Lexeme} (ends : last.endsOperand = true) :
    last.mayFollow .withException = true := by
  cases last <;> simp_all [endsOperand, mayFollow]

theorem Lexeme.mayFollow_join {last : Lexeme} (ends : last.endsOperand = true)
    (connective : Connective) : last.mayFollow (.join connective) = true := by
  cases last <;> simp_all [endsOperand, mayFollow]

theorem Lexeme.mayFollow_closing {last : Lexeme} (ends : last.endsOperand = true) :
    last.mayFollow .closing = true := by
  cases last <;> simp_all [endsOperand, mayFollow]

/-- What fits behind every end of an operand. -/
def Continues (rest : List Lexeme) : Prop :=
  ∀ last : Lexeme, last.endsOperand = true → Neighbourly (last :: rest)

variable {previous : Lexeme} {lexemes rest : List Lexeme}

theorem SimpleSentence.neighbourly (simple : SimpleSentence lexemes)
    (before : ∀ next : Lexeme, next.beginsOperand = true → previous.mayFollow next = true)
    (continues : Continues rest) : Neighbourly (previous :: lexemes ++ rest) := by
  induction simple generalizing previous rest with
  | license _ => exact .cons (before _ rfl) (continues _ rfl)
  | orLater _ => exact .cons (before _ rfl) (.cons rfl (continues _ rfl))
  | @parentheses inside _ ih =>
    have within := @ih .opening (.closing :: rest) (fun _ begins => begins)
      fun last ends => .cons (Lexeme.mayFollow_closing ends) (continues _ rfl)
    have whole : Neighbourly (previous :: .opening :: inside ++ .closing :: rest) :=
      .cons (before _ rfl) within
    simpa using whole

theorem Sentence.neighbourly (sentence : Sentence lexemes)
    (before : ∀ next : Lexeme, next.beginsOperand = true → previous.mayFollow next = true)
    (continues : Continues rest) : Neighbourly (previous :: lexemes ++ rest) := by
  induction sentence generalizing previous rest with
  | word => exact .cons (before _ rfl) (continues _ rfl)
  | orLater _ => exact .cons (before _ rfl) (.cons rfl (continues _ rfl))
  | @withException operand word simple _ =>
    have whole := @simple.neighbourly previous _ (.withException :: .word word :: rest) before
      fun last ends => .cons (Lexeme.mayFollow_withException ends)
        (.cons rfl (continues _ rfl))
    simpa using whole
  | @join connective left right _ _ ihLeft ihRight =>
    have second := @ihRight (.join connective) rest (fun _ begins => begins) continues
    have whole := @ihLeft previous (.join connective :: right ++ rest) before
      fun last ends => .cons (Lexeme.mayFollow_join ends connective) second
    simpa using whole
  | @parentheses inside _ ih =>
    have within := @ih .opening (.closing :: rest) (fun _ begins => begins)
      fun last ends => .cons (Lexeme.mayFollow_closing ends) (continues _ rfl)
    have whole : Neighbourly (previous :: .opening :: inside ++ .closing :: rest) :=
      .cons (before _ rfl) within
    simpa using whole

/-! ## Parentheses -/

/-- The number of parentheses that are closed and not yet opened, reading from the end with `n` of
them; none if one is opened that was not closed. -/
def pending : List Lexeme → Nat → Option Nat
  | [], n => some n
  | .closing :: rest, n => (pending rest n).map (· + 1)
  | .opening :: rest, n =>
    match pending rest n with
    | some (m + 1) => some m
    | _ => none
  | _ :: rest, n => pending rest n

theorem pending_append (left right : List Lexeme) (n : Nat) :
    pending (left ++ right) n = (pending right n).bind (pending left) := by
  induction left with
  | nil => cases found : pending right n <;> simp [pending, found]
  | cons l left ih =>
    cases found : pending right n with
    | none => cases l <;> simp_all [pending]
    | some m => cases l <;> simp_all [pending]

theorem pending_parentheses {inside : List Lexeme} (within : ∀ n, pending inside n = some n)
    (n : Nat) : pending (.opening :: inside ++ [.closing]) n = some n := by
  rw [List.cons_append, pending, pending_append]
  simp [pending, within]

theorem SimpleSentence.pending_eq (simple : SimpleSentence lexemes) (n : Nat) :
    pending lexemes n = some n := by
  induction simple generalizing n with
  | license _ | orLater _ => rfl
  | parentheses _ ih => exact pending_parentheses ih n

theorem Sentence.pending_eq (sentence : Sentence lexemes) (n : Nat) :
    pending lexemes n = some n := by
  induction sentence generalizing n with
  | word | orLater _ => rfl
  | withException simple _ => simp [pending_append, pending, simple.pending_eq]
  | join _ _ ihLeft ihRight => simp [pending_append, pending, ihLeft, ihRight]
  | parentheses _ ih => exact pending_parentheses ih n

/-- The parenthesis that matches a closing one is determined. -/
theorem eq_of_matching {before before' inside inside' : List Lexeme}
    (same : before ++ .opening :: inside = before' ++ .opening :: inside')
    (closed : pending inside 0 = some 0) (closed' : pending inside' 0 = some 0) :
    inside = inside' := by
  have open' {xs ys : List Lexeme} (ends : pending ys 0 = some 0) :
      pending (xs ++ .opening :: ys) 0 = none := by simp [pending_append, pending, ends]
  -- Otherwise the outer one of the two parts would open a parenthesis that is not closed in it.
  obtain ⟨gap, -, later⟩ | ⟨gap, -, later⟩ := List.append_eq_append_iff.mp same
  · cases gap with
    | nil => simpa using later
    | cons l gap =>
      obtain ⟨-, rfl⟩ := List.cons_eq_cons.mp later
      simp [open' closed'] at closed
  · cases gap with
    | nil => simpa using later.symm
    | cons l gap =>
      obtain ⟨-, rfl⟩ := List.cons_eq_cons.mp later
      simp [open' closed] at closed'

/-! ## What stands in front of `WITH` -/

theorem SimpleSentence.not_mem (simple : SimpleSentence lexemes) :
    .withException ∉ lexemes ∧ ∀ connective, .join connective ∉ lexemes := by
  induction simple with
  | license _ | orLater _ => simp
  | parentheses _ ih => simpa using ih

/-- Every `WITH` of a sentence stands behind a simple one. -/
theorem Sentence.exists_carrier (sentence : Sentence lexemes) {before after : List Lexeme}
    (here : lexemes = before ++ .withException :: after) :
    ∃ earlier operand, before = earlier ++ operand ∧ SimpleSentence operand := by
  induction sentence generalizing before after with
  | word | orLater _ => simp [List.cons_eq_append_iff] at here
  | @withException operand word simple _ =>
    obtain ⟨gap, rfl, later⟩ | ⟨gap, rfl, later⟩ := List.append_eq_append_iff.mp here
    · -- The keyword is the one behind the operand, or nothing is left of the phrase.
      cases gap with
      | nil => exact ⟨[], _, by simp, simple⟩
      | cons l gap => simp [List.cons_eq_append_iff] at later
    · cases gap with
      | nil => exact ⟨[], _, by simp, simple⟩
      | cons l gap =>
        obtain ⟨rfl, -⟩ := List.cons_eq_cons.mp later
        exact absurd (by simp) simple.not_mem.1
  | @join connective left right _ _ ihLeft ihRight =>
    obtain ⟨gap, rfl, later⟩ | ⟨gap, rfl, later⟩ := List.append_eq_append_iff.mp here
    · cases gap with
      | nil => simp at later
      | cons l gap =>
        obtain ⟨earlier, operand, rfl, simple⟩ := ihRight (List.cons_eq_cons.mp later).2
        exact ⟨left ++ l :: earlier, operand, by simp, simple⟩
    · cases gap with
      | nil => simp at later
      | cons l gap =>
        obtain ⟨rfl, -⟩ := List.cons_eq_cons.mp later
        exact ihLeft rfl
  | @parentheses inside _ ih =>
    cases before with
    | nil => simp at here
    | cons l before =>
      obtain ⟨-, within⟩ := List.cons_eq_cons.mp here
      obtain ⟨gap, rfl, later⟩ | ⟨gap, rfl, later⟩ := List.append_eq_append_iff.mp within
      · simp [List.cons_eq_append_iff] at later
      · cases gap with
        | nil => simp at later
        | cons l' gap =>
          obtain ⟨rfl, -⟩ := List.cons_eq_cons.mp later
          obtain ⟨earlier, operand, rfl, simple⟩ := ih rfl
          exact ⟨l :: earlier, operand, rfl, simple⟩

theorem Sentence.inPlace (sentence : Sentence lexemes) : InPlace lexemes where
  neighbourly := by
    refine sentence.neighbourly (fun _ begins => ?_) fun last ends => ?_
    · exact begins
    · exact .cons (Lexeme.mayFollow_closing ends) (.singleton _)
  carriers before inside after here within connective member := by
    have split : lexemes = (before ++ .opening :: inside ++ [.closing]) ++ .withException :: after := by
      simp [here]
    obtain ⟨earlier, operand, ends, simple⟩ := sentence.exists_carrier split
    have last := congrArg List.getLast? ends
    rw [List.getLast?_concat] at last
    cases simple with
    | license _ | orLater _ => simp at last
    | @parentheses inner simple =>
      have same : before ++ .opening :: inside = earlier ++ .opening :: inner := by
        have closed : (before ++ .opening :: inside) ++ [Lexeme.closing] =
            (earlier ++ .opening :: inner) ++ [Lexeme.closing] := by simpa using ends
        exact List.append_cancel_right closed
      obtain rfl := eq_of_matching same (within.pending_eq 0) (simple.pending_eq 0)
      exact simple.not_mem.2 connective member

/-! ## Precedence -/

variable {registry : Registry}

/-- A word alone names a license or is a sentinel. -/
theorem exists_derives_word {token : Token} (symbol : token.symbol = .word) (level : Nat) :
    ∃ e, Derives registry level [token] e := by
  cases special : Postfix.isSentinel token.text with
  | true => exact ⟨_, .sentinel symbol special⟩
  | false => exact ⟨_, .license symbol special⟩

theorem exists_derives_orLater {word : String} (name : Postfix.isSentinel word = false)
    {tokens : List Token} (lexed : tokens.map Token.lexeme = [.word word, .orLater]) {level : Nat}
    (loose : level ≤ Symbol.orLater.rank) :
    ∃ license, Derives registry level tokens (.orLater license) := by
  obtain ⟨token, others, rfl, isWord, rest⟩ := List.map_eq_cons_iff.mp lexed
  obtain ⟨plus, rfl, isPlus⟩ := List.map_eq_singleton_iff.mp rest
  obtain ⟨symbol, rfl⟩ := Token.lexeme_eq_word.mp isWord
  exact ⟨_, .orLater loose (Token.symbol_eq_of_lexeme isPlus) (.license symbol name)⟩

theorem SimpleSentence.exists_derives (simple : SimpleSentence lexemes) {tokens : List Token}
    (lexed : tokens.map Token.lexeme = lexemes) :
    ∃ term, Derives registry Symbol.orLater.rank tokens (.simple term) := by
  induction simple generalizing tokens with
  | license name =>
    obtain ⟨token, rfl, isWord⟩ := List.map_eq_singleton_iff.mp lexed
    obtain ⟨symbol, rfl⟩ := Token.lexeme_eq_word.mp isWord
    exact ⟨_, .license symbol name⟩
  | orLater name =>
    obtain ⟨license, derives⟩ := exists_derives_orLater name lexed (Nat.le_refl _)
    exact ⟨_, derives⟩
  | parentheses _ ih =>
    obtain ⟨opening, inside, closing, rfl, opens, closes, within⟩ := Token.exists_enclosed lexed
    obtain ⟨term, derives⟩ := ih within
    exact ⟨term, .parentheses opens closes (derives.loosen (by decide))⟩

/-- What is derived at the level of a connective is joined by it, or binds more tightly. -/
theorem Derives.joined_or_tighter {connective : Connective} {tokens : List Token} {e : Expression}
    (derives : Derives registry (Symbol.join connective).rank tokens e) :
    (∃ left operator right a b, tokens = left ++ operator :: right ∧
      operator.symbol = .join connective ∧
      Derives registry (Symbol.join connective).rank left a ∧
      Derives registry ((Symbol.join connective).rank + 1) right b) ∨
    Derives registry ((Symbol.join connective).rank + 1) tokens e := by
  have below : (Symbol.join connective).rank + 1 ≤ Symbol.withException.rank := by
    cases connective <;> decide
  cases derives with
  | sentinel word special => exact .inr (.sentinel word special)
  | license word plain => exact .inr (.license word plain)
  | orLater _ symbol operand => exact .inr (.orLater (Nat.le_trans below (by decide)) symbol operand)
  | withException _ symbol word plain operand =>
    exact .inr (.withException below symbol word plain operand)
  | @join _ other left right operator a b loose symbol first second =>
    by_cases same : other = connective
    · subst same
      exact .inl ⟨left, operator, right, a, b, rfl, symbol, first, second⟩
    · refine .inr (.join ?_ symbol first second)
      cases connective <;> cases other <;> simp_all [Symbol.rank]
  | parentheses opens closes inside => exact .inr (.parentheses opens closes inside)

/-- Two sequences of one level can be joined by the connective of that level. -/
theorem Derives.exists_append {connective : Connective} {left right : List Token}
    {operator : Token} {a b : Expression} (symbol : operator.symbol = .join connective)
    (first : Derives registry (Symbol.join connective).rank left a)
    (second : Derives registry (Symbol.join connective).rank right b) :
    ∃ e, Derives registry (Symbol.join connective).rank (left ++ operator :: right) e := by
  obtain ⟨middle, other, last, c, d, rfl, symbol', before, behind⟩ | tight :=
    second.joined_or_tighter
  · have shorter : middle.length < (middle ++ other :: last).length := by simp
    obtain ⟨e, start⟩ := Derives.exists_append symbol first before
    have whole := Derives.join (Nat.le_refl _) symbol' start behind
    exact ⟨_, by simpa using whole⟩
  · exact ⟨_, .join (Nat.le_refl _) symbol first tight⟩
termination_by right.length

/-- An `AND` in front of a sequence of alternatives belongs to the first of them. -/
theorem Derives.exists_and {left right : List Token} {operator : Token} {a b : Expression}
    (symbol : operator.symbol = .join .and)
    (first : Derives registry (Symbol.join .and).rank left a)
    (second : Derives registry (Symbol.join .or).rank right b) :
    ∃ e, Derives registry (Symbol.join .or).rank (left ++ operator :: right) e := by
  obtain ⟨middle, other, last, c, d, rfl, symbol', before, behind⟩ | tight :=
    second.joined_or_tighter
  · have shorter : middle.length < (middle ++ other :: last).length := by simp
    obtain ⟨e, start⟩ := Derives.exists_and symbol first before
    have whole := Derives.join (Nat.le_refl _) symbol' start behind
    exact ⟨_, by simpa using whole⟩
  · obtain ⟨e, both⟩ := Derives.exists_append symbol first tight
    exact ⟨e, both.loosen (by decide)⟩
termination_by right.length

/-- Sentences of the ambiguous grammar can be joined at the loosest level. -/
theorem Derives.exists_join {connective : Connective} {left right : List Token}
    {operator : Token} {a b : Expression} (symbol : operator.symbol = .join connective)
    (first : Derives registry (Symbol.join .or).rank left a)
    (second : Derives registry (Symbol.join .or).rank right b) :
    ∃ e, Derives registry (Symbol.join .or).rank (left ++ operator :: right) e := by
  cases connective with
  | or => exact Derives.exists_append symbol first second
  | and =>
    obtain ⟨before, other, last, c, d, rfl, symbol', start, behind⟩ | tight :=
      first.joined_or_tighter
    · -- Only the last alternative on the left is taken by the `AND`.
      obtain ⟨e, both⟩ := Derives.exists_and symbol behind second
      obtain ⟨e', whole⟩ := Derives.exists_append symbol' start both
      exact ⟨e', by simpa using whole⟩
    · exact Derives.exists_and symbol tight second

theorem Sentence.exists_derives (sentence : Sentence lexemes) {tokens : List Token}
    (lexed : tokens.map Token.lexeme = lexemes) :
    ∃ e, Derives registry (Symbol.join .or).rank tokens e := by
  induction sentence generalizing tokens with
  | word =>
    obtain ⟨token, rfl, isWord⟩ := List.map_eq_singleton_iff.mp lexed
    exact exists_derives_word (Token.lexeme_eq_word.mp isWord).1 _
  | orLater name =>
    have loose : (Symbol.join .or).rank ≤ Symbol.orLater.rank := by decide
    obtain ⟨license, derives⟩ := exists_derives_orLater name lexed loose
    exact ⟨_, derives⟩
  | withException simple name =>
    obtain ⟨left, right, rfl, first, last⟩ := List.map_eq_append_iff.mp lexed
    obtain ⟨keyword, others, rfl, isKeyword, last⟩ := List.map_eq_cons_iff.mp last
    obtain ⟨token, rfl, isWord⟩ := List.map_eq_singleton_iff.mp last
    obtain ⟨symbol, rfl⟩ := Token.lexeme_eq_word.mp isWord
    obtain ⟨term, operand⟩ := simple.exists_derives first
    exact ⟨_, .withException (by decide) (Token.symbol_eq_of_lexeme isKeyword) symbol name operand⟩
  | join _ _ ihLeft ihRight =>
    obtain ⟨left, right, rfl, first, rest⟩ := List.map_eq_append_iff.mp lexed
    obtain ⟨operator, others, rfl, isJoin, second⟩ := List.map_eq_cons_iff.mp rest
    obtain ⟨a, before⟩ := ihLeft first
    obtain ⟨b, behind⟩ := ihRight second
    exact Derives.exists_join (Token.symbol_eq_of_lexeme isJoin) before behind
  | parentheses _ ih =>
    obtain ⟨opening, inside, closing, rfl, opens, closes, within⟩ := Token.exists_enclosed lexed
    obtain ⟨e, derives⟩ := ih within
    exact ⟨e, .parentheses opens closes derives⟩

end Licensing
