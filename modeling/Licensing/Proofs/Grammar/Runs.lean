import Mathlib.Data.List.TakeWhile
import Licensing.Proofs.Grammar.Sentence
import Licensing.Proofs.Outcome

/-! # Runs of the reader

Tokens are first put into postfix order, and then carried out on a stack of expressions.  `Runs` is
both passes together, from the middle of a text on: what waits, what is still to come, and the stack
that has been built before.  One lemma for each kind of token says what a run that succeeds does
first, and how it goes on.

A word looks ahead to the token behind it in postfix order.  Where the lexemes are neighbourly, that
token is no `WITH` behind a license (`startsPlain_of_arrangeFrom`), and the keyword comes directly behind
the name of its exception.
-/

namespace Licensing.Postfix

variable {registry : Registry}

/-- A run that succeeds: the rest of the tokens, arranged behind those that wait, takes the stack to
its end. -/
def Runs (registry : Registry) (waiting tokens : List Token) (stack result : List Expression) : Prop :=
  ∃ out, arrangeFrom waiting tokens = .ok out ∧
    (steps out).foldlM (perform registry) stack = .ok result

/-- The rest of a text goes on as it may behind a lexeme. -/
def Follows (last : Lexeme) (rest : List Token) : Prop :=
  Neighbourly (last :: rest.map Token.lexeme ++ [.closing])

theorem Follows.head {last : Lexeme} {token : Token} {rest : List Token}
    (follows : Follows last (token :: rest)) :
    last.mayFollow token.lexeme = true ∧ Follows token.lexeme rest :=
  List.isChain_cons_cons.mp follows

/-! ## Operators that wait -/

/-- Whether an operator sends on one that waits. -/
def due (operator w : Token) : Bool :=
  operator.symbol.rank ≤ w.symbol.rank

theorem arrangeFrom_eq_of_operator {token : Token} (operator : IsOperator token.symbol)
    (waiting rest : List Token) :
    arrangeFrom waiting (token :: rest) =
      (arrangeFrom (token :: waiting.dropWhile (due token)) rest).map
        (waiting.takeWhile (due token) ++ ·) := by
  obtain ⟨notWord, notOpening, notClosing⟩ := operator
  rw [arrangeFrom]
  split
  next found => exact absurd found notWord
  next found => exact absurd found notOpening
  next found => exact absurd found notClosing
  next => rfl

/-- What waits are parentheses and connectives. -/
def Quiet (waiting : List Token) : Prop :=
  ∀ w ∈ waiting, w.symbol = .opening ∨ ∃ connective, w.symbol = .join connective

theorem Quiet.cons {w : Token} {waiting : List Token}
    (kind : w.symbol = .opening ∨ ∃ connective, w.symbol = .join connective)
    (quiet : Quiet waiting) : Quiet (w :: waiting) := by
  intro w' member
  cases List.mem_cons.mp member with
  | inl same => exact same ▸ kind
  | inr later => exact quiet w' later

theorem Quiet.of_subset {some waiting : List Token} (quiet : Quiet waiting) (within : some ⊆ waiting) :
    Quiet some :=
  fun w member => quiet w (within member)

theorem Quiet.rank_lt {waiting : List Token} (quiet : Quiet waiting) {w : Token}
    (member : w ∈ waiting) : w.symbol.rank < Symbol.withException.rank := by
  obtain opens | ⟨connective, joins⟩ := quiet w member
  · simp [opens, Symbol.rank]
  · rw [joins]
    cases connective <;> decide

theorem Quiet.below {waiting : List Token} (quiet : Quiet waiting) :
    Below Symbol.withException.rank waiting :=
  fun _ head => quiet.rank_lt (List.mem_of_mem_head? head)

theorem Quiet.startsPlain_append {waiting rest : List Token} (quiet : Quiet waiting)
    (plain : StartsPlain rest) : StartsPlain (waiting ++ rest) := by
  cases waiting with
  | nil => exact plain
  | cons w waiting =>
    intro t head
    obtain rfl : w = t := by simpa using head
    intro keyword
    simpa [keyword] using quiet.rank_lt (List.mem_cons_self)

/-- An operator that binds more tightly than what waits has to wait as well. -/
theorem arrangeFrom_waits {waiting : List Token} {operator : Token}
    (known : IsOperator operator.symbol) (below : Below operator.symbol.rank waiting)
    (rest : List Token) :
    arrangeFrom waiting (operator :: rest) = arrangeFrom (operator :: waiting) rest := by
  have sent := @arrangeFrom_operator operator known [] waiting (by simp) below rest
  rw [List.nil_append] at sent
  rw [sent]
  cases arrangeFrom (operator :: waiting) rest <;> rfl

/-- A closing parenthesis needs an opening one that waits, and sends on what waits above it. -/
theorem exists_of_arrangeFrom_closing {closing : Token} (closes : closing.symbol = .closing)
    {waiting rest out : List Token} (arranged : arrangeFrom waiting (closing :: rest) = .ok out) :
    ∃ opening outside out', waiting.dropWhile (!isOpening ·) = opening :: outside ∧
      arrangeFrom outside rest = .ok out' ∧ out = waiting.takeWhile (!isOpening ·) ++ out' := by
  simp only [arrangeFrom, closes] at arranged
  split at arranged
  next => cases arranged
  next opening outside found =>
    obtain ⟨out', below, rfl⟩ := Outcome.map_eq_ok.mp arranged
    exact ⟨opening, outside, out', found, below, rfl⟩

/-- What sends on everything of a rank. -/
def Sends (rank : Nat) (rest : List Token) : Prop :=
  ∀ t ∈ rest.head?, t.symbol = .closing ∨ IsOperator t.symbol ∧ t.symbol.rank ≤ rank

theorem arrangeFrom_cons_of_sends {operator : Token} {rest : List Token}
    (notOpening : operator.symbol ≠ .opening) (sends : Sends operator.symbol.rank rest)
    (waiting : List Token) :
    arrangeFrom (operator :: waiting) rest = (arrangeFrom waiting rest).map (operator :: ·) := by
  cases rest with
  | nil => rfl
  | cons t rest =>
    obtain closes | ⟨known, le⟩ := sends t (by simp)
    · have passed : (!isOpening operator) = true := by simpa [isOpening] using notOpening
      simp only [arrangeFrom, closes, List.dropWhile_cons, List.takeWhile_cons, passed, if_true]
      split
      next => rfl
      next => exact (map_append_map [operator] _ _).symm
    · have passed : due t operator = true := by simpa [due] using le
      rw [arrangeFrom_eq_of_operator known, arrangeFrom_eq_of_operator known]
      simp only [List.dropWhile_cons, List.takeWhile_cons, passed, if_true]
      exact (map_append_map [operator] _ _).symm

theorem rank_join_le (connective : Connective) :
    (Symbol.join connective).rank ≤ Symbol.withException.rank := by
  cases connective <;> decide

/-- Behind an operand there is nothing that begins another one, and a plus sign behind a word only. -/
theorem Follows.cases {last : Lexeme} {t : Token} {rest : List Token}
    (ends : last.endsOperand = true) (follows : Follows last (t :: rest)) :
    (t.symbol = .closing ∨ IsOperator t.symbol ∧ t.symbol.rank ≤ Symbol.withException.rank) ∨
      t.symbol = .orLater ∧ ∃ word, last = .word word := by
  have may := follows.head.1
  cases found : t.lexeme with
  | opening | word _ => cases last <;> simp_all [Lexeme.mayFollow, Lexeme.endsOperand]
  | closing => exact .inl (.inl (Token.symbol_eq_of_lexeme found))
  | withException =>
    have symbol : t.symbol = .withException := Token.symbol_eq_of_lexeme found
    exact .inl (.inr (by simp [symbol, IsOperator]))
  | join connective =>
    have symbol : t.symbol = .join connective := Token.symbol_eq_of_lexeme found
    exact .inl (.inr (by simp [symbol, IsOperator, rank_join_le]))
  | orLater =>
    have symbol : t.symbol = .orLater := Token.symbol_eq_of_lexeme found
    refine .inr ⟨symbol, ?_⟩
    cases last <;> simp_all [Lexeme.mayFollow, Lexeme.endsOperand]

theorem Follows.sends {last : Lexeme} {rest : List Token} (ends : last.endsOperand = true)
    (other : ∀ word, last ≠ .word word) (follows : Follows last rest) :
    Sends Symbol.withException.rank rest := by
  cases rest with
  | nil => simp [Sends]
  | cons t rest =>
    obtain sent | ⟨-, word, same⟩ := follows.cases ends
    · simpa [Sends] using sent
    · exact absurd same (other word)

/-- Behind `WITH` there is a word. -/
theorem Follows.exists_word {last : Lexeme} {rest : List Token} (follows : Follows last rest)
    (keyword : last = .withException) :
    ∃ token others, rest = token :: others ∧ token.symbol = .word := by
  subst keyword
  cases rest with
  | nil => simp [Follows, Neighbourly, Lexeme.mayFollow] at follows
  | cons t rest =>
    have may := follows.head.1
    refine ⟨t, rest, rfl, ?_⟩
    cases found : t.lexeme with
    | word text => exact (Token.lexeme_eq_word.mp found).1
    | opening | closing | orLater | withException | join _ => simp [found, Lexeme.mayFollow] at may

theorem Sends.mono {low high : Nat} {rest : List Token} (sends : Sends low rest) (le : low ≤ high) :
    Sends high rest :=
  fun t head => (sends t head).imp_right fun ⟨known, bound⟩ => ⟨known, Nat.le_trans bound le⟩

/-- A plus sign waits only until the next token. -/
theorem arrangeFrom_orLater {waiting rest : List Token} {plus : Token}
    (symbol : plus.symbol = .orLater) (below : Below Symbol.orLater.rank waiting)
    (follows : Follows plus.lexeme rest) :
    arrangeFrom waiting (plus :: rest) = (arrangeFrom waiting rest).map (plus :: ·) := by
  have ends : plus.lexeme = .orLater := by simp [Token.lexeme, symbol]
  rw [ends] at follows
  have sends := (follows.sends rfl (by simp)).mono (by decide : _ ≤ Symbol.orLater.rank)
  rw [← symbol] at sends below
  rw [arrangeFrom_waits (by simp [symbol, IsOperator]) below,
    arrangeFrom_cons_of_sends (by simp [symbol]) sends]

theorem arrangeFrom_withException {waiting rest : List Token} {keyword word : Token}
    (symbol : keyword.symbol = .withException) (isWord : word.symbol = .word)
    (quiet : Quiet waiting) :
    arrangeFrom waiting (keyword :: word :: rest) =
      (arrangeFrom (keyword :: waiting) rest).map (word :: ·) := by
  have below : Below keyword.symbol.rank waiting := by
    rw [symbol]
    exact quiet.below
  rw [arrangeFrom_waits (by simp [symbol, IsOperator]) below, arrangeFrom_word isWord]

/-! ## What comes out first -/

/-- Where the lexemes are neighbourly, the exception of a `WITH` comes out before the keyword. -/
theorem startsPlain_of_arrangeFrom {waiting rest out : List Token} {last : Lexeme}
    (quiet : Quiet waiting) (other : last ≠ .withException) (follows : Follows last rest)
    (arranged : arrangeFrom waiting rest = .ok out) : StartsPlain out := by
  induction rest generalizing waiting out last with
  | nil =>
    obtain rfl := Except.ok.inj arranged
    have plain : StartsPlain (waiting ++ []) := quiet.startsPlain_append (by simp [StartsPlain])
    simpa using plain
  | cons t rest ih =>
    obtain ⟨may, behind⟩ := follows.head
    cases found : t.lexeme with
    | word text =>
      have symbol : t.symbol = .word := Token.symbol_eq_of_lexeme found
      rw [arrangeFrom_word symbol] at arranged
      obtain ⟨out, -, rfl⟩ := Outcome.map_eq_ok.mp arranged
      simp [StartsPlain, symbol]
    | opening =>
      have symbol : t.symbol = .opening := Token.symbol_eq_of_lexeme found
      rw [arrangeFrom_opening symbol] at arranged
      exact ih (quiet.cons (.inl symbol)) (by simp [found]) behind arranged
    | closing =>
      have symbol : t.symbol = .closing := Token.symbol_eq_of_lexeme found
      obtain ⟨opening, outside, out, split, below, rfl⟩ :=
        exists_of_arrangeFrom_closing symbol arranged
      have within : outside ⊆ waiting := by
        intro w member
        apply (List.dropWhile_sublist _).subset
        exact split ▸ List.mem_cons_of_mem _ member
      have plain := ih (quiet.of_subset within) (by simp [found]) behind below
      exact (quiet.of_subset (List.takeWhile_sublist _).subset).startsPlain_append plain
    | join connective =>
      have symbol : t.symbol = .join connective := Token.symbol_eq_of_lexeme found
      rw [arrangeFrom_eq_of_operator (by simp [symbol, IsOperator])] at arranged
      obtain ⟨out, below, rfl⟩ := Outcome.map_eq_ok.mp arranged
      have onward := (quiet.of_subset (List.dropWhile_sublist (due t)).subset).cons
        (.inr ⟨connective, symbol⟩)
      have plain := ih onward (by simp [found]) behind below
      exact (quiet.of_subset (List.takeWhile_sublist _).subset).startsPlain_append plain
    | orLater =>
      have symbol : t.symbol = .orLater := Token.symbol_eq_of_lexeme found
      rw [arrangeFrom_orLater symbol (quiet.below.mono (by decide)) behind] at arranged
      obtain ⟨out, -, rfl⟩ := Outcome.map_eq_ok.mp arranged
      simp [StartsPlain, symbol]
    | withException =>
      have symbol : t.symbol = .withException := Token.symbol_eq_of_lexeme found
      obtain ⟨word, rest, rfl, isWord⟩ := behind.exists_word found
      rw [arrangeFrom_withException symbol isWord quiet] at arranged
      obtain ⟨out, -, rfl⟩ := Outcome.map_eq_ok.mp arranged
      simp [StartsPlain, isWord]

/-! ## The first step of a run -/

/-- A run of one step and then others. -/
theorem foldlM_cons_eq_ok {step : Step} {others : List Step} {stack result : List Expression} :
    (step :: others).foldlM (perform registry) stack = .ok result ↔
      ∃ next, perform registry stack step = .ok next ∧
        others.foldlM (perform registry) next = .ok result :=
  Outcome.bind_eq_ok

theorem foldlM_append_eq_ok {first second : List Step} {stack result : List Expression} :
    (first ++ second).foldlM (perform registry) stack = .ok result ↔
      ∃ next, first.foldlM (perform registry) stack = .ok next ∧
        second.foldlM (perform registry) next = .ok result := by
  rw [List.foldlM_append]
  exact Outcome.bind_eq_ok

/-- Only a word looks ahead. -/
theorem steps_cons {token : Token} (other : token.symbol ≠ .word) (rest : List Token) :
    steps (token :: rest) = stepOf token :: steps rest := by
  cases rest with
  | nil => rfl
  | cons next rest => simp [steps, other]

theorem perform_ne_nil {stack next : List Expression} {step : Step}
    (performed : perform registry stack step = .ok next) : next ≠ [] := by
  cases step with
  | sentinel _ | license _ =>
    cases performed
    simp
  | attach word operator =>
    simp only [perform, attach] at performed
    split at performed <;> cases performed
    simp
  | misplaced _ | unclosed _ => cases performed
  | join connective operator =>
    simp only [perform, join] at performed
    split at performed <;> cases performed
    simp
  | extend operator =>
    simp only [perform, extend] at performed
    split at performed <;> cases performed
    simp

theorem foldlM_perform_ne_nil {list : List Step} {stack result : List Expression}
    (nonempty : stack ≠ []) (ran : list.foldlM (perform registry) stack = .ok result) :
    result ≠ [] :=
  Outcome.foldlM_invariant (P := (· ≠ [])) nonempty
    (fun _ _ _ _ _ performed => perform_ne_nil performed) ran

/-- What a word alone means. -/
def meaning (registry : Registry) (word : String) : Expression :=
  if isSentinel word then .sentinel word else .just (registry.readLicense word).named

theorem perform_stepOf_word {token : Token} (word : token.symbol = .word)
    (stack : List Expression) :
    perform registry stack (stepOf token) = .ok (meaning registry token.text :: stack) := by
  unfold stepOf meaning
  simp only [word]
  split <;> rfl

section Runs

variable {waiting rest : List Token} {stack result : List Expression} {e : Expression} {t : Token}

theorem Runs.opening (symbol : t.symbol = .opening)
    (runs : Runs registry waiting (t :: rest) stack result) :
    Runs registry (t :: waiting) rest stack result := by
  rwa [Runs, arrangeFrom_opening symbol] at runs

theorem Runs.word (symbol : t.symbol = .word) (quiet : Quiet waiting)
    (follows : Follows t.lexeme rest) (runs : Runs registry waiting (t :: rest) stack result) :
    Runs registry waiting rest (meaning registry t.text :: stack) result := by
  obtain ⟨out, arranged, ran⟩ := runs
  rw [arrangeFrom_word symbol] at arranged
  obtain ⟨out, below, rfl⟩ := Outcome.map_eq_ok.mp arranged
  have other : t.lexeme ≠ .withException := by
    intro same
    simpa [symbol, Lexeme.symbol] using Token.symbol_eq_of_lexeme same
  -- What comes out behind the word is no `WITH`, so the word is a step of its own.
  have plain := startsPlain_of_arrangeFrom quiet other follows below
  rw [← List.singleton_append, steps_append plain] at ran
  obtain ⟨next, first, later⟩ := foldlM_cons_eq_ok.mp ran
  rw [perform_stepOf_word symbol] at first
  exact ⟨out, below, Except.ok.inj first ▸ later⟩

/-- A plus sign needs a license. -/
theorem Runs.orLater (symbol : t.symbol = .orLater) (quiet : Quiet waiting)
    (follows : Follows t.lexeme rest)
    (runs : Runs registry waiting (t :: rest) (e :: stack) result) :
    ∃ license, e = .just license ∧ Runs registry waiting rest (.orLater license :: stack) result := by
  obtain ⟨out, arranged, ran⟩ := runs
  rw [arrangeFrom_orLater symbol (quiet.below.mono (by decide)) follows] at arranged
  obtain ⟨out, below, rfl⟩ := Outcome.map_eq_ok.mp arranged
  rw [steps_cons (by simp [symbol])] at ran
  obtain ⟨next, first, later⟩ := foldlM_cons_eq_ok.mp ran
  simp only [stepOf, symbol, perform, extend] at first
  split at first
  next empty => cases empty
  next license others same =>
    cases first
    obtain ⟨rfl, rfl⟩ := List.cons_eq_cons.mp same
    exact ⟨license, rfl, out, below, later⟩
  next => cases first

/-- The keyword of exceptions, with no name in front of it, is an error. -/
theorem not_foldlM_misplaced {keyword : Token} (symbol : keyword.symbol = .withException)
    (out : List Token) :
    (steps (keyword :: out)).foldlM (perform registry) stack ≠ .ok result := by
  rw [steps_cons (by simp [symbol])]
  intro ran
  obtain ⟨next, first, -⟩ := foldlM_cons_eq_ok.mp ran
  simp [stepOf, symbol, perform] at first

/-- Behind the name of an exception there is no plus sign: it would come out between the name and the
keyword, which then has no name. -/
theorem sends_of_exception {keyword word : Token} {behind : List Token}
    (symbol : keyword.symbol = .withException) (isWord : word.symbol = .word)
    (follows : Follows word.lexeme rest)
    (below : arrangeFrom (keyword :: waiting) rest = .ok behind)
    (ran : (steps (word :: behind)).foldlM (perform registry) stack = .ok result) :
    Sends keyword.symbol.rank rest := by
  rw [symbol]
  cases rest with
  | nil => simp [Sends]
  | cons plus rest =>
    have ends : word.lexeme.endsOperand = true := by simp [Token.lexeme, isWord, Lexeme.endsOperand]
    obtain sent | ⟨isPlus, -⟩ := follows.cases ends
    · simpa [Sends] using sent
    · have under : Below Symbol.orLater.rank (keyword :: waiting) := by
        simp [Below, symbol, Symbol.rank]
      rw [arrangeFrom_orLater isPlus under follows.head.2] at below
      obtain ⟨later, waits, rfl⟩ := Outcome.map_eq_ok.mp below
      have onward := follows.head.2.sends (by simp [Token.lexeme, isPlus, Lexeme.endsOperand])
        (by simp [Token.lexeme, isPlus])
      rw [← symbol] at onward
      rw [arrangeFrom_cons_of_sends (by simp [symbol]) onward] at waits
      obtain ⟨out, -, rfl⟩ := Outcome.map_eq_ok.mp waits
      rw [steps, if_neg (by simp [isPlus]), steps_cons (by simp [isPlus])] at ran
      obtain ⟨next, -, ran⟩ := foldlM_cons_eq_ok.mp ran
      obtain ⟨next, -, ran⟩ := foldlM_cons_eq_ok.mp ran
      exact absurd ran (not_foldlM_misplaced symbol out)

/-- `WITH` needs a simple term and the name of an exception, and ends the operand. -/
theorem Runs.withException {word : Token} (symbol : t.symbol = .withException)
    (isWord : word.symbol = .word) (quiet : Quiet waiting) (follows : Follows word.lexeme rest)
    (runs : Runs registry waiting (t :: word :: rest) (e :: stack) result) :
    isSentinel word.text = false ∧ ∃ term, e = .simple term ∧
      Runs registry waiting rest
        (.withException term (registry.readException word.text).named :: stack) result := by
  obtain ⟨_, arranged, ran⟩ := runs
  rw [arrangeFrom_withException symbol isWord quiet] at arranged
  obtain ⟨behind, below, rfl⟩ := Outcome.map_eq_ok.mp arranged
  have sends := sends_of_exception symbol isWord follows below ran
  rw [arrangeFrom_cons_of_sends (by simp [symbol]) sends] at below
  obtain ⟨out, inner, rfl⟩ := Outcome.map_eq_ok.mp below
  cases special : isSentinel word.text with
  | true =>
    -- The step of a word looks ahead only if it is no sentinel, so the keyword has no name.
    rw [steps, if_neg (by simp [special])] at ran
    obtain ⟨next, -, later⟩ := foldlM_cons_eq_ok.mp ran
    exact absurd later (not_foldlM_misplaced symbol out)
  | false =>
    rw [steps, if_pos (by simp [special, isWord, symbol])] at ran
    obtain ⟨next, first, later⟩ := foldlM_cons_eq_ok.mp ran
    simp only [perform, attach] at first
    split at first
    next empty => cases empty
    next term others same =>
      cases first
      obtain ⟨rfl, rfl⟩ := List.cons_eq_cons.mp same
      exact ⟨rfl, term, rfl, out, inner, later⟩
    next => cases first

/-- A connective sends on what binds as tightly, and waits. -/
theorem Runs.join {connective : Connective} (symbol : t.symbol = .join connective)
    (quiet : Quiet waiting) (follows : Follows t.lexeme rest)
    (runs : Runs registry waiting (t :: rest) stack result) :
    ∃ next, Runs registry (t :: waiting.dropWhile (due t)) rest next result := by
  obtain ⟨out, arranged, ran⟩ := runs
  rw [arrangeFrom_eq_of_operator (by simp [symbol, IsOperator])] at arranged
  obtain ⟨out, below, rfl⟩ := Outcome.map_eq_ok.mp arranged
  have onward := (quiet.of_subset (List.dropWhile_sublist (due t)).subset).cons
    (.inr ⟨connective, symbol⟩)
  have other : t.lexeme ≠ .withException := by simp [Token.lexeme, symbol]
  rw [steps_append (startsPlain_of_arrangeFrom onward other follows below)] at ran
  obtain ⟨next, -, later⟩ := foldlM_append_eq_ok.mp ran
  exact ⟨next, out, below, later⟩

/-- A closing parenthesis ends the part since the last opening one. -/
theorem Runs.closing (symbol : t.symbol = .closing) (quiet : Quiet waiting)
    (follows : Follows t.lexeme rest) (runs : Runs registry waiting (t :: rest) (e :: stack) result) :
    ∃ opening outside e' stack', waiting.dropWhile (!isOpening ·) = opening :: outside ∧
      Runs registry outside rest (e' :: stack') result ∧
      (waiting.takeWhile (!isOpening ·) = [] → e' = e) := by
  obtain ⟨out, arranged, ran⟩ := runs
  obtain ⟨opening, outside, out, split, below, rfl⟩ := exists_of_arrangeFrom_closing symbol arranged
  have within : outside ⊆ waiting := by
    intro w member
    apply (List.dropWhile_sublist _).subset
    exact split ▸ List.mem_cons_of_mem _ member
  have other : t.lexeme ≠ .withException := by simp [Token.lexeme, symbol]
  rw [steps_append (startsPlain_of_arrangeFrom (quiet.of_subset within) other follows below)] at ran
  obtain ⟨next, first, later⟩ := foldlM_append_eq_ok.mp ran
  -- The operators inside leave an expression; which one matters only where there are none.
  obtain ⟨e', stack', rfl⟩ := List.exists_cons_of_ne_nil (foldlM_perform_ne_nil (by simp) first)
  refine ⟨opening, outside, e', stack', split, ⟨out, below, later⟩, fun alone => ?_⟩
  rw [alone] at first
  cases first
  rfl

theorem mem_steps_of_opening {out : List Token} {opening : Token} (member : opening ∈ out)
    (opens : opening.symbol = .opening) : .unclosed opening ∈ steps out := by
  fun_induction steps out with
  | case1 => cases member
  | case2 token =>
    obtain rfl := List.mem_singleton.mp member
    simp [stepOf, opens]
  | case3 token next rest attached ih =>
    -- Neither the name of an exception nor its keyword is a parenthesis.
    have known : token.symbol = .word ∧ next.symbol = .withException := by simp_all
    have later : opening ∈ rest := by
      simp only [List.mem_cons] at member
      obtain rfl | rfl | later := member
      · simp [opens] at known
      · simp [opens] at known
      · exact later
    exact .tail _ (ih later)
  | case4 token next rest alone ih =>
    cases List.mem_cons.mp member with
    | inl same => simp [← same, stepOf, opens]
    | inr later => exact .tail _ (ih later)

/-- What runs to its end holds no opening parenthesis: as a step it always fails. -/
theorem not_opening_of_foldlM {out : List Token} (ran : (steps out).foldlM (perform registry) stack = .ok result) :
    ∀ t ∈ out, t.symbol ≠ .opening := by
  intro t member opens
  obtain ⟨before, behind, split⟩ := List.append_of_mem (mem_steps_of_opening member opens)
  rw [split] at ran
  obtain ⟨next, -, rest⟩ := foldlM_append_eq_ok.mp ran
  obtain ⟨next, fails, -⟩ := foldlM_cons_eq_ok.mp rest
  cases fails

/-- At the end no parenthesis waits. -/
theorem Runs.all_closed (runs : Runs registry waiting [] stack result) :
    waiting.dropWhile (!isOpening ·) = [] := by
  obtain ⟨out, arranged, ran⟩ := runs
  obtain rfl := Except.ok.inj arranged
  refine List.dropWhile_eq_nil_iff.mpr fun w member => ?_
  simpa [isOpening] using not_opening_of_foldlM ran w member

end Runs

end Licensing.Postfix
