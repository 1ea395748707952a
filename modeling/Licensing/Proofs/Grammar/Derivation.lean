import Licensing.Grammar.Parse

/-! # The grammar of expressions

`Derives` says which token sequences the grammar gives for an expression, and `ofTokens_of_derives`
that reading them gives the expression back.

The argument follows the postfix order.  Once the tokens of an expression have been put in order, a
part of them is `done`, and some operators are still `held` back because nothing has come yet that
binds less tightly.  `Arranged` keeps account of the two parts: together they are the expression in
postfix order, whatever operators wait below and whatever tokens follow.
-/

namespace Licensing

/-- `Derives registry level tokens e` — the tokens write `e`, and each operator outside parentheses
binds at least as tightly as `level`. -/
inductive Derives (registry : Registry) : (level : Nat) → List Token → Expression → Prop where
  | sentinel {level : Nat} {token : Token} (word : token.symbol = .word)
      (special : Postfix.isSentinel token.text = true) :
      Derives registry level [token] (.sentinel token.text)
  | license {level : Nat} {token : Token} (word : token.symbol = .word)
      (plain : Postfix.isSentinel token.text = false) :
      Derives registry level [token] (.just (registry.readLicense token.text).named)
  | orLater {level : Nat} {tokens : List Token} {plus : Token} {license : License}
      (loose : level ≤ Symbol.orLater.rank) (symbol : plus.symbol = .orLater)
      (operand : Derives registry Symbol.orLater.rank tokens (.just license)) :
      Derives registry level (tokens ++ [plus]) (.orLater license)
  | withException {level : Nat} {tokens : List Token} {keyword token : Token} {term : SimpleTerm}
      (loose : level ≤ Symbol.withException.rank) (symbol : keyword.symbol = .withException)
      (word : token.symbol = .word) (plain : Postfix.isSentinel token.text = false)
      (operand : Derives registry Symbol.orLater.rank tokens (.simple term)) :
      Derives registry level (tokens ++ [keyword, token])
        (.withException term (registry.readException token.text).named)
  | join {level : Nat} {connective : Connective} {left right : List Token} {operator : Token}
      {a b : Expression} (loose : level ≤ (Symbol.join connective).rank)
      (symbol : operator.symbol = .join connective)
      (first : Derives registry (Symbol.join connective).rank left a)
      (second : Derives registry ((Symbol.join connective).rank + 1) right b) :
      Derives registry level (left ++ operator :: right) (Expression.combine connective a [b])
  | parentheses {level : Nat} {tokens : List Token} {opening closing : Token} {e : Expression}
      (opens : opening.symbol = .opening) (closes : closing.symbol = .closing)
      (inside : Derives registry (Symbol.join .or).rank tokens e) :
      Derives registry level (opening :: tokens ++ [closing]) e

/-- What binds tightly enough for one place does so for a looser one. -/
theorem Derives.loosen {registry : Registry} {low high : Nat} {tokens : List Token}
    {e : Expression} (derives : Derives registry high tokens e) (le : low ≤ high) :
    Derives registry low tokens e := by
  cases derives with
  | sentinel word special => exact .sentinel word special
  | license word plain => exact .license word plain
  | orLater loose symbol operand => exact .orLater (Nat.le_trans le loose) symbol operand
  | withException loose symbol word plain operand =>
    exact .withException (Nat.le_trans le loose) symbol word plain operand
  | join loose symbol first second => exact .join (Nat.le_trans le loose) symbol first second
  | parentheses opens closes inside => exact .parentheses opens closes inside

namespace Postfix

/-- Sending on some tokens and then others. -/
theorem map_append_map (first second : List Token) (out : Except ParseFault (List Token)) :
    (out.map (second ++ ·)).map (first ++ ·) = out.map (first ++ second ++ ·) := by
  cases out with
  | error fault => rfl
  | ok out => simp [Except.map]

/-! ## Arranging one token -/

theorem arrangeFrom_word {token : Token} (word : token.symbol = .word)
    (waiting rest : List Token) :
    arrangeFrom waiting (token :: rest) = (arrangeFrom waiting rest).map (token :: ·) := by
  simp only [arrangeFrom, word]

theorem arrangeFrom_opening {token : Token} (opens : token.symbol = .opening)
    (waiting rest : List Token) :
    arrangeFrom waiting (token :: rest) = arrangeFrom (token :: waiting) rest := by
  simp only [arrangeFrom, opens]

/-- Operators: everything but words and parentheses. -/
def IsOperator (symbol : Symbol) : Prop :=
  symbol ≠ .word ∧ symbol ≠ .opening ∧ symbol ≠ .closing

theorem IsOperator.rank_pos {symbol : Symbol} (operator : IsOperator symbol) : 0 < symbol.rank := by
  cases symbol with
  | opening => exact absurd rfl operator.2.1
  | join connective => cases connective <;> decide
  | word | withException | orLater | closing => decide

/-- Nothing at the front of `waiting` binds as tightly as `level`. -/
def Below (level : Nat) (waiting : List Token) : Prop :=
  ∀ w ∈ waiting.head?, w.symbol.rank < level

theorem Below.mono {low high : Nat} {waiting : List Token} (below : Below low waiting)
    (le : low ≤ high) : Below high waiting :=
  fun w head => Nat.lt_of_lt_of_le (below w head) le

theorem takeWhile_held {p : Token → Bool} {held waiting : List Token} (all : ∀ w ∈ held, p w)
    (stop : ∀ w ∈ waiting.head?, p w = false) : (held ++ waiting).takeWhile p = held := by
  rw [List.takeWhile_append_of_pos all]
  cases waiting with
  | nil => simp
  | cons w waiting => simp [stop w (by simp)]

theorem dropWhile_held {p : Token → Bool} {held waiting : List Token} (all : ∀ w ∈ held, p w)
    (stop : ∀ w ∈ waiting.head?, p w = false) : (held ++ waiting).dropWhile p = waiting := by
  rw [List.dropWhile_append_of_pos all]
  cases waiting with
  | nil => simp
  | cons w waiting => simp [stop w (by simp)]

/-- An operator sends on exactly the operators held back that bind at least as tightly. -/
theorem arrangeFrom_operator {token : Token} (operator : IsOperator token.symbol)
    {held waiting : List Token} (tight : ∀ w ∈ held, token.symbol.rank ≤ w.symbol.rank)
    (below : Below token.symbol.rank waiting) (rest : List Token) :
    arrangeFrom (held ++ waiting) (token :: rest) =
      (arrangeFrom (token :: waiting) rest).map (held ++ ·) := by
  have all : ∀ w ∈ held, decide (token.symbol.rank ≤ w.symbol.rank) = true := by
    simpa using tight
  have stop : ∀ w ∈ waiting.head?, decide (token.symbol.rank ≤ w.symbol.rank) = false := by
    simpa [Below] using below
  obtain ⟨notWord, notOpening, notClosing⟩ := operator
  rw [arrangeFrom]
  split
  next found => exact absurd found notWord
  next found => exact absurd found notOpening
  next found => exact absurd found notClosing
  next => simp only [takeWhile_held all stop, dropWhile_held all stop]

/-- A closing parenthesis sends on the operators since the opening one. -/
theorem arrangeFrom_closing {opening closing : Token} (opens : opening.symbol = .opening)
    (closes : closing.symbol = .closing) {held : List Token}
    (inside : ∀ w ∈ held, w.symbol ≠ .opening) (waiting rest : List Token) :
    arrangeFrom (held ++ opening :: waiting) (closing :: rest) =
      (arrangeFrom waiting rest).map (held ++ ·) := by
  have all : ∀ w ∈ held, (!isOpening w) = true := by
    simpa [isOpening] using inside
  have stop : ∀ w ∈ (opening :: waiting).head?, (!isOpening w) = false := by
    simp [isOpening, opens]
  simp only [arrangeFrom, closes, takeWhile_held all stop, dropWhile_held all stop]

theorem arrangeFrom_nil (waiting : List Token) : arrangeFrom waiting [] = .ok waiting := by
  simp only [arrangeFrom]

/-! ## The steps of tokens in postfix order -/

/-- Tokens whose first one is not the keyword of exceptions. -/
def StartsPlain (tokens : List Token) : Prop :=
  ∀ t ∈ tokens.head?, t.symbol ≠ .withException

theorem StartsPlain.append {first second : List Token} (plain : StartsPlain first)
    (nonempty : first ≠ []) : StartsPlain (first ++ second) := by
  cases first with
  | nil => exact absurd rfl nonempty
  | cons t first => simpa [StartsPlain] using plain

/-- Only the keyword of exceptions changes what the token before it means. -/
theorem steps_append {first second : List Token} (plain : StartsPlain second) :
    steps (first ++ second) = steps first ++ steps second := by
  fun_induction steps first with
  | case1 => simp
  | case2 token =>
    cases second with
    | nil => simp [steps]
    | cons next rest =>
      -- The last token of the first part looks ahead to the first one of the second part.
      have other : next.symbol ≠ .withException := plain next (by simp)
      simp [steps, other]
  | case3 token next rest attached ih =>
    simp only [List.cons_append] at ih ⊢
    rw [steps, if_pos attached, ih]
  | case4 token next rest alone ih =>
    simp only [List.cons_append] at ih ⊢
    rw [steps, if_neg alone, ih]

/-- Tokens in postfix order that leave `e` on top of any stack. -/
def Evaluates (registry : Registry) (tokens : List Token) (e : Expression) : Prop :=
  ∀ stack, (steps tokens).foldlM (perform registry) stack = .ok (e :: stack)

/-- Running two parts one after the other. -/
theorem foldlM_steps_append {registry : Registry} {first second : List Token} {e : Expression}
    (evaluates : Evaluates registry first e) (plain : StartsPlain second)
    (stack : List Expression) :
    (steps (first ++ second)).foldlM (perform registry) stack =
      (steps second).foldlM (perform registry) (e :: stack) := by
  rw [steps_append plain, List.foldlM_append, evaluates stack]
  rfl

/-! ## Arranging an expression -/

/-- What becomes of tokens that write `e`: those in `done` are sent on, those in `held` wait for
something that binds less tightly than `level`. -/
structure Arranged (registry : Registry) (level : Nat) (tokens : List Token) (e : Expression)
    (done held : List Token) : Prop where
  arranges : ∀ waiting rest, Below level waiting →
    arrangeFrom waiting (tokens ++ rest) = (arrangeFrom (held ++ waiting) rest).map (done ++ ·)
  tight : ∀ w ∈ held, level ≤ w.symbol.rank
  evaluates : Evaluates registry (done ++ held) e
  nonempty : done ++ held ≠ []
  plain : StartsPlain (done ++ held)

namespace Arranged

variable {registry : Registry} {level : Nat} {e : Expression}

theorem loosen {low high : Nat} {tokens done held : List Token}
    (arranged : Arranged registry high tokens e done held) (le : low ≤ high) :
    Arranged registry low tokens e done held :=
  { arranged with
    arranges := fun waiting rest below => arranged.arranges waiting rest (below.mono le)
    tight := fun w member => Nat.le_trans le (arranged.tight w member) }

theorem word {token : Token} (symbol : token.symbol = .word)
    (evaluates : Evaluates registry [token] e) : Arranged registry level [token] e [token] [] where
  arranges waiting rest _ := by simp [arrangeFrom_word symbol]
  tight := by simp
  evaluates := evaluates
  nonempty := by simp
  plain := by simp [StartsPlain, symbol]

/-- An operator behind an operand takes the place of the operators held back for the operand. -/
theorem arranges_operator {tokens done held : List Token} {operator : Token} {a : Expression}
    (operand : Arranged registry operator.symbol.rank tokens a done held)
    (known : IsOperator operator.symbol) {waiting : List Token}
    (below : Below operator.symbol.rank waiting) (rest : List Token) :
    arrangeFrom waiting (tokens ++ operator :: rest) =
      (arrangeFrom (operator :: waiting) rest).map (done ++ held ++ ·) := by
  rw [operand.arranges waiting _ below, arrangeFrom_operator known operand.tight below,
    map_append_map]

theorem orLater {tokens done held : List Token} {plus : Token} {license : License}
    (loose : level ≤ Symbol.orLater.rank) (symbol : plus.symbol = .orLater)
    (operand : Arranged registry Symbol.orLater.rank tokens (.just license) done held) :
    Arranged registry level (tokens ++ [plus]) (.orLater license) (done ++ held) [plus] where
  arranges waiting rest below := by
    rw [← symbol] at operand loose
    simpa using operand.arranges_operator (by simp [IsOperator, symbol]) (below.mono loose) rest
  tight := by simpa [symbol] using loose
  evaluates stack := by
    have last : StartsPlain [plus] := by simp [StartsPlain, symbol]
    rw [foldlM_steps_append operand.evaluates last]
    simp only [steps, stepOf, symbol]
    rfl
  nonempty := by simp
  plain := operand.plain.append operand.nonempty

theorem withException {tokens done held : List Token} {keyword token : Token}
    {term : SimpleTerm} (loose : level ≤ Symbol.withException.rank)
    (symbol : keyword.symbol = .withException) (word : token.symbol = .word)
    (plain : isSentinel token.text = false)
    (operand : Arranged registry Symbol.orLater.rank tokens (.simple term) done held) :
    Arranged registry level (tokens ++ [keyword, token])
      (.withException term (registry.readException token.text).named)
      (done ++ held ++ [token]) [keyword] where
  arranges waiting rest below := by
    have looser : keyword.symbol.rank ≤ Symbol.orLater.rank := by rw [symbol]; decide
    have below' : Below keyword.symbol.rank waiting := below.mono (by rw [symbol]; exact loose)
    have known : IsOperator keyword.symbol := by simp [IsOperator, symbol]
    -- The name is sent on at once, so it comes out before the keyword, which has to wait.
    have := (operand.loosen looser).arranges_operator known below' (token :: rest)
    rw [List.append_assoc, List.cons_append, List.cons_append, List.nil_append, this,
      arrangeFrom_word word]
    exact map_append_map (done ++ held) [token] _
  tight := by simpa [symbol] using loose
  evaluates stack := by
    have last : StartsPlain [token, keyword] := by simp [StartsPlain, word]
    rw [List.append_assoc, foldlM_steps_append operand.evaluates (by simpa using last)]
    simp [steps, word, plain, symbol, perform, attach]
  nonempty := by simp
  plain := by
    rw [List.append_assoc]
    exact operand.plain.append operand.nonempty

theorem join {connective : Connective} {left right done held done' held' : List Token}
    {operator : Token} {a b : Expression} (loose : level ≤ (Symbol.join connective).rank)
    (symbol : operator.symbol = .join connective)
    (first : Arranged registry (Symbol.join connective).rank left a done held)
    (second : Arranged registry ((Symbol.join connective).rank + 1) right b done' held') :
    Arranged registry level (left ++ operator :: right) (Expression.combine connective a [b])
      (done ++ held ++ done') (held' ++ [operator]) where
  arranges waiting rest below := by
    rw [← symbol] at first
    have below' : Below operator.symbol.rank waiting := below.mono (by rw [symbol]; exact loose)
    have known : IsOperator operator.symbol := by simp [IsOperator, symbol]
    -- An operator that waits is sent on by an equal one: joining associates to the left.
    have under : Below ((Symbol.join connective).rank + 1) (operator :: waiting) := by
      simp [Below, symbol]
    rw [List.append_assoc, List.cons_append, first.arranges_operator known below',
      second.arranges _ _ under, map_append_map, List.append_assoc held']
    rfl
  tight w member := by
    cases List.mem_append.mp member with
    | inl inHeld => exact Nat.le_trans loose (Nat.le_of_succ_le (second.tight w inHeld))
    | inr last => rw [List.mem_singleton.mp last, symbol]; exact loose
  evaluates stack := by
    have last : StartsPlain [operator] := by simp [StartsPlain, symbol]
    have following : StartsPlain (done' ++ held' ++ [operator]) :=
      second.plain.append second.nonempty
    rw [← List.append_assoc, List.append_assoc (done ++ held), List.append_assoc (done ++ held),
      foldlM_steps_append first.evaluates following, foldlM_steps_append second.evaluates last]
    simp only [steps, stepOf, symbol]
    rfl
  nonempty := by simp
  plain := by
    rw [List.append_assoc]
    exact first.plain.append first.nonempty

theorem parentheses {tokens done held : List Token} {opening closing : Token}
    (opens : opening.symbol = .opening) (closes : closing.symbol = .closing)
    (inside : Arranged registry (Symbol.join .or).rank tokens e done held) :
    Arranged registry level (opening :: tokens ++ [closing]) e (done ++ held) [] where
  arranges waiting rest _ := by
    have under : Below (Symbol.join .or).rank (opening :: waiting) := by
      simp [Below, opens, Symbol.rank]
    -- A parenthesis has the rank of nothing, so none of them is among the operators held back.
    have operators : ∀ w ∈ held, w.symbol ≠ .opening := by
      intro w member same
      simpa [same, Symbol.rank] using inside.tight w member
    rw [List.append_assoc, List.cons_append, arrangeFrom_opening opens, List.singleton_append,
      inside.arranges _ _ under, arrangeFrom_closing opens closes operators, map_append_map]
    rfl
  tight := by simp
  evaluates := by simpa using inside.evaluates
  nonempty := by simpa using inside.nonempty
  plain := by simpa using inside.plain

end Arranged

theorem exists_arranged {registry : Registry} {level : Nat} {tokens : List Token} {e : Expression}
    (derives : Derives registry level tokens e) :
    ∃ done held, Arranged registry level tokens e done held := by
  induction derives with
  | @sentinel level token word special =>
    refine ⟨_, _, .word word fun stack => ?_⟩
    simp only [steps, stepOf, word, special]
    rfl
  | @license level token word plain =>
    refine ⟨_, _, .word word fun stack => ?_⟩
    simp only [steps, stepOf, word, plain]
    rfl
  | orLater loose symbol _ ih =>
    obtain ⟨done, held, operand⟩ := ih
    exact ⟨_, _, operand.orLater loose symbol⟩
  | withException loose symbol word plain _ ih =>
    obtain ⟨done, held, operand⟩ := ih
    exact ⟨_, _, operand.withException loose symbol word plain⟩
  | join loose symbol _ _ ihFirst ihSecond =>
    obtain ⟨done, held, first⟩ := ihFirst
    obtain ⟨done', held', second⟩ := ihSecond
    exact ⟨_, _, first.join loose symbol second⟩
  | parentheses opens closes _ ih =>
    obtain ⟨done, held, inside⟩ := ih
    exact ⟨_, _, inside.parentheses opens closes⟩

/-- Tokens that are arranged as a whole are read as their expression. -/
theorem Arranged.ofTokens {registry : Registry} {tokens done held : List Token} {e : Expression}
    (arranged : Arranged registry (Symbol.join .or).rank tokens e done held) :
    Expression.ofTokens registry tokens = .ok e := by
  have order : arrange tokens = .ok (done ++ held) := by
    have whole := arranged.arranges [] [] (by simp [Below])
    rw [List.append_nil] at whole
    rw [arrange, whole, List.append_nil, arrangeFrom_nil]
    rfl
  have run := arranged.evaluates []
  simp only [Expression.ofTokens, order, bind, Except.bind, run, finish]

end Postfix

/-- Reading the tokens that the grammar gives for an expression gives the expression. -/
theorem Expression.ofTokens_of_derives {registry : Registry} {tokens : List Token}
    {e : Expression} (derives : Derives registry (Symbol.join .or).rank tokens e) :
    Expression.ofTokens registry tokens = .ok e := by
  obtain ⟨done, held, arranged⟩ := Postfix.exists_arranged derives
  exact arranged.ofTokens

end Licensing
