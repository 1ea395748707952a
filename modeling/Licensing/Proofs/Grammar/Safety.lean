import Licensing.Proofs.Expression.Semilattice
import Licensing.Proofs.Grammar.Layout

/-! # Readings that fail

A text is read as an expression, or it has a fault at a place inside it: at one of its tokens, at a character
that belongs to no token, or at the text as a whole (`ParseFault.Sited`).

Nothing else goes wrong.  `Bare` is the same reader made of operations that can break: an operand is taken from
a stack that may be empty, a token is asked for behind the last one, a constructor refuses its operands.  It
tests what it tests, and never breaks (`Bare.parse_eq`).  Two invariants carry this: no closing parenthesis is
left in postfix order (`not_closing_of_arrangeFrom`), and what lies on the stack is canonical, so that it can be
joined.
-/

namespace Licensing

/-! ## A bare reader -/

/-- What could break a reader. -/
inductive Breakdown where
  /-- Something is taken from an empty stack. -/
  | emptyStack
  /-- A token is asked for behind the last one. -/
  | endOfTokens
  /-- A word is looked up among the sentinels, and is none. -/
  | notListed (word : String)
  /-- A constructor refuses its operands. -/
  | refused (error : BuildError)
  /-- A closing parenthesis has come into postfix order. -/
  | leftClosing (token : Token)

/-- A fault of the text, or a reader that breaks. -/
inductive Trouble where
  | fault (fault : ParseFault)
  | breakdown (cause : Breakdown)

namespace Bare

open Postfix (isOpening isSentinel faultAt)

variable {α β : Type}

def report (cause : ParseCause) (token : Token) : Except Trouble α :=
  .error (.fault (faultAt cause token))

def pop : List α → Except Trouble (α × List α)
  | [] => .error (.breakdown .emptyStack)
  | top :: rest => .ok (top, rest)

def next : List Token → Except Trouble Token
  | [] => .error (.breakdown .endOfTokens)
  | token :: _ => .ok token

def sentinels : List (String × Expression) :=
  [("NONE", .none), ("NOASSERTION", .noAssertion)]

def sentinel (word : String) : Except Trouble Expression :=
  match sentinels.lookup word with
  | some e => .ok e
  | none => .error (.breakdown (.notListed word))

def constructed (outcome : Except BuildError Expression) : Except Trouble Expression :=
  outcome.mapError fun error => .breakdown (.refused error)

/-- Joins expressions.  Several operands go through the constructor of compound expressions, which merges and
counts them again. -/
def joined (connective : Connective) (es : List Expression) : Except BuildError Expression :=
  match Expression.operandSet connective es with
  | [] => .error (.noOperand connective)
  | [e] => .ok e
  | several => Expression.compound? connective several

/-! ### Postfix order -/

def sendOn (sends : Token → Bool) : (waiting : List Token) → Except Trouble (List Token × List Token)
  | [] => .ok ([], [])
  | w :: below => do
    let (top, _) ← pop (w :: below)
    if sends top then
      let (sent, left) ← sendOn sends below
      .ok (top :: sent, left)
    else .ok ([], w :: below)

def arrangeFrom : (waiting tokens : List Token) → Except Trouble (List Token)
  | waiting, [] => .ok waiting
  | waiting, token :: rest =>
    match token.symbol with
    | .word => do
      let later ← arrangeFrom waiting rest
      .ok (token :: later)
    | .opening => arrangeFrom (token :: waiting) rest
    | .closing => do
      let (sent, left) ← sendOn (!isOpening ·) waiting
      if left.isEmpty then report .unmatchedClosing token
      else
        let (_, outside) ← pop left
        let later ← arrangeFrom outside rest
        .ok (sent ++ later)
    | operator => do
      let (sent, left) ← sendOn (fun w => operator.rank ≤ w.symbol.rank) waiting
      let later ← arrangeFrom (token :: left) rest
      .ok (sent ++ later)

/-! ### The stack of expressions -/

def isSimple : Expression → Bool
  | .simple _ => true
  | _ => false

def isExact : Expression → Bool
  | .simple (.exact _) => true
  | _ => false

def attach (registry : Registry) (word : String) (operator : Token) (stack : List Expression) :
    Except Trouble (List Expression) :=
  if stack.isEmpty then report .exceptionWithoutLicense operator
  else do
    let (actual, rest) ← pop stack
    if isSimple actual then
      let whole ← constructed (actual.attach? (registry.readException word).named)
      .ok (whole :: rest)
    else report (.exceptionOnCompound actual) operator

def join (connective : Connective) (operator : Token) (stack : List Expression) :
    Except Trouble (List Expression) :=
  if stack.length < 2 then report (.missingOperand connective) operator
  else do
    let (right, rest) ← pop stack
    let (left, rest) ← pop rest
    let whole ← constructed (joined connective [left, right])
    .ok (whole :: rest)

def extend (operator : Token) (stack : List Expression) : Except Trouble (List Expression) :=
  if stack.isEmpty then report .nothingToExtend operator
  else do
    let (actual, rest) ← pop stack
    if isExact actual then
      let later ← constructed actual.laterThan?
      .ok (later :: rest)
    else report (.cannotExtend actual) operator

def popIfAny (stack : List Expression) : Except Trouble (Option Expression × List Expression) :=
  if stack.isEmpty then .ok (none, stack)
  else do
    let (top, rest) ← pop stack
    .ok (some top, rest)

def misplaced (operator : Token) (stack : List Expression) : Except Trouble (List Expression) := do
  let (exception, rest) ← popIfAny stack
  let (license, _) ← popIfAny rest
  report (.misplacedException license exception) operator

def single (registry : Registry) (token : Token) (stack : List Expression) : Except Trouble (List Expression) :=
  match token.symbol with
  | .word =>
    if isSentinel token.text then do
      let e ← sentinel token.text
      .ok (e :: stack)
    else .ok (.just (registry.readLicense token.text).named :: stack)
  | .join connective => join connective token stack
  | .withException => misplaced token stack
  | .orLater => extend token stack
  | .opening => report .unclosedOpening token
  | .closing => .error (.breakdown (.leftClosing token))

/-- Whether a token is the name of an exception: a word that is no sentinel, with the keyword behind it. -/
def namesException (token : Token) (rest : List Token) : Except Trouble Bool :=
  if token.symbol = .word && !isSentinel token.text && !rest.isEmpty then do
    let operator ← next rest
    .ok (operator.symbol = .withException)
  else .ok false

def carryOut (registry : Registry) : (tokens : List Token) → (stack : List Expression) →
    Except Trouble (List Expression)
  | [], stack => .ok stack
  | token :: rest, stack => do
    if ← namesException token rest then
      let operator ← next rest
      let stack ← attach registry token.text operator stack
      carryOut registry rest.tail stack
    else
      let stack ← single registry token stack
      carryOut registry rest stack
termination_by tokens => tokens.length
decreasing_by
  · simp only [List.length_tail, List.length_cons]
    omega
  · simp

def finish (stack : List Expression) : Except Trouble Expression :=
  if stack.isEmpty then .error (.fault ⟨.nothing, 0, 1⟩)
  else if 1 < stack.length then .error (.fault ⟨.several stack.reverse, 0, 1⟩)
  else do
    let (e, _) ← pop stack
    .ok e

def parse (registry : Registry) (text : String) : Except Trouble Expression := do
  let tokens ← (Token.scan text.toList).mapError .fault
  let arranged ← arrangeFrom [] tokens
  let stack ← carryOut registry arranged []
  finish stack

/-! ## It never breaks -/

@[simp] theorem ok_bind (a : α) (next : α → Except Trouble β) : (Except.ok a >>= next) = next a := rfl

@[simp] theorem pop_cons (top : α) (rest : List α) : pop (top :: rest) = .ok (top, rest) := rfl

@[simp] theorem next_cons (token : Token) (rest : List Token) : next (token :: rest) = .ok token := rfl

theorem bind_ok_eq_map (x : Except Trouble α) (f : α → β) : (x >>= fun a => Except.ok (f a)) = x.map f := by
  cases x <;> rfl

theorem sendOn_eq (sends : Token → Bool) (waiting : List Token) :
    sendOn sends waiting = .ok (waiting.takeWhile sends, waiting.dropWhile sends) := by
  induction waiting with
  | nil => rfl
  | cons w below ih => cases sent : sends w <;> simp [sendOn, sent, ih]

theorem arrangeFrom_eq (waiting tokens : List Token) :
    arrangeFrom waiting tokens = (Postfix.arrangeFrom waiting tokens).mapError .fault := by
  fun_induction Postfix.arrangeFrom waiting tokens with
  | case1 waiting => rfl
  | case2 waiting token rest symbol ih =>
    simp only [arrangeFrom, symbol, ih, bind_ok_eq_map, Outcome.mapError_map]
  | case3 waiting token rest symbol ih => simp only [arrangeFrom, symbol, ih]
  | case4 waiting token rest symbol none =>
    -- No opening parenthesis waits, so nothing is left when all operators are sent on.
    simp only [arrangeFrom, symbol, sendOn_eq, ok_bind, none]
    rfl
  | case5 waiting token rest symbol opening outside found ih =>
    simp only [arrangeFrom, symbol, sendOn_eq, ok_bind, found, pop_cons, List.isEmpty_cons,
      Bool.false_eq_true, if_false, ih, bind_ok_eq_map, Outcome.mapError_map]
  | case6 waiting token rest notWord notOpening notClosing due ih =>
    rw [arrangeFrom]
    split
    next found => exact absurd found notWord
    next found => exact absurd found notOpening
    next found => exact absurd found notClosing
    next => simp only [sendOn_eq, ok_bind, ih, bind_ok_eq_map, Outcome.mapError_map, due]

section Stack

variable {registry : Registry} {stack : List Expression}

theorem attach_eq (word : String) (operator : Token) (stack : List Expression) :
    attach registry word operator stack =
      (Postfix.perform registry stack (.attach word operator)).mapError .fault := by
  match stack with
  | [] | .simple _ :: _ | .sentinel _ :: _ | .withException .. :: _ | .compound .. :: _ => rfl

theorem extend_eq (operator : Token) (stack : List Expression) :
    extend operator stack = (Postfix.perform registry stack (.extend operator)).mapError .fault := by
  match stack with
  | [] | .simple (.exact _) :: _ | .simple (.orLater _) :: _ | .sentinel _ :: _ | .withException .. :: _
  | .compound .. :: _ => rfl

theorem misplaced_eq (operator : Token) (stack : List Expression) :
    misplaced operator stack = (Postfix.perform registry stack (.misplaced operator)).mapError .fault := by
  match stack with
  | [] | [_] | _ :: _ :: _ => rfl

theorem joined_eq (connective : Connective) {es : List Expression} (parts : ∀ d ∈ es, d.Canonical) :
    joined connective es = Expression.joined connective es := by
  unfold joined Expression.joined Expression.combine?
  match found : Expression.operandSet connective es with
  | [] | [_] => rfl
  | a :: b :: rest =>
    -- The constructor merges and counts the operands once more, and finds the same ones.
    have again := @Expression.operandSet_operandSet connective es parts
    rw [found] at again
    simp only [Expression.compound?, again]

theorem join_eq (connective : Connective) (operator : Token) (canonical : ∀ e ∈ stack, e.Canonical) :
    join connective operator stack =
      (Postfix.perform registry stack (.join connective operator)).mapError .fault := by
  match stack with
  | [] | [_] => rfl
  | right :: left :: rest =>
    obtain ⟨atRight, atLeft, -⟩ := by simpa only [List.forall_mem_cons] using canonical
    have made : joined connective [left, right] = .ok (Expression.combine connective left [right]) := by
      rw [joined_eq connective (by simp [atLeft, atRight]), atLeft.joined_cons]
    have several : ¬ (right :: left :: rest).length < 2 := by simp
    simp only [join, several, if_false, pop_cons, ok_bind, made]
    rfl

theorem sentinel_eq {word : String} (special : isSentinel word = true) :
    sentinel word = .ok (.sentinel word) := by
  have known : word = "NONE" ∨ word = "NOASSERTION" := by simpa [isSentinel] using special
  obtain rfl | rfl := known <;> rfl

theorem single_eq {token : Token} (open' : token.symbol ≠ .closing) (canonical : ∀ e ∈ stack, e.Canonical) :
    single registry token stack = (Postfix.perform registry stack (Postfix.stepOf token)).mapError .fault := by
  unfold single Postfix.stepOf
  cases symbol : token.symbol with
  | word =>
    cases special : isSentinel token.text with
    | true =>
      simp only [sentinel_eq special]
      rfl
    | false => rfl
  | join connective => exact join_eq connective token canonical
  | withException => exact misplaced_eq token stack
  | orLater => exact extend_eq token stack
  | opening => rfl
  | closing => exact absurd symbol open'

theorem finish_eq (stack : List Expression) : finish stack = (Postfix.finish stack).mapError .fault := by
  match stack with
  | [] | [_] | _ :: _ :: _ => rfl

theorem namesException_eq (token : Token) (rest : List Token) :
    namesException token rest = .ok (token.symbol = .word && !isSentinel token.text &&
      rest.head?.any fun operator => operator.symbol = .withException) := by
  unfold namesException
  match rest with
  | [] => simp
  | operator :: rest =>
    split
    next name => simp_all [next]
    next other => simp_all

/-- A step, and what comes after it if it succeeds. -/
theorem step_bind_eq {step : Postfix.Step} {others : List Postfix.Step}
    {onward : List Expression → Except Trouble (List Expression)}
    (same : ∀ after, Postfix.perform registry stack step = .ok after →
      onward after = (others.foldlM (Postfix.perform registry) after).mapError .fault) :
    ((Postfix.perform registry stack step).mapError Trouble.fault >>= onward) =
      ((step :: others).foldlM (Postfix.perform registry) stack).mapError .fault := by
  rw [List.foldlM_cons, Outcome.mapError_bind]
  cases performed : Postfix.perform registry stack step with
  | error fault => rfl
  | ok after => exact same after performed

theorem carryOut_eq {tokens : List Token} (proper : ∀ t ∈ tokens, t.Proper)
    (unclosing : ∀ t ∈ tokens, t.symbol ≠ .closing) (printable : Postfix.AllPrintable registry stack) :
    carryOut registry tokens stack =
      ((Postfix.steps tokens).foldlM (Postfix.perform registry) stack).mapError .fault := by
  have canonical {stack : List Expression} (printable : Postfix.AllPrintable registry stack) :
      ∀ e ∈ stack, e.Canonical := fun e member => (printable e member).canonical
  have kept {step : Postfix.Step} {stack after : List Expression} (member : step ∈ Postfix.steps tokens)
      (printable : Postfix.AllPrintable registry stack)
      (performed : Postfix.perform registry stack step = .ok after) : Postfix.AllPrintable registry after :=
    Postfix.printable_of_perform printable (Postfix.proper_steps proper step member) performed
  fun_induction Postfix.steps tokens generalizing stack with
  | case1 =>
    rw [carryOut]
    rfl
  | case2 token =>
    have alone : namesException token [] = .ok false := by simp [namesException_eq]
    rw [carryOut, alone]
    simp only [ok_bind, Bool.false_eq_true, if_false, single_eq (unclosing token (by simp)) (canonical printable)]
    refine step_bind_eq fun after _ => ?_
    rw [carryOut]
    rfl
  | case3 token operator rest attached ih =>
    have named : namesException token (operator :: rest) = .ok true := by simpa [namesException_eq] using attached
    obtain ⟨-, -, proper'⟩ := by simpa only [List.forall_mem_cons] using proper
    obtain ⟨-, -, unclosing'⟩ := by simpa only [List.forall_mem_cons] using unclosing
    -- Both readers take the keyword together with the name, so the rest begins behind it.
    rw [carryOut, named]
    simp only [ok_bind, if_true, next_cons, attach_eq, List.tail_cons]
    refine step_bind_eq fun after performed => ?_
    exact ih proper' unclosing' (kept (by simp) printable performed) fun member => kept (.tail _ member)
  | case4 token operator rest alone ih =>
    have other : namesException token (operator :: rest) = .ok false := by simpa [namesException_eq] using alone
    obtain ⟨-, proper'⟩ := List.forall_mem_cons.mp proper
    obtain ⟨open', unclosing'⟩ := List.forall_mem_cons.mp unclosing
    rw [carryOut, other]
    simp only [ok_bind, Bool.false_eq_true, if_false, single_eq open' (canonical printable)]
    refine step_bind_eq fun after performed => ?_
    exact ih proper' unclosing' (kept (by simp) printable performed) fun member => kept (.tail _ member)

end Stack

theorem parse_eq (registry : Registry) (text : String) :
    parse registry text = (Expression.parse registry text).mapError fun error => .fault error.fault := by
  unfold parse Expression.parse
  cases scanned : Token.scan text.toList with
  | error fault => rfl
  | ok tokens =>
    have proper := Token.proper_of_scanFrom (by simp) scanned
    have whole (outcome : Except ParseFault Expression) :
        (outcome.mapError fun fault => (⟨fault, text⟩ : ParseError)).mapError (fun error => Trouble.fault error.fault) =
          outcome.mapError .fault := by
      cases outcome <;> rfl
    show (arrangeFrom [] tokens >>= fun arranged => carryOut registry arranged [] >>= finish) =
      Except.mapError _ ((Expression.ofTokens registry tokens).mapError _)
    rw [whole, arrangeFrom_eq, Expression.ofTokens, Outcome.mapError_bind, Postfix.arrange]
    cases arranged : Postfix.arrangeFrom [] tokens with
    | error fault => rfl
    | ok out =>
      -- What has been arranged is what the second pass expects.
      have unclosing : ∀ t ∈ out, t.symbol ≠ .closing :=
        Postfix.forall_of_arrangeFrom (by simp) (fun _ _ open' => open') arranged
      have proper' : ∀ t ∈ out, t.Proper :=
        Postfix.forall_of_arrangeFrom (by simp) (fun t member _ => proper t member) arranged
      have carried : carryOut registry out [] = _ := carryOut_eq proper' unclosing (by simp [Postfix.AllPrintable])
      show (carryOut registry out [] >>= finish) =
        Except.mapError Trouble.fault
          ((Postfix.steps out).foldlM (Postfix.perform registry) [] >>= Postfix.finish)
      rw [carried, Outcome.mapError_bind]
      congr 1
      exact funext finish_eq

end Bare

/-! ## Where faults are -/

/-- What the token that a cause is about stands for, if the cause is about a token. -/
def ParseCause.symbol? : ParseCause → Option Symbol
  | .unmatchedClosing => some .closing
  | .unclosedOpening => some .opening
  | .exceptionWithoutLicense | .exceptionOnCompound _ | .misplacedException .. => some .withException
  | .missingOperand connective => some (.join connective)
  | .nothingToExtend | .cannotExtend _ => some .orLater
  | .unexpectedCharacter _ | .nothing | .several _ | .note _ => none

/-- A fault of a text: at one of its tokens, at a character that belongs to no token, or at the text as a
whole. -/
inductive ParseFault.Sited (text : String) : ParseFault → Prop
  | token {tokens : List Token} {token : Token} {cause : ParseCause} (scanned : Token.scan text.toList = .ok tokens)
      (member : token ∈ tokens) (stands : token.StandsIn text.toList) (about : cause.symbol? = some token.symbol) :
      Sited text (Postfix.faultAt cause token)
  | character {before after : List Char} {c : Char} (split : text.toList = before ++ c :: after)
      (stray : Token.IsStray c) :
      Sited text ⟨.unexpectedCharacter c, before.length, before.length + 1⟩
  | nothing : Sited text ⟨.nothing, 0, 1⟩
  | several {found : List Expression} (several : 2 ≤ found.length) : Sited text ⟨.several found, 0, 1⟩

theorem ParseFault.Sited.range {text : String} {fault : ParseFault} (sited : fault.Sited text) :
    0 ≤ fault.start ∧ fault.start < fault.stop ∧ fault.stop ≤ max 1 (text.length : Int) := by
  have length : text.toList.length = text.length := String.length_toList
  cases sited with
  | @token _ token cause _ _ stands _ =>
    have range := stands.range
    simp only [Postfix.faultAt]
    omega
  | @character before after c split _ =>
    have whole := congrArg List.length split
    simp only [List.length_append, List.length_cons] at whole
    dsimp only
    omega
  | nothing =>
    dsimp only
    omega
  | several _ =>
    dsimp only
    omega

namespace Postfix

/-- The operator of the step is one of the tokens, and stands for what the step does. -/
def Step.DrawnFrom (tokens : List Token) : Step → Prop
  | .sentinel _ | .license _ => True
  | .attach _ operator | .misplaced operator => operator ∈ tokens ∧ operator.symbol = .withException
  | .join connective operator => operator ∈ tokens ∧ operator.symbol = .join connective
  | .extend operator => operator ∈ tokens ∧ operator.symbol = .orLater
  | .unclosed opening => opening ∈ tokens ∧ opening.symbol = .opening

theorem drawnFrom_stepOf {tokens : List Token} {token : Token} (member : token ∈ tokens)
    (open' : token.symbol ≠ .closing) : (stepOf token).DrawnFrom tokens := by
  unfold stepOf
  split
  next => split <;> trivial
  next connective joins => exact ⟨member, joins⟩
  next keyword => exact ⟨member, keyword⟩
  next plus => exact ⟨member, plus⟩
  next opens => exact ⟨member, opens⟩
  next closes => exact absurd closes open'

theorem drawnFrom_steps {tokens out : List Token} (arranged : arrange tokens = .ok out) :
    ∀ step ∈ steps out, step.DrawnFrom tokens := by
  have drawn : ∀ t ∈ out, t ∈ tokens ∧ t.symbol ≠ .closing :=
    forall_of_arrangeFrom (by simp) (fun t member open' => ⟨member, open'⟩) arranged
  refine forall_of_steps (fun t member => drawnFrom_stepOf (drawn t member).1 (drawn t member).2) ?_
  intro _ _ operator member _ _ keyword
  exact ⟨(drawn operator member).1, keyword⟩

theorem exists_of_perform_eq_error {registry : Registry} {tokens : List Token} {stack : List Expression}
    {step : Step} {fault : ParseFault} (drawn : step.DrawnFrom tokens)
    (failed : perform registry stack step = .error fault) :
    ∃ cause, ∃ token ∈ tokens, fault = faultAt cause token ∧ cause.symbol? = some token.symbol := by
  have at_ {cause : ParseCause} {token : Token} {symbol : Symbol} (drawn : token ∈ tokens ∧ token.symbol = symbol)
      (about : cause.symbol? = some symbol) (same : faultAt cause token = fault) :
      ∃ cause, ∃ token ∈ tokens, fault = faultAt cause token ∧ cause.symbol? = some token.symbol :=
    ⟨cause, token, drawn.1, same.symm, drawn.2 ▸ about⟩
  cases step with
  | sentinel name => cases failed
  | license word => cases failed
  | attach word operator =>
    simp only [perform, attach] at failed
    split at failed
    next => exact at_ drawn rfl (Except.error.inj failed)
    next => cases failed
    next => exact at_ drawn rfl (Except.error.inj failed)
  | misplaced operator => exact at_ drawn rfl (Except.error.inj failed)
  | join connective operator =>
    simp only [perform, join] at failed
    split at failed
    next => cases failed
    next => exact at_ drawn rfl (Except.error.inj failed)
  | extend operator =>
    simp only [perform, extend] at failed
    split at failed
    next => exact at_ drawn rfl (Except.error.inj failed)
    next => cases failed
    next => exact at_ drawn rfl (Except.error.inj failed)
  | unclosed opening => exact at_ drawn rfl (Except.error.inj failed)

theorem exists_of_arrangeFrom_eq_error {waiting tokens : List Token} {fault : ParseFault}
    (failed : arrangeFrom waiting tokens = .error fault) :
    ∃ token ∈ tokens, fault = faultAt .unmatchedClosing token ∧ token.symbol = .closing := by
  have later {token : Token} {rest : List Token}
      (found : ∃ t ∈ rest, fault = faultAt .unmatchedClosing t ∧ t.symbol = .closing) :
      ∃ t ∈ token :: rest, fault = faultAt .unmatchedClosing t ∧ t.symbol = .closing := by
    obtain ⟨t, member, same, closes⟩ := found
    exact ⟨t, .tail _ member, same, closes⟩
  fun_induction arrangeFrom waiting tokens with
  | case1 => cases failed
  | case2 waiting token rest _ ih => exact later (ih (Outcome.map_eq_error.mp failed))
  | case3 waiting token rest _ ih => exact later (ih failed)
  | case4 waiting token rest closes _ => exact ⟨token, by simp, (Except.error.inj failed).symm, closes⟩
  | case5 waiting token rest _ _ _ _ ih => exact later (ih (Outcome.map_eq_error.mp failed))
  | case6 waiting token rest _ _ _ _ ih => exact later (ih (Outcome.map_eq_error.mp failed))

end Postfix

namespace Expression

theorem sited_of_ofTokens {registry : Registry} {text : String} {tokens : List Token} {fault : ParseFault}
    (scanned : Token.scan text.toList = .ok tokens) (failed : ofTokens registry tokens = .error fault) :
    fault.Sited text := by
  have atToken {cause : ParseCause} {token : Token} (member : token ∈ tokens)
      (about : cause.symbol? = some token.symbol) : (Postfix.faultAt cause token).Sited text :=
    .token scanned member (Token.standsIn_of_scan scanned member) about
  -- The fault comes from one of the three passes.
  obtain unarranged | ⟨out, arranged, failed⟩ := Outcome.bind_eq_error.mp failed
  · obtain ⟨token, member, rfl, closes⟩ := Postfix.exists_of_arrangeFrom_eq_error unarranged
    exact atToken member (congrArg some closes.symm)
  obtain stopped | ⟨stack, _, unfinished⟩ := Outcome.bind_eq_error.mp failed
  · obtain ⟨before, step, behind, stack, split, _, stopped⟩ := Outcome.exists_of_foldlM_eq_error stopped
    have drawn := Postfix.drawnFrom_steps arranged step (by simp [split])
    obtain ⟨cause, token, member, rfl, about⟩ := Postfix.exists_of_perform_eq_error drawn stopped
    exact atToken member about
  · match stack, unfinished with
    | [], unfinished =>
      obtain rfl := Except.error.inj unfinished
      exact .nothing
    | _ :: _ :: _, unfinished =>
      obtain rfl := Except.error.inj unfinished
      exact .several (by simp)

/-- A text is read, or it has a fault at a place inside it; nothing that the reader does on the way can break. -/
theorem parse_eq_ok_or_sited (registry : Registry) (text : String) :
    (∃ e, parse registry text = .ok e ∧ Bare.parse registry text = .ok e) ∨
      ∃ fault, parse registry text = .error ⟨fault, text⟩ ∧ Bare.parse registry text = .error (.fault fault) ∧
        fault.Sited text ∧ 0 ≤ fault.start ∧ fault.start < fault.stop ∧
        fault.stop ≤ max 1 (text.length : Int) := by
  have same := Bare.parse_eq registry text
  have atFault {fault : ParseFault} (failed : parse registry text = .error ⟨fault, text⟩)
      (sited : fault.Sited text) : ∃ fault, parse registry text = .error ⟨fault, text⟩ ∧
        Bare.parse registry text = .error (.fault fault) ∧ fault.Sited text ∧ 0 ≤ fault.start ∧
        fault.start < fault.stop ∧ fault.stop ≤ max 1 (text.length : Int) :=
    ⟨fault, failed, by rw [same, failed]; rfl, sited, sited.range⟩
  cases scanned : Token.scan text.toList with
  | error fault =>
    have failed : parse registry text = .error ⟨fault, text⟩ := by simp only [parse, scanned]
    obtain ⟨before, c, after, split, stray, rfl⟩ :=
      @Token.stray_of_scanFrom text.toList [] 0 fault scanned
    refine .inr (atFault failed ?_)
    simpa using ParseFault.Sited.character split stray
  | ok tokens =>
    cases read : ofTokens registry tokens with
    | error fault =>
      have failed : parse registry text = .error ⟨fault, text⟩ := by
        simp only [parse, scanned, read]
        rfl
      exact .inr (atFault failed (sited_of_ofTokens scanned read))
    | ok e =>
      have found : parse registry text = .ok e := by
        simp only [parse, scanned, read]
        rfl
      exact .inl ⟨e, found, by rw [same, found]; rfl⟩

end Expression

end Licensing
