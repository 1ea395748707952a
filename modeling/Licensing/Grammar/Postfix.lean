import Licensing.Grammar.Token

/-! # Postfix order

In postfix order each operator comes behind its operands, and no parentheses are needed. Operators
wait on a stack until one comes that binds no tighter, or the parentheses around them are closed.

* `Postfix.arrange` — tokens in postfix order.
* `Postfix.Step`, `Postfix.steps` — what each of them does to a stack of expressions.
-/

namespace Licensing.Postfix

def isOpening (token : Token) : Bool :=
  token.symbol = .opening

/-- Puts tokens into postfix order, given the operators and parentheses that wait, the last one
first. Opening parentheses that are never closed stay in the result. -/
def arrangeFrom : List Token → List Token → Except ParseFault (List Token)
  | waiting, [] => .ok waiting
  | waiting, token :: rest =>
    match token.symbol with
    | .word => (arrangeFrom waiting rest).map (token :: ·)
    | .opening => arrangeFrom (token :: waiting) rest
    | .closing =>
      match waiting.dropWhile (!isOpening ·) with
      | [] => .error ⟨.unmatchedClosing, token.start, token.stop⟩
      | _ :: outside => (arrangeFrom outside rest).map (waiting.takeWhile (!isOpening ·) ++ ·)
    | operator =>
      let due (w : Token) : Bool := operator.rank ≤ w.symbol.rank
      (arrangeFrom (token :: waiting.dropWhile due) rest).map (waiting.takeWhile due ++ ·)

def arrange (tokens : List Token) : Except ParseFault (List Token) :=
  arrangeFrom [] tokens

/-- What a token in postfix order does to the expressions found so far. -/
inductive Step where
  /-- Adds a sentinel. -/
  | sentinel (name : String)
  /-- Adds the license that a word names. -/
  | license (word : String)
  /-- Attaches the exception that a word names to the last expression. -/
  | attach (word : String) (operator : Token)
  /-- `WITH` behind something that is not the word of an exception. -/
  | misplaced (operator : Token)
  /-- Joins the last two expressions. -/
  | join (connective : Connective) (operator : Token)
  /-- Extends the last expression to later versions. -/
  | extend (operator : Token)
  /-- A parenthesis that was never closed. -/
  | unclosed (opening : Token)
deriving DecidableEq, Repr

/-- Whether a word is a sentinel and not a name. -/
def isSentinel (word : String) : Bool :=
  word == "NONE" || word == "NOASSERTION"

/-- The step of a token that stands by itself; closing parentheses do not occur in postfix order. -/
def stepOf (token : Token) : Step :=
  match token.symbol with
  | .word => if isSentinel token.text then .sentinel token.text else .license token.text
  | .join connective => .join connective token
  | .withException => .misplaced token
  | .orLater => .extend token
  | .opening | .closing => .unclosed token

/-- The steps of tokens in postfix order. A word in front of `WITH` names an exception. -/
def steps : List Token → List Step
  | [] => []
  | [token] => [stepOf token]
  | token :: next :: rest =>
    if token.symbol = .word && !isSentinel token.text && next.symbol = .withException then
      .attach token.text next :: steps rest
    else stepOf token :: steps (next :: rest)

end Licensing.Postfix
