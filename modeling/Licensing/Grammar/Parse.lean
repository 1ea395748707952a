import Licensing.Grammar.Postfix
import Licensing.Registry.Basic

/-! # Reading expressions

An expression is read in three passes: the text is cut into tokens, the tokens are put into postfix
order, and the steps of the postfix order are carried out on a stack of expressions. A text is an
expression if exactly one expression is left at the end.

Words that a registry lists are standard licenses and exceptions; any other word is free text.

* `Postfix.perform` — one step.
* `Expression.parse` — the expression that a text writes.
-/

namespace Licensing

namespace Postfix

def faultAt (cause : ParseCause) (token : Token) : ParseFault :=
  ⟨cause, token.start, token.stop⟩

/-- Attaches the exception that a word names to the expression on top of the stack. -/
def attach (registry : Registry) (word : String) (operator : Token) :
    List Expression → Except ParseFault (List Expression)
  | [] => .error (faultAt .exceptionWithoutLicense operator)
  | .simple term :: rest => .ok (.withException term (registry.readException word).named :: rest)
  | actual :: _ => .error (faultAt (.exceptionOnCompound actual) operator)

def join (connective : Connective) (operator : Token) :
    List Expression → Except ParseFault (List Expression)
  | right :: left :: rest => .ok (Expression.combine connective left [right] :: rest)
  | _ => .error (faultAt (.missingOperand connective) operator)

def extend (operator : Token) : List Expression → Except ParseFault (List Expression)
  | [] => .error (faultAt .nothingToExtend operator)
  | .simple (.exact license) :: rest => .ok (.orLater license :: rest)
  | actual :: _ => .error (faultAt (.cannotExtend actual) operator)

/-- Carries out one step; the last expression found is on top of the stack. -/
def perform (registry : Registry) (stack : List Expression) :
    Step → Except ParseFault (List Expression)
  | .sentinel name => .ok (.sentinel name :: stack)
  | .license word => .ok (.just (registry.readLicense word).named :: stack)
  | .attach word operator => attach registry word operator stack
  | .misplaced operator => .error (faultAt (.misplacedException stack[1]? stack[0]?) operator)
  | .join connective operator => join connective operator stack
  | .extend operator => extend operator stack
  | .unclosed opening => .error (faultAt .unclosedOpening opening)

/-- The one expression that is left at the end. -/
def finish : List Expression → Except ParseFault Expression
  | [] => .error ⟨.nothing, 0, 1⟩
  | [e] => .ok e
  | several => .error ⟨.several several.reverse, 0, 1⟩

end Postfix

def Expression.ofTokens (registry : Registry) (tokens : List Token) :
    Except ParseFault Expression := do
  let arranged ← Postfix.arrange tokens
  let stack ← (Postfix.steps arranged).foldlM (Postfix.perform registry) []
  Postfix.finish stack

def Expression.parse (registry : Registry) (text : String) : Except ParseError Expression :=
  match Token.scan text.toList with
  | .error fault => .error ⟨fault, text⟩
  | .ok tokens => (Expression.ofTokens registry tokens).mapError (⟨·, text⟩)

end Licensing
