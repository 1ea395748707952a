import Licensing.Grammar.Fault
import Licensing.Text.Blank

/-! # Tokens of an expression

A text is cut into words, parentheses and plus signs. White space parts words and means nothing else;
any other character is a fault.

* `Symbol` — what a token stands for; `Symbol.rank` is how tightly it binds.
* `Token.scan` — the tokens of a text, each with its place.
-/

namespace Licensing

inductive Symbol where
  | opening
  | word
  | join (connective : Connective)
  | withException
  | orLater
  | closing
deriving DecidableEq, Repr

/-- How tightly a symbol binds: a plus sign tightest, then `WITH`, `AND`, `OR`. Parentheses frame
the order. -/
def Symbol.rank : Symbol → Nat
  | .opening => 0
  | .word => 1
  | .join .or => 2
  | .join .and => 3
  | .withException => 4
  | .orLater => 5
  | .closing => 6

/-- A symbol with its text and its place, counted in characters. -/
structure Token where
  symbol : Symbol
  text : String
  start : Nat
  stop : Nat
deriving DecidableEq, Repr

namespace Token

def isWordCharacter (c : Char) : Bool :=
  c.isAlphanum || c == '-' || c == '_' || c == '.' || c == ':'

/-- The operator that a word is, in any letter case; any other word names something. -/
def symbolOf (word : String) : Symbol :=
  match String.ofList (word.toList.map Char.toUpper) with
  | "WITH" => .withException
  | "AND" => .join .and
  | "OR" => .join .or
  | _ => .word

def mark? (c : Char) : Option Symbol :=
  match c with
  | '(' => some .opening
  | ')' => some .closing
  | '+' => some .orLater
  | _ => none

/-- The word that ends before `offset`; its characters are given in reverse. No characters are no
word. -/
def wordBefore (offset : Nat) (reversed : List Char) : List Token :=
  if reversed.isEmpty then []
  else
    let word := String.ofList reversed.reverse
    [⟨symbolOf word, word, offset - reversed.length, offset⟩]

/-- The tokens of a text that starts at `offset`, behind the characters of a word begun before. -/
def scanFrom (offset : Nat) (begun : List Char) : List Char → Except ParseFault (List Token)
  | [] => .ok (wordBefore offset begun)
  | c :: rest =>
    if isWordCharacter c then scanFrom (offset + 1) (c :: begun) rest
    else if Text.isBlank c then
      (scanFrom (offset + 1) [] rest).map (wordBefore offset begun ++ ·)
    else match mark? c with
      | some symbol =>
        let token : Token := ⟨symbol, String.singleton c, offset, offset + 1⟩
        (scanFrom (offset + 1) [] rest).map (wordBefore offset begun ++ token :: ·)
      | none => .error ⟨.unexpectedCharacter c, offset, offset + 1⟩

def scan (text : List Char) : Except ParseFault (List Token) :=
  scanFrom 0 [] text

end Token

end Licensing
