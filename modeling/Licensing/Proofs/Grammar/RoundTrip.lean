import Licensing.Proofs.Grammar.Printing
import Licensing.Proofs.Outcome

/-! # Printing and reading

Reading gives printable expressions only, whatever the text: the words of a text are names or
sentinels, and no step on the stack of expressions leaves the printable ones.  Together with
`Expression.Printable.parse_text` this makes printing and reading inverse to each other.

* `forall_of_arrangeFrom` — arranging invents no token, and leaves out closing parentheses.
* `printable_of_perform` — a step keeps the stack printable.
* `parse_text_roundTrip` — the main statement.
-/

namespace Licensing

/-! ## The tokens of a text -/

namespace Token

/-- A token whose text can be a word, if the token is a word. -/
def Proper (token : Token) : Prop :=
  token.symbol = .word → IsWordText token.text ∧ symbolOf token.text = .word

theorem proper_wordBefore {begun : List Char} (all : ∀ c ∈ begun, isWordCharacter c = true)
    (offset : Nat) : ∀ t ∈ wordBefore offset begun, t.Proper := by
  intro t member
  unfold wordBefore at member
  split at member
  next => simp at member
  next some =>
    obtain rfl := List.mem_singleton.mp member
    intro word
    refine ⟨⟨?_, by simpa using all⟩, word⟩
    simpa [String.ext_iff] using some

theorem mark?_ne_word {c : Char} {symbol : Symbol} (mark : mark? c = some symbol) :
    symbol ≠ .word := by
  unfold mark? at mark
  split at mark <;> cases mark <;> simp

/-- Every token that is cut out of a text is proper. -/
theorem proper_of_scanFrom {text begun : List Char} {offset : Nat} {tokens : List Token}
    (all : ∀ c ∈ begun, isWordCharacter c = true)
    (scanned : scanFrom offset begun text = .ok tokens) : ∀ t ∈ tokens, t.Proper := by
  induction text generalizing offset begun tokens with
  | nil =>
    rw [scanFrom] at scanned
    cases scanned
    exact proper_wordBefore all offset
  | cons c rest ih =>
    have before := proper_wordBefore all offset
    rw [scanFrom] at scanned
    split at scanned
    next letter => exact ih (by simpa [letter] using all) scanned
    next =>
      split at scanned
      next =>
        obtain ⟨later, found, rfl⟩ := Outcome.map_eq_ok.mp scanned
        intro t member
        cases List.mem_append.mp member with
        | inl here => exact before t here
        | inr there => exact ih (by simp) found t there
      next =>
        split at scanned
        next symbol mark =>
          obtain ⟨later, found, rfl⟩ := Outcome.map_eq_ok.mp scanned
          intro t member
          simp only [List.mem_append, List.mem_cons] at member
          obtain here | rfl | there := member
          · exact before t here
          · intro word
            exact absurd word (mark?_ne_word mark)
          · exact ih (by simp) found t there
        next => cases scanned

end Token

/-! ## Arranging -/

namespace Postfix

/-- What holds of all that waits and of all tokens that come, closing parentheses apart, holds of all that comes
out. -/
theorem forall_of_arrangeFrom {P : Token → Prop} {waiting tokens out : List Token} (waits : ∀ w ∈ waiting, P w)
    (comes : ∀ t ∈ tokens, t.symbol ≠ .closing → P t) (arranged : arrangeFrom waiting tokens = .ok out) :
    ∀ t ∈ out, P t := by
  fun_induction arrangeFrom waiting tokens generalizing out with
  | case1 waiting =>
    cases arranged
    exact waits
  | case2 waiting token rest word ih =>
    obtain ⟨first, others⟩ := List.forall_mem_cons.mp comes
    obtain ⟨later, found, rfl⟩ := Outcome.map_eq_ok.mp arranged
    exact List.forall_mem_cons.mpr ⟨first (by simp [word]), ih waits others found⟩
  | case3 waiting token rest opens ih =>
    obtain ⟨first, others⟩ := List.forall_mem_cons.mp comes
    exact ih (List.forall_mem_cons.mpr ⟨first (by simp [opens]), waits⟩) others arranged
  | case4 => cases arranged
  | case5 waiting token rest closes opening outside found ih =>
    obtain ⟨-, others⟩ := List.forall_mem_cons.mp comes
    obtain ⟨later, done, rfl⟩ := Outcome.map_eq_ok.mp arranged
    have below : ∀ w ∈ outside, P w := by
      intro w member
      have sub := List.dropWhile_sublist (fun w => !isOpening w) (l := waiting)
      exact waits w (sub.mem (found ▸ .tail _ member))
    have sent : ∀ w ∈ waiting.takeWhile (!isOpening ·), P w := fun w member =>
      waits w ((List.takeWhile_sublist _).mem member)
    exact List.forall_mem_append.mpr ⟨sent, ih below others done⟩
  | case6 waiting token rest _ _ notClosing due =>
    rename_i ih
    obtain ⟨first, others⟩ := List.forall_mem_cons.mp comes
    obtain ⟨later, done, rfl⟩ := Outcome.map_eq_ok.mp arranged
    -- What is sent on waited before; the operator itself waits from here on.
    have below : ∀ w ∈ waiting.dropWhile due, P w := fun w member =>
      waits w ((List.dropWhile_sublist _).mem member)
    have sent : ∀ w ∈ waiting.takeWhile due, P w := fun w member =>
      waits w ((List.takeWhile_sublist _).mem member)
    have waits' : ∀ w ∈ token :: waiting.dropWhile due, P w :=
      List.forall_mem_cons.mpr ⟨first notClosing, below⟩
    exact List.forall_mem_append.mpr ⟨sent, ih waits' others done⟩

/-! ## The steps -/

/-- A step whose words are names, or whose sentinel is one. -/
def Step.Proper : Step → Prop
  | .sentinel name => isSentinel name = true
  | .license word => IsName word
  | .attach word _ => IsName word
  | _ => True

theorem proper_stepOf {token : Token} (proper : token.Proper) : (stepOf token).Proper := by
  unfold stepOf
  split
  next word =>
    split
    next special => exact special
    next plain =>
      obtain ⟨text, symbol⟩ := proper word
      exact ⟨text, symbol, by simpa using plain⟩
  next => trivial
  next => trivial
  next => trivial
  next => trivial
  next => trivial

/-- What holds of the step of each token by itself, and of a word with the keyword of exceptions behind it, holds
of all steps. -/
theorem forall_of_steps {P : Step → Prop} {tokens : List Token} (alone : ∀ t ∈ tokens, P (stepOf t))
    (attached : ∀ word ∈ tokens, ∀ operator ∈ tokens, word.symbol = .word → isSentinel word.text = false →
      operator.symbol = .withException → P (.attach word.text operator)) : ∀ step ∈ steps tokens, P step := by
  fun_induction steps tokens with
  | case1 => simp
  | case2 token => simpa using alone token (by simp)
  | case3 token operator rest behind ih =>
    simp only [Bool.and_eq_true, decide_eq_true_eq, Bool.not_eq_true'] at behind
    obtain ⟨⟨word, plain⟩, keyword⟩ := behind
    refine List.forall_mem_cons.mpr ⟨attached token (by simp) operator (by simp) word plain keyword, ?_⟩
    exact ih (fun t inRest => alone t (by simp [inRest]))
      fun w inRest o inRest' => attached w (by simp [inRest]) o (by simp [inRest'])
  | case4 token next rest _ ih =>
    refine List.forall_mem_cons.mpr ⟨alone token (by simp), ?_⟩
    exact ih (fun t inRest => alone t (.tail _ inRest))
      fun w inRest o inRest' => attached w (.tail _ inRest) o (.tail _ inRest')

theorem proper_steps {tokens : List Token} (proper : ∀ t ∈ tokens, t.Proper) :
    ∀ step ∈ steps tokens, step.Proper := by
  refine forall_of_steps (fun t member => proper_stepOf (proper t member)) ?_
  intro token member _ _ word plain _
  obtain ⟨text, symbol⟩ := proper token member word
  exact ⟨text, symbol, plain⟩

/-! ## The stack -/

variable {registry : Registry}

theorem text_readLicense (registry : Registry) (word : String) :
    (registry.readLicense word).named.text = word := by
  unfold Registry.readLicense
  split
  next entry found =>
    have same : entry.id = word := by simpa using List.find?_some found
    exact same
  next => rfl

theorem text_readException (registry : Registry) (word : String) :
    (registry.readException word).named.text = word := by
  unfold Registry.readException
  split
  next entry found =>
    have same : entry.id = word := by simpa using List.find?_some found
    exact same
  next => rfl

theorem knowsLicense_readLicense {word : String} (name : IsName word) :
    registry.KnowsLicense (registry.readLicense word).named where
  name := by rw [text_readLicense]; exact name
  reads := by rw [text_readLicense]

theorem knowsException_readException {word : String} (name : IsName word) :
    registry.KnowsException (registry.readException word).named where
  name := by rw [text_readException]; exact name
  reads := by rw [text_readException]

/-- A stack that holds printable expressions only. -/
def AllPrintable (registry : Registry) (stack : List Expression) : Prop :=
  ∀ e ∈ stack, e.Printable registry

theorem AllPrintable.push {stack : List Expression} {e : Expression}
    (rest : AllPrintable registry stack) (top : e.Printable registry) :
    AllPrintable registry (e :: stack) := by
  intro d member
  cases List.mem_cons.mp member with
  | inl here => exact here ▸ top
  | inr below => exact rest d below

theorem AllPrintable.top {stack : List Expression} {e : Expression}
    (all : AllPrintable registry (e :: stack)) :
    e.Printable registry ∧ AllPrintable registry stack :=
  ⟨all e (by simp), fun d member => all d (.tail _ member)⟩

/-- No step leaves the printable expressions. -/
theorem printable_of_perform {stack stack' : List Expression} {step : Step}
    (all : AllPrintable registry stack) (proper : step.Proper)
    (performed : perform registry stack step = .ok stack') : AllPrintable registry stack' := by
  cases step with
  | sentinel name =>
    cases performed
    exact all.push ⟨trivial, proper⟩
  | license word =>
    cases performed
    exact all.push ⟨trivial, knowsLicense_readLicense proper⟩
  | attach word operator =>
    simp only [perform, attach] at performed
    split at performed
    next => cases performed
    next term rest =>
      cases performed
      have legible : registry.KnowsLicense term.license := by
        simpa [Expression.Legible] using all.top.1.legible
      exact all.top.2.push ⟨trivial, legible, knowsException_readException proper⟩
    next => cases performed
  | misplaced operator => cases performed
  | join connective operator =>
    simp only [perform, join] at performed
    split at performed
    next right left rest =>
      cases performed
      obtain ⟨atRight, below⟩ := all.top
      exact below.top.2.push (below.top.1.combine atRight connective)
    next => cases performed
  | extend operator =>
    simp only [perform, extend] at performed
    split at performed
    next => cases performed
    next license rest =>
      cases performed
      have legible : registry.KnowsLicense license := by
        simpa [Expression.Legible, SimpleTerm.license] using all.top.1.legible
      exact all.top.2.push ⟨trivial, legible⟩
    next => cases performed
  | unclosed opening => cases performed

end Postfix

/-! ## Printing and reading -/

namespace Expression

variable {registry : Registry}

/-- Every text that is read at all is read as a printable expression. -/
theorem printable_of_parse {text : String} {e : Expression}
    (parsed : Expression.parse registry text = .ok e) : e.Printable registry := by
  unfold Expression.parse at parsed
  split at parsed
  next => cases parsed
  next tokens scanned =>
    have inTokens := Token.proper_of_scanFrom (by simp) scanned
    unfold ofTokens at parsed
    obtain ⟨out, arranged, parsed⟩ := Outcome.bind_eq_ok.mp (Outcome.mapError_eq_ok.mp parsed)
    obtain ⟨stack, ran, finished⟩ := Outcome.bind_eq_ok.mp parsed
    have inOut : ∀ t ∈ out, t.Proper :=
      Postfix.forall_of_arrangeFrom (by simp) (fun t member _ => inTokens t member) arranged
    -- The stack is printable after every step, and the last expression on it is the result.
    have steps := Postfix.proper_steps inOut
    have all : Postfix.AllPrintable registry stack :=
      Outcome.foldlM_invariant (P := Postfix.AllPrintable registry) (by simp [Postfix.AllPrintable])
        (fun _ all step member _ performed =>
          Postfix.printable_of_perform all (steps step member) performed) ran
    unfold Postfix.finish at finished
    split at finished
    next => cases finished
    next =>
      cases finished
      exact all e (by simp)
    next => cases finished

/-- A name is read as the license that it designates. -/
theorem parse_of_isName (registry : Registry) {word : String} (name : IsName word) :
    Expression.parse registry word = .ok (.just (registry.readLicense word).named) := by
  have printable : (Expression.just (registry.readLicense word).named).Printable registry :=
    ⟨by simp [Expression.Canonical], Postfix.knowsLicense_readLicense name⟩
  have parsed := printable.parse_text
  rwa [show (Expression.just (registry.readLicense word).named).text = word from
    Postfix.text_readLicense registry word] at parsed

/-- The operands of a compound expression are printed differently. -/
theorem Printable.nodup_operands {connective : Connective} {es : List Expression}
    (printable : (compound connective es).Printable registry) : (es.map text).Nodup := by
  obtain ⟨_, sorted, _, _⟩ := canonical_compound_iff.mp printable.canonical
  have operand (d : Expression) (member : d ∈ es) : d.Printable registry :=
    printable.of_mem_operands (by rw [operands_compound]; exact member)
  refine List.pairwise_map.mpr (sorted.nodup.imp_of_mem fun {a b} inA inB differ same => ?_)
  exact differ ((operand a inA).eq_of_text_eq (operand b inB) same)

/-- Printing and reading are inverse to each other: a printable expression is read from its printed
form, everything that is read is printable, and so the printed form determines the expression, also
among the operands of one compound expression. -/
theorem parse_text_roundTrip (registry : Registry) :
    (∀ e : Expression, e.Printable registry → Expression.parse registry e.text = .ok e) ∧
    (∀ (text : String) (e : Expression), Expression.parse registry text = .ok e →
      e.Printable registry ∧ Expression.parse registry e.text = .ok e) ∧
    (∀ a b : Expression, a.Printable registry → b.Printable registry → a.text = b.text → a = b) ∧
    (∀ (connective : Connective) (es : List Expression),
      (compound connective es).Printable registry → (es.map text).Nodup) := by
  refine ⟨fun e printable => printable.parse_text, fun text e parsed => ?_,
    fun a b left right same => left.eq_of_text_eq right same,
    fun connective es printable => printable.nodup_operands⟩
  have printable := printable_of_parse parsed
  exact ⟨printable, printable.parse_text⟩

/-- A choice below an `AND`, and a text outside the grammar that is read all the same. -/
theorem parse_text_choice_below_and :
    let registry : Registry :=
      ⟨[{ id := "MIT" }, { id := "GPL-2.0-only" }], [{ id := "Classpath-exception-2.0" }]⟩
    let foo : Expression := .just (.free ⟨"Foo", []⟩)
    let mit : Expression := .just (.standard "MIT")
    let gpl : Expression :=
      .withException (.orLater (.standard "GPL-2.0-only")) (.standard "Classpath-exception-2.0")
    let nested : Expression := .compound .and [mit, .compound .or [foo, gpl]]
    let flat : Expression := .compound .or [foo, mit]
    (nested.Printable registry ∧ Expression.parse registry nested.text = .ok nested) ∧
      (Expression.parse registry "Foo MIT or" = .ok flat ∧ flat.Printable registry ∧
        Expression.parse registry flat.text = .ok flat) ∧
      flat.text ≠ nested.text ∧ ([foo, mit].map text).Nodup := by
  intro registry foo mit gpl nested flat
  have canonical : nested.Canonical := by
    simp [nested, foo, mit, gpl, Canonical, AllCanonical, SortedSet.Sorted]
    decide
  have legible : nested.Legible registry := by
    simp [nested, foo, mit, gpl, Legible, AllLegible]
    decide
  have printable : nested.Printable registry := ⟨canonical, legible⟩
  have parsed : Expression.parse registry "Foo MIT or" = .ok flat :=
    Outcome.toOption_eq_some.mp (by decide +kernel)
  obtain ⟨reads, readable, same, apart⟩ := parse_text_roundTrip registry
  obtain ⟨printable', again⟩ := readable "Foo MIT or" flat parsed
  have differ : flat ≠ nested := by decide
  exact ⟨⟨printable, reads nested printable⟩, ⟨parsed, printable', again⟩,
    fun equal => differ (same flat nested printable' printable equal), apart .or _ printable'⟩

end Expression

end Licensing
