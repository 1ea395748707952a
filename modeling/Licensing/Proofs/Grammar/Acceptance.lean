import Licensing.Proofs.Grammar.Runs

/-! # What the reader accepts

Both passes of the reader only look at what waits and at the stack, never at where operands stand.
So the reader accepts every sentence, but other texts as well: two operands in front of an operator
are joined by it.  Where every lexeme stands in place, what the reader accepts is a sentence.

A text that is read half way is a beginning that an operand has to follow (`Begun`), and then an
operand that is complete so far (`Reads`), or nothing.  One step takes a text from half way to half
way (`Midway.step`), and a whole run takes it to its end (`Midway.sentence`).
-/

namespace Licensing

namespace Postfix

variable {registry : Registry}

/-- `Begun done waiting` — an operand has to follow; parentheses and connectives wait for it. -/
inductive Begun : List Lexeme → List Token → Prop
  | start : Begun [] []
  | join {done operand : List Lexeme} {waiting : List Token} {connective : Connective} {t : Token}
      (begun : Begun done waiting) (sentence : Sentence operand)
      (symbol : t.symbol = .join connective) :
      Begun (done ++ operand ++ [.join connective]) (t :: waiting.dropWhile (due t))
  | opening {done : List Lexeme} {waiting : List Token} {t : Token} (begun : Begun done waiting)
      (symbol : t.symbol = .opening) : Begun (done ++ [.opening]) (t :: waiting)

theorem Begun.quiet {done : List Lexeme} {waiting : List Token} (begun : Begun done waiting) :
    Quiet waiting := by
  induction begun with
  | start =>
    intro w member
    cases member
  | @join _ _ _ connective t _ _ symbol ih =>
    exact (ih.of_subset (List.dropWhile_sublist (due t)).subset).cons (.inr ⟨connective, symbol⟩)
  | opening _ symbol ih => exact ih.cons (.inl symbol)

/-- A connective sends on no parenthesis, so the same one is found below it. -/
theorem dropWhile_due_dropWhile {t : Token} {connective : Connective}
    (symbol : t.symbol = .join connective) (waiting : List Token) :
    (waiting.dropWhile (due t)).dropWhile (!isOpening ·) = waiting.dropWhile (!isOpening ·) := by
  induction waiting with
  | nil => rfl
  | cons w waiting ih =>
    by_cases sent : due t w = true
    · have passed : (!isOpening w) = true := by
        cases opens : isOpening w with
        | false => rfl
        | true =>
          have frame : w.symbol = .opening := by simpa [isOpening] using opens
          cases connective <;> simp [due, symbol, frame, Symbol.rank] at sent
      simp only [List.dropWhile_cons, sent, passed, if_true]
      exact ih
    · rw [List.dropWhile_cons_of_neg sent]

/-- Behind an operand, either no parenthesis is open, or the last one that is has a sentence behind
it: the operand itself, or one that a connective has joined to it. -/
theorem Begun.close {done operand : List Lexeme} {waiting : List Token}
    (begun : Begun done waiting) (sentence : Sentence operand) :
    (Sentence (done ++ operand) ∧ waiting.dropWhile (!isOpening ·) = []) ∨
    ∃ before inside opening outside, done ++ operand = before ++ .opening :: inside ∧
      Sentence inside ∧ Begun before outside ∧
      waiting.dropWhile (!isOpening ·) = opening :: outside ∧
      (inside = operand ∧ waiting.takeWhile (!isOpening ·) = [] ∨
        ∃ connective, .join connective ∈ inside) := by
  induction begun generalizing operand with
  | start => exact .inl ⟨sentence, rfl⟩
  | @join done first waiting connective t _ before symbol ih =>
    have passed : (!isOpening t) = true := by simp [isOpening, symbol]
    -- What is joined takes the place of the operand, in front of the parentheses that wait below.
    have joined : Sentence (first ++ .join connective :: operand) := before.join sentence
    have regroup : done ++ first ++ [.join connective] ++ operand =
        done ++ (first ++ .join connective :: operand) := by simp
    simp only [regroup, List.dropWhile_cons, passed, if_true, dropWhile_due_dropWhile symbol]
    obtain whole | ⟨before, inside, opening, outside, split, within, outer, found, which⟩ :=
      ih joined
    · exact .inl whole
    · have member : ∃ connective, .join connective ∈ inside := by
        obtain ⟨rfl, -⟩ | member := which
        · exact ⟨connective, by simp⟩
        · exact member
      exact .inr ⟨before, inside, opening, outside, split, within, outer, found, .inr member⟩
  | @opening done waiting t begun symbol _ =>
    have stays : isOpening t = true := by simp [isOpening, symbol]
    refine .inr ⟨done, operand, t, waiting, by simp, sentence, begun, ?_, .inl ⟨rfl, ?_⟩⟩
    · simp [stays]
    · simp [stays]

/-! ## Operands -/

/-- `Reads registry operand last e` — the operand ends with a lexeme and has been read as an
expression.  Of two operands that are joined only the place of the connective is kept. -/
inductive Reads (registry : Registry) : List Lexeme → Lexeme → Expression → Prop
  | word {text : String} : Reads registry [.word text] (.word text) (meaning registry text)
  | orLater {word : String} {license : License} (name : isSentinel word = false) :
      Reads registry [.word word, .orLater] .orLater (.orLater license)
  | withException {operand : List Lexeme} {word : String} {term : SimpleTerm}
      {exception : LicenseException} (simple : SimpleSentence operand)
      (name : isSentinel word = false) :
      Reads registry (operand ++ [.withException, .word word]) (.word word)
        (.withException term exception)
  | alone {operand : List Lexeme} {last : Lexeme} {e : Expression}
      (inside : Reads registry operand last e) :
      Reads registry (.opening :: operand ++ [.closing]) .closing e
  | joined {operand : List Lexeme} {connective : Connective} {e : Expression}
      (inside : Sentence operand) (member : .join connective ∈ operand) :
      Reads registry (.opening :: operand ++ [.closing]) .closing e

variable {operand : List Lexeme} {last : Lexeme} {e : Expression}

theorem Reads.sentence (reads : Reads registry operand last e) : Sentence operand := by
  induction reads with
  | word => exact .word
  | orLater name => exact .orLater name
  | withException simple name => exact .withException simple name
  | alone _ ih => exact .parentheses ih
  | joined inside _ => exact .parentheses inside

theorem Reads.endsOperand (reads : Reads registry operand last e) : last.endsOperand = true := by
  cases reads <;> rfl

theorem meaning_eq_simple {word : String} {term : SimpleTerm}
    (simple : meaning registry word = .simple term) : isSentinel word = false := by
  cases special : isSentinel word with
  | false => rfl
  | true => simp [meaning, special] at simple

/-- What has been read as a license alone is a name, possibly in parentheses. -/
theorem Reads.simpleSentence {term : SimpleTerm} (reads : Reads registry operand last (.simple term))
    (plain : ∀ connective, .join connective ∉ operand) : SimpleSentence operand := by
  generalize same : Expression.simple term = e at reads
  induction reads with
  | word => exact .license (meaning_eq_simple same.symm)
  | orLater name => exact .orLater name
  | withException _ _ => cases same
  | alone _ ih =>
    have within := ih (fun connective member => plain connective (by simp [member])) same
    exact .parentheses within
  | @joined _ connective _ _ member => exact absurd (by simp [member]) (plain connective)

/-- A plus sign that has a license stands behind the name of it. -/
theorem Reads.eq_word {word : String} {license : License}
    (reads : Reads registry operand (.word word) (.just license)) :
    operand = [.word word] ∧ isSentinel word = false := by
  generalize same : Expression.just license = e at reads
  cases reads with
  | word => exact ⟨rfl, meaning_eq_simple same.symm⟩
  | withException _ _ => cases same

/-- In place, what stands in front of `WITH` holds no connective. -/
theorem Reads.no_join {done after : List Lexeme} {term : SimpleTerm}
    (reads : Reads registry operand last (.simple term))
    (inPlace : InPlace (done ++ operand ++ .withException :: after)) (connective : Connective) :
    .join connective ∉ operand := by
  have frame {inside : List Lexeme} (here : operand = .opening :: inside ++ [.closing])
      (within : Sentence inside) : .join connective ∉ operand := by
    have outside := inPlace.carriers done inside after (by simp [here]) within connective
    simpa [here] using outside
  generalize same : Expression.simple term = e at reads
  cases reads with
  | word | orLater _ => simp
  | withException _ _ => cases same
  | alone inside => exact frame rfl inside.sentence
  | joined inside _ => exact frame rfl inside

/-! ## Steps -/

variable {done : List Lexeme} {waiting rest : List Token} {stack result : List Expression}

/-- What has been read, and what waits and lies on the stack then. -/
inductive Reached (registry : Registry) :
    List Lexeme → List Token → List Expression → Lexeme → Prop
  | front {done : List Lexeme} {waiting : List Token} {stack : List Expression} {last : Lexeme}
      (begun : Begun done waiting)
      (fits : ∀ next : Lexeme, last.mayFollow next = next.beginsOperand) :
      Reached registry done waiting stack last
  | behind {done operand : List Lexeme} {waiting : List Token} {stack : List Expression}
      {last : Lexeme} {e : Expression} (begun : Begun done waiting)
      (reads : Reads registry operand last e) :
      Reached registry (done ++ operand) waiting (e :: stack) last

/-- A run that succeeds, from the middle of a text on. -/
def Midway (registry : Registry) (result : List Expression) (done : List Lexeme)
    (rest : List Token) : Prop :=
  ∃ waiting stack last, Reached registry done waiting stack last ∧
    Runs registry waiting rest stack result ∧ Follows last rest

/-- The next lexemes of the rest lead to another place half way. -/
def Proceeds (registry : Registry) (result : List Expression) (done : List Lexeme)
    (rest : List Token) : Prop :=
  ∃ t taken others, rest = t :: taken ++ others ∧
    Midway registry result (done ++ (t :: taken).map Token.lexeme) others

/-- In front of an operand comes its first word, or a parenthesis. -/
theorem Begun.step {t : Token} (begun : Begun done waiting)
    (fits : ∀ next : Lexeme, last.mayFollow next = next.beginsOperand)
    (runs : Runs registry waiting (t :: rest) stack result) (follows : Follows last (t :: rest)) :
    Proceeds registry result done (t :: rest) := by
  obtain ⟨may, behind⟩ := follows.head
  rw [fits] at may
  refine ⟨t, [], rest, rfl, ?_⟩
  cases found : t.lexeme with
  | word text =>
    obtain ⟨symbol, rfl⟩ := Token.lexeme_eq_word.mp found
    rw [List.map_singleton, found]
    exact ⟨_, _, _, .behind begun .word, runs.word symbol begun.quiet behind, found ▸ behind⟩
  | opening =>
    have symbol : t.symbol = .opening := Token.symbol_eq_of_lexeme found
    rw [List.map_singleton, found]
    refine ⟨_, _, .opening, .front (begun.opening symbol) ?_, runs.opening symbol, found ▸ behind⟩
    intro next
    rfl
  | closing | orLater | withException | join _ => simp [found, Lexeme.beginsOperand] at may

/-- Behind an operand comes an operator or a closing parenthesis. -/
theorem Reads.step {t : Token} (begun : Begun done waiting)
    (reads : Reads registry operand last e)
    (inPlace : InPlace (done ++ operand ++ (t :: rest).map Token.lexeme))
    (runs : Runs registry waiting (t :: rest) (e :: stack) result)
    (follows : Follows last (t :: rest)) : Proceeds registry result (done ++ operand) (t :: rest) := by
  obtain ⟨-, behind⟩ := follows.head
  have quiet := begun.quiet
  cases found : t.lexeme with
  | opening | word _ =>
    have may := follows.head.1
    have ends := reads.endsOperand
    cases last <;> simp_all [Lexeme.mayFollow, Lexeme.endsOperand]
  | orLater =>
    have symbol : t.symbol = .orLater := Token.symbol_eq_of_lexeme found
    obtain ⟨license, rfl, onward⟩ := runs.orLater symbol quiet behind
    obtain sent | ⟨-, word, rfl⟩ := follows.cases reads.endsOperand
    · simp [symbol, Symbol.rank] at sent
    · obtain ⟨rfl, name⟩ := reads.eq_word
      have reached : Reached registry (done ++ [.word word, .orLater]) waiting
          (.orLater license :: stack) .orLater := .behind begun (.orLater name)
      refine ⟨t, [], rest, rfl, _, _, .orLater, ?_, onward, found ▸ behind⟩
      simpa [found] using reached
  | withException =>
    have symbol : t.symbol = .withException := Token.symbol_eq_of_lexeme found
    obtain ⟨word, rest, rfl, isWord⟩ := behind.exists_word found
    obtain ⟨name, term, rfl, onward⟩ :=
      runs.withException symbol isWord quiet behind.head.2
    have lexed : word.lexeme = .word word.text := Token.lexeme_eq_word.mpr ⟨isWord, rfl⟩
    have simple := reads.simpleSentence (reads.no_join (by simpa [found] using inPlace))
    have reached : Reached registry (done ++ (operand ++ [.withException, .word word.text])) waiting
        (.withException term (registry.readException word.text).named :: stack) (.word word.text) :=
      .behind begun (.withException simple name)
    refine ⟨t, [word], rest, rfl, _, _, .word word.text, ?_, onward, lexed ▸ behind.head.2⟩
    simpa [found, lexed] using reached
  | join connective =>
    have symbol : t.symbol = .join connective := Token.symbol_eq_of_lexeme found
    obtain ⟨next, onward⟩ := runs.join symbol quiet behind
    have begun' := begun.join reads.sentence symbol
    refine ⟨t, [], rest, rfl, _, next, .join connective, .front ?_ ?_, onward, found ▸ behind⟩
    · simpa [found] using begun'
    · intro next
      rfl
  | closing =>
    have symbol : t.symbol = .closing := Token.symbol_eq_of_lexeme found
    obtain ⟨opening, _, e', stack', split, onward, same⟩ := runs.closing symbol quiet behind
    obtain ⟨-, closed⟩ | ⟨before, inside, _, outside, here, within, begun', split', which⟩ :=
      begun.close reads.sentence
    · simp [closed] at split
    · obtain ⟨rfl, rfl⟩ := List.cons_eq_cons.mp (split'.symm.trans split)
      have reads' : Reads registry (.opening :: inside ++ [.closing]) .closing e' := by
        obtain ⟨rfl, alone⟩ | ⟨connective, member⟩ := which
        · rw [same alone]
          exact .alone reads
        · exact .joined within member
      have reached : Reached registry (before ++ (.opening :: inside ++ [.closing])) outside
          (e' :: stack') .closing := .behind begun' reads'
      refine ⟨t, [], rest, rfl, _, _, .closing, ?_, onward, found ▸ behind⟩
      simpa [here, found] using reached

theorem Midway.step {t : Token} (midway : Midway registry result done (t :: rest))
    (inPlace : InPlace (done ++ (t :: rest).map Token.lexeme)) :
    Proceeds registry result done (t :: rest) := by
  obtain ⟨waiting, stack, last, reached, runs, follows⟩ := midway
  cases reached with
  | front begun fits => exact begun.step fits runs follows
  | behind begun reads => exact reads.step begun inPlace runs follows

/-- At the end of a text its last operand is complete, and no parenthesis is open. -/
theorem Midway.sentence_of_end (midway : Midway registry result done []) : Sentence done := by
  obtain ⟨waiting, stack, last, reached, runs, follows⟩ := midway
  cases reached with
  | front begun fits =>
    simp [Follows, Neighbourly, fits, Lexeme.beginsOperand] at follows
  | behind begun reads =>
    obtain ⟨whole, -⟩ | ⟨_, _, opening, outside, _, _, _, split, _⟩ := begun.close reads.sentence
    · exact whole
    · simp [runs.all_closed] at split

theorem Midway.sentence {done : List Lexeme} {rest : List Token}
    (midway : Midway registry result done rest)
    (inPlace : InPlace (done ++ rest.map Token.lexeme)) :
    Sentence (done ++ rest.map Token.lexeme) := by
  cases rest with
  | nil => simpa using midway.sentence_of_end
  | cons t rest =>
    obtain ⟨t', taken, others, same, onward⟩ := midway.step inPlace
    have shorter : others.length < (t :: rest).length := by
      rw [same]
      simp only [List.length_append, List.length_cons]
      omega
    have regroup : done ++ (t :: rest).map Token.lexeme =
        done ++ (t' :: taken).map Token.lexeme ++ others.map Token.lexeme := by simp [same]
    rw [regroup] at inPlace ⊢
    exact Midway.sentence onward inPlace
termination_by rest.length

end Postfix

/-! ## Texts -/

/-- A text of the documented grammar. -/
def Grammatical (text : String) : Prop :=
  ∃ tokens, Token.scan text.toList = .ok tokens ∧ Sentence (tokens.map Token.lexeme)

/-- A text with all its lexemes in place. -/
def Placed (text : String) : Prop :=
  ∃ tokens, Token.scan text.toList = .ok tokens ∧ InPlace (tokens.map Token.lexeme)

namespace Expression

variable {registry : Registry} {text : String}

theorem sentence_of_ofTokens {tokens : List Token} {e : Expression}
    (read : ofTokens registry tokens = .ok e) (inPlace : InPlace (tokens.map Token.lexeme)) :
    Sentence (tokens.map Token.lexeme) := by
  obtain ⟨out, arranged, more⟩ := Outcome.bind_eq_ok.mp read
  obtain ⟨stack, ran, -⟩ := Outcome.bind_eq_ok.mp more
  have front : Postfix.Reached registry [] [] [] .opening := .front .start fun _ => rfl
  have midway : Postfix.Midway registry stack [] tokens :=
    ⟨[], [], .opening, front, ⟨out, arranged, ran⟩, inPlace.neighbourly⟩
  simpa using midway.sentence (by simpa using inPlace)

theorem exists_parse_iff {tokens : List Token} (scanned : Token.scan text.toList = .ok tokens) :
    (∃ e, parse registry text = .ok e) ↔ ∃ e, ofTokens registry tokens = .ok e := by
  simp only [parse, scanned, Outcome.mapError_eq_ok]

/-- The texts of the documented grammar are those that are read, with all lexemes in place. -/
theorem grammatical_iff_parse (registry : Registry) (text : String) :
    Grammatical text ↔ (∃ e, parse registry text = .ok e) ∧ Placed text := by
  constructor
  · rintro ⟨tokens, scanned, sentence⟩
    obtain ⟨e, derives⟩ : ∃ e, Derives registry (Symbol.join .or).rank tokens e :=
      sentence.exists_derives rfl
    have read := ofTokens_of_derives derives
    exact ⟨(exists_parse_iff scanned).mpr ⟨e, read⟩, tokens, scanned, sentence.inPlace⟩
  · rintro ⟨parsed, tokens, scanned, inPlace⟩
    obtain ⟨e, read⟩ := (exists_parse_iff scanned).mp parsed
    exact ⟨tokens, scanned, sentence_of_ofTokens read inPlace⟩

/-- Two operands in front of an operator are read, although they are no expression. -/
theorem parse_operands_before_operator :
    (∃ e, parse ⟨[], []⟩ "MIT Apache-2.0 AND" = .ok e) ∧ ¬Grammatical "MIT Apache-2.0 AND" := by
  have scanned : ∃ tokens, Token.scan "MIT Apache-2.0 AND".toList = .ok tokens ∧
      tokens.map Token.lexeme = [.word "MIT", .word "Apache-2.0", .join .and] :=
    ⟨_, by rfl, by decide⟩
  obtain ⟨tokens, scanned, lexed⟩ := scanned
  refine ⟨⟨_, by rfl⟩, ?_⟩
  rintro ⟨tokens', scanned', sentence⟩
  obtain rfl := Except.ok.inj (scanned.symm.trans scanned')
  -- A word does not stand behind a word.
  have apart := sentence.inPlace.neighbourly
  simp [lexed, Neighbourly, Lexeme.mayFollow] at apart

end Expression

end Licensing
