import Licensing.Proofs.Expression.Semilattice
import Licensing.Proofs.Grammar.RoundTrip
import Licensing.Proofs.Grammar.Runs

/-! # Texts in parentheses

A text that is read as an expression can be put in parentheses and joined with others, and each part keeps its
meaning.  This holds of every text that is read at all, also of those in which operators stand in odd places, so
the grammar is of no help.  It is seen in the two passes of the reader:

* `scanFrom_moved`, `ofTokens_moved` — it does not matter where the tokens of the text stand.
* `arrangeFrom_enclosed` — in parentheses, its postfix order is a block of its own.
* `foldlM_perform_append` — a block leaves alone what lay on the stack before.

A block begins with no `WITH`, so the word in front of it does not look into it.  Thus what is in parentheses is
`Arranged` like an operand of the grammar, and is joined as such.
-/

namespace Licensing

/-! ## The place of a text -/

namespace Token

/-- The token at another place. -/
def moved (distance : Nat) (token : Token) : Token :=
  { token with start := token.start + distance, stop := token.stop + distance }

@[simp] theorem moved_symbol (distance : Nat) (token : Token) : (token.moved distance).symbol = token.symbol := rfl

@[simp] theorem moved_text (distance : Nat) (token : Token) : (token.moved distance).text = token.text := rfl

theorem wordBefore_moved {offset : Nat} {begun : List Char} (within : begun.length ≤ offset) (distance : Nat) :
    wordBefore (offset + distance) begun = (wordBefore offset begun).map (moved distance) := by
  have start : offset + distance - begun.length = offset - begun.length + distance := by omega
  unfold wordBefore
  split
  next => rfl
  next => simp [moved, start]

theorem scanFrom_moved {text begun : List Char} {offset : Nat} {tokens : List Token} (within : begun.length ≤ offset)
    (scanned : scanFrom offset begun text = .ok tokens) (distance : Nat) :
    scanFrom (offset + distance) begun text = .ok (tokens.map (moved distance)) := by
  induction text generalizing offset begun tokens with
  | nil =>
    obtain rfl := Except.ok.inj scanned
    rw [scanFrom, wordBefore_moved within]
  | cons c text ih =>
    have shift : offset + distance + 1 = offset + 1 + distance := by omega
    rw [scanFrom] at scanned ⊢
    rw [shift]
    split at scanned
    next letter =>
      rw [if_pos letter]
      exact ih (by simpa using within) scanned
    next other =>
      rw [if_neg other]
      split at scanned
      next blank =>
        obtain ⟨later, found, rfl⟩ := Outcome.map_eq_ok.mp scanned
        rw [if_pos blank, ih (by simp) found, wordBefore_moved within, List.map_append]
        rfl
      next solid =>
        rw [if_neg solid]
        split at scanned
        next symbol mark =>
          obtain ⟨later, found, rfl⟩ := Outcome.map_eq_ok.mp scanned
          simp only [ih (Nat.zero_le _) found, wordBefore_moved within, List.map_append, List.map_cons, moved]
          simp [Except.map]
        next => cases scanned

end Token

namespace Postfix

variable {registry : Registry}

theorem takeWhile_moved {p : Token → Bool} (distance : Nat) (same : ∀ t : Token, p (t.moved distance) = p t)
    (waiting : List Token) :
    (waiting.map (Token.moved distance)).takeWhile p = (waiting.takeWhile p).map (Token.moved distance) := by
  rw [List.takeWhile_map]
  congr 2
  exact funext same

theorem dropWhile_moved {p : Token → Bool} (distance : Nat) (same : ∀ t : Token, p (t.moved distance) = p t)
    (waiting : List Token) :
    (waiting.map (Token.moved distance)).dropWhile p = (waiting.dropWhile p).map (Token.moved distance) := by
  rw [List.dropWhile_map]
  congr 2
  exact funext same

theorem arrangeFrom_moved {waiting tokens out : List Token} (arranged : arrangeFrom waiting tokens = .ok out)
    (distance : Nat) :
    arrangeFrom (waiting.map (Token.moved distance)) (tokens.map (Token.moved distance)) =
      .ok (out.map (Token.moved distance)) := by
  fun_induction arrangeFrom waiting tokens generalizing out with
  | case1 waiting =>
    cases arranged
    rfl
  | case2 waiting token rest word ih =>
    obtain ⟨later, found, rfl⟩ := Outcome.map_eq_ok.mp arranged
    rw [List.map_cons, arrangeFrom_word (by simpa using word), ih found]
    rfl
  | case3 waiting token rest opens ih =>
    rw [List.map_cons, arrangeFrom_opening (by simpa using opens)]
    exact ih arranged
  | case4 => cases arranged
  | case5 waiting token rest closes opening outside found ih =>
    obtain ⟨later, done, rfl⟩ := Outcome.map_eq_ok.mp arranged
    have below := dropWhile_moved (p := (!isOpening ·)) distance (fun _ => rfl) waiting
    have sent := takeWhile_moved (p := (!isOpening ·)) distance (fun _ => rfl) waiting
    simp only [List.map_cons, arrangeFrom, Token.moved_symbol, closes, below, sent, found, ih done, List.map_append]
    rfl
  | case6 waiting token rest notWord notOpening notClosing due =>
    rename_i ih
    obtain ⟨later, done, rfl⟩ := Outcome.map_eq_ok.mp arranged
    have below := dropWhile_moved (p := due) distance (fun _ => rfl) waiting
    have sent := takeWhile_moved (p := due) distance (fun _ => rfl) waiting
    have again := @arrangeFrom_eq_of_operator (token.moved distance) ⟨notWord, notOpening, notClosing⟩
      (waiting.map (Token.moved distance)) (rest.map (Token.moved distance))
    rw [List.map_cons, again]
    show (arrangeFrom (token.moved distance :: (waiting.map (Token.moved distance)).dropWhile due) _).map
      ((waiting.map (Token.moved distance)).takeWhile due ++ ·) = _
    rw [below, sent, ← List.map_cons, ih done, List.map_append]
    rfl

def Step.moved (distance : Nat) : Step → Step
  | .sentinel name => .sentinel name
  | .license word => .license word
  | .attach word operator => .attach word (operator.moved distance)
  | .misplaced operator => .misplaced (operator.moved distance)
  | .join connective operator => .join connective (operator.moved distance)
  | .extend operator => .extend (operator.moved distance)
  | .unclosed opening => .unclosed (opening.moved distance)

theorem stepOf_moved (distance : Nat) (token : Token) :
    stepOf (token.moved distance) = (stepOf token).moved distance := by
  cases symbol : token.symbol with
  | word => cases special : isSentinel token.text <;> simp [stepOf, symbol, special, Step.moved]
  | join _ | withException | orLater | opening | closing => simp [stepOf, symbol, Step.moved]

theorem steps_moved (distance : Nat) (tokens : List Token) :
    steps (tokens.map (Token.moved distance)) = (steps tokens).map (Step.moved distance) := by
  fun_induction steps tokens with
  | case1 => rfl
  | case2 token => simp [steps, stepOf_moved]
  | case3 token next rest attached ih =>
    rw [List.map_cons, List.map_cons, steps, if_pos (by exact attached), ih]
    rfl
  | case4 token next rest alone ih =>
    rw [List.map_cons] at ih
    rw [List.map_cons, List.map_cons, steps, if_neg (by exact alone), ih, stepOf_moved]
    rfl

/-- A step that succeeds does so at every place, and on top of everything. -/
theorem perform_moved_append {stack after : List Expression} {step : Step}
    (performed : perform registry stack step = .ok after) (distance : Nat) (below : List Expression) :
    perform registry (stack ++ below) (step.moved distance) = .ok (after ++ below) := by
  cases step with
  | sentinel _ | license _ =>
    cases performed
    rfl
  | attach word operator =>
    simp only [perform, attach] at performed
    split at performed <;> cases performed
    rfl
  | misplaced _ | unclosed _ => cases performed
  | join connective operator =>
    simp only [perform, join] at performed
    split at performed <;> cases performed
    rfl
  | extend operator =>
    simp only [perform, extend] at performed
    split at performed <;> cases performed
    rfl

theorem foldlM_perform_moved_append {list : List Step} {stack result : List Expression}
    (ran : list.foldlM (perform registry) stack = .ok result) (distance : Nat) (below : List Expression) :
    (list.map (Step.moved distance)).foldlM (perform registry) (stack ++ below) = .ok (result ++ below) := by
  induction list generalizing stack with
  | nil =>
    cases ran
    rfl
  | cons step others ih =>
    obtain ⟨next, first, rest⟩ := foldlM_cons_eq_ok.mp ran
    exact foldlM_cons_eq_ok.mpr ⟨next ++ below, perform_moved_append first distance below, ih rest⟩

/-! ## A block of its own -/

theorem takeWhile_append_cons {p : Token → Bool} {stop : Token} (stops : p stop = false) (above below : List Token) :
    (above ++ stop :: below).takeWhile p = above.takeWhile p := by
  induction above with
  | nil => simp [stops]
  | cons w above ih => simp [List.takeWhile_cons, ih]

theorem dropWhile_append_cons {p : Token → Bool} {stop : Token} (stops : p stop = false) (above below : List Token) :
    (above ++ stop :: below).dropWhile p = above.dropWhile p ++ stop :: below := by
  induction above with
  | nil => simp [stops]
  | cons w above ih =>
    simp only [List.cons_append, List.dropWhile_cons, ih]
    split <;> rfl

/-- Tokens that are arranged by themselves, with no parenthesis left open, are arranged in parentheses in the same
way, and what waits outside goes on waiting. -/
theorem arrangeFrom_enclosed {opening closing : Token} (opens : opening.symbol = .opening)
    (closes : closing.symbol = .closing) {waiting tokens out : List Token}
    (arranged : arrangeFrom waiting tokens = .ok out) (closed : ∀ t ∈ out, t.symbol ≠ .opening)
    (outside rest : List Token) :
    arrangeFrom (waiting ++ opening :: outside) (tokens ++ closing :: rest) =
      (arrangeFrom outside rest).map (out ++ ·) := by
  fun_induction arrangeFrom waiting tokens generalizing out with
  | case1 waiting =>
    -- The parenthesis that closes the block sends on what still waits inside.
    cases arranged
    exact arrangeFrom_closing opens closes closed outside rest
  | case2 waiting token others word ih =>
    obtain ⟨later, found, rfl⟩ := Outcome.map_eq_ok.mp arranged
    rw [List.cons_append, arrangeFrom_word word, ih found (List.forall_mem_cons.mp closed).2]
    exact map_append_map [token] later _
  | case3 waiting token others inner ih =>
    rw [List.cons_append, arrangeFrom_opening inner]
    exact ih arranged closed
  | case4 => cases arranged
  | case5 waiting token others innerCloses inner within found ih =>
    obtain ⟨later, done, rfl⟩ := Outcome.map_eq_ok.mp arranged
    -- An inner pair of parentheses closes before the outer one is reached.
    have stops : (!isOpening opening) = false := by simp [isOpening, opens]
    have sent := takeWhile_append_cons (p := (!isOpening ·)) stops waiting outside
    have left := dropWhile_append_cons (p := (!isOpening ·)) stops waiting outside
    simp only [List.cons_append, arrangeFrom, innerCloses, sent, left, found,
      ih done (List.forall_mem_append.mp closed).2]
    exact map_append_map _ later _
  | case6 waiting token others notWord notOpening notClosing due =>
    rename_i ih
    obtain ⟨later, done, rfl⟩ := Outcome.map_eq_ok.mp arranged
    have operator : IsOperator token.symbol := ⟨notWord, notOpening, notClosing⟩
    -- No operator sends on a parenthesis.
    have stops : Postfix.due token opening = false := by
      simp only [Postfix.due, opens, decide_eq_false_iff_not, Nat.not_le]
      exact operator.rank_pos
    rw [List.cons_append, arrangeFrom_eq_of_operator operator, takeWhile_append_cons stops,
      dropWhile_append_cons stops, ← List.cons_append]
    have onward := ih done (List.forall_mem_append.mp closed).2
    exact (congrArg _ onward).trans (map_append_map _ later _)

/-- Whatever tokens are read as an expression, in parentheses they are an operand, at every place. -/
theorem Arranged.enclosed {level : Nat} {tokens : List Token} {opening closing : Token} {e : Expression}
    (opens : opening.symbol = .opening) (closes : closing.symbol = .closing)
    (read : Expression.ofTokens registry tokens = .ok e) (distance : Nat) :
    ∃ out, Arranged registry level (opening :: tokens.map (Token.moved distance) ++ [closing]) e out [] := by
  obtain ⟨out, arranged, read⟩ := Outcome.bind_eq_ok.mp read
  obtain ⟨stack, ran, finished⟩ := Outcome.bind_eq_ok.mp read
  obtain rfl : stack = [e] := by
    unfold finish at finished
    split at finished
    next => cases finished
    next => rw [Except.ok.inj finished]
    next => cases finished
  have moved := arrangeFrom_moved arranged distance
  have onTop := foldlM_perform_moved_append ran distance
  rw [← steps_moved] at onTop
  refine ⟨out.map (Token.moved distance), ⟨fun waiting rest _ => ?_, by simp, ?_, ?_, ?_⟩⟩
  · -- The tokens inside come out as a block, because no parenthesis is left open in it.
    have block := arrangeFrom_enclosed opens closes moved (not_opening_of_foldlM (onTop [])) waiting rest
    rw [List.append_assoc, List.cons_append, arrangeFrom_opening opens]
    exact block
  · intro stack
    rw [List.append_nil]
    exact onTop stack
  · -- A block of nothing would leave nothing.
    rw [List.append_nil]
    intro none
    rw [none] at onTop
    cases onTop []
  · -- A keyword of exceptions at the front would have failed.
    rw [List.append_nil]
    intro t head keyword
    obtain ⟨others, split⟩ := List.head?_eq_some_iff.mp head
    have ran' := onTop []
    rw [split] at ran'
    exact not_foldlM_misplaced keyword others ran'

end Postfix

/-! ## Texts -/

open Token Postfix

/-- Wherever the text stands, its tokens are a part of their own, and read as `e`; each operator outside parentheses
binds at least as tightly as `level`. -/
def Fits (registry : Registry) (level : Nat) (text : String) (e : Expression) : Prop :=
  ∀ offset, ∃ tokens, scanFrom offset [] text.toList = .ok tokens ∧
    ∃ done held, Arranged registry level tokens e done held

def enclosed (text : String) : String :=
  "(" ++ text ++ ")"

namespace Fits

variable {registry : Registry} {level : Nat}

theorem loosen {low high : Nat} {text : String} {e : Expression} (fits : Fits registry high text e)
    (le : low ≤ high) : Fits registry low text e := by
  intro offset
  obtain ⟨tokens, scanned, done, held, arranged⟩ := fits offset
  exact ⟨tokens, scanned, done, held, arranged.loosen le⟩

theorem enclosed {text : String} {e : Expression} (read : Expression.parse registry text = .ok e) :
    Fits registry level (enclosed text) e := by
  intro offset
  unfold Expression.parse at read
  split at read
  next => cases read
  next tokens scanned =>
    have read := Outcome.mapError_eq_ok.mp read
    have inside := scanFrom_moved (Nat.zero_le _) scanned (offset + 1)
    rw [Nat.zero_add] at inside
    obtain ⟨opening, closing, opens, closes, whole⟩ := scanFrom_enclosed inside
    obtain ⟨out, arranged⟩ := Arranged.enclosed opens closes read (offset + 1)
    exact ⟨_, whole, out, [], arranged⟩

theorem join {connective : Connective} {left right : String} {a b : Expression}
    (first : Fits registry (Symbol.join connective).rank left a)
    (second : Fits registry ((Symbol.join connective).rank + 1) right b) :
    Fits registry (Symbol.join connective).rank (left ++ (" " ++ connective.word ++ " ") ++ right)
      (Expression.combine connective a [b]) := by
  intro offset
  obtain ⟨tokens, scanned, done, held, arranged⟩ := first offset
  obtain ⟨tokens', scanned', done', held', arranged'⟩ := second _
  obtain ⟨operator, symbol, whole⟩ := scanFrom_joined scanned scanned'
  exact ⟨_, whole, _, _, arranged.join (Nat.le_refl _) symbol arranged'⟩

theorem parse {text : String} {e : Expression} (fits : Fits registry (Symbol.join .or).rank text e) :
    Expression.parse registry text = .ok e := by
  obtain ⟨tokens, scanned, done, held, arranged⟩ := fits 0
  rw [Expression.parse, scan, scanned]
  simp only [arranged.ofTokens]
  rfl

end Fits

namespace Expression

variable {registry : Registry}

theorem parse_intercalate_enclosed (connective : Connective) {meaning : String → Expression} {first : String}
    {texts : List String} (read : ∀ t ∈ first :: texts, parse registry t = .ok (meaning t)) :
    parse registry ((" " ++ connective.word ++ " ").intercalate ((first :: texts).map enclosed)) =
      .ok (combine connective (meaning first) (texts.map meaning)) := by
  obtain ⟨readFirst, readOthers⟩ := List.forall_mem_cons.mp read
  have others : ∀ t ∈ texts, Fits registry ((Symbol.join connective).rank + 1) (enclosed t) (meaning t) :=
    fun t member => .enclosed (readOthers t member)
  have loose : (Symbol.join .or).rank ≤ (Symbol.join connective).rank := by cases connective <;> decide
  have start : Fits registry (Symbol.join connective).rank (enclosed first) (meaning first) := .enclosed readFirst
  have row := holds_of_intercalate (P := Fits registry (Symbol.join connective).rank)
    (Q := Fits registry ((Symbol.join connective).rank + 1)) Fits.join start others
  have whole := (row.loosen loose).parse
  have canonical : ∀ d ∈ texts.map meaning, d.Canonical := by
    intro d member
    obtain ⟨t, inTexts, rfl⟩ := List.mem_map.mp member
    exact (printable_of_parse (readOthers t inTexts)).canonical
  rwa [foldl_combine_eq_combine (printable_of_parse readFirst).canonical canonical] at whole

/-- Texts that are read keep their meanings in parentheses, alone, in pairs and in rows of any length. -/
theorem parse_enclosed {meaning : String → Expression} {texts : List String}
    (read : ∀ t ∈ texts, parse registry t = .ok (meaning t)) :
    (∀ s ∈ texts, parse registry ("(" ++ s ++ ")") = .ok (meaning s)) ∧
      (∀ s ∈ texts, ∀ t ∈ texts,
        parse registry ("(" ++ s ++ ") AND (" ++ t ++ ")") = .ok ((meaning s).and (meaning t)) ∧
          parse registry ("(" ++ s ++ ") OR (" ++ t ++ ")") = .ok ((meaning s).or (meaning t))) ∧
      ∀ connective, texts ≠ [] → ∃ e, joined connective (texts.map meaning) = .ok e ∧
        parse registry ((" " ++ connective.word ++ " ").intercalate (texts.map enclosed)) = .ok e := by
  refine ⟨fun s member => Fits.parse (.enclosed (read s member)), fun s inTexts t inTexts' => ?_, ?_⟩
  · have both : ∀ u ∈ [s, t], parse registry u = .ok (meaning u) := by simp [read s inTexts, read t inTexts']
    have pair (connective : Connective) := parse_intercalate_enclosed connective both
    have text (connective : Connective) : (" " ++ connective.word ++ " ").intercalate ([s, t].map enclosed) =
        enclosed s ++ (" " ++ connective.word ++ " ") ++ enclosed t := by
      simp [String.intercalate_cons_cons]
    have and : enclosed s ++ (" " ++ Connective.and.word ++ " ") ++ enclosed t = "(" ++ s ++ ") AND (" ++ t ++ ")" := by
      simp [enclosed, Connective.word, ← String.toList_inj]
    have or : enclosed s ++ (" " ++ Connective.or.word ++ " ") ++ enclosed t = "(" ++ s ++ ") OR (" ++ t ++ ")" := by
      simp [enclosed, Connective.word, ← String.toList_inj]
    simp only [text] at pair
    exact ⟨and ▸ pair .and, or ▸ pair .or⟩
  · intro connective nonempty
    obtain ⟨first, others, rfl⟩ := List.exists_cons_of_ne_nil nonempty
    have canonical := (printable_of_parse (read first (by simp))).canonical
    exact ⟨_, canonical.joined_cons _, parse_intercalate_enclosed connective read⟩

/-- Two texts that the grammar does not know: operands in front of their operator, and parentheses around nothing. -/
theorem parse_enclosed_operands_before_operator :
    let license (name : String) : Expression := .just (.free ⟨name, []⟩)
    let both : Expression := .compound .and [license "Apache-2.0", license "MIT"]
    parse ⟨[], []⟩ "MIT Apache-2.0 AND" = .ok both ∧ parse ⟨[], []⟩ "() ISC" = .ok (license "ISC") ∧
      parse ⟨[], []⟩ "(MIT Apache-2.0 AND) OR (() ISC)" = .ok (both.or (license "ISC")) := by
  intro license both
  have first : parse ⟨[], []⟩ "MIT Apache-2.0 AND" = .ok both := Outcome.toOption_eq_some.mp (by decide +kernel)
  have second : parse ⟨[], []⟩ "() ISC" = .ok (license "ISC") := Outcome.toOption_eq_some.mp (by decide +kernel)
  let meaning (text : String) : Expression := if text = "() ISC" then license "ISC" else both
  have read : ∀ t ∈ ["MIT Apache-2.0 AND", "() ISC"], parse ⟨[], []⟩ t = .ok (meaning t) := by
    simpa [meaning] using ⟨first, second⟩
  have pair := ((parse_enclosed read).2.1 "MIT Apache-2.0 AND" (by simp) "() ISC" (by simp)).2
  have text : "(" ++ "MIT Apache-2.0 AND" ++ ") OR (" ++ "() ISC" ++ ")" = "(MIT Apache-2.0 AND) OR (() ISC)" := by
    decide +kernel
  have whole : parse ⟨[], []⟩ "(MIT Apache-2.0 AND) OR (() ISC)" = .ok (both.or (license "ISC")) := by
    simpa [text, meaning] using pair
  exact ⟨first, second, whole⟩

end Expression

end Licensing
