import Mathlib.Data.List.Chain
import Mathlib.Data.List.TakeWhile
import Licensing.Proofs.Grammar.Derivation
import Licensing.Proofs.Grammar.Layout
import Licensing.Proofs.Sorting

/-! # What arranging keeps

One stack holds the operators and parentheses of all levels.  `Takes` says once what a token does to it, and `Passes`
what a list of tokens does.  Whatever arranging keeps is seen on a token and then on a list of them, whether they are
an expression or not:

* `Passes.level`, `arrange_cases` — the parentheses that wait are those still open, so that arranging fails at the
  first closing one without a partner, and nowhere else.
* `Passes.perm`, `Passes.words` — nothing but parentheses with a partner is lost, and words keep their order.
* `Passes.releases`, `Passes.keeps` — of what waits inside the same parentheses, the last binds the most tightly
  (`Climbs`), so that an operator waits until something at its level frees it, and no longer.
* `arrange_of_scan` — together, for the tokens of a text.
-/

namespace Licensing.Postfix

/-- Whether a token is a closing parenthesis. -/
def isClosing (token : Token) : Bool :=
  token.symbol = .closing

variable {token p q : Token} {waiting waiting' sent tokens rest : List Token}

theorem map_nil_append (out : Except ParseFault (List Token)) : out.map ([] ++ ·) = out := by
  cases out <;> rfl

/-! ## One token -/

/-- `Takes token waiting sent waiting'` — the token sends on what is `sent`, and leaves `waiting'` behind. -/
inductive Takes (token : Token) : (waiting sent waiting' : List Token) → Prop
  | word {waiting : List Token} (word : token.symbol = .word) : Takes token waiting [token] waiting
  | opening {waiting : List Token} (opens : token.symbol = .opening) : Takes token waiting [] (token :: waiting)
  | closing {held waiting : List Token} {opening : Token} (closes : token.symbol = .closing)
      (opens : opening.symbol = .opening) (inside : ∀ w ∈ held, w.symbol ≠ .opening) :
      Takes token (held ++ opening :: waiting) held waiting
  | operator {held waiting : List Token} (operator : IsOperator token.symbol)
      (due : ∀ w ∈ held, token.symbol.rank ≤ w.symbol.rank) (below : Below token.symbol.rank waiting) :
      Takes token (held ++ waiting) held (token :: waiting)

theorem Takes.arrangeFrom (takes : Takes token waiting sent waiting') (rest : List Token) :
    arrangeFrom waiting (token :: rest) = (arrangeFrom waiting' rest).map (sent ++ ·) := by
  cases takes with
  | word word => exact arrangeFrom_word word waiting rest
  | opening opens => rw [arrangeFrom_opening opens, map_nil_append]
  | closing closes opens inside => exact arrangeFrom_closing opens closes inside waiting' rest
  | operator operator due below => exact arrangeFrom_operator operator due below rest

/-- What waits is parted where a property ends. -/
theorem exists_parted (p : Token → Bool) (waiting : List Token) : ∃ held rest, waiting = held ++ rest ∧
    (∀ w ∈ held, p w = true) ∧ ∀ w ∈ rest.head?, p w = false := by
  refine ⟨waiting.takeWhile p, waiting.dropWhile p, List.takeWhile_append_dropWhile.symm,
    fun w => List.mem_takeWhile_imp, fun w head => ?_⟩
  have stops := List.head?_dropWhile_not p waiting
  rwa [Option.mem_def.mp head] at stops

/-- A token can be taken, unless it closes what was not opened. -/
theorem exists_takes (token : Token) (waiting : List Token) :
    (∃ sent waiting', Takes token waiting sent waiting') ∨ token.symbol = .closing ∧ waiting.countP isOpening = 0 := by
  by_cases word : token.symbol = .word
  · exact .inl ⟨_, _, .word word⟩
  by_cases opens : token.symbol = .opening
  · exact .inl ⟨_, _, .opening opens⟩
  by_cases closes : token.symbol = .closing
  · -- What waits is parted at the last parenthesis that was opened, if there is one.
    obtain ⟨held, rest, rfl, inside, stop⟩ := exists_parted (!isOpening ·) waiting
    cases rest with
    | nil =>
      refine .inr ⟨closes, List.countP_eq_zero.mpr fun w member => ?_⟩
      simpa using inside w (by simpa using member)
    | cons opening rest =>
      refine .inl ⟨held, rest, .closing closes ?_ fun w member => ?_⟩
      · simpa [isOpening] using stop opening (by simp)
      · simpa [isOpening] using inside w member
  · obtain ⟨held, rest, rfl, due, below⟩ :=
      exists_parted (fun w => decide (token.symbol.rank ≤ w.symbol.rank)) waiting
    refine .inl ⟨held, token :: rest, .operator ⟨word, opens, closes⟩ ?_ ?_⟩
    · simpa using due
    · simpa [Below] using below

/-! ## Many tokens -/

/-- `Passes waiting tokens sent waiting'` — the tokens, one after the other, send on what is `sent`, and leave
`waiting'` behind. -/
inductive Passes : (waiting tokens sent waiting' : List Token) → Prop
  | nil {waiting : List Token} : Passes waiting [] [] waiting
  | cons {token : Token} {waiting between tokens sent sent' waiting' : List Token}
      (takes : Takes token waiting sent between) (following : Passes between tokens sent' waiting') :
      Passes waiting (token :: tokens) (sent ++ sent') waiting'

theorem Passes.arrangeFrom (passes : Passes waiting tokens sent waiting') (rest : List Token) :
    arrangeFrom waiting (tokens ++ rest) = (arrangeFrom waiting' rest).map (sent ++ ·) := by
  induction passes with
  | nil => rw [List.nil_append, map_nil_append]
  | cons takes _ ih => rw [List.cons_append, takes.arrangeFrom, ih, map_append_map]

theorem Passes.of_append (passes : Passes waiting (tokens ++ rest) sent waiting') :
    ∃ first second between, sent = first ++ second ∧ Passes waiting tokens first between ∧
      Passes between rest second waiting' := by
  induction tokens generalizing waiting sent with
  | nil => exact ⟨[], sent, waiting, rfl, .nil, passes⟩
  | cons token tokens ih =>
    cases passes with
    | cons takes following =>
      obtain ⟨first, second, between, rfl, before, behind⟩ := ih following
      exact ⟨_, second, between, (List.append_assoc ..).symm, .cons takes before, behind⟩

theorem Passes.of_cons (passes : Passes waiting (token :: tokens) sent waiting') :
    ∃ first later between, sent = first ++ later ∧ Takes token waiting first between ∧
      Passes between tokens later waiting' := by
  cases passes with
  | cons takes following => exact ⟨_, _, _, rfl, takes, following⟩

theorem exists_passes (waiting tokens : List Token) : (∃ sent waiting', Passes waiting tokens sent waiting') ∨
    ∃ before closing after sent waiting', tokens = before ++ closing :: after ∧ closing.symbol = .closing ∧
      Passes waiting before sent waiting' ∧ waiting'.countP isOpening = 0 := by
  induction tokens generalizing waiting with
  | nil => exact .inl ⟨[], waiting, .nil⟩
  | cons token tokens ih =>
    obtain ⟨sent, between, takes⟩ | ⟨closes, none⟩ := exists_takes token waiting
    · obtain ⟨sent', waiting', following⟩ | ⟨before, closing, after, sent', waiting', rfl, closes, following, none⟩ :=
        ih between
      · exact .inl ⟨_, _, .cons takes following⟩
      · exact .inr ⟨token :: before, closing, after, _, waiting', rfl, closes, .cons takes following, none⟩
    · exact .inr ⟨[], token, tokens, [], waiting, rfl, closes, .nil, none⟩

/-! ## Levels -/

theorem isOpening_iff : isOpening token = true ↔ token.symbol = .opening := by
  simp [isOpening]

theorem isClosing_iff : isClosing token = true ↔ token.symbol = .closing := by
  simp [isClosing]

theorem isClosing_of_isOpening (opens : isOpening token = true) : isClosing token = false := by
  simp [isClosing, isOpening_iff.mp opens]

theorem isOpening_of_isClosing (closes : isClosing token = true) : isOpening token = false := by
  simp [isOpening, isClosing_iff.mp closes]

theorem IsOperator.isOpening (operator : IsOperator token.symbol) : isOpening token = false := by
  simpa [Postfix.isOpening] using operator.2.1

theorem IsOperator.isClosing (operator : IsOperator token.symbol) : isClosing token = false := by
  simpa [Postfix.isClosing] using operator.2.2

/-- What an operator sends on are operators. -/
theorem Takes.not_opening (takes : Takes token waiting sent waiting') : ∀ w ∈ sent, isOpening w = false := by
  cases takes with
  | word word => simp [isOpening, word]
  | opening => simp
  | closing _ _ inside => simpa [isOpening] using inside
  | operator operator due _ =>
    intro w member
    rw [← Bool.not_eq_true, isOpening_iff]
    intro opens
    have tight := due w member
    have positive := operator.rank_pos
    rw [opens] at tight
    exact absurd (positive.trans_le tight) (lt_irrefl 0)

/-- A token that can be taken opens a parenthesis, closes the last one, or does neither. -/
theorem Takes.openings (takes : Takes token waiting sent waiting') :
    isOpening token = true ∧ waiting'.filter isOpening = token :: waiting.filter isOpening ∨
      isClosing token = true ∧ (∃ opening, waiting.filter isOpening = opening :: waiting'.filter isOpening) ∨
      isOpening token = false ∧ isClosing token = false ∧ waiting'.filter isOpening = waiting.filter isOpening := by
  have none : sent.filter isOpening = [] := by
    simpa [List.filter_eq_nil_iff] using takes.not_opening
  cases takes with
  | word word => exact .inr (.inr ⟨by simp [isOpening, word], by simp [isClosing, word], rfl⟩)
  | opening opens => exact .inl ⟨isOpening_iff.mpr opens, List.filter_cons_of_pos (isOpening_iff.mpr opens)⟩
  | @closing _ _ opening closes opens inside =>
    refine .inr (.inl ⟨isClosing_iff.mpr closes, opening, ?_⟩)
    rw [List.filter_append, none, List.nil_append, List.filter_cons_of_pos (isOpening_iff.mpr opens)]
  | operator operator _ _ =>
    refine .inr (.inr ⟨operator.isOpening, operator.isClosing, ?_⟩)
    rw [List.filter_append, none, List.nil_append, List.filter_cons_of_neg (by simp [operator.isOpening])]

/-- The opening parentheses that wait are those that are still open. -/
theorem Takes.level (takes : Takes token waiting sent waiting') :
    waiting'.countP isOpening + [token].countP isClosing = waiting.countP isOpening + [token].countP isOpening := by
  simp only [List.countP_eq_length_filter]
  obtain ⟨opens, held⟩ | ⟨closes, opening, held⟩ | ⟨opens, closes, held⟩ := takes.openings
  · simp [held, opens, isClosing_of_isOpening opens]
  · simp [held, closes, isOpening_of_isClosing closes]
  · simp [held, opens, closes]

theorem Passes.level (passes : Passes waiting tokens sent waiting') :
    waiting'.countP isOpening + tokens.countP isClosing = waiting.countP isOpening + tokens.countP isOpening := by
  induction passes with
  | nil => rfl
  | @cons token _ _ tokens _ _ _ takes _ ih =>
    have first := takes.level
    rw [← List.singleton_append, List.countP_append, List.countP_append]
    omega

/-! ## Parentheses without a partner -/

/-- Some closing parenthesis has no opening one in front of it. -/
def Overclosed (tokens : List Token) : Prop :=
  ∃ front, front <+: tokens ∧ front.countP isOpening < front.countP isClosing

/-- The number of closing parentheses without an opening one in front of them. -/
def unmet : List Token → Nat
  | [] => 0
  | token :: rest =>
    if isOpening token then unmet rest - 1 else if isClosing token then unmet rest + 1 else unmet rest

theorem forall_prefix_cons {P : List Token → Prop} : (∀ front, front <+: token :: rest → P front) ↔
    P [] ∧ ∀ front, front <+: rest → P (token :: front) := by
  simp only [List.prefix_cons_iff]
  constructor
  · exact fun all => ⟨all [] (.inl rfl), fun front begins => all _ (.inr ⟨front, rfl, begins⟩)⟩
  · rintro ⟨none, some⟩ front (rfl | ⟨front, rfl, begins⟩)
    · exact none
    · exact some front begins

theorem unmet_le_iff {n : Nat} :
    unmet tokens ≤ n ↔ ∀ front, front <+: tokens → front.countP isClosing ≤ front.countP isOpening + n := by
  induction tokens generalizing n with
  | nil => simp [unmet]
  | cons token rest ih =>
    rw [forall_prefix_cons, unmet]
    simp only [List.countP_nil, Nat.zero_le, true_and, List.countP_cons]
    split
    next opens =>
      rw [Nat.sub_le_iff_le_add, ih, isClosing_of_isOpening opens]
      exact forall₂_congr fun front _ => by simp only [Bool.false_eq_true, if_false]; omega
    next =>
      split
      next closes =>
        cases n with
        | zero => exact iff_of_false (by omega) fun all => by simpa using all [] List.nil_prefix
        | succ n =>
          rw [Nat.add_le_add_iff_right, ih]
          exact forall₂_congr fun front _ => by omega
      next => exact ih

theorem overclosed_iff : Overclosed tokens ↔ 0 < unmet tokens := by
  rw [← not_iff_not, not_lt, unmet_le_iff, Overclosed]
  simp

instance (tokens : List Token) : Decidable (Overclosed tokens) :=
  decidable_of_iff _ overclosed_iff.symm

/-- The first closing parenthesis without an opening one in front of it. -/
def FirstUnmatched (tokens : List Token) (closing : Token) : Prop :=
  ∃ before after, tokens = before ++ closing :: after ∧ closing.symbol = .closing ∧ ¬ Overclosed before ∧
    Overclosed (before ++ [closing])

theorem FirstUnmatched.overclosed {closing : Token} (unmatched : FirstUnmatched tokens closing) :
    Overclosed tokens := by
  obtain ⟨before, after, rfl, -, -, front, begins, less⟩ := unmatched
  exact ⟨front, begins.trans ⟨after, by simp⟩, less⟩

/-- The opening parentheses that nothing behind them closes. -/
def unclosed : List Token → List Token
  | [] => []
  | token :: rest => if isOpening token ∧ ¬ Overclosed rest then token :: unclosed rest else unclosed rest

/-- Tokens that pass an empty stack close no parenthesis too many. -/
theorem Passes.not_overclosed (passes : Passes [] tokens sent waiting') : ¬ Overclosed tokens := by
  rintro ⟨front, ⟨rest, rfl⟩, less⟩
  obtain ⟨_, _, between, -, before, -⟩ := passes.of_append
  have level := before.level
  rw [List.countP_nil] at level
  omega

/-- Tokens are arranged, or there is a closing parenthesis too many. -/
theorem arrange_cases (tokens : List Token) :
    (∃ sent waiting, Passes [] tokens sent waiting ∧ arrange tokens = .ok (sent ++ waiting)) ∨
      ∃ closing, FirstUnmatched tokens closing ∧ arrange tokens = .error (faultAt .unmatchedClosing closing) := by
  obtain ⟨sent, waiting, passes⟩ | ⟨before, closing, after, sent, waiting, rfl, closes, passes, none⟩ :=
    exists_passes [] tokens
  · have arranged := passes.arrangeFrom []
    rw [List.append_nil, arrangeFrom_nil] at arranged
    exact .inl ⟨sent, waiting, passes, arranged⟩
  · have overclosed : Overclosed (before ++ [closing]) := by
      have level := passes.level
      have first : [closing].countP isClosing = 1 := by simp [isClosing, closes]
      have other : [closing].countP isOpening = 0 := by simp [isOpening, closes]
      refine ⟨_, List.prefix_rfl, ?_⟩
      rw [List.countP_nil] at level
      rw [List.countP_append, List.countP_append]
      omega
    have unopened : waiting.dropWhile (!isOpening ·) = [] := by
      simpa [List.countP_eq_zero] using none
    refine .inr ⟨closing, ⟨before, after, rfl, closes, passes.not_overclosed, overclosed⟩, ?_⟩
    rw [arrange, passes.arrangeFrom, Postfix.arrangeFrom, closes]
    simp only [unopened]
    rfl

/-! ## Conservation -/

/-- The tokens that are no parentheses. -/
def plain (tokens : List Token) : List Token :=
  tokens.filter fun token => !isOpening token && !isClosing token

theorem Takes.plain_perm (takes : Takes token waiting sent waiting') :
    ((sent ++ waiting').filter (!isOpening ·)).Perm (waiting.filter (!isOpening ·) ++ plain [token]) := by
  cases takes with
  | word word =>
    have kept : plain [token] = [token] := by simp [plain, isOpening, isClosing, word]
    rw [kept, List.filter_append, List.filter_cons_of_pos (by simp [isOpening, word])]
    exact List.perm_append_comm
  | opening opens => simp [plain, isOpening_iff.mpr opens]
  | closing closes opens _ => simp [plain, isOpening_iff.mpr opens, isClosing_iff.mpr closes]
  | @operator held waiting operator _ _ =>
    have kept : plain [token] = [token] := by simp [plain, operator.isOpening, operator.isClosing]
    rw [kept, List.filter_append, List.filter_append, List.filter_cons_of_pos (by simp [operator.isOpening]),
      List.append_assoc]
    exact (List.perm_append_singleton token _).symm.append_left _

theorem Passes.plain_perm (passes : Passes waiting tokens sent waiting') :
    ((sent ++ waiting').filter (!isOpening ·)).Perm (waiting.filter (!isOpening ·) ++ plain tokens) := by
  induction passes with
  | nil => simp [plain]
  | @cons token waiting between tokens sent sent' waiting' takes _ ih =>
    have first := takes.plain_perm.append_right (plain tokens)
    have following := ih.append_left (sent.filter (!isOpening ·))
    rw [List.filter_append, List.append_assoc, List.append_assoc, plain, plain, ← List.filter_append,
      List.singleton_append] at first
    rw [← List.filter_append, ← List.append_assoc] at following
    exact following.trans first

theorem Passes.openings (passes : Passes waiting tokens sent waiting') :
    waiting'.filter isOpening = (unclosed tokens).reverse ++ (waiting.filter isOpening).drop (unmet tokens) := by
  induction passes with
  | nil => simp [unclosed, unmet]
  | @cons token waiting between tokens _ _ waiting' takes _ ih =>
    rw [ih, unclosed, unmet]
    simp only [overclosed_iff]
    obtain ⟨opens, held⟩ | ⟨closes, opening, held⟩ | ⟨neither, neither', held⟩ := takes.openings
    · rw [held]
      cases found : unmet tokens with
      | zero => simp [opens]
      | succ n => simp [opens]
    · simp [held, closes, isOpening_of_isClosing closes]
    · simp [held, neither, neither']

theorem Passes.not_opening (passes : Passes waiting tokens sent waiting') : ∀ w ∈ sent, isOpening w = false := by
  induction passes with
  | nil => simp
  | cons takes _ ih => exact List.forall_mem_append.mpr ⟨takes.not_opening, ih⟩

/-- Nothing is lost and nothing is added, but that the parentheses with a partner are gone. -/
theorem Passes.perm (passes : Passes [] tokens sent waiting') :
    (sent ++ waiting').Perm (plain tokens ++ unclosed tokens) := by
  have openings : (sent ++ waiting').filter isOpening = (unclosed tokens).reverse := by
    have none : sent.filter isOpening = [] := by simpa [List.filter_eq_nil_iff] using passes.not_opening
    rw [List.filter_append, none, passes.openings]
    simp
  have parted := (List.filter_append_perm isOpening (sent ++ waiting')).symm.trans List.perm_append_comm
  rw [openings] at parted
  exact parted.trans (passes.plain_perm.append (List.reverse_perm _))

/-! ## The order of words -/

/-- A word is sent on at once, so that none ever waits. -/
theorem Takes.words (takes : Takes token waiting sent waiting') (none : ∀ w ∈ waiting, w.symbol ≠ .word) :
    sent.filter (·.symbol = .word) = [token].filter (·.symbol = .word) ∧ ∀ w ∈ waiting', w.symbol ≠ .word := by
  have quiet {tokens : List Token} (among : tokens ⊆ waiting) : tokens.filter (·.symbol = .word) = [] := by
    simpa [List.filter_eq_nil_iff] using fun w member => none w (among member)
  cases takes with
  | word word => exact ⟨rfl, none⟩
  | opening opens => exact ⟨by simp [opens], List.forall_mem_cons.mpr ⟨by simp [opens], none⟩⟩
  | closing closes opens inside =>
    refine ⟨?_, fun w member => none w (by simp [member])⟩
    rw [quiet (by simp)]
    simp [closes]
  | operator operator _ _ =>
    refine ⟨?_, List.forall_mem_cons.mpr ⟨operator.1, fun w member => none w (by simp [member])⟩⟩
    rw [quiet (by simp)]
    simp [operator.1]

theorem Passes.words (passes : Passes waiting tokens sent waiting') (none : ∀ w ∈ waiting, w.symbol ≠ .word) :
    (sent ++ waiting').filter (·.symbol = .word) = tokens.filter (·.symbol = .word) := by
  induction passes with
  | nil => simpa [List.filter_eq_nil_iff] using none
  | @cons token waiting between tokens sent sent' waiting' takes _ ih =>
    obtain ⟨first, none⟩ := takes.words none
    rw [List.append_assoc, List.filter_append, first, ih none, ← List.filter_append, List.singleton_append]

/-! ## The order of operators -/

/-- Between two opening parentheses, what waits binds the more tightly the later it came. -/
def Climbs (waiting : List Token) : Prop :=
  waiting.IsChain fun later earlier => isOpening later = true ∨ earlier.symbol.rank < later.symbol.rank

theorem Takes.climbs (takes : Takes token waiting sent waiting') (climbs : Climbs waiting) : Climbs waiting' := by
  cases takes with
  | word => exact climbs
  | opening opens => exact List.isChain_cons.mpr ⟨fun _ _ => .inl (isOpening_iff.mpr opens), climbs⟩
  | @closing held _ opening => exact climbs.suffix (List.suffix_append_of_suffix (List.suffix_cons opening _))
  | operator _ _ below =>
    exact List.isChain_cons.mpr ⟨fun w head => .inr (below w head), climbs.suffix (List.suffix_append _ _)⟩

theorem Passes.climbs (passes : Passes waiting tokens sent waiting') (climbs : Climbs waiting) : Climbs waiting' := by
  induction passes with
  | nil => exact climbs
  | cons takes _ ih => exact ih (takes.climbs climbs)

/-- What waits above a token in the same parentheses binds no less tightly. -/
theorem Climbs.le_rank_head {above below : List Token} (climbs : Climbs (above ++ p :: below))
    (none : ∀ w ∈ above, isOpening w = false) : ∀ w ∈ (above ++ p :: below).head?, p.symbol.rank ≤ w.symbol.rank := by
  induction above with
  | nil => simp
  | cons top above ih =>
    obtain ⟨next, climbs⟩ := List.isChain_cons.mp climbs
    obtain ⟨here, none⟩ := List.forall_mem_cons.mp none
    obtain ⟨second, rest, split⟩ := List.exists_cons_of_ne_nil (l := above ++ p :: below) (by simp)
    have onward := ih climbs none second (by simp [split])
    have less := (next second (by simp [split])).resolve_left (by simp [here])
    simpa using onward.trans less.le

/-- Where a token stands that waits, when what waits is parted. -/
theorem parted_cases {held rest above below : List Token} (parted : held ++ rest = above ++ p :: below) :
    (∃ behind, held = above ++ p :: behind) ∨ ∃ above', above = held ++ above' ∧ rest = above' ++ p :: below := by
  obtain ⟨above', split, same⟩ | ⟨behind, rfl, same⟩ := List.append_eq_append_iff.mp parted
  · exact .inr ⟨above', split, same⟩
  · cases behind with
    | nil => exact .inr ⟨[], by simp, same.symm⟩
    | cons _ behind =>
      obtain ⟨rfl, -⟩ := List.cons.inj same
      exact .inl ⟨behind, rfl⟩

section Waits

variable {above below : List Token}

/-- An operator that waits is sent on, or goes on waiting in its place. -/
theorem Takes.sends_or_keeps (takes : Takes token waiting sent waiting') (operator : IsOperator p.symbol)
    (held : waiting = above ++ p :: below) :
    (∃ behind, sent = above ++ p :: behind) ∨ ∃ above', waiting' = above' ++ p :: below := by
  cases takes with
  | word => exact .inr ⟨above, held⟩
  | opening => exact .inr ⟨token :: above, by rw [held, List.cons_append]⟩
  | closing closes opens _ =>
    refine (parted_cases held).imp id ?_
    rintro ⟨above', -, split⟩
    cases above' with
    | nil =>
      obtain ⟨rfl, -⟩ := List.cons.inj split
      exact absurd opens operator.2.1
    | cons _ above' => exact ⟨above', (List.cons.inj split).2⟩
  | operator =>
    refine (parted_cases held).imp id ?_
    rintro ⟨above', -, rfl⟩
    exact ⟨token :: above', rfl⟩

theorem Passes.sends_or_keeps (passes : Passes waiting tokens sent waiting') (operator : IsOperator p.symbol)
    (held : waiting = above ++ p :: below) : p ∈ sent ∨ ∃ above', waiting' = above' ++ p :: below := by
  induction passes generalizing above with
  | nil => exact .inr ⟨above, held⟩
  | cons takes _ ih =>
    obtain ⟨behind, rfl⟩ | ⟨above', held⟩ := takes.sends_or_keeps operator held
    · exact .inl (by simp)
    · exact (ih held).imp (List.mem_append_right _) id

theorem Takes.of_operator (takes : Takes token waiting sent waiting') (operator : IsOperator token.symbol) :
    ∃ rest, waiting = sent ++ rest ∧ Below token.symbol.rank rest ∧ waiting' = token :: rest := by
  cases takes with
  | word word => exact absurd word operator.1
  | opening opens => exact absurd opens operator.2.1
  | closing closes => exact absurd closes operator.2.2
  | operator _ _ below => exact ⟨_, rfl, below, rfl⟩

/-- `Frees p token` — where `p` waits and no parenthesis is open behind it, the token sends it on. -/
def Frees (p token : Token) : Prop :=
  token.symbol = .closing ∨ IsOperator token.symbol ∧ token.symbol.rank ≤ p.symbol.rank

theorem Takes.sends (takes : Takes token waiting sent waiting') (frees : Frees p token)
    (operator : IsOperator p.symbol) (climbs : Climbs waiting) (held : waiting = above ++ p :: below)
    (none : ∀ w ∈ above, isOpening w = false) : p ∈ sent := by
  cases takes with
  | word word => exact absurd frees (by simp [Frees, IsOperator, word])
  | opening opens => exact absurd frees (by simp [Frees, IsOperator, opens])
  | closing closes opens =>
    obtain ⟨behind, rfl⟩ | ⟨above', rfl, split⟩ := parted_cases held
    · simp
    cases above' with
    | nil =>
      obtain ⟨rfl, -⟩ := List.cons.inj split
      exact absurd opens operator.2.1
    | cons top above' =>
      obtain ⟨rfl, -⟩ := List.cons.inj split
      have closed := none _ (List.mem_append_right _ List.mem_cons_self)
      simp [isOpening, opens] at closed
  | operator operator' due below' =>
    obtain ⟨behind, rfl⟩ | ⟨above', rfl, rfl⟩ := parted_cases held
    · simp
    -- What is left starts with something that binds no less tightly than `p`, and so would be sent on as well.
    obtain ⟨top, others, first⟩ := List.exists_cons_of_ne_nil (l := above' ++ p :: below) (by simp)
    have inside : Climbs (above' ++ p :: below) := climbs.suffix (List.suffix_append _ _)
    have le := inside.le_rank_head (fun w member => none w (by simp [member])) top (by simp [first])
    have less := below' top (by simp [first])
    obtain closes | ⟨-, tight⟩ := frees
    · exact absurd closes operator'.2.2
    · omega

/-- Some token behind `p`, outside of all parentheses that are opened behind `p`, sends it on. -/
def Released (p : Token) (tokens : List Token) : Prop :=
  ∃ front token back, tokens = front ++ token :: back ∧ front.countP isOpening = front.countP isClosing ∧ Frees p token

/-- Nothing else sends an operator on. -/
theorem Takes.keeps (takes : Takes token waiting sent waiting') (operator : IsOperator p.symbol)
    (held : waiting = above ++ p :: below) (quiet : above.countP isOpening = 0 → ¬ Frees p token) :
    ∃ above', waiting' = above' ++ p :: below := by
  obtain ⟨behind, split⟩ | kept := takes.sends_or_keeps operator held
  · have none : above.countP isOpening = 0 := by
      refine List.countP_eq_zero.mpr fun w member => ?_
      simpa using takes.not_opening w (by simp [split, member])
    have sends : p ∈ sent := by simp [split]
    refine absurd ?_ (quiet none)
    cases takes with
    | word word =>
      obtain rfl := List.mem_singleton.mp sends
      exact absurd word operator.1
    | opening => cases sends
    | closing closes => exact .inl closes
    | operator operator' due => exact .inr ⟨operator', due p sends⟩
  · exact kept

theorem Passes.keeps (passes : Passes waiting tokens sent waiting') (operator : IsOperator p.symbol)
    (held : waiting = above ++ p :: below)
    (quiet : ∀ front token back, tokens = front ++ token :: back →
      above.countP isOpening + front.countP isOpening = front.countP isClosing → ¬ Frees p token) :
    ∃ above', waiting' = above' ++ p :: below := by
  induction passes generalizing above with
  | nil => exact ⟨above, held⟩
  | @cons token _ _ tokens _ _ _ takes _ ih =>
    -- What the token opens or closes above `p` counts for the tokens behind it as if it stood in front of them.
    obtain ⟨above', held'⟩ := takes.keeps operator held fun none => quiet [] token tokens rfl (by simpa using none)
    refine ih held' fun front next back split level => quiet (token :: front) next back (by rw [split]; rfl) ?_
    have first := takes.level
    rw [held, held', List.countP_append, List.countP_append] at first
    rw [← List.singleton_append, List.countP_append, List.countP_append]
    omega

theorem Passes.releases (passes : Passes (p :: below) tokens sent waiting') (operator : IsOperator p.symbol)
    (climbs : Climbs (p :: below)) (released : Released p tokens) : p ∈ sent := by
  obtain ⟨front, token, back, rfl, balanced, frees⟩ := released
  obtain ⟨_, _, between, rfl, before, behind⟩ := passes.of_append
  obtain ⟨_, _, _, rfl, takes, -⟩ := behind.of_cons
  obtain early | ⟨above, held⟩ := before.sends_or_keeps operator (List.nil_append (p :: below)).symm
  · simp [early]
  -- Everything opened behind `p` is closed again, so that the token finds no parenthesis above it.
  have level := before.level
  rw [held, List.countP_append, balanced] at level
  have none : ∀ w ∈ above, isOpening w = false := by
    simpa [List.countP_eq_zero] using show above.countP isOpening = 0 by omega
  simp [takes.sends frees operator (before.climbs climbs) held none]

end Waits

/-- What waits comes out in its order. -/
theorem Takes.sublist (takes : Takes token waiting sent waiting') :
    (waiting.filter (!isOpening ·)).Sublist (sent ++ waiting'.filter (!isOpening ·)) := by
  cases takes with
  | word => exact List.sublist_append_right _ _
  | opening opens => simp [isOpening, opens]
  | closing _ opens =>
    rw [List.filter_append, List.filter_cons_of_neg (by simp [isOpening, opens])]
    exact List.filter_sublist.append_right _
  | operator operator =>
    rw [List.filter_append, List.filter_cons_of_pos (by simp [operator.isOpening])]
    exact List.filter_sublist.append (List.sublist_cons_self _ _)

theorem Passes.sublist (passes : Passes waiting tokens sent waiting') :
    (waiting.filter (!isOpening ·)).Sublist (sent ++ waiting') := by
  induction passes with
  | nil => exact List.filter_sublist
  | @cons _ _ _ _ sent sent' waiting' takes _ ih =>
    rw [List.append_assoc]
    exact takes.sublist.trans (ih.append_left _)

theorem Passes.sublist_of_operators {pair : List Token} (passes : Passes waiting tokens sent waiting')
    (sublist : pair.Sublist waiting) (operators : ∀ w ∈ pair, IsOperator w.symbol) :
    pair.Sublist (sent ++ waiting') := by
  have kept : pair.filter (!isOpening ·) = pair :=
    List.filter_eq_self.mpr fun w member => by simp [(operators w member).isOpening]
  exact (kept ▸ sublist.filter _).trans passes.sublist

/-- An operator waits behind the tokens up to it. -/
theorem Passes.of_operator {before : List Token} (passes : Passes waiting (before ++ p :: rest) sent waiting')
    (operator : IsOperator p.symbol) (climbs : Climbs waiting) : ∃ first later below, sent = first ++ later ∧
      Climbs (p :: below) ∧ Passes waiting (before ++ [p]) first (p :: below) ∧
      Passes (p :: below) rest later waiting' := by
  rw [← List.singleton_append, ← List.append_assoc] at passes
  obtain ⟨first, later, between, rfl, upTo, behind⟩ := passes.of_append
  obtain ⟨_, _, _, -, -, last⟩ := upTo.of_append
  obtain ⟨_, _, _, -, takes, done⟩ := last.of_cons
  cases done
  obtain ⟨below, -, -, rfl⟩ := takes.of_operator operator
  exact ⟨first, later, below, rfl, upTo.climbs climbs, upTo, behind⟩

section Pair

variable {before between after : List Token} (operatorP : IsOperator p.symbol) (operatorQ : IsOperator q.symbol)
  (passes : Passes [] (before ++ p :: between ++ q :: after) sent waiting')

include operatorP operatorQ passes

/-- Of two operators the later comes behind the earlier if the earlier is sent on until then. -/
theorem Passes.pair_sublist (released : Released p (between ++ [q])) : [p, q].Sublist (sent ++ waiting') := by
  rw [List.append_assoc, List.cons_append] at passes
  obtain ⟨early, _, below, rfl, climbs, -, fromP⟩ := passes.of_operator operatorP .nil
  obtain ⟨first, later, below', rfl, -, untilQ, fromQ⟩ := fromP.of_operator operatorQ climbs
  have sentP : [p].Sublist first := List.singleton_sublist.mpr (untilQ.releases operatorP climbs released)
  have laterQ : [q].Sublist (later ++ waiting') := fromQ.sublist_of_operators (by simp) (by simpa using operatorQ)
  have both := (sentP.append laterQ).trans (List.sublist_append_right early _)
  simpa using both

/-- Otherwise the later one comes in front of the earlier. -/
theorem Passes.pair_sublist_swap (other : p ≠ q) (kept : ¬ Released p (between ++ [q])) :
    [q, p].Sublist (sent ++ waiting') := by
  rw [List.append_assoc, List.cons_append] at passes
  obtain ⟨early, _, below, rfl, climbs, -, fromP⟩ := passes.of_operator operatorP .nil
  obtain ⟨first, later, below', rfl, -, untilQ, fromQ⟩ := fromP.of_operator operatorQ climbs
  obtain ⟨above, held⟩ := untilQ.keeps operatorP (List.nil_append (p :: below)).symm
    fun front token back split level frees => kept ⟨front, token, back, split, by simpa using level, frees⟩
  have waits : [q, p].Sublist (q :: below') := by
    refine .cons_cons q (List.singleton_sublist.mpr ?_)
    have member : p ∈ q :: below' := by simp [held]
    exact (List.mem_cons.mp member).resolve_left other
  have both := (fromQ.sublist_of_operators waits (by simp [operatorP, operatorQ])).trans
    (List.sublist_append_right (early ++ first) _)
  simpa using both

end Pair

/-! ## Arranging a text -/

theorem unclosed_sublist (tokens : List Token) : (unclosed tokens).Sublist tokens := by
  induction tokens with
  | nil => exact .slnil
  | cons token rest ih =>
    rw [unclosed]
    split
    · exact ih.cons_cons token
    · exact ih.cons token

theorem isOpening_of_mem_unclosed (member : token ∈ unclosed tokens) : isOpening token = true := by
  induction tokens with
  | nil => cases member
  | cons first rest ih =>
    rw [unclosed] at member
    split at member
    next opens =>
      obtain rfl | later := List.mem_cons.mp member
      · exact opens.1
      · exact ih later
    next => exact ih member

theorem nodup_plain_append_unclosed (nodup : tokens.Nodup) : (plain tokens ++ unclosed tokens).Nodup := by
  refine List.nodup_append.mpr ⟨nodup.filter _, nodup.sublist (unclosed_sublist tokens), ?_⟩
  rintro token plain _ open' rfl
  simp [Postfix.plain, isOpening_of_mem_unclosed open'] at plain

/-- How tokens that are arranged stand to the tokens of the text. -/
structure Arrangement (tokens out : List Token) : Prop where
  /-- The words, the operators and the opening parentheses without a partner, each of them once. -/
  perm : out.Perm (plain tokens ++ unclosed tokens)
  nodup : out.Nodup
  closed : ∀ token ∈ out, token.symbol ≠ .closing
  words : out.filter (·.symbol = .word) = tokens.filter (·.symbol = .word)
  /-- Of two operators the earlier comes first exactly if it is sent on until the later one waits. -/
  operators : ∀ before p between q after, tokens = before ++ p :: between ++ q :: after → IsOperator p.symbol →
    IsOperator q.symbol → ([p, q].Sublist out ↔ Released p (between ++ [q]))
  /-- An operator comes behind all earlier ones at its level that bind at least as tightly, whatever stands between
  them. -/
  level : ∀ before p between q after, tokens = before ++ p :: between ++ q :: after → IsOperator p.symbol →
    IsOperator q.symbol → between.countP isOpening = between.countP isClosing → q.symbol.rank ≤ p.symbol.rank →
    [p, q].Sublist out

theorem Passes.arrangement (passes : Passes [] tokens sent waiting') (nodup : tokens.Nodup) :
    Arrangement tokens (sent ++ waiting') := by
  have kept := (nodup_plain_append_unclosed nodup).perm passes.perm.symm
  have operators before p between q after (split : tokens = before ++ p :: between ++ q :: after)
      (operatorP : IsOperator p.symbol) (operatorQ : IsOperator q.symbol) :
      [p, q].Sublist (sent ++ waiting') ↔ Released p (between ++ [q]) := by
    rw [split] at passes nodup
    refine ⟨fun inOrder => ?_, passes.pair_sublist operatorP operatorQ⟩
    have other : p ≠ q := by
      rintro rfl
      simp [List.nodup_append] at nodup
    by_contra waits
    exact not_pair_sublist_swap kept inOrder (passes.pair_sublist_swap operatorP operatorQ other waits)
  refine ⟨passes.perm, kept, fun token member => ?_, passes.words (by simp), operators, ?_⟩
  · obtain plain | open' := List.mem_append.mp (passes.perm.subset member)
    · have kept := (List.mem_filter.mp plain).2
      rw [Bool.and_eq_true, Bool.not_eq_true', Bool.not_eq_true'] at kept
      simpa [isClosing] using kept.2
    · simp [isOpening_iff.mp (isOpening_of_mem_unclosed open')]
  · intro before p between q after split operatorP operatorQ level tight
    exact (operators before p between q after split operatorP operatorQ).mpr
      ⟨between, q, [], rfl, level, .inr ⟨operatorQ, tight⟩⟩

/-- The tokens of a text cover it, and arranging them fails at the first closing parenthesis without a partner, or
keeps them all but the parentheses with one. -/
theorem arrange_of_scan {text : String} {tokens : List Token} (scanned : Token.scan text.toList = .ok tokens) :
    Token.Covers tokens text.toList ∧
    (Overclosed tokens → ∃ closing, FirstUnmatched tokens closing ∧
      arrange tokens = .error (faultAt .unmatchedClosing closing) ∧
      (faultAt .unmatchedClosing closing).cause.detail = "Unmatched closing brace") ∧
    (¬ Overclosed tokens → ∃ out, arrange tokens = .ok out ∧ Arrangement tokens out) := by
  have covers := Token.covers_of_scan scanned
  obtain ⟨sent, waiting, passes, arranged⟩ | ⟨closing, unmatched, failed⟩ := arrange_cases tokens
  · exact ⟨covers, fun overclosed => absurd overclosed passes.not_overclosed,
      fun _ => ⟨_, arranged, passes.arrangement covers.nodup⟩⟩
  · exact ⟨covers, fun _ => ⟨closing, unmatched, failed, rfl⟩, fun met => absurd unmatched.overclosed met⟩

/-- A parenthesis that is never closed holds back what was opened before it. -/
theorem arrange_unclosed : ∃ tokens out, Token.scan "MIT OR (ISC AND X11".toList = .ok tokens ∧
    arrange tokens = .ok out ∧ Arrangement tokens out ∧
    out.map Token.text = ["MIT", "ISC", "X11", "AND", "(", "OR"] := by
  obtain ⟨tokens, scanned⟩ : ∃ tokens, Token.scan "MIT OR (ISC AND X11".toList = .ok tokens := ⟨_, by rfl⟩
  obtain ⟨out, arranged, arrangement⟩ := (arrange_of_scan scanned).2.2 (by cases scanned; decide)
  refine ⟨tokens, out, scanned, arranged, arrangement, ?_⟩
  cases scanned
  cases arranged
  decide

end Licensing.Postfix
