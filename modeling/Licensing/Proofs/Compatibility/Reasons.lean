import Licensing.Proofs.Compatibility.Termination

/-! # The reasons of a compound expression

Among the operands of a choice those that are allowed prevail, and in a combination those that are not; where none
prevails, all of them count (`Connective.decisive`).  Joining them one by one keeps their reasons, in order, and no
others.  A reason may get labels on the way, because what has been joined so far and the next operand do not agree.

`Retains` is the account of this, with the labels of each operand.  Every join keeps such an account
(`Retains.join`), so what is joined from any number of operands has one (`Retains.foldl`), and so has every
evaluation of a compound expression (`evaluate_retains_reasons`).
-/

namespace Licensing

/-! ## Operands that count -/

namespace Connective

/-- Whether a resolution outweighs those that do not: what is allowed in a choice, and what is not in a
combination. -/
def prevails : Connective → Resolution → Bool
  | .or, r => r.allowed
  | .and, r => !r.allowed

/-- The resolutions that count: those that prevail, or all where none does. -/
def decisive (connective : Connective) (rs : List Resolution) : List Resolution :=
  if rs.any connective.prevails then rs.filter connective.prevails else rs

/-- The verdict on operands that do not agree, though none of them outweighs another. -/
def mixed : Connective → Verdict
  | .or => .unknown
  | .and => .reject

variable {connective : Connective} {rs : List Resolution} {a b : Resolution}

theorem prevails_congr (connective : Connective) (same : a.verdict = b.verdict) :
    connective.prevails a = connective.prevails b := by
  cases connective <;> simp [prevails, Resolution.allowed, same]

theorem any_append_alike (alike : rs.any connective.prevails = connective.prevails b) :
    (rs ++ [b]).any connective.prevails = connective.prevails b := by
  simp [alike]

theorem decisive_append_alike (alike : rs.any connective.prevails = connective.prevails b) :
    connective.decisive (rs ++ [b]) = connective.decisive rs ++ [b] := by
  cases prevails : connective.prevails b <;> simp [decisive, alike, prevails]

theorem decisive_append_outweighed (before : rs.any connective.prevails = true)
    (outweighed : connective.prevails b = false) :
    connective.decisive (rs ++ [b]) = connective.decisive rs := by
  simp [decisive, before, outweighed]

theorem decisive_append_prevailing (before : rs.any connective.prevails = false)
    (prevails : connective.prevails b = true) : connective.decisive (rs ++ [b]) = [b] := by
  have none : rs.filter connective.prevails = [] := by
    simpa [List.filter_eq_nil_iff] using before
  simp [decisive, prevails, none]

end Connective

/-- Everything that a join can do, by what prevails. -/
theorem Resolution.join_prevails (connective : Connective) (a b : Resolution) :
    (connective.prevails a = true ∧ connective.prevails b = false ∧ join connective a b = a) ∨
    (connective.prevails a = false ∧ connective.prevails b = true ∧ join connective a b = b) ∨
    connective.prevails a = connective.prevails b ∧
      (a.verdict = b.verdict ∧ join connective a b = ⟨a.verdict, a.reasons ++ b.reasons⟩ ∨
        a.verdict ≠ b.verdict ∧ (connective.mixed = a.verdict ∨ connective.mixed = b.verdict) ∧
          join connective a b = ⟨connective.mixed, a.labelled ++ b.labelled⟩) := by
  obtain ⟨v, reasons⟩ := a
  obtain ⟨w, others⟩ := b
  cases connective <;> cases v <;> cases w <;>
    simp [join, both, either, Connective.prevails, Connective.mixed, allowed]

/-! ## What operands contribute -/

/-- A reason behind verdicts that were put in front of it, the last one first. -/
def behind (labels : List Verdict) (reason : String) : String :=
  labels.foldr (fun label text => label.name ++ ": " ++ text) reason

/-- An operand with the labels that its reasons got. -/
structure Contribution where
  source : Resolution
  labels : List Verdict

namespace Contribution

def reasons (part : Contribution) : List String :=
  part.source.reasons.map (behind part.labels)

def labelled (v : Verdict) (part : Contribution) : Contribution :=
  { part with labels := v :: part.labels }

theorem reasons_labelled (v : Verdict) (part : Contribution) :
    (part.labelled v).reasons = part.reasons.map fun reason => v.name ++ ": " ++ reason := by
  rw [reasons, reasons, List.map_map]
  rfl

theorem labelled_eq {r : Resolution} {parts : List Contribution} (texts : r.reasons = parts.flatMap reasons) :
    r.labelled = (parts.map (labelled r.verdict)).flatMap reasons := by
  rw [Resolution.labelled, texts, List.map_flatMap, List.flatMap_map]
  exact List.flatMap_congr fun part _ => (reasons_labelled r.verdict part).symm

theorem reasons_plain (r : Resolution) : (⟨r, []⟩ : Contribution).reasons = r.reasons :=
  List.map_id r.reasons

end Contribution

/-- `Retains connective rs parts r` — the reasons of `r` are those of the parts, and the parts are the operands among
`rs` that count. -/
structure Retains (connective : Connective) (rs : List Resolution) (parts : List Contribution) (r : Resolution) :
    Prop where
  sources : parts.map Contribution.source = connective.decisive rs
  reasons : r.reasons = parts.flatMap Contribution.reasons
  /-- The reasons of an operand stay as they are, or have its own verdict in front, and before it that of the mixture
  any number of times. -/
  labels : ∀ part ∈ parts, part.labels = [] ∧ part.source.verdict = r.verdict ∨
    r.verdict = connective.mixed ∧
      ∃ n, part.labels = List.replicate n connective.mixed ++ [part.source.verdict]
  /-- Operands that agree get no labels. -/
  plain : (∀ part ∈ parts, ∀ other ∈ parts, part.source.verdict = other.source.verdict) →
    ∀ part ∈ parts, part.labels = []
  attained : ∃ part ∈ parts, part.source.verdict = r.verdict
  prevails : connective.prevails r = rs.any connective.prevails

namespace Retains

variable {connective : Connective} {rs : List Resolution} {parts : List Contribution} {a b : Resolution}

theorem single (connective : Connective) (r : Resolution) : Retains connective [r] [⟨r, []⟩] r where
  sources := by cases prevails : connective.prevails r <;> simp [Connective.decisive, prevails]
  reasons := by simp [Contribution.reasons_plain]
  labels := by simp
  plain := by simp
  attained := by simp
  prevails := by simp

theorem append (retains : Retains connective rs parts a) (same : a.verdict = b.verdict) :
    Retains connective (rs ++ [b]) (parts ++ [⟨b, []⟩]) ⟨a.verdict, a.reasons ++ b.reasons⟩ where
  sources := by
    have alike := retains.prevails.symm.trans (connective.prevails_congr same)
    rw [List.map_append, retains.sources, Connective.decisive_append_alike alike]
    rfl
  reasons := by simp [retains.reasons, Contribution.reasons_plain]
  labels := by
    refine List.forall_mem_append.mpr ⟨retains.labels, ?_⟩
    simp [same]
  plain agree := by
    refine List.forall_mem_append.mpr ⟨retains.plain fun part inParts other inParts' => ?_, by simp⟩
    exact agree part (List.mem_append_left _ inParts) other (List.mem_append_left _ inParts')
  attained := by
    obtain ⟨part, member, attained⟩ := retains.attained
    exact ⟨part, List.mem_append_left _ member, attained⟩
  prevails := by
    have alike := connective.prevails_congr same
    rw [Connective.any_append_alike (retains.prevails.symm.trans alike)]
    exact connective.prevails_congr same

theorem mix (retains : Retains connective rs parts a) (alike : connective.prevails a = connective.prevails b)
    (differ : a.verdict ≠ b.verdict) (source : connective.mixed = a.verdict ∨ connective.mixed = b.verdict) :
    Retains connective (rs ++ [b]) (parts.map (Contribution.labelled a.verdict) ++ [⟨b, [b.verdict]⟩])
      ⟨connective.mixed, a.labelled ++ b.labelled⟩ where
  sources := by
    rw [List.map_append, List.map_map, Connective.decisive_append_alike (retains.prevails.symm.trans alike),
      ← retains.sources]
    rfl
  reasons := by
    rw [List.flatMap_append, ← Contribution.labelled_eq retains.reasons]
    simp [Contribution.reasons, Resolution.labelled, behind]
  labels := by
    refine List.forall_mem_append.mpr ⟨?_, by simp⟩
    intro part member
    obtain ⟨part, before, rfl⟩ := List.mem_map.mp member
    refine .inr ⟨rfl, ?_⟩
    -- A part without labels gets its own verdict, and one that has labels that of the mixture.
    obtain ⟨unlabelled, own⟩ | ⟨already, n, labels⟩ := retains.labels part before
    · exact ⟨0, by simp [Contribution.labelled, unlabelled, own]⟩
    · exact ⟨n + 1, by simp [Contribution.labelled, labels, already, List.replicate_succ]⟩
  plain agree := by
    -- Some part has the verdict of what had been joined, so it does not agree with the new operand.
    obtain ⟨part, member, attained⟩ := retains.attained
    have same := agree (part.labelled a.verdict) (List.mem_append_left _ (List.mem_map_of_mem member))
      ⟨b, [b.verdict]⟩ (by simp)
    exact absurd (attained.symm.trans same) differ
  attained := by
    obtain ⟨part, member, attained⟩ := retains.attained
    cases source with
    | inl first => exact ⟨_, List.mem_append_left _ (List.mem_map_of_mem member), attained.trans first.symm⟩
    | inr second => exact ⟨⟨b, [b.verdict]⟩, by simp, second.symm⟩
  prevails := by
    rw [Connective.any_append_alike (retains.prevails.symm.trans alike)]
    cases source with
    | inl first => exact (connective.prevails_congr first).trans alike
    | inr second => exact connective.prevails_congr second

theorem keep (retains : Retains connective rs parts a) (prevails : connective.prevails a = true)
    (outweighed : connective.prevails b = false) : Retains connective (rs ++ [b]) parts a :=
  have before := retains.prevails.symm.trans prevails
  { retains with
    sources := by rw [retains.sources, Connective.decisive_append_outweighed before outweighed]
    prevails := by simp [before, prevails] }

theorem replace (retains : Retains connective rs parts a) (outweighed : connective.prevails a = false)
    (prevails : connective.prevails b = true) : Retains connective (rs ++ [b]) [⟨b, []⟩] b :=
  have before := retains.prevails.symm.trans outweighed
  { single connective b with
    sources := by rw [Connective.decisive_append_prevailing before prevails]; rfl
    prevails := by simp [prevails] }

theorem join (retains : Retains connective rs parts a) (b : Resolution) :
    ∃ parts', Retains connective (rs ++ [b]) parts' (Resolution.join connective a b) := by
  obtain ⟨prevails, outweighed, joined⟩ | ⟨outweighed, prevails, joined⟩ |
    ⟨alike, ⟨same, joined⟩ | ⟨differ, source, joined⟩⟩ := Resolution.join_prevails connective a b
  · rw [joined]
    exact ⟨parts, retains.keep prevails outweighed⟩
  · rw [joined]
    exact ⟨_, retains.replace outweighed prevails⟩
  · rw [joined]
    exact ⟨_, retains.append same⟩
  · rw [joined]
    exact ⟨_, retains.mix alike differ source⟩

theorem foldl (retains : Retains connective rs parts a) (others : List Resolution) :
    ∃ parts', Retains connective (rs ++ others) parts' (others.foldl (Resolution.join connective) a) := by
  induction others generalizing rs parts a with
  | nil => exact ⟨parts, by simpa using retains⟩
  | cons b others ih =>
    obtain ⟨joined, step⟩ := retains.join b
    obtain ⟨whole, run⟩ := ih step
    exact ⟨whole, by simpa using run⟩

/-- Operands that agree keep their reasons as they are. -/
theorem reasons_of_agree (retains : Retains connective rs parts a)
    (agree : ∀ r ∈ connective.decisive rs, ∀ s ∈ connective.decisive rs, r.verdict = s.verdict) :
    a.reasons = (connective.decisive rs).flatMap Resolution.reasons := by
  rw [← retains.sources] at agree ⊢
  have plain := retains.plain fun part inParts other inParts' =>
    agree _ (List.mem_map_of_mem inParts) _ (List.mem_map_of_mem inParts')
  rw [retains.reasons, List.flatMap_map]
  refine List.flatMap_congr fun part member => ?_
  obtain ⟨source, labels⟩ := part
  obtain rfl : labels = [] := plain _ member
  exact Contribution.reasons_plain source

end Retains

namespace Interpreter

variable {interpreter : Interpreter} {connective : Connective}

/-- An expression that is no entry itself keeps the reasons of those operands of its expansion that count, in canonical
order, and labels them only where these operands do not agree. -/
theorem evaluate_retains_reasons (tables : interpreter.equivalence.Canonical) {e : Expression} (canonical : e.Canonical)
    (unlisted : interpreter.policy.find? e = none) {operands : List Expression}
    (expanded : interpreter.equivalence.expand e = .ok (.compound connective operands))
    {results : Expression → Resolution} (evaluated : ∀ d ∈ operands, interpreter.evaluate d = .ok (results d)) :
    SortedSet.Sorted operands ∧ ∃ r, interpreter.evaluate e = .ok r ∧
      (∃ parts, Retains connective (operands.map results) parts r) ∧
      ((∀ a ∈ connective.decisive (operands.map results), ∀ b ∈ connective.decisive (operands.map results),
        a.verdict = b.verdict) →
        r.reasons = (connective.decisive (operands.map results)).flatMap Resolution.reasons) := by
  -- The operands are evaluated alone as they are inside, so the fold runs over their resolutions.
  obtain ⟨several, sorted, -, -⟩ := Expression.canonical_compound_iff.mp (tables.expand canonical expanded)
  have known : ∀ d ∈ operands, Evaluates interpreter d (results d) :=
    fun d member => evaluates_of_evaluate (evaluated d member)
  obtain ⟨first, rest, rfl⟩ : ∃ first rest, operands = first :: rest :=
    List.exists_cons_of_length_pos (by omega)
  obtain ⟨atFirst, atRest⟩ := List.forall_mem_cons.mp known
  have run : Evaluates interpreter e _ :=
    .compound unlisted expanded atFirst (folds_of_results atRest connective (results first))
  obtain ⟨parts, retains⟩ := (Retains.single connective (results first)).foldl (rest.map results)
  exact ⟨sorted, _, (evaluate_eq_ok_iff tables canonical).mpr run, ⟨parts, retains⟩, retains.reasons_of_agree⟩

/-- `X` stands for four expressions of which none is allowed, and those that are rejected alternate with those that are
unknown. -/
theorem evaluate_retains_alternating_reasons :
    let license (name : String) : Expression := .just (.free ⟨name, []⟩)
    let x := license "X"
    let operands := [license "C", license "D", license "E", license "F"]
    let equivalence : Equivalence := ⟨[[(x, operands)]]⟩
    let policy : Policy := ⟨[(license "C", ⟨.reject, "never"⟩), (license "E", ⟨.reject, "never"⟩)]⟩
    let interpreter : Interpreter := ⟨equivalence, policy, [(license "C", license "C"), (license "E", license "E")]⟩
    let results (d : Expression) : Resolution :=
      if d = license "C" ∨ d = license "E" then ⟨.reject, [d.text ++ ": never"]⟩ else .unlisted d
    let r : Resolution := ⟨.unknown, ["UNKNOWN: REJECT: C: never", "UNKNOWN: UNKNOWN: No rules found for D",
      "REJECT: E: never", "No rules found for F"]⟩
    Interpreter.build equivalence policy = .ok interpreter ∧ equivalence.Canonical ∧ x.Canonical ∧
      policy.find? x = none ∧ equivalence.expand x = .ok (.compound .or operands) ∧
      (∀ d ∈ operands, interpreter.evaluate d = .ok (results d)) ∧ interpreter.evaluate x = .ok r ∧
      SortedSet.Sorted operands ∧ ∃ parts, Retains .or (operands.map results) parts r := by
  intro license x operands equivalence policy interpreter results r
  have plain (name : String) : (license name).Canonical := by simp [license, Expression.Canonical]
  have tables : equivalence.Canonical := by
    simp [equivalence, Equivalence.Canonical, Equivalence.values, EquivalenceTable.values, operands, plain]
  have built : Interpreter.build equivalence policy = .ok interpreter := Outcome.toOption_eq_some.mp (by decide +kernel)
  have unlisted : policy.find? x = none := by decide +kernel
  have expanded : equivalence.expand x = .ok (.compound .or operands) :=
    Outcome.toOption_eq_some.mp (by decide +kernel)
  have evaluated : ∀ d ∈ operands, interpreter.evaluate d = .ok (results d) := by
    simp only [operands, List.forall_mem_cons]
    refine ⟨?_, ?_, ?_, ?_, List.forall_mem_nil _⟩ <;> exact Outcome.toOption_eq_some.mp (by decide +kernel)
  have whole : interpreter.evaluate x = .ok r := Outcome.toOption_eq_some.mp (by decide +kernel)
  obtain ⟨sorted, s, evaluated', retains, -⟩ :=
    @evaluate_retains_reasons interpreter .or tables x (plain "X") unlisted operands expanded results evaluated
  obtain rfl := Except.ok.inj (whole.symm.trans evaluated')
  exact ⟨built, tables, plain _, unlisted, expanded, evaluated, whole, sorted, retains⟩

end Interpreter

end Licensing
