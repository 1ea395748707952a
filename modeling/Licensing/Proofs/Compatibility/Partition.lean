import Mathlib.Data.List.Pairwise
import Licensing.Proofs.Compatibility.Coverage
import Licensing.Proofs.Lookup

/-! # The index as a partition

The index is filled entry by entry, and alternative by alternative.  An entry can be added exactly if none of
its alternatives is there already (`cover_eq_ok_iff`), so all entries can be added exactly if no alternative
comes up twice among all of them; the index is then the list of all alternatives with their entries
(`foldlM_index_eq_ok_iff`).  The order of the entries shows in the order of this list only, and an evaluation
does not see it: all that it needs are the decisions that the policy and the index give
(`evaluateAt_congr`).

* `Overlaps` — two different entries have a common alternative.
* `Partitions` — the index has each alternative once, with its entry.
* `build_partition` — no overlap, an interpreter, and a partition are the same in every order.
-/

namespace Licensing.Interpreter

variable {equivalence : Equivalence} {policy : Policy}

/-! ## Alternatives of entries -/

/-- The alternatives that an entry covers, none if it has no expansion. -/
def alternatives (equivalence : Equivalence) (key : Expression) : List Expression :=
  match equivalence.expand key with
  | .ok whole => whole.operands .or
  | .error _ => []

/-- All alternatives of some entries, each with its entry. -/
def coverage (equivalence : Equivalence) (keys : List Expression) : List (Expression × Expression) :=
  keys.flatMap fun key => (alternatives equivalence key).map (·, key)

theorem mem_alternatives {key p : Expression} :
    p ∈ alternatives equivalence key ↔ Covers equivalence key p := by
  unfold alternatives Covers
  split
  next whole found => simp [found]
  next fault found => simp [found]

theorem mem_coverage {keys : List Expression} {p owner : Expression} :
    (p, owner) ∈ coverage equivalence keys ↔ owner ∈ keys ∧ Covers equivalence owner p := by
  simp only [coverage, List.mem_flatMap, List.mem_map, Prod.mk.injEq, mem_alternatives]
  constructor
  · rintro ⟨key, listed, _, covers, rfl, rfl⟩
    exact ⟨listed, covers⟩
  · rintro ⟨listed, covers⟩
    exact ⟨owner, listed, p, covers, rfl, rfl⟩

theorem map_fst_coverage (keys : List Expression) :
    (coverage equivalence keys).map Prod.fst = keys.flatMap (alternatives equivalence) := by
  simp [coverage, List.map_flatMap, Function.comp_def]

/-- Two different entries have a common alternative. -/
def Overlaps (equivalence : Equivalence) (keys : List Expression) : Prop :=
  ∃ a ∈ keys, ∃ b ∈ keys, a ≠ b ∧ ∃ p, Covers equivalence a p ∧ Covers equivalence b p

theorem nodup_alternatives_iff {keys : List Expression} (distinct : keys.Nodup)
    (sets : ∀ key ∈ keys, (alternatives equivalence key).Nodup) :
    (keys.flatMap (alternatives equivalence)).Nodup ↔ ¬ Overlaps equivalence keys := by
  rw [List.nodup_flatMap]
  -- Repetitions inside the alternatives of one entry are excluded, so only those of two entries are left.
  constructor
  · rintro ⟨-, apart⟩ ⟨a, inA, b, inB, different, p, left, right⟩
    have : Std.Symm (Function.onFun List.Disjoint (alternatives equivalence)) :=
      ⟨fun _ _ apart _ left right => apart right left⟩
    have disjoint := apart.forall inA inB different
    exact disjoint (mem_alternatives.mpr left) (mem_alternatives.mpr right)
  · intro apart
    refine ⟨sets, distinct.pairwise_of_forall_ne fun a inA b inB different p left right => apart ?_⟩
    exact ⟨a, inA, b, inB, different, p, mem_alternatives.mp left, mem_alternatives.mp right⟩

/-! ## Adding entries -/

section Adding

variable {key : Expression} {parts parts' : List (Expression × Expression)}

theorem lookup_append_eq_none {more : List (Expression × Expression)} {p : Expression} :
    (parts ++ more).lookup p = none ↔ parts.lookup p = none ∧ p ∉ more.map Prod.fst := by
  rw [List.lookup_append, Option.or_eq_none_iff]
  refine and_congr_right fun _ => ?_
  rw [List.lookup_eq_none_iff]
  constructor
  · intro absent listed
    obtain ⟨entry, member, rfl⟩ := List.mem_map.mp listed
    simpa using absent entry member
  · intro absent entry member
    have other : p ≠ entry.1 := fun same => absent (same ▸ List.mem_map_of_mem member)
    simpa using other

theorem cover_eq_ok_iff {ps : List Expression} :
    cover key parts ps = .ok parts' ↔
      ps.Nodup ∧ (∀ p ∈ ps, parts.lookup p = none) ∧ parts' = parts ++ ps.map (·, key) := by
  induction ps generalizing parts with
  | nil =>
    show Except.ok parts = .ok parts' ↔ _
    simp [@eq_comm _ parts']
  | cons p ps ih =>
    unfold cover
    split
    next owner found => simp [-List.lookup_eq_none_iff, found]
    next fresh =>
      rw [ih]
      simp only [lookup_append_eq_none, List.map_cons, List.map_nil, List.mem_singleton, List.nodup_cons,
        List.forall_mem_cons, fresh, true_and, List.append_assoc, List.cons_append, List.nil_append]
      -- The new pair is behind the old ones, so that the others must not be about its alternative.
      constructor
      · rintro ⟨set, absent, rfl⟩
        exact ⟨⟨fun member => (absent p member).2 rfl, set⟩, fun q member => (absent q member).1, rfl⟩
      · rintro ⟨⟨new, set⟩, absent, rfl⟩
        exact ⟨set, fun q member => ⟨absent q member, fun same => new (same ▸ member)⟩, rfl⟩

/-- An entry that cannot be added shares an alternative with one that is there already. -/
theorem exists_shared_of_cover {ps : List Expression} {fault : PolicyFault} (set : ps.Nodup)
    (failed : cover key parts ps = .error fault) :
    ∃ p ∈ ps, ∃ owner, parts.lookup p = some owner ∧ fault = .overlap p owner key := by
  induction ps generalizing parts with
  | nil => cases failed
  | cons p ps ih =>
    obtain ⟨new, set⟩ := List.nodup_cons.mp set
    unfold cover at failed
    split at failed
    next owner found =>
      cases failed
      exact ⟨p, List.mem_cons_self, owner, found, rfl⟩
    next =>
      obtain ⟨q, member, owner, found, same⟩ := ih set failed
      refine ⟨q, .tail _ member, owner, ?_, same⟩
      -- The pair that was added in between is about another alternative.
      have other : (q == p) = false := by
        have : q ≠ p := fun same => new (same ▸ member)
        simpa using this
      simpa [List.lookup_append, List.lookup_cons, other] using found

theorem index_eq (whole : Expression) (expanded : equivalence.expand key = .ok whole) :
    index equivalence parts key =
      (cover key parts (alternatives equivalence key)).mapError .policy := by
  simp only [index, alternatives, expanded]
  rfl

/-- All entries can be added exactly if no alternative comes up twice. -/
theorem foldlM_index_eq_ok_iff {keys : List Expression}
    (expands : ∀ key ∈ keys, ∃ whole, equivalence.expand key = .ok whole) :
    keys.foldlM (index equivalence) parts = .ok parts' ↔
      (keys.flatMap (alternatives equivalence)).Nodup ∧
        (∀ p ∈ keys.flatMap (alternatives equivalence), parts.lookup p = none) ∧
        parts' = parts ++ coverage equivalence keys := by
  induction keys generalizing parts with
  | nil =>
    show Except.ok parts = .ok parts' ↔ _
    simp [coverage, @eq_comm _ parts']
  | cons key keys ih =>
    obtain ⟨whole, expanded⟩ := expands key List.mem_cons_self
    have later (middle : List (Expression × Expression)) :
        keys.foldlM (index equivalence) middle = .ok parts' ↔ _ :=
      ih fun key member => expands key (.tail _ member)
    show (index equivalence parts key).bind (fun middle => keys.foldlM (index equivalence) middle) = _ ↔ _
    rw [Outcome.bind_eq_ok]
    simp only [index_eq whole expanded, Outcome.mapError_eq_ok, cover_eq_ok_iff, later,
      List.flatMap_cons, List.nodup_append, List.mem_append, or_imp, forall_and]
    have added (p : Expression) : (parts ++ (alternatives equivalence key).map (·, key)).lookup p = none ↔
        parts.lookup p = none ∧ p ∉ alternatives equivalence key := by
      simp [-List.lookup_eq_none_iff, lookup_append_eq_none]
    have covered : coverage equivalence (key :: keys) =
        (alternatives equivalence key).map (·, key) ++ coverage equivalence keys := List.flatMap_cons
    constructor
    · rintro ⟨_, ⟨set, absent, rfl⟩, rest, fresh, rfl⟩
      refine ⟨⟨set, rest, fun p here q there same => ?_⟩,
        ⟨absent, fun p there => ((added p).mp (fresh p there)).1⟩, by rw [covered, List.append_assoc]⟩
      exact ((added q).mp (fresh q there)).2 (same ▸ here)
    · rintro ⟨⟨set, rest, apart⟩, ⟨absent, absent'⟩, rfl⟩
      refine ⟨_, ⟨set, absent, rfl⟩, rest, fun p there => ?_, by rw [covered, List.append_assoc]⟩
      exact (added p).mpr ⟨absent' p there, fun here => apart p here p there rfl⟩

end Adding

/-! ## Interpreters -/

section Building

variable (expands : ∀ key ∈ policy.keys, ∃ whole, equivalence.expand key = .ok whole)

include expands

theorem build_eq_ok_iff {interpreter : Interpreter} :
    build equivalence policy = .ok interpreter ↔
      (policy.keys.flatMap (alternatives equivalence)).Nodup ∧
        interpreter = ⟨equivalence, policy, coverage equivalence policy.keys⟩ := by
  refine Outcome.bind_eq_ok.trans ?_
  simp only [foldlM_index_eq_ok_iff expands, List.lookup_nil, implies_true, true_and, List.nil_append,
    Except.ok.injEq]
  constructor
  · rintro ⟨_, ⟨once, rfl⟩, rfl⟩
    exact ⟨once, rfl⟩
  · rintro ⟨once, rfl⟩
    exact ⟨_, ⟨once, rfl⟩, rfl⟩

/-- What keeps an interpreter from being built is an alternative that two entries have in common. -/
theorem exists_shared_of_build (distinct : policy.keys.Nodup)
    (sets : ∀ key ∈ policy.keys, (alternatives equivalence key).Nodup) {fault : InterpreterFault}
    (failed : build equivalence policy = .error fault) :
    ∃ p, ∃ owner ∈ policy.keys, ∃ key ∈ policy.keys, owner ≠ key ∧ Covers equivalence owner p ∧
      Covers equivalence key p ∧ fault = .policy (.overlap p owner key) := by
  obtain indexing | ⟨parts, -, impossible⟩ := Outcome.bind_eq_error.mp failed
  swap
  · cases impossible
  -- Up to the entry that stops the loop, the index is the coverage of the entries before it.
  obtain ⟨before, key, behind, parts, split, indexed, stopped⟩ :=
    Outcome.exists_of_foldlM_eq_error indexing
  have listed (k : Expression) (member : k ∈ before ∨ k = key) : k ∈ policy.keys := by
    rw [split, List.mem_append, List.mem_cons]
    exact member.imp_right .inl
  obtain ⟨once, -, filled⟩ :=
    (foldlM_index_eq_ok_iff fun k member => expands k (listed k (.inl member))).mp indexed
  obtain ⟨whole, expanded⟩ := expands key (listed key (.inr rfl))
  rw [index_eq whole expanded] at stopped
  cases covering : cover key parts (alternatives equivalence key) with
  | ok _ => simp [covering, Except.mapError] at stopped
  | error overlap =>
    obtain ⟨p, part, owner, found, rfl⟩ := exists_shared_of_cover (sets key (listed key (.inr rfl))) covering
    obtain rfl : InterpreterFault.policy (.overlap p owner key) = fault := by
      simpa [covering, Except.mapError] using stopped
    rw [List.nil_append] at filled
    -- So the pair that is in the way comes from one of them.
    have pair : (p, owner) ∈ coverage equivalence before := by
      rw [← map_fst_coverage] at once
      exact (mem_iff_lookup once).mpr (filled ▸ found)
    obtain ⟨earlier, covers⟩ := mem_coverage.mp pair
    have different : owner ≠ key := by
      rintro rfl
      rw [split] at distinct
      exact (List.nodup_append.mp distinct).2.2 owner earlier owner List.mem_cons_self rfl
    exact ⟨p, owner, listed owner (.inl earlier), key, listed key (.inr rfl), different, covers,
      mem_alternatives.mp part, rfl⟩

end Building

/-! ## Evaluations -/

/-- An evaluation needs of a policy and its index the decisions that they give. -/
theorem evaluateAt_congr {interpreter other : Interpreter}
    (tables : other.equivalence = interpreter.equivalence)
    (entries : ∀ e, other.policy.find? e = interpreter.policy.find? e)
    (covered : ∀ p, other.covering? p = interpreter.covering? p) (depth : Nat) (e : Expression) :
    other.evaluateAt depth e = interpreter.evaluateAt depth e := by
  induction depth generalizing e with
  | zero => rfl
  | succ depth ih =>
    have operands : other.evaluateAt depth = interpreter.evaluateAt depth := funext ih
    simp only [evaluateAt, tables, entries, covered, operands]

theorem evaluate?_congr {interpreter other : Interpreter}
    (tables : other.equivalence = interpreter.equivalence)
    (entries : ∀ e, other.policy.find? e = interpreter.policy.find? e)
    (covered : ∀ p, other.covering? p = interpreter.covering? p) (e : Option Expression) :
    other.evaluate? e = interpreter.evaluate? e := by
  match e with
  | none => rfl
  | some e =>
    have depths : other.depth e = interpreter.depth e := by simp only [depth, tables]
    simp only [evaluate?, evaluate, depths, evaluateAt_congr tables entries covered]

/-! ## The index as a partition -/

/-- The index has each alternative of each entry once, with this entry, and it has nothing else. -/
structure Partitions (equivalence : Equivalence) (keys : List Expression)
    (parts : List (Expression × Expression)) : Prop where
  once : (parts.map Prod.fst).Nodup
  covers : ∀ p owner, (p, owner) ∈ parts ↔ owner ∈ keys ∧ Covers equivalence owner p

theorem Partitions.lookup_eq {keys : List Expression} {parts parts' : List (Expression × Expression)}
    (left : Partitions equivalence keys parts) (right : Partitions equivalence keys parts')
    (p : Expression) : parts.lookup p = parts'.lookup p := by
  refine Option.ext fun owner => ?_
  rw [← mem_iff_lookup left.once, ← mem_iff_lookup right.once, left.covers, right.covers]

/-- The entries of a policy are about different canonical expressions that have expansions. -/
structure Expandable (equivalence : Equivalence) (policy : Policy) : Prop where
  canonical : ∀ key ∈ policy.keys, key.Canonical
  distinct : policy.keys.Nodup
  expands : ∀ key ∈ policy.keys, ∃ whole, equivalence.expand key = .ok whole

namespace Expandable

variable (entries : Expandable equivalence policy)

include entries

theorem nodup_alternatives (tables : equivalence.Canonical) (key : Expression) (listed : key ∈ policy.keys) :
    (alternatives equivalence key).Nodup := by
  obtain ⟨whole, expanded⟩ := entries.expands key listed
  have canonical := tables.expand (entries.canonical key listed) expanded
  simpa only [alternatives, expanded] using (canonical.sorted_operands .or).nodup

theorem of_perm {policy' : Policy} (perm : policy'.entries.Perm policy.entries) :
    Expandable equivalence policy' := by
  have keys : policy'.keys.Perm policy.keys := perm.map Prod.fst
  exact ⟨fun key listed => entries.canonical key (keys.mem_iff.mp listed), keys.nodup_iff.mpr entries.distinct,
    fun key listed => entries.expands key (keys.mem_iff.mp listed)⟩

theorem exists_build_iff (tables : equivalence.Canonical) :
    (∃ interpreter, build equivalence policy = .ok interpreter) ↔ ¬ Overlaps equivalence policy.keys := by
  rw [← nodup_alternatives_iff entries.distinct (entries.nodup_alternatives tables)]
  constructor
  · rintro ⟨interpreter, built⟩
    exact ((build_eq_ok_iff entries.expands).mp built).1
  · intro once
    exact ⟨_, (build_eq_ok_iff entries.expands).mpr ⟨once, rfl⟩⟩

theorem exists_fault_iff (tables : equivalence.Canonical) :
    (∃ fault, build equivalence policy = .error (.policy fault)) ↔ Overlaps equivalence policy.keys := by
  constructor
  · rintro ⟨fault, failed⟩
    obtain ⟨p, owner, inOwner, key, inKey, different, covers, covers', -⟩ := exists_shared_of_build
      entries.expands entries.distinct (entries.nodup_alternatives tables) failed
    exact ⟨owner, inOwner, key, inKey, different, p, covers, covers'⟩
  · intro overlaps
    cases failed : build equivalence policy with
    | ok interpreter => exact absurd overlaps ((entries.exists_build_iff tables).mp ⟨interpreter, failed⟩)
    | error fault =>
      obtain ⟨p, owner, -, key, -, -, -, -, rfl⟩ := exists_shared_of_build
        entries.expands entries.distinct (entries.nodup_alternatives tables) failed
      exact ⟨_, rfl⟩

theorem partitions {interpreter : Interpreter} (built : build equivalence policy = .ok interpreter) :
    Partitions equivalence policy.keys interpreter.parts := by
  obtain ⟨once, rfl⟩ := (build_eq_ok_iff entries.expands).mp built
  exact ⟨by rwa [map_fst_coverage], fun p owner => mem_coverage⟩

end Expandable

/-- A policy whose entries all have an expansion has an interpreter exactly if no two different entries have a
common alternative; the index of its interpreter is then a partition.  None of this depends on the order of the
entries, and neither does any evaluation. -/
theorem build_partition (tables : equivalence.Canonical) (entries : Expandable equivalence policy)
    (policy' : Policy) (perm : policy'.entries.Perm policy.entries) :
    ((∃ fault, build equivalence policy' = .error (.policy fault)) ↔ Overlaps equivalence policy.keys) ∧
    ((∃ interpreter, build equivalence policy' = .ok interpreter) ↔ ¬ Overlaps equivalence policy.keys) ∧
    ∀ interpreter', build equivalence policy' = .ok interpreter' →
      Partitions equivalence policy.keys interpreter'.parts ∧
      ∃ interpreter, build equivalence policy = .ok interpreter ∧
        ∀ e, interpreter'.evaluate? e = interpreter.evaluate? e := by
  -- Entries and alternatives are the same, in another order.
  have entries' := entries.of_perm perm
  have keys (key : Expression) : key ∈ policy'.keys ↔ key ∈ policy.keys := (perm.map Prod.fst).mem_iff
  have overlaps : Overlaps equivalence policy'.keys ↔ Overlaps equivalence policy.keys := by
    simp only [Overlaps, keys]
  refine ⟨(entries'.exists_fault_iff tables).trans overlaps,
    (entries'.exists_build_iff tables).trans (not_congr overlaps), ?_⟩
  intro interpreter' built'
  obtain ⟨interpreter, built⟩ : ∃ interpreter, build equivalence policy = .ok interpreter := by
    rw [entries.exists_build_iff tables, ← overlaps, ← entries'.exists_build_iff tables]
    exact ⟨interpreter', built'⟩
  have partitions' : Partitions equivalence policy.keys interpreter'.parts := by
    obtain ⟨once, covers⟩ := entries'.partitions built'
    exact ⟨once, by simpa only [keys] using covers⟩
  obtain ⟨sameTables, samePolicy, -⟩ := build_spec built
  obtain ⟨sameTables', samePolicy', -⟩ := build_spec built'
  have find (e : Expression) : interpreter'.policy.find? e = interpreter.policy.find? e := by
    rw [samePolicy, samePolicy', Policy.find?, Policy.find?, lookup_eq_of_perm perm entries'.distinct]
  have sameTables := sameTables'.trans sameTables.symm
  refine ⟨partitions', interpreter, built, evaluate?_congr sameTables find fun p => ?_⟩
  -- Two partitions of the same entries answer alike, however their pairs are ordered.
  rw [covering?, covering?, partitions'.lookup_eq (entries.partitions built), funext find]

/-- `X` stands for `A`, or for `B`, and `C` for `D`: no entries have a common alternative, in either order. -/
theorem build_partition_of_reversed_entries :
    let a : Expression := .just (.free ⟨"A", []⟩)
    let b : Expression := .just (.free ⟨"B", []⟩)
    let c : Expression := .just (.free ⟨"C", []⟩)
    let d : Expression := .just (.free ⟨"D", []⟩)
    let x : Expression := .just (.free ⟨"X", []⟩)
    let equivalence : Equivalence := ⟨[[(x, [a, b]), (c, [d])]]⟩
    let policy : Policy := ⟨[(x, ⟨.allow, ""⟩), (c, ⟨.reject, ""⟩)]⟩
    let reversed : Policy := ⟨[(c, ⟨.reject, ""⟩), (x, ⟨.allow, ""⟩)]⟩
    equivalence.Canonical ∧ Expandable equivalence policy ∧ reversed.entries.Perm policy.entries ∧
      ¬ Overlaps equivalence policy.keys ∧ ∃ interpreter, build equivalence policy = .ok interpreter ∧
        Partitions equivalence [x, c] [(d, c), (a, x), (b, x)] ∧
        interpreter.evaluate? (some (a.or b)) = .ok ⟨.allow, ["A: ALLOW", "B: ALLOW"]⟩ := by
  intro a b c d x equivalence policy reversed
  have tables : equivalence.Canonical := by
    simp [equivalence, a, b, d, Equivalence.Canonical, Equivalence.values, EquivalenceTable.values,
      Expression.Canonical]
  have entries : Expandable equivalence policy := by
    refine ⟨by simp [policy, x, c, Policy.keys, Expression.Canonical], by decide +kernel, ?_⟩
    intro key listed
    obtain rfl | rfl : key = x ∨ key = c := by simpa [policy, Policy.keys] using listed
    · exact ⟨a.or b, Outcome.toOption_eq_some.mp (by decide +kernel)⟩
    · exact ⟨d, Outcome.toOption_eq_some.mp (by decide +kernel)⟩
  have perm : reversed.entries.Perm policy.entries := List.Perm.swap ..
  have built : build equivalence reversed = .ok ⟨equivalence, reversed, [(d, c), (a, x), (b, x)]⟩ :=
    Outcome.toOption_eq_some.mp (by decide +kernel)
  obtain ⟨-, apart, indexed⟩ := build_partition tables entries reversed perm
  obtain ⟨partitions, interpreter, built', same⟩ := indexed _ built
  refine ⟨tables, entries, perm, apart.mp ⟨_, built⟩, interpreter, built', partitions, ?_⟩
  rw [← same]
  exact Outcome.toOption_eq_some.mp (by decide +kernel)

end Licensing.Interpreter
