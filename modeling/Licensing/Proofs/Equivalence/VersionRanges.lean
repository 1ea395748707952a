import Mathlib.Data.List.Nodup
import Mathlib.Data.Set.List
import Mathlib.Logic.Relation
import Licensing.Proofs.Equivalence.SimpleTables
import Licensing.Proofs.Equivalence.VersionTable

/-! # Expansion of version ranges

With the table of version ranges, a license with later versions expands to the choice between the versions
that it leads to: along families, and from an identifier that includes all later versions to the one that
does not.  Families may overlap and form cycles.

* `Leads` — one step from a version to another.
* `expand_of_meant` — the expansion of a license with later versions.

Such a table sends everything to simple terms, so that nothing can go wrong in an expansion.  What is
walked are licenses, alone or with later versions; those with later versions always stand for something,
and so the ends are licenses alone.
-/

namespace Licensing

open Relation (ReflTransGen)
open Licensing.Equivalence Licensing.Document

namespace Equivalence

variable {equivalence : Equivalence}

/-! ## Expansions with the same ends -/

/-- An expression that leads to an end expands to the choice between its ends. -/
theorem exists_choice_of_end {e expanded t : Expression} (tables : equivalence.Canonical)
    (canonical : e.Canonical) (ended : equivalence.expand e = .ok expanded)
    (reached : Reaches equivalence.lookup e t) (leaf : equivalence.lookup t = .ok []) :
    ∃ terminals, Expression.combine? .or terminals = some expanded ∧
      ∀ t, t ∈ terminals ↔ Reaches equivalence.lookup e t ∧ equivalence.lookup t = .ok [] := by
  obtain ⟨terminals, rfl, -, ends⟩ := exists_ends_of_expand tables canonical ended
  have member : t ∈ terminals := (ends t).mpr ⟨reached, leaf⟩
  have joins := Expression.combine?_isSome .or member (canonical_of_reaches tables canonical reached)
  obtain ⟨choice, joined⟩ := Option.isSome_iff_exists.mp joins
  exact ⟨terminals, by simp [choiceOr, joined], ends⟩

/-- Two expressions with the same ends, and with any, expand to the same. -/
theorem expand_eq_of_ends {a b x y t : Expression} (tables : equivalence.Canonical)
    (left : a.Canonical) (right : b.Canonical) (ended : equivalence.expand a = .ok x)
    (ended' : equivalence.expand b = .ok y)
    (same : ∀ t, equivalence.lookup t = .ok [] →
      (Reaches equivalence.lookup a t ↔ Reaches equivalence.lookup b t))
    (reached : Reaches equivalence.lookup a t) (leaf : equivalence.lookup t = .ok []) : x = y := by
  obtain ⟨terminals, joined, ends⟩ := exists_choice_of_end tables left ended reached leaf
  obtain ⟨terminals', joined', ends'⟩ :=
    exists_choice_of_end tables right ended' ((same t leaf).mp reached) leaf
  have members (t : Expression) : t ∈ terminals ↔ t ∈ terminals' := by
    rw [ends, ends', and_congr_left_iff]
    exact same t
  exact Option.some.inj (joined.symm.trans ((Expression.combine?_congr members).trans joined'))

end Equivalence

namespace VersionTable

/-! ## What a version leads to -/

/-- From a version to the next one of a family, and from an identifier that includes all later versions to
the identifier that does not. -/
inductive Leads (document : Source) : String → String → Prop
  | newer {family : List String} {id next : String} (member : family ∈ families document)
      (behind : [id, next] <:+: family) : Leads document id next
  | only {stem : String} (listed : stem ++ orLaterEnding ∈ orLaterIds document) :
      Leads document (stem ++ orLaterEnding) (stem ++ "-only")

/-- A version that `id` leads to, and that stands for itself alone. -/
def Meant (document : Source) (id version : String) : Prop :=
  ReflTransGen (Leads document) id version ∧ version ∉ orLaterIds document

variable {registry : Registry} {document : Source} {table : EquivalenceTable} {id version : String}

theorem ending_cancel {stem stem' : String} (same : stem ++ orLaterEnding = stem' ++ orLaterEnding) :
    stem = stem' := by
  have letters := congrArg String.toList same
  rw [String.toList_append, String.toList_append] at letters
  exact String.toList_inj.mp (List.append_cancel_right letters)

theorem Leads.known (sound : Accepted registry document) (leads : Leads document id version) :
    registry.hasLicense version = true := by
  cases leads with
  | @newer family _ _ member behind =>
    have inside : version ∈ family := behind.subset (by simp)
    exact sound.families family member version inside
  | @only stem listed =>
    obtain ⟨stem', same, -, known⟩ := sound.orLaterIds _ listed
    exact ending_cancel same ▸ known

/-- An identifier that ends otherwise is not listed as including all later versions. -/
theorem only_not_listed (sound : Accepted registry document) (stem : String) :
    stem ++ "-only" ∉ orLaterIds document := by
  intro listed
  obtain ⟨stem', same, -⟩ := sound.orLaterIds _ listed
  have last := congrArg (fun text : String => text.toList.getLast?) same
  simp [orLaterEnding] at last

theorem exists_meant (sound : Accepted registry document) (id : String) :
    ∃ version, Meant document id version := by
  by_cases listed : id ∈ orLaterIds document
  · obtain ⟨stem, rfl, -⟩ := sound.orLaterIds id listed
    exact ⟨stem ++ "-only", .single (.only listed), only_not_listed sound stem⟩
  · exact ⟨id, .refl, listed⟩

/-! ## What the table says -/

theorem Stands.simple {key d : Expression} (stands : Stands registry document key d) :
    IsSimple d := by
  cases stands with
  | itself _ | newer _ _ | only _ => exact ⟨_, rfl⟩

theorem stands_just_iff {d : Expression} :
    Stands registry document (.just (.standard id)) d ↔
      ∃ stem, id = stem ++ orLaterEnding ∧ id ∈ orLaterIds document ∧
        d = .orLater (.standard (stem ++ "-only")) := by
  constructor
  · intro stands
    cases stands with
    | only listed => exact ⟨_, rfl, listed, rfl⟩
  · rintro ⟨stem, rfl, listed, rfl⟩
    exact .only listed

/-- Along the versions that a license leads to, there is always one with later versions. -/
theorem stands_of_leads (sound : Accepted registry document)
    (known : registry.hasLicense id = true) (leads : ReflTransGen (Leads document) id version) :
    registry.hasLicense version = true ∧
      ReflTransGen (Stands registry document) (.orLater (.standard id))
        (.orLater (.standard version)) := by
  induction leads with
  | refl => exact ⟨known, .refl⟩
  | tail _ step ih =>
    obtain ⟨known', reached⟩ := ih
    refine ⟨step.known sound, ?_⟩
    cases step with
    | newer member behind => exact reached.tail (.newer member behind)
    | only listed =>
      -- The table goes on from the license alone, which the one with later versions stands for.
      exact (reached.tail (.itself known')).tail (.only listed)

theorem leads_of_stands {c : Expression}
    (reached : ReflTransGen (Stands registry document) (.orLater (.standard id)) c) :
    ∃ version, ReflTransGen (Leads document) id version ∧
      (c = .orLater (.standard version) ∨ c = .just (.standard version)) := by
  induction reached with
  | refl => exact ⟨id, .refl, .inl rfl⟩
  | tail _ step ih =>
    obtain ⟨version, leads, rfl | rfl⟩ := ih
    · cases step with
      | itself _ => exact ⟨version, leads, .inr rfl⟩
      | newer member behind => exact ⟨_, leads.tail (.newer member behind), .inl rfl⟩
    · cases step with
      | only listed => exact ⟨_, leads.tail (.only listed), .inl rfl⟩

/-- Licenses, alone or with later versions, have an entry in the table, and nothing else has. -/
theorem simple_of_mem_additions {addition : Expression × List Expression}
    (member : addition ∈ additions registry document) : IsSimple addition.1 := by
  have family (versions : List String) : ∀ addition ∈ familyAdditions versions, IsSimple addition.1 := by
    fun_induction familyAdditions versions with
    | case1 => simp
    | case2 last => simp [IsSimple]
    | case3 current newer rest ih => exact List.forall_mem_cons.mpr ⟨⟨_, rfl⟩, ih⟩
  simp only [additions, List.mem_append, List.mem_flatMap] at member
  obtain (base | ⟨versions, -, inFamily⟩) | only := member
  · obtain ⟨entry, -, rfl⟩ := List.mem_map.mp base
    exact ⟨_, rfl⟩
  · exact family versions addition inFamily
  · obtain ⟨stem, -, rfl⟩ := List.mem_map.mp only
    exact ⟨_, rfl⟩

/-! ## Expansions -/

section Table

variable (accepted : versionTable registry document = .ok table)

include accepted

theorem mem_direct {e d : Expression} :
    d ∈ (Equivalence.mk [table]).direct e ↔ Stands registry document e d := by
  simp [direct, SortedSet.mem_ofList, mem_find_versionTable accepted]

theorem simple_values : ∀ d ∈ (Equivalence.mk [table]).values, IsSimple d := by
  intro d member
  simp only [values, List.flatMap_cons, List.flatMap_nil, List.append_nil] at member
  obtain ⟨key, stands⟩ := (mem_values_versionTable accepted).mp member
  exact stands.simple

theorem simpleTables : SimpleTables ⟨[table]⟩ where
  keys := by
    intro other inTables entry member
    obtain rfl := List.mem_singleton.mp inTables
    obtain ⟨rfl, -⟩ := versionTable_eq_extend accepted
    obtain inside | start := EquivalenceTable.key_of_mem_extend member
    · obtain ⟨addition, inside, same⟩ := List.mem_map.mp inside
      exact same ▸ simple_of_mem_additions inside
    · cases start
  values := simple_values accepted

theorem tables : (Equivalence.mk [table]).Canonical :=
  fun d member => (simple_values accepted d member).canonical

theorem lookup_of_simple {e : Expression} (simple : IsSimple e) :
    (Equivalence.mk [table]).lookup e = .ok ((Equivalence.mk [table]).direct e) :=
  (lookup_eq_ok_iff (tables accepted)).mpr (.direct simple.plain)

theorem leaf_iff {e : Expression} (simple : IsSimple e) :
    (Equivalence.mk [table]).lookup e = .ok [] ↔ ∀ d, ¬ Stands registry document e d := by
  rw [lookup_of_simple accepted simple, Except.ok.injEq, List.eq_nil_iff_forall_not_mem]
  simp only [mem_direct accepted]

theorem reaches_iff {e c : Expression} (simple : IsSimple e) :
    Reaches (Equivalence.mk [table]).lookup e c ↔
      Relation.TransGen (Stands registry document) e c := by
  constructor
  · intro reached
    induction reached with
    | step found member =>
      rw [lookup_of_simple accepted simple] at found
      cases found
      exact .single ((mem_direct accepted).mp member)
    | tail _ found member ih =>
      obtain ⟨_, _, last⟩ := Relation.TransGen.tail'_iff.mp ih
      rw [lookup_of_simple accepted last.simple] at found
      cases found
      exact ih.tail ((mem_direct accepted).mp member)
  · intro reached
    induction reached with
    | single first => exact .step (lookup_of_simple accepted simple) ((mem_direct accepted).mpr first)
    | tail before last ih =>
      obtain ⟨_, _, first⟩ := Relation.TransGen.tail'_iff.mp before
      exact .tail ih (lookup_of_simple accepted first.simple) ((mem_direct accepted).mpr last)

/-- The ends of a license with later versions are the versions that it means. -/
theorem end_iff (known : registry.hasLicense id = true) {t : Expression} :
    Reaches (Equivalence.mk [table]).lookup (.orLater (.standard id)) t ∧
        (Equivalence.mk [table]).lookup t = .ok [] ↔
      ∃ version, Meant document id version ∧ t = .just (.standard version) := by
  obtain ⟨-, sound⟩ := versionTable_eq_extend accepted
  rw [reaches_iff accepted ⟨_, rfl⟩]
  constructor
  · rintro ⟨reached, leaf⟩
    obtain ⟨version, leads, rfl | rfl⟩ := leads_of_stands reached.to_reflTransGen
    · have none := (leaf_iff accepted ⟨_, rfl⟩).mp leaf
      exact absurd (.itself (stands_of_leads sound known leads).1) (none _)
    · refine ⟨version, ⟨leads, fun listed => ?_⟩, rfl⟩
      have none := (leaf_iff accepted ⟨_, rfl⟩).mp leaf
      obtain ⟨stem, same, -⟩ := sound.orLaterIds version listed
      exact none _ (stands_just_iff.mpr ⟨stem, same, listed, rfl⟩)
  · rintro ⟨version, ⟨leads, unlisted⟩, rfl⟩
    obtain ⟨known', reached⟩ := stands_of_leads sound known leads
    refine ⟨.tail' reached (.itself known'), (leaf_iff accepted ⟨_, rfl⟩).mpr fun d stands => ?_⟩
    obtain ⟨_, -, listed, -⟩ := stands_just_iff.mp stands
    exact unlisted listed

theorem exists_expanded {e : Expression} (canonical : e.Canonical) :
    ∃ expanded, Expands ⟨[table]⟩ e (.ok expanded) ∧
      (Equivalence.mk [table]).expand e = .ok expanded := by
  obtain ⟨expanded, run⟩ := exists_expands_of_simple_values (simple_values accepted) canonical
  exact ⟨expanded, run, ((expands_iff (tables accepted) canonical _).mp run).1⟩

/-- There are finitely many versions that a license means. -/
theorem exists_versions (known : registry.hasLicense id = true) :
    ∃ versions : List String, ∀ version, version ∈ versions ↔ Meant document id version := by
  have canonical : (Expression.orLater (.standard id)).Canonical := IsSimple.canonical ⟨_, rfl⟩
  obtain ⟨expanded, -, ended⟩ := exists_expanded accepted canonical
  obtain ⟨terminals, -, -, ends⟩ := exists_ends_of_expand (tables accepted) canonical ended
  have names : terminals ∈ Set.range (List.map fun v => Expression.just (.standard v)) := by
    rw [Set.range_list_map]
    intro t member
    obtain ⟨version, -, rfl⟩ := (end_iff accepted known).mp ((ends t).mp member)
    exact ⟨version, rfl⟩
  obtain ⟨versions, rfl⟩ := names
  refine ⟨versions, fun version => ?_⟩
  simpa using (ends (.just (.standard version))).trans (end_iff accepted known)

/-- A license with later versions expands to the choice between the versions that it means. -/
theorem expand_of_meant (known : registry.hasLicense id = true) {versions : List String}
    (meant : ∀ version, version ∈ versions ↔ Meant document id version) :
    ∃ expanded, Expression.combine? .or (versions.map fun v => .just (.standard v)) = some expanded ∧
      (Equivalence.mk [table]).expand (.orLater (.standard id)) = .ok expanded := by
  obtain ⟨-, sound⟩ := versionTable_eq_extend accepted
  have canonical : (Expression.orLater (.standard id)).Canonical := IsSimple.canonical ⟨_, rfl⟩
  obtain ⟨expanded, -, ended⟩ := exists_expanded accepted canonical
  obtain ⟨version, found⟩ := exists_meant sound id
  obtain ⟨reached, leaf⟩ := (end_iff accepted known).mpr ⟨version, found, rfl⟩
  obtain ⟨terminals, joined, ends⟩ :=
    exists_choice_of_end (tables accepted) canonical ended reached leaf
  have members (t : Expression) :
      t ∈ versions.map (fun v => Expression.just (.standard v)) ↔ t ∈ terminals := by
    rw [ends, end_iff accepted known, List.mem_map]
    simp only [meant, eq_comm]
  exact ⟨expanded, (Expression.combine?_congr members).trans joined, ended⟩

/-- An identifier that includes all later versions stands for the other one with later versions. -/
theorem expand_listed {stem : String} (listed : stem ++ orLaterEnding ∈ orLaterIds document) :
    (Equivalence.mk [table]).expand (.just (.standard (stem ++ orLaterEnding))) =
      (Equivalence.mk [table]).expand (.orLater (.standard (stem ++ "-only"))) := by
  obtain ⟨-, sound⟩ := versionTable_eq_extend accepted
  have known := (Leads.only listed).known sound
  have left : (Expression.just (.standard (stem ++ orLaterEnding))).Canonical :=
    IsSimple.canonical ⟨_, rfl⟩
  have right : (Expression.orLater (.standard (stem ++ "-only"))).Canonical :=
    IsSimple.canonical ⟨_, rfl⟩
  obtain ⟨x, -, ended⟩ := exists_expanded accepted left
  obtain ⟨y, -, ended'⟩ := exists_expanded accepted right
  have below (t : Expression) :
      Relation.TransGen (Stands registry document) (.just (.standard (stem ++ orLaterEnding))) t ↔
        ReflTransGen (Stands registry document) (.orLater (.standard (stem ++ "-only"))) t := by
    rw [Relation.TransGen.head'_iff]
    constructor
    · rintro ⟨next, first, rest⟩
      obtain ⟨stem', same, -, rfl⟩ := stands_just_iff.mp first
      exact ending_cancel same ▸ rest
    · intro rest
      exact ⟨_, .only listed, rest⟩
  obtain ⟨version, meant⟩ := exists_meant sound (stem ++ "-only")
  obtain ⟨reached, leaf⟩ := (end_iff accepted known).mpr ⟨version, meant, rfl⟩
  rw [ended, ended']
  refine congrArg _ (expand_eq_of_ends (tables accepted) right left ended' ended ?_ reached leaf).symm
  intro t leaf
  rw [reaches_iff accepted ⟨_, rfl⟩, reaches_iff accepted ⟨_, rfl⟩, below]
  refine ⟨Relation.TransGen.to_reflTransGen, fun rest => ?_⟩
  obtain rfl | reached := Relation.reflTransGen_iff_eq_or_transGen.mp rest
  · -- With later versions, a registered license is no end.
    exact absurd (.itself known) ((leaf_iff accepted ⟨_, rfl⟩).mp leaf _)
  · exact reached

end Table

/-! ## Families of their own -/

/-- A family of different versions that occur in no other family and include no later versions. -/
structure Isolated (document : Source) (family : List String) : Prop where
  apart : ∃ before after, families document = before ++ family :: after ∧
    ∀ other ∈ before ++ after, ∀ id ∈ family, id ∉ other
  nodup : family.Nodup
  unlisted : ∀ id ∈ family, id ∉ orLaterIds document

theorem Isolated.eq_of_mem {family other : List String} (isolated : Isolated document family)
    (member : other ∈ families document) (inside : id ∈ family) (inside' : id ∈ other) :
    other = family := by
  obtain ⟨before, after, split, apart⟩ := isolated.apart
  rw [split, List.mem_append, List.mem_cons] at member
  by_contra different
  have elsewhere : other ∈ before ++ after := by
    rw [List.mem_append]
    exact member.imp_right fun later => later.resolve_left different
  exact apart other elsewhere id inside inside'

/-- What comes behind a member of the rest of a list without repetition belongs to the rest. -/
theorem next_mem_of_infix {before rest : List String} {next : String}
    (nodup : (before ++ rest).Nodup) (inside : id ∈ rest)
    (behind : [id, next] <:+: before ++ rest) : next ∈ rest := by
  obtain ⟨front, back, rfl⟩ := List.append_of_mem inside
  obtain ⟨start, tail, same⟩ := behind
  have split : start ++ id :: next :: tail = before ++ front ++ id :: back := by
    simpa using same
  rw [← List.append_assoc, ← split] at nodup
  have once : id ∉ start ++ next :: tail := (List.nodup_cons.mp (List.nodup_middle.mp nodup)).1
  rw [List.mem_append, not_or] at once
  obtain ⟨-, -, rfl⟩ := (List.append_cons_inj_of_notMem once.1 once.2).mp split
  simp

theorem meant_iff_of_isolated {before after : List String}
    (isolated : Isolated document (before ++ id :: after)) :
    Meant document id version ↔ version ∈ id :: after := by
  constructor
  · rintro ⟨leads, -⟩
    induction leads with
    | refl => exact List.mem_cons_self
    | @tail version next _ step inside =>
      have member : version ∈ before ++ id :: after := List.mem_append_right _ inside
      cases step with
      | newer inFamilies behind =>
        obtain rfl := isolated.eq_of_mem inFamilies member (behind.subset (by simp))
        exact next_mem_of_infix isolated.nodup inside behind
      | only listed => exact absurd listed (isolated.unlisted _ member)
  · intro inside
    refine ⟨?_, isolated.unlisted _ (List.mem_append_right _ inside)⟩
    obtain ⟨first, last, split, -⟩ := isolated.apart
    have inFamilies : before ++ id :: after ∈ families document := by simp [split]
    clear isolated split
    induction after generalizing before id with
    | nil =>
      obtain rfl := List.mem_singleton.mp inside
      exact .refl
    | cons newer after ih =>
      cases List.mem_cons.mp inside with
      | inl same => exact same ▸ .refl
      | inr later =>
        have step : Leads document id newer := .newer inFamilies ⟨before, after, by simp⟩
        exact .head step (@ih newer (before ++ [id]) later (by simpa using inFamilies))

/-! ## The meaning of version ranges -/

theorem expand_version_ranges (accepted : versionTable registry document = .ok table) :
    (∀ e : Expression, e.Canonical → ∃ expanded, Expands ⟨[table]⟩ e (.ok expanded) ∧
      (Equivalence.mk [table]).expand e = .ok expanded) ∧
    (∀ id, registry.hasLicense id = true → ∃ versions expanded, versions ≠ [] ∧
      (∀ version, version ∈ versions ↔ Meant document id version) ∧
      Expression.combine? .or (versions.map fun v => .just (.standard v)) = some expanded ∧
      (Equivalence.mk [table]).expand (.orLater (.standard id)) = .ok expanded) ∧
    (∀ stem, stem ++ orLaterEnding ∈ orLaterIds document →
      (Equivalence.mk [table]).expand (.just (.standard (stem ++ orLaterEnding))) =
        (Equivalence.mk [table]).expand (.orLater (.standard (stem ++ "-only")))) ∧
    ∀ before id after, Isolated document (before ++ id :: after) →
      (Equivalence.mk [table]).expand (.orLater (.standard id)) =
        .ok (Expression.combine .or (.just (.standard id))
          (after.map fun v => .just (.standard v))) := by
  obtain ⟨-, sound⟩ := versionTable_eq_extend accepted
  refine ⟨fun e => exists_expanded accepted, ?_, fun stem => expand_listed accepted, ?_⟩
  · intro id known
    obtain ⟨versions, meant⟩ := exists_versions accepted known
    obtain ⟨expanded, joined, ended⟩ := expand_of_meant accepted known meant
    obtain ⟨version, found⟩ := exists_meant sound id
    exact ⟨versions, expanded, List.ne_nil_of_mem ((meant version).mpr found), meant, joined, ended⟩
  · intro before id after isolated
    obtain ⟨first, last, split, -⟩ := isolated.apart
    have inFamilies : before ++ id :: after ∈ families document := by simp [split]
    have known := sound.families _ inFamilies id (by simp)
    have meant (version : String) : version ∈ id :: after ↔ Meant document id version :=
      (meant_iff_of_isolated isolated).symm
    obtain ⟨expanded, joined, ended⟩ := expand_of_meant accepted known meant
    rw [List.map_cons] at joined
    simp [ended, Expression.combine, joined]

/-- Two families overlap and form a cycle, and one is on its own. -/
theorem expand_version_ranges_beside_cycle :
    let registry : Registry :=
      ⟨["X-1", "X-2", "Y-1-only", "Y-1-or-later", "Y-2-only"].map fun id => { id := id }, []⟩
    let family (versions : List String) : Datum :=
      .table [("versions", .list (versions.map .text))]
    let document : Source := .bundled "versions.toml"
      [("or_later", .list [.text "Y-1-or-later"]),
        ("family", .list [family ["Y-1-only", "Y-2-only"], family ["Y-2-only", "Y-1-only"],
          family ["X-1", "X-2"]])]
    let x : Expression := .just (.standard "X-1")
    ∃ table, versionTable registry document = .ok table ∧
      (Equivalence.mk [table]).expand (.orLater (.standard "X-1")) =
        .ok (x.or (.just (.standard "X-2"))) ∧
      (Equivalence.mk [table]).expand (.just (.standard "Y-1-or-later")) =
        (Equivalence.mk [table]).expand (.orLater (.standard "Y-1-only")) := by
  intro registry family document x
  obtain ⟨table, accepted⟩ : ∃ table, versionTable registry document = .ok table := ⟨_, rfl⟩
  obtain ⟨-, -, listed, isolated⟩ := expand_version_ranges accepted
  have own : Isolated document ([] ++ "X-1" :: ["X-2"]) := by
    refine ⟨⟨[["Y-1-only", "Y-2-only"], ["Y-2-only", "Y-1-only"]], [], rfl, ?_⟩, ?_, ?_⟩
    all_goals decide
  exact ⟨table, accepted, isolated [] "X-1" ["X-2"] own, listed "Y-1" (by decide)⟩

end VersionTable

end Licensing
