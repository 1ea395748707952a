import Licensing.Equivalence.Versions
import Licensing.Proofs.Outcome

/-! # The table of version ranges

A table is determined by what has been added to it, whatever the order of the additions was.  So a
document that is accepted makes a table with three kinds of entries:

* `Stands` — what the entries say, in terms of the families and identifiers of the document.
* `Accepted` — the identifiers that an accepted document may name.
* `mem_find_versionTable`, `mem_values_versionTable` — the entries of the table.
-/

namespace Licensing

open Licensing.Document

namespace EquivalenceTable

variable {table : EquivalenceTable} {key other d : Expression} {added : List Expression}

theorem mem_find_add :
    d ∈ (table.add key added).find other ↔ d ∈ table.find other ∨ other = key ∧ d ∈ added := by
  rw [add, find_change]
  split
  next same => simp [same]
  next different => simp [different]

theorem mem_values_add : d ∈ (table.add key added).values ↔ d ∈ table.values ∨ d ∈ added := by
  induction table with
  | nil => simp [add, change, values]
  | cons entry rest ih =>
    obtain ⟨k, found⟩ := entry
    simp only [add, change, values] at ih ⊢
    split
    · simp only [List.flatMap_cons, List.mem_append]
      exact or_right_comm
    · simp only [List.flatMap_cons, List.mem_append, ih]
      exact or_assoc.symm

theorem key_of_mem_add {entry : Expression × List Expression} (member : entry ∈ table.add key added) :
    entry.1 = key ∨ entry ∈ table := by
  induction table with
  | nil => simp_all [add, change]
  | cons first rest ih =>
    obtain ⟨k, found⟩ := first
    simp only [add, change] at ih member
    split at member
    next same =>
      cases List.mem_cons.mp member with
      | inl here => exact .inl (by rw [here, same])
      | inr later => exact .inr (.tail _ later)
    next =>
      cases List.mem_cons.mp member with
      | inl here => exact .inr (here ▸ List.mem_cons_self)
      | inr later => exact (ih later).imp_right (.tail _)

/-- Adds entries one after the other. -/
def extend (table : EquivalenceTable) (additions : List (Expression × List Expression)) :
    EquivalenceTable :=
  additions.foldl (fun table addition => table.add addition.1 addition.2) table

variable {additions : List (Expression × List Expression)}

theorem mem_find_extend :
    d ∈ (table.extend additions).find key ↔
      d ∈ table.find key ∨ ∃ added, (key, added) ∈ additions ∧ d ∈ added := by
  induction additions generalizing table with
  | nil => simp [extend]
  | cons addition additions ih =>
    obtain ⟨k, first⟩ := addition
    rw [extend, List.foldl_cons, ← extend, ih, mem_find_add, or_assoc]
    apply or_congr_right
    constructor
    · rintro (⟨rfl, member⟩ | ⟨added, later, member⟩)
      · exact ⟨first, by simp, member⟩
      · exact ⟨added, .tail _ later, member⟩
    · rintro ⟨added, here | later, member⟩
      · exact .inl ⟨rfl, member⟩
      · exact .inr ⟨added, by assumption, member⟩

theorem key_of_mem_extend {entry : Expression × List Expression} (member : entry ∈ table.extend additions) :
    entry.1 ∈ additions.map Prod.fst ∨ entry ∈ table := by
  induction additions generalizing table with
  | nil => exact .inr member
  | cons addition additions ih =>
    rw [extend, List.foldl_cons, ← extend] at member
    obtain later | before := ih member
    · exact .inl (.tail _ later)
    · obtain same | before := key_of_mem_add before
      · exact .inl (by simp [same])
      · exact .inr before

theorem mem_values_extend :
    d ∈ (table.extend additions).values ↔
      d ∈ table.values ∨ ∃ key added, (key, added) ∈ additions ∧ d ∈ added := by
  induction additions generalizing table with
  | nil => simp [extend]
  | cons addition additions ih =>
    obtain ⟨k, first⟩ := addition
    rw [extend, List.foldl_cons, ← extend, ih, mem_values_add, or_assoc]
    apply or_congr_right
    constructor
    · rintro (member | ⟨key, added, later, member⟩)
      · exact ⟨k, first, by simp, member⟩
      · exact ⟨key, added, .tail _ later, member⟩
    · rintro ⟨key, added, here | later, member⟩
      · exact .inl member
      · exact .inr ⟨key, added, by assumption, member⟩

end EquivalenceTable

namespace VersionTable

/-! ## What a document lists -/

/-- The items of the list under a key. -/
def itemsUnder (document : Source) (key : String) : List Datum :=
  ((document.table.bind (·.get? key)).bind Datum.asList?).getD []

/-- The families of a document, each with its versions. -/
def families (document : Source) : List (List String) :=
  (itemsUnder document "family").filterMap versionsOf?

/-- The identifiers that a document lists as including all later versions. -/
def orLaterIds (document : Source) : List String :=
  (itemsUnder document "or_later").filterMap Datum.asText?

/-- What the entries of the table say: `key` also stands for `value`. -/
inductive Stands (registry : Registry) (document : Source) : Expression → Expression → Prop
  | itself {id : String} (known : registry.hasLicense id = true) :
      Stands registry document (.orLater (.standard id)) (.just (.standard id))
  | newer {family : List String} {id next : String} (member : family ∈ families document)
      (behind : [id, next] <:+: family) :
      Stands registry document (.orLater (.standard id)) (.orLater (.standard next))
  | only {stem : String} (listed : stem ++ orLaterEnding ∈ orLaterIds document) :
      Stands registry document (.just (.standard (stem ++ orLaterEnding)))
        (.orLater (.standard (stem ++ "-only")))

/-- What an accepted document names is registered, and its identifiers have the ending. -/
structure Accepted (registry : Registry) (document : Source) : Prop where
  families : ∀ family ∈ families document, ∀ id ∈ family, registry.hasLicense id = true
  orLaterIds : ∀ id ∈ orLaterIds document, ∃ stem, id = stem ++ orLaterEnding ∧
    registry.hasLicense id = true ∧ registry.hasLicense (stem ++ "-only") = true

/-! ## The additions -/

variable {registry : Registry} {document : Source} {table : EquivalenceTable} {key d : Expression}

def baseAdditions (registry : Registry) : List (Expression × List Expression) :=
  registry.licenses.map fun entry => (.orLater (.standard entry.id), [.just (.standard entry.id)])

def familyAdditions : List String → List (Expression × List Expression)
  | [] => []
  | [last] => [(.orLater (.standard last), [.just (.standard last)])]
  | current :: newer :: rest =>
    (.orLater (.standard current), [.just (.standard current), .orLater (.standard newer)]) ::
      familyAdditions (newer :: rest)

theorem base_eq_extend (registry : Registry) :
    base registry = EquivalenceTable.extend [] (baseAdditions registry) := by
  rw [base, EquivalenceTable.extend, baseAdditions, List.foldl_map]

theorem addFamily_eq_extend (table : EquivalenceTable) (versions : List String) :
    addFamily table versions = table.extend (familyAdditions versions) := by
  fun_induction addFamily table versions with
  | case1 => rfl
  | case2 => rfl
  | case3 table current newer rest ih => exact ih

theorem pair_infix_cons {id next current newer : String} {rest : List String} :
    [id, next] <:+: current :: newer :: rest ↔
      id = current ∧ next = newer ∨ [id, next] <:+: newer :: rest := by
  rw [List.infix_cons_iff]
  simp

/-- A family adds each of its versions, and the next one where there is one. -/
theorem mem_familyAdditions {versions : List String} :
    (∃ added, (key, added) ∈ familyAdditions versions ∧ d ∈ added) ↔
      (∃ id ∈ versions, key = .orLater (.standard id) ∧ d = .just (.standard id)) ∨
      ∃ id next, [id, next] <:+: versions ∧
        key = .orLater (.standard id) ∧ d = .orLater (.standard next) := by
  fun_induction familyAdditions versions with
  | case1 => simp
  | case2 last =>
    have short (id next : String) : ¬ [id, next] <:+: [last] := by
      intro inside
      simpa using inside.length_le
    simp only [List.mem_singleton, Prod.mk.injEq, short, false_and, exists_false, or_false,
      exists_eq_left]
    constructor
    · rintro ⟨added, ⟨rfl, rfl⟩, member⟩
      exact ⟨rfl, by simpa using member⟩
    · rintro ⟨rfl, rfl⟩
      exact ⟨_, ⟨rfl, rfl⟩, by simp⟩
  | case3 current newer rest ih =>
    simp only [List.mem_cons, Prod.mk.injEq, pair_infix_cons] at ih ⊢
    constructor
    · rintro ⟨added, ⟨rfl, rfl⟩ | later, member⟩
      · simp only [List.mem_cons, List.not_mem_nil, or_false] at member
        obtain rfl | rfl := member
        · exact .inl ⟨current, .inl rfl, rfl, rfl⟩
        · exact .inr ⟨current, newer, .inl ⟨rfl, rfl⟩, rfl, rfl⟩
      · obtain ⟨id, inRest, same⟩ | ⟨id, next, behind, same⟩ := ih.mp ⟨added, later, member⟩
        · exact .inl ⟨id, .inr inRest, same⟩
        · exact .inr ⟨id, next, .inr behind, same⟩
    · rintro (⟨id, rfl | inRest, rfl, rfl⟩ | ⟨id, next, ⟨rfl, rfl⟩ | behind, rfl, rfl⟩)
      · exact ⟨_, .inl ⟨rfl, rfl⟩, by simp⟩
      · obtain ⟨added, later, member⟩ := ih.mpr (.inl ⟨id, inRest, rfl, rfl⟩)
        exact ⟨added, .inr later, member⟩
      · exact ⟨_, .inl ⟨rfl, rfl⟩, by simp⟩
      · obtain ⟨added, later, member⟩ := ih.mpr (.inr ⟨id, next, behind, rfl, rfl⟩)
        exact ⟨added, .inr later, member⟩

theorem addFamilies_eq_extend {file : String} {index : Nat} {items : List Datum}
    (sound : (addFamilies registry file index table items).2 = []) :
    (addFamilies registry file index table items).1 =
        table.extend ((items.filterMap versionsOf?).flatMap familyAdditions) ∧
      ∀ family ∈ items.filterMap versionsOf?, ∀ id ∈ family, registry.hasLicense id = true := by
  induction items generalizing index table with
  | nil => simp [addFamilies, EquivalenceTable.extend]
  | cons item items ih =>
    unfold addFamilies at sound ⊢
    cases found : versionsOf? item with
    | none => simp [found] at sound
    | some versions =>
      by_cases known : (versions.filter (!registry.hasLicense ·)).isEmpty = true
      · simp only [found, known, if_true] at sound ⊢
        obtain ⟨same, others⟩ := ih sound
        have inside : ∀ id ∈ versions, registry.hasLicense id = true := by
          simpa [List.filter_eq_nil_iff] using known
        rw [List.filterMap_cons_some found, List.flatMap_cons, same, addFamily_eq_extend]
        refine ⟨(List.foldl_append ..).symm, ?_⟩
        intro family member
        cases List.mem_cons.mp member with
        | inl here => exact here ▸ inside
        | inr later => exact others family later
      · simp [found, known] at sound

theorem stem?_eq_some {id stem : String} : stem? id = some stem ↔ id = stem ++ orLaterEnding := by
  simp only [stem?, List.isSuffixOf_iff_suffix]
  constructor
  · intro found
    split at found
    next ends =>
      obtain ⟨start, split⟩ := ends
      rw [← split] at found
      obtain rfl : String.ofList start = stem := by simpa using found
      apply String.toList_inj.mp
      simp [← split]
    next => cases found
  · rintro rfl
    simp

def orLaterAdditions (ids : List String) : List (Expression × List Expression) :=
  (ids.filterMap stem?).map fun stem =>
    (.just (.standard (stem ++ orLaterEnding)), [.orLater (.standard (stem ++ "-only"))])

theorem addOrLater_eq_extend {file : String} {items : List Datum}
    (sound : (addOrLater registry file table items).2 = []) :
    (addOrLater registry file table items).1 =
        table.extend (orLaterAdditions (items.filterMap Datum.asText?)) ∧
      ∀ id ∈ items.filterMap Datum.asText?, ∃ stem, id = stem ++ orLaterEnding ∧
        registry.hasLicense id = true ∧ registry.hasLicense (stem ++ "-only") = true := by
  induction items generalizing table with
  | nil => simp [addOrLater, orLaterAdditions, EquivalenceTable.extend]
  | cons item items ih =>
    unfold addOrLater at sound ⊢
    cases text : item.asText? with
    | none => simp [text] at sound
    | some id =>
      cases ends : stem? id with
      | none => simp [text, ends] at sound
      | some stem =>
        by_cases known : (registry.hasLicense id && registry.hasLicense (stem ++ "-only")) = true
        · simp only [text, Option.bind_some, ends, known, if_true] at sound ⊢
          obtain ⟨same, others⟩ := ih sound
          obtain rfl := stem?_eq_some.mp ends
          rw [List.filterMap_cons_some text, same]
          refine ⟨by simp [orLaterAdditions, ends, EquivalenceTable.extend], ?_⟩
          intro id member
          cases List.mem_cons.mp member with
          | inl here => exact ⟨stem, here, by simpa [here] using known⟩
          | inr later => exact others id later
        · simp [text, ends, known] at sound

theorem hasLicense_iff {id : String} :
    registry.hasLicense id = true ↔ ∃ entry ∈ registry.licenses, entry.id = id := by
  simp [Registry.hasLicense, Registry.findLicense?, Listed.find?, List.find?_isSome]

theorem listOr_eq_ok {document : Source} {data : Table} {key : String} {items : List Datum}
    {defect : DataDefect} (read : Registry.tableOf document = .ok data)
    (found : listOr defect data key = .ok items) : itemsUnder document key = items := by
  unfold Registry.tableOf at read
  unfold listOr at found
  split at read
  next here =>
    cases read
    split at found
    next list =>
      cases found
      cases entry : data.get? key with
      | none =>
        obtain rfl : items = [] := by simpa [entry, Datum.asList?, eq_comm] using list
        simp [itemsUnder, here, entry]
      | some value => simpa [itemsUnder, here, entry] using congrArg (·.getD []) list
    next => cases found
  next => cases read

def additions (registry : Registry) (document : Source) : List (Expression × List Expression) :=
  baseAdditions registry ++ (families document).flatMap familyAdditions ++
    orLaterAdditions (orLaterIds document)

theorem versionTable_eq_extend (accepted : versionTable registry document = .ok table) :
    table = EquivalenceTable.extend [] (additions registry document) ∧
      Accepted registry document := by
  obtain ⟨data, read, accepted⟩ := Outcome.bind_eq_ok.mp accepted
  obtain ⟨familyItems, listed, accepted⟩ := Outcome.bind_eq_ok.mp accepted
  obtain ⟨orLaterItems, listed', accepted⟩ := Outcome.bind_eq_ok.mp accepted
  obtain rfl := listOr_eq_ok read listed
  obtain rfl := listOr_eq_ok read listed'
  dsimp only at accepted
  split at accepted
  next => cases accepted
  next noDefect =>
    cases accepted
    simp only [Bool.not_eq_true', Bool.not_eq_false, List.isEmpty_iff,
      List.append_eq_nil_iff] at noDefect
    obtain ⟨same, known⟩ := addFamilies_eq_extend noDefect.1
    obtain ⟨same', known'⟩ := addOrLater_eq_extend noDefect.2
    refine ⟨?_, known, known'⟩
    rw [same', same, base_eq_extend]
    simp only [additions, EquivalenceTable.extend, List.foldl_append, families, orLaterIds]

theorem mem_additions (sound : Accepted registry document) :
    (∃ added, (key, added) ∈ additions registry document ∧ d ∈ added) ↔
      Stands registry document key d := by
  simp only [additions, List.mem_append, List.mem_flatMap]
  constructor
  · rintro ⟨added, (base | ⟨family, inFamilies, fromFamily⟩) | fromId, member⟩
    · obtain ⟨entry, listed, same⟩ := List.mem_map.mp base
      cases same
      obtain rfl := List.mem_singleton.mp member
      exact .itself (hasLicense_iff.mpr ⟨entry, listed, rfl⟩)
    · obtain ⟨id, version, rfl, rfl⟩ | ⟨id, next, behind, rfl, rfl⟩ :=
        mem_familyAdditions.mp ⟨added, fromFamily, member⟩
      · exact .itself (sound.families family inFamilies id version)
      · exact .newer inFamilies behind
    · obtain ⟨stem, found, same⟩ := List.mem_map.mp fromId
      cases same
      obtain rfl := List.mem_singleton.mp member
      obtain ⟨id, listed, ends⟩ := List.mem_filterMap.mp found
      exact .only (stem?_eq_some.mp ends ▸ listed)
  · intro stands
    cases stands with
    | itself known =>
      obtain ⟨entry, listed, rfl⟩ := hasLicense_iff.mp known
      exact ⟨_, .inl (.inl (List.mem_map.mpr ⟨entry, listed, rfl⟩)), by simp⟩
    | @newer family id next inFamilies behind =>
      obtain ⟨added, fromFamily, member⟩ :=
        mem_familyAdditions.mpr (.inr ⟨id, next, behind, rfl, rfl⟩)
      exact ⟨added, .inl (.inr ⟨family, inFamilies, fromFamily⟩), member⟩
    | @only stem listed =>
      have found : stem ∈ (orLaterIds document).filterMap stem? :=
        List.mem_filterMap.mpr ⟨_, listed, stem?_eq_some.mpr rfl⟩
      exact ⟨_, .inr (List.mem_map.mpr ⟨stem, found, rfl⟩), by simp⟩

theorem mem_find_versionTable (accepted : versionTable registry document = .ok table) :
    d ∈ table.find key ↔ Stands registry document key d := by
  obtain ⟨rfl, sound⟩ := versionTable_eq_extend accepted
  rw [EquivalenceTable.mem_find_extend, mem_additions sound]
  simp [EquivalenceTable.find]

theorem mem_values_versionTable (accepted : versionTable registry document = .ok table) :
    d ∈ table.values ↔ ∃ key, Stands registry document key d := by
  obtain ⟨rfl, sound⟩ := versionTable_eq_extend accepted
  simp only [EquivalenceTable.mem_values_extend, mem_additions sound]
  simp [EquivalenceTable.values]

end VersionTable

end Licensing
