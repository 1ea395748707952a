import Mathlib.Data.List.Nodup

/-! # Look-ups in lists without repeated keys

A look-up finds the first entry with a key.  If no key comes up twice, that is any entry with it, so the
order of the entries makes no difference.
-/

namespace Licensing

variable {α β : Type} [DecidableEq α] {key first : α} {value : β} {entries entries' : List (α × β)}

theorem lookup_cons_eq_if (key first : α) (value : β) (rest : List (α × β)) :
    List.lookup key ((first, value) :: rest) = if key = first then some value else rest.lookup key := by
  by_cases here : key = first
  · simp [here]
  · have other : (key == first) = false := by simpa using here
    simp [List.lookup_cons, here, other]

theorem mem_iff_lookup (nodup : (entries.map Prod.fst).Nodup) :
    (key, value) ∈ entries ↔ entries.lookup key = some value := by
  induction entries with
  | nil => simp
  | cons entry rest ih =>
    obtain ⟨first, kept⟩ := entry
    obtain ⟨fresh, unique⟩ := List.nodup_cons.mp nodup
    rw [lookup_cons_eq_if, List.mem_cons, Prod.mk.injEq, ih unique]
    by_cases here : key = first
    · subst here
      -- A second entry with this key would repeat it.
      have missing : rest.lookup key ≠ some value := fun found =>
        fresh (List.mem_map.mpr ⟨(key, value), (ih unique).mpr found, rfl⟩)
      simp [missing, eq_comm]
    · simp [here]

theorem lookup_eq_of_perm (perm : entries.Perm entries') (nodup : (entries.map Prod.fst).Nodup) (key : α) :
    entries.lookup key = entries'.lookup key := by
  refine Option.ext fun value => ?_
  have nodup' : (entries'.map Prod.fst).Nodup := (perm.map Prod.fst).nodup_iff.mp nodup
  rw [← mem_iff_lookup nodup, ← mem_iff_lookup nodup', perm.mem_iff]

end Licensing
