import Mathlib.Data.List.Nodup
import Mathlib.Data.List.Perm.Subperm

/-!
The first element of each key, and parts of a list of a given size.
-/
namespace Library.Distinct

variable {α κ : Type} [DecidableEq κ]

/-- `_.uniqBy(items, key)`: of the items with the same key only the first is kept. -/
def uniqBy (key : α → κ) : List α → List α
  | [] => []
  | item :: rest => item :: (uniqBy key rest).filter fun other => key other ≠ key item

theorem uniqBy_sublist (key : α → κ) (items : List α) : (uniqBy key items).Sublist items := by
  induction items with
  | nil => exact .slnil
  | cons item rest ih => exact (List.filter_sublist.trans ih).cons_cons item

/-- What is kept is found first for its key. -/
theorem mem_uniqBy {key : α → κ} {items : List α} {item : α} : item ∈ uniqBy key items ↔
    items.find? (fun other => key other = key item) = some item := by
  induction items with
  | nil => simp [uniqBy]
  | cons first rest ih =>
    rw [uniqBy, List.mem_cons, List.mem_filter, ih]
    by_cases hkey : key first = key item
    · simp [hkey, eq_comm]
    · have hother : item ≠ first := fun h => hkey (h ▸ rfl)
      simp [hother, hkey, Ne.symm hkey]

/-- The keys of what is kept are distinct. -/
theorem uniqBy_nodup (key : α → κ) (items : List α) : ((uniqBy key items).map key).Nodup := by
  induction items with
  | nil => exact .nil
  | cons item rest ih =>
    rw [uniqBy, List.map_cons, List.nodup_cons]
    refine ⟨?_, ih.sublist (List.filter_sublist.map key)⟩
    intro hmem
    obtain ⟨other, hother, heq⟩ := List.mem_map.mp hmem
    exact of_decide_eq_true (List.mem_filter.mp hother).2 heq

omit [DecidableEq κ] in
/-- A part of a list can be filled up to any size that the list has. -/
theorem exists_of_length {part items : List α} (h : part.Sublist items) {n : ℕ}
    (hpart : part.length ≤ n) (hn : n ≤ items.length) :
    ∃ chosen : List α, part.Sublist chosen ∧ chosen.Subperm items ∧ chosen.length = n := by
  obtain ⟨rest, hrest⟩ := h.exists_perm_append
  have hlength : items.length = part.length + rest.length := by
    rw [hrest.length_eq, List.length_append]
  refine ⟨part ++ rest.take (n - part.length), List.sublist_append_left _ _, ?_, ?_⟩
  · have htaken : (part ++ rest.take (n - part.length)).Sublist (part ++ rest) :=
      (List.Sublist.refl part).append (List.take_sublist _ rest)
    exact htaken.subperm.trans hrest.symm.subperm
  · rw [List.length_append, List.length_take]
    omega

end Library.Distinct
