import Mathlib.Data.List.Nodup
import Mathlib.Data.List.Forall2
import Mathlib.Data.List.Perm.Subperm
import Mathlib.Logic.Function.Basic

/-!
Entries that are written under their keys, some of them at the same time. A later entry
replaces an earlier one of the same key.
-/
namespace Library.Writing

variable {κ β : Type} [DecidableEq κ]

def writeEntry (files : κ → Option β) (entry : κ × β) : κ → Option β :=
  Function.update files entry.1 (some entry.2)

def writeAll (files : κ → Option β) (entries : List (κ × β)) : κ → Option β :=
  entries.foldl writeEntry files

/-- The entries are written in some order. -/
def WrittenTogether (entries : List (κ × β)) (before after : κ → Option β) : Prop :=
  ∃ order, order.Perm entries ∧ after = writeAll before order

/-- Groups of entries are written one after the other, those of each in some order. -/
inductive WrittenInTurn : List (List (κ × β)) → (κ → Option β) → (κ → Option β) → Prop
  | nil (files : κ → Option β) : WrittenInTurn [] files files
  | cons {group : List (κ × β)} {groups : List (List (κ × β))} {before between after : κ → Option β}
      (hgroup : WrittenTogether group before between)
      (hgroups : WrittenInTurn groups between after) :
      WrittenInTurn (group :: groups) before after

/-- Each content has a file of its own. -/
def OneFileEach (files : κ → Option β) (contents : List β) : Prop :=
  ∃ keys : List κ, keys.Nodup ∧
    List.Forall₂ (fun key content => files key = some content) keys contents

theorem writeAll_of_not_mem {entries : List (κ × β)} {key : κ} (files : κ → Option β)
    (h : key ∉ entries.map Prod.fst) : writeAll files entries key = files key := by
  induction entries generalizing files with
  | nil => rfl
  | cons entry rest ih =>
    rw [List.map_cons, List.mem_cons, not_or] at h
    calc writeAll files (entry :: rest) key
        = writeAll (writeEntry files entry) rest key := rfl
      _ = writeEntry files entry key := ih _ h.2
      _ = files key := Function.update_of_ne h.1 _ _

/-- Where the keys are distinct, every entry is found. -/
theorem writeAll_of_mem {entries : List (κ × β)} {entry : κ × β} (files : κ → Option β)
    (hkeys : (entries.map Prod.fst).Nodup) (hentry : entry ∈ entries) :
    writeAll files entries entry.1 = some entry.2 := by
  induction entries generalizing files with
  | nil => cases hentry
  | cons first rest ih =>
    rw [List.map_cons, List.nodup_cons] at hkeys
    rcases List.mem_cons.mp hentry with rfl | hrest
    · calc writeAll files (entry :: rest) entry.1
          = writeAll (writeEntry files entry) rest entry.1 := rfl
        _ = writeEntry files entry entry.1 := writeAll_of_not_mem _ hkeys.1
        _ = some entry.2 := Function.update_self _ _ _
    · exact ih (writeEntry files first) hkeys.2 hrest

/-- Groups that are written in turn are written in some order. -/
theorem WrittenInTurn.together {groups : List (List (κ × β))} {before after : κ → Option β}
    (h : WrittenInTurn groups before after) : WrittenTogether groups.flatten before after := by
  induction h with
  | nil files => exact ⟨[], .nil, rfl⟩
  | cons hgroup _ ih =>
    obtain ⟨order, hperm, rfl⟩ := hgroup
    obtain ⟨order', hperm', rfl⟩ := ih
    refine ⟨order ++ order', hperm.append hperm', ?_⟩
    rw [writeAll, writeAll, writeAll, List.foldl_append]

theorem writtenInTurn_writeAll (groups : List (List (κ × β))) (files : κ → Option β) :
    WrittenInTurn groups files (writeAll files groups.flatten) := by
  induction groups generalizing files with
  | nil => exact .nil files
  | cons group rest ih =>
    have hfold : writeAll files (group :: rest).flatten =
        writeAll (writeAll files group) rest.flatten := by
      rw [List.flatten_cons, writeAll, List.foldl_append]
      rfl
    rw [hfold]
    exact .cons ⟨group, .refl _, rfl⟩ (ih _)

/-- A file of an empty store was written. -/
theorem mem_of_writeAll {entries : List (κ × β)} {key : κ} {content : β}
    (h : writeAll (fun _ => none) entries key = some content) : key ∈ entries.map Prod.fst := by
  by_contra hkey
  rw [writeAll_of_not_mem _ hkey] at h
  cases h

/-- Every content has its own file, whatever was there and in whichever order they are
written, exactly when the keys are distinct. -/
theorem oneFileEach_iff (groups : List (List (κ × β))) :
    (∀ before after, WrittenInTurn groups before after →
      OneFileEach after (groups.flatten.map Prod.snd)) ↔ (groups.flatten.map Prod.fst).Nodup := by
  constructor
  · intro h
    obtain ⟨keys, hnodup, hfiles⟩ := h _ _ (writtenInTurn_writeAll groups fun _ => none)
    obtain ⟨hcount, hfile⟩ := List.forall₂_iff_get.mp hfiles
    -- there are as many keys with a file as entries, and every file is one of the entries'
    have hsubset : keys ⊆ groups.flatten.map Prod.fst := by
      intro key hkey
      obtain ⟨i, hi, rfl⟩ := List.mem_iff_getElem.mp hkey
      exact mem_of_writeAll (hfile i hi (hcount ▸ hi))
    have hlength : (groups.flatten.map Prod.fst).length = keys.length := by
      rw [hcount, List.length_map, List.length_map]
    have hperm := (hnodup.subperm hsubset).perm_of_length_le (Nat.le_of_eq hlength)
    exact hperm.nodup_iff.mp hnodup
  · intro hkeys before after hrun
    obtain ⟨order, hperm, rfl⟩ := hrun.together
    refine ⟨groups.flatten.map Prod.fst, hkeys, ?_⟩
    rw [List.forall₂_map_left_iff, List.forall₂_map_right_iff, List.forall₂_same]
    intro entry hentry
    exact writeAll_of_mem before ((hperm.map Prod.fst).nodup_iff.mpr hkeys)
      (hperm.mem_iff.mpr hentry)

end Library.Writing
