import Mathlib.Data.List.Nodup

/-!
Records: objects whose fields all hold values of one type, each name once. They are filled
field by field, keyed from a list (where the last value of a name stays), merged with another
record and filtered.
-/
namespace Library.Records

section Entries

variable {α : Type}

def lookup : List (String × α) → String → Option α
  | [], _ => none
  | (name', value) :: rest, name => if name' = name then some value else lookup rest name

def insert : List (String × α) → String → α → List (String × α)
  | [], name, value => [(name, value)]
  | (name', value') :: rest, name, value =>
      if name' = name then (name', value) :: rest else (name', value') :: insert rest name value

theorem mem_names_insert {entries : List (String × α)} {name name' : String} {value : α} :
    name' ∈ (insert entries name value).map Prod.fst ↔
      name' = name ∨ name' ∈ entries.map Prod.fst := by
  induction entries with
  | nil => simp [insert]
  | cons entry rest ih =>
    by_cases h : entry.1 = name
    · rw [insert, if_pos h]
      simp [h]
    · rw [insert, if_neg h, List.map_cons, List.mem_cons, ih, List.map_cons, List.mem_cons]
      exact or_left_comm

theorem insert_nodup {entries : List (String × α)} (h : (entries.map Prod.fst).Nodup)
    (name : String) (value : α) : ((insert entries name value).map Prod.fst).Nodup := by
  induction entries with
  | nil => simp [insert]
  | cons entry rest ih =>
    rw [List.map_cons, List.nodup_cons] at h
    by_cases hname : entry.1 = name
    · rw [insert, if_pos hname, List.map_cons, List.nodup_cons]
      exact h
    · rw [insert, if_neg hname, List.map_cons, List.nodup_cons, mem_names_insert, not_or]
      exact ⟨⟨hname, h.1⟩, ih h.2⟩

theorem lookup_insert (entries : List (String × α)) (name name' : String) (value : α) :
    lookup (insert entries name value) name' =
      if name = name' then some value else lookup entries name' := by
  induction entries with
  | nil => rfl
  | cons entry rest ih =>
    by_cases hname : entry.1 = name
    · rw [insert, if_pos hname, lookup, lookup, hname]
      split <;> rfl
    · rw [insert, if_neg hname, lookup, lookup, ih]
      by_cases hentry : entry.1 = name'
      · rw [if_pos hentry, if_pos hentry, if_neg (fun h => hname (hentry.trans h.symm))]
      · rw [if_neg hentry, if_neg hentry]

theorem mem_of_lookup {entries : List (String × α)} {name : String} {value : α}
    (h : lookup entries name = some value) : (name, value) ∈ entries := by
  induction entries with
  | nil => cases h
  | cons entry rest ih =>
    rw [lookup] at h
    by_cases hname : entry.1 = name
    · rw [if_pos hname, Option.some.injEq] at h
      rw [← hname, ← h]
      exact List.mem_cons_self
    · rw [if_neg hname] at h
      exact List.mem_cons_of_mem _ (ih h)

theorem lookup_of_mem {entries : List (String × α)} (h : (entries.map Prod.fst).Nodup)
    {name : String} {value : α} (hmem : (name, value) ∈ entries) :
    lookup entries name = some value := by
  induction entries with
  | nil => cases hmem
  | cons entry rest ih =>
    rw [List.map_cons, List.nodup_cons] at h
    rw [lookup]
    rcases List.mem_cons.mp hmem with rfl | hrest
    · rw [if_pos rfl]
    · have hne : entry.1 ≠ name := by
        intro hname
        exact h.1 (hname ▸ List.mem_map_of_mem hrest)
      rw [if_neg hne, ih h.2 hrest]

end Entries

structure Record (α : Type) where
  entries : List (String × α)
  distinct : (entries.map Prod.fst).Nodup

namespace Record

variable {α β : Type}

def empty : Record α := ⟨[], List.nodup_nil⟩

def get (record : Record α) (name : String) : Option α := lookup record.entries name

def set (record : Record α) (name : String) (value : α) : Record α :=
  ⟨insert record.entries name value, insert_nodup record.distinct name value⟩

def names (record : Record α) : List String := record.entries.map Prod.fst

/-- `_.keyBy`. -/
def keyBy (key : α → String) (values : List α) : Record α :=
  values.foldl (fun record value => record.set (key value) value) empty

/-- Every field of the source, merged into the one that has its name. -/
def mergeWith (f : Option α → α → α) (record source : Record α) : Record α :=
  source.entries.foldl (fun record entry => record.set entry.1 (f (record.get entry.1) entry.2))
    record

def filterMap (f : α → Option β) (record : Record α) : Record β where
  entries := record.entries.filterMap fun entry => (f entry.2).map fun value => (entry.1, value)
  distinct := by
    refine record.distinct.sublist ?_
    induction record.entries with
    | nil => exact .slnil
    | cons entry rest ih =>
      cases hvalue : f entry.2 with
      | none => simpa [List.filterMap_cons, hvalue] using ih.cons _
      | some value => simpa [List.filterMap_cons, hvalue] using ih.cons_cons entry.1

theorem mem_entries_iff {record : Record α} {name : String} {value : α} :
    (name, value) ∈ record.entries ↔ record.get name = some value :=
  ⟨lookup_of_mem record.distinct, mem_of_lookup⟩

theorem mem_names_iff {record : Record α} {name : String} :
    name ∈ record.names ↔ ∃ value, record.get name = some value := by
  simp only [names, List.mem_map, Prod.exists, exists_and_right, exists_eq_right, mem_entries_iff]

theorem get_set (record : Record α) (name name' : String) (value : α) :
    (record.set name value).get name' = if name = name' then some value else record.get name' :=
  lookup_insert record.entries name name' value

/-- The last value of a name is the one that is there. -/
theorem get_keyBy (key : α → String) (values : List α) (name : String) :
    (keyBy key values).get name = values.reverse.find? fun value => key value = name := by
  have hfold : ∀ (record : Record α),
      (values.foldl (fun record value => record.set (key value) value) record).get name =
        (values.reverse.find? fun value => key value = name).or (record.get name) := by
    induction values with
    | nil => exact fun _ => rfl
    | cons value rest ih =>
      intro record
      rw [List.foldl_cons, ih, get_set, List.reverse_cons, List.find?_append, Option.or_assoc]
      by_cases hname : key value = name
      · simp [hname]
      · simp [hname]
  rw [keyBy, hfold]
  exact Option.or_none

theorem get_mergeWith (f : Option α → α → α) (record source : Record α) (name : String) :
    (mergeWith f record source).get name =
      match source.get name with
      | none => record.get name
      | some value => some (f (record.get name) value) := by
  obtain ⟨entries, hdistinct⟩ := source
  unfold mergeWith
  simp only
  induction entries generalizing record with
  | nil => rfl
  | cons entry rest ih =>
    have hnames := List.nodup_cons.mp hdistinct
    rw [List.foldl_cons, ih _ hnames.2, get_set]
    by_cases hname : entry.1 = name
    · have hnone : lookup rest name = none := by
        refine Option.eq_none_iff_forall_ne_some.mpr ?_
        intro value hvalue
        exact hnames.1 (hname ▸ List.mem_map_of_mem (mem_of_lookup hvalue))
      simp only [get, lookup, hnone, hname, if_true]
    · simp only [get, lookup, if_neg hname]

theorem get_filterMap (f : α → Option β) (record : Record α) (name : String) :
    (record.filterMap f).get name = (record.get name).bind f := by
  apply Option.ext
  intro value
  rw [← mem_entries_iff, Option.bind_eq_some_iff]
  simp only [filterMap, List.mem_filterMap, Option.map_eq_some_iff, Prod.exists, Prod.mk.injEq,
    mem_entries_iff]
  constructor
  · intro h
    obtain ⟨name', value', hget, value'', hvalue, rfl, rfl⟩ := h
    exact ⟨value', hget, hvalue⟩
  · intro h
    obtain ⟨value', hget, hvalue⟩ := h
    exact ⟨name, value', hget, value, hvalue, rfl, rfl⟩

end Record

end Library.Records
