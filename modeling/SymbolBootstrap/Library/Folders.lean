import SymbolBootstrap.Library.Changes

/-!
Folders as the entries of a record whose names begin with the folder's text. Deleting a folder
removes these entries, and copying one writes each of them below another folder.
-/
namespace Library.Folders

open Library.Changes Library.Records Library.Traces

variable {α : Type}

/-- The rest of a name below a folder. -/
def below (folder name : String) : Option String :=
  if folder.toList <+: name.toList then some (String.ofList (name.toList.drop folder.toList.length))
  else none

theorem below_eq_some {folder name rest : String} :
    below folder name = some rest ↔ name = folder ++ rest := by
  rw [below]
  constructor
  · intro h
    split at h
    · rename_i hprefix
      obtain rfl := Option.some.inj h
      apply String.toList_injective
      rw [String.toList_append, String.toList_ofList]
      exact (List.prefix_append_drop hprefix)
    · cases h
  · rintro rfl
    rw [String.toList_append, if_pos (List.prefix_append _ _), List.drop_left,
      String.ofList_toList]

def isBelow (folder name : String) : Bool := (below folder name).isSome

theorem isBelow_iff {folder name : String} :
    isBelow folder name = true ↔ ∃ rest, name = folder ++ rest := by
  rw [isBelow, Option.isSome_iff_exists]
  exact exists_congr fun rest => below_eq_some

/-- A path below a folder begins as the folder does. -/
theorem head_of_below {folder name : String} {c : Char} (hfolder : folder.toList.head? = some c)
    (h : isBelow folder name = true) : name.toList.head? = some c := by
  obtain ⟨rest, rfl⟩ := isBelow_iff.mp h
  rw [String.toList_append, List.head?_append, hfolder, Option.some_or]

/-- A step of a path ends at its slash. -/
theorem step_list_inj {front front' rest rest' : List Char} (hfront : '/' ∉ front)
    (hfront' : '/' ∉ front') (h : front ++ '/' :: rest = front' ++ '/' :: rest') :
    front = front' ∧ rest = rest' := by
  rcases List.append_eq_append_iff.mp h with ⟨more, hfront'', hrest⟩ | ⟨more, hfront'', hrest⟩
  · cases more with
    | nil =>
      rw [List.append_nil] at hfront''
      exact ⟨hfront''.symm, (List.cons.inj hrest).2⟩
    | cons c more =>
      obtain rfl := (List.cons.inj hrest).1
      exact absurd (by rw [hfront'']; simp) hfront'
  · cases more with
    | nil =>
      rw [List.append_nil] at hfront''
      exact ⟨hfront'', (List.cons.inj hrest).2.symm⟩
    | cons c more =>
      obtain rfl := (List.cons.inj hrest).1
      exact absurd (by rw [hfront'']; simp) hfront

theorem step_inj {front front' rest rest' : String} (hfront : '/' ∉ front.toList)
    (hfront' : '/' ∉ front'.toList) (h : front ++ "/" ++ rest = front' ++ "/" ++ rest') :
    front = front' ∧ rest = rest' := by
  have hlist := congrArg String.toList h
  simp only [String.toList_append, List.append_assoc] at hlist
  obtain ⟨hsame, hrest⟩ := step_list_inj hfront hfront' hlist
  exact ⟨String.toList_injective hsame, String.toList_injective hrest⟩

/-- The removals that empty a folder. -/
def deletions (folder : String) (record : Record α) : List (Change α) :=
  (record.names.filter (isBelow folder)).map .remove

/-- The writes that copy what is below a folder to below another. -/
def copies (source target : String) (record : Record α) : List (Change α) :=
  record.entries.filterMap fun entry =>
    (below source entry.1).map fun rest => .write (target ++ rest) entry.2

theorem isBelow_deletions {folder : String} {record : Record α} {change : Change α}
    (h : change ∈ deletions folder record) : isBelow folder change.name = true := by
  obtain ⟨name, hname, rfl⟩ := List.mem_map.mp h
  exact (List.mem_filter.mp hname).2

theorem get_deletions (folder : String) (record : Record α) (name : String) :
    (after record (deletions folder record)).get name =
      if isBelow folder name = true then none else record.get name := by
  rw [deletions, get_after_removed]
  by_cases hbelow : isBelow folder name = true
  · rw [if_pos hbelow, ite_eq_left_iff]
    intro hname
    refine Option.eq_none_iff_forall_ne_some.mpr fun value hvalue => hname ?_
    exact List.mem_filter.mpr ⟨Record.mem_names_iff.mpr ⟨value, hvalue⟩, hbelow⟩
  · rw [if_neg hbelow, if_neg]
    intro hname
    exact hbelow (List.mem_filter.mp hname).2

theorem mem_copies {source target : String} {record : Record α} {change : Change α} :
    change ∈ copies source target record ↔
      ∃ rest value, record.get (source ++ rest) = some value ∧
        change = .write (target ++ rest) value := by
  rw [copies, List.mem_filterMap]
  constructor
  · rintro ⟨⟨name, value⟩, hentry, hchange⟩
    obtain ⟨rest, hrest, rfl⟩ := Option.map_eq_some_iff.mp hchange
    obtain rfl := below_eq_some.mp hrest
    exact ⟨rest, value, Record.mem_entries_iff.mp hentry, rfl⟩
  · rintro ⟨rest, value, hvalue, rfl⟩
    refine ⟨(source ++ rest, value), Record.mem_entries_iff.mpr hvalue, ?_⟩
    rw [below_eq_some.mpr rfl]
    rfl

/-- Where all changes of a name have one value, and there is one, it is what they leave. -/
theorem get_after_agreeing {start : Record α} {changes : List (Change α)} {name : String}
    {value : Option α} (hsame : ∀ change ∈ changes, change.name = name → change.value = value)
    (hsome : ∃ change ∈ changes, change.name = name) :
    (after start changes).get name = value := by
  induction changes using List.reverseRecOn with
  | nil =>
    obtain ⟨change, hmem, -⟩ := hsome
    cases hmem
  | append_singleton rest change ih =>
    rw [after_concat, get_apply]
    by_cases hname : change.name = name
    · rw [if_pos hname]
      exact hsame change (by simp) hname
    · rw [if_neg hname]
      refine ih (fun other hother => hsame other (List.mem_append_left _ hother)) ?_
      obtain ⟨other, hmem, hother⟩ := hsome
      rcases List.mem_append.mp hmem with hin | hin
      · exact ⟨other, hin, hother⟩
      · rw [List.mem_singleton.mp hin] at hother
        exact absurd hother hname

end Library.Folders
