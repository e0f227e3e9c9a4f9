import SymbolBootstrap.Library.Paths

/-!
`deleteFolder` and its exclusions. The excluded paths are put behind the current path each
time the walk goes down, so below the folder itself they are other paths than the caller's.
An entry that is excluded is left with all that it holds.
-/
namespace SymbolBootstrap.FileSystemService

open Library.Paths

/-- An entry of a directory. What is no directory is a file. -/
inductive Node
  | file
  | directory (entries : List (Name × Node))

abbrev Entries := List (Name × Node)

mutual

/-- What is left of an entry that is not excluded. -/
def deleteEntry (currentPath : Path) (excludeFiles : List Path) : Node → Option Node
  | .file => none
  | .directory entries =>
      let entries := deleteEntries currentPath
        (excludeFiles.map fun file => currentPath.join file) entries
      if entries.isEmpty then none else some (.directory entries)

/-- What is left of the entries of a folder. -/
def deleteEntries (folder : Path) (excludeFiles : List Path) : Entries → Entries
  | [] => []
  | (name, node) :: rest =>
      let currentPath := folder.child name
      if currentPath ∈ excludeFiles then (name, node) :: deleteEntries folder excludeFiles rest
      else match deleteEntry currentPath excludeFiles node with
        | some node => (name, node) :: deleteEntries folder excludeFiles rest
        | none => deleteEntries folder excludeFiles rest

end

/-- What is left of a folder. A folder that does not exist stays that way. -/
def deleteFolder (folder : Path) (excludeFiles : List Path) (tree : Option Entries) :
    Option Entries :=
  tree.bind fun entries =>
    let entries := deleteEntries folder excludeFiles entries
    if entries.isEmpty then none else some entries

mutual

/-- The paths of the files of an entry. A file has the empty path. -/
def nodeFiles : Node → List (List Name)
  | .file => [[]]
  | .directory entries => entryFiles entries

def entryFiles : Entries → List (List Name)
  | [] => []
  | (name, node) :: rest => (nodeFiles node).map (name :: ·) ++ entryFiles rest

end

mutual

/-- The paths of the directories of an entry, itself with them. -/
def nodeDirectories : Node → List (List Name)
  | .file => []
  | .directory entries => [] :: entryDirectories entries

def entryDirectories : Entries → List (List Name)
  | [] => []
  | (name, node) :: rest => (nodeDirectories node).map (name :: ·) ++ entryDirectories rest

end

def files (tree : Option Entries) : List (List Name) := (tree.map entryFiles).getD []

/-- The folder itself is among its directories, as the empty path. -/
def directories (tree : Option Entries) : List (List Name) :=
  (tree.map fun entries => [] :: entryDirectories entries).getD []

/-- Whether the walk stops at some entry of a path, counted from a folder. -/
def excludedOnWay (folder : Path) (excludeFiles : List Path) : List Name → Bool
  | [] => false
  | name :: rest =>
      let currentPath := folder.child name
      currentPath ∈ excludeFiles || excludedOnWay currentPath
        (excludeFiles.map fun file => currentPath.join file) rest

/-- Whether a directory holds a file, at any depth. -/
def Holds (tree : Option Entries) (path : List Name) : Prop :=
  ∃ name rest, path ++ name :: rest ∈ files tree

/-- What the exclusions are for: the excluded files stay, with the directories that hold
them, and nothing else does. -/
def Honours (folder : Path) (excludeFiles : List Path) (tree : Option Entries) : Prop :=
  (∀ path ∈ files tree, path ∈ files (deleteFolder folder excludeFiles tree) ↔
    folder.below path ∈ excludeFiles) ∧
  ∀ path ∈ directories tree, path ∈ directories (deleteFolder folder excludeFiles tree) ↔
    Holds (deleteFolder folder excludeFiles tree) path

/-- The exclusions are compared by their texts. -/
theorem mem_excludeFiles_iff {currentPath : Path} {excludeFiles : List Path} :
    currentPath ∈ excludeFiles ↔ currentPath.text ∈ excludeFiles.map Path.text := by
  rw [List.mem_map]
  constructor
  · exact fun h => ⟨currentPath, h, rfl⟩
  · rintro ⟨file, hfile, htext⟩
    exact text_injective.mp htext ▸ hfile

section Files

theorem nil_not_mem_entryFiles (entries : Entries) : [] ∉ entryFiles entries := by
  induction entries with
  | nil => exact List.not_mem_nil
  | cons entry rest ih =>
    obtain ⟨name, node⟩ := entry
    rw [entryFiles, List.mem_append, not_or]
    exact ⟨by simp, ih⟩

theorem excludedOnWay_of_excluded {folder : Path} {excludeFiles : List Path} {name : Name}
    (h : folder.child name ∈ excludeFiles) (rest : List Name) :
    excludedOnWay folder excludeFiles (name :: rest) = true := by
  rw [excludedOnWay]
  simp [h]

theorem excludedOnWay_of_not {folder : Path} {excludeFiles : List Path} {name : Name}
    (h : folder.child name ∉ excludeFiles) (rest : List Name) :
    excludedOnWay folder excludeFiles (name :: rest) =
      excludedOnWay (folder.child name)
        (excludeFiles.map fun file => (folder.child name).join file) rest := by
  rw [excludedOnWay]
  simp [h]

/-- An entry that is left is the whole entry when it is excluded, and what is left of it
otherwise. -/
theorem deleteEntries_excluded {folder : Path} {excludeFiles : List Path} {name : Name}
    (h : folder.child name ∈ excludeFiles) (node : Node) (rest : Entries) :
    deleteEntries folder excludeFiles ((name, node) :: rest) =
      (name, node) :: deleteEntries folder excludeFiles rest := by
  rw [deleteEntries]
  exact if_pos h

theorem deleteEntries_not {folder : Path} {excludeFiles : List Path} {name : Name}
    (h : folder.child name ∉ excludeFiles) (node : Node) (rest : Entries) :
    deleteEntries folder excludeFiles ((name, node) :: rest) =
      ((deleteEntry (folder.child name) excludeFiles node).map (name, ·)).toList ++
        deleteEntries folder excludeFiles rest := by
  rw [deleteEntries]
  simp only [h, if_false]
  cases deleteEntry (folder.child name) excludeFiles node with
  | none => rfl
  | some node => rfl

theorem deleteEntry_of_left {currentPath : Path} {excludeFiles : List Path} {entries : Entries}
    (h : deleteEntries currentPath (excludeFiles.map fun file => currentPath.join file) entries ≠
      []) :
    deleteEntry currentPath excludeFiles (.directory entries) = some (.directory (deleteEntries
      currentPath (excludeFiles.map fun file => currentPath.join file) entries)) := by
  rw [deleteEntry]
  simp [h]

/-- A directory that is not excluded is left with what is left of its entries. -/
theorem deleteEntry_directory {currentPath : Path} {excludeFiles : List Path} {entries : Entries}
    {node : Node} (h : deleteEntry currentPath excludeFiles (.directory entries) = some node) :
    node = .directory (deleteEntries currentPath
      (excludeFiles.map fun file => currentPath.join file) entries) ∧
    deleteEntries currentPath (excludeFiles.map fun file => currentPath.join file) entries ≠
      [] := by
  rw [deleteEntry] at h
  cases hempty : (deleteEntries currentPath
      (excludeFiles.map fun file => currentPath.join file) entries).isEmpty with
  | true =>
    simp [hempty] at h
  | false =>
    simp only [hempty, Bool.false_eq_true, if_false, Option.some.injEq] at h
    exact ⟨h.symm, List.isEmpty_eq_false_iff.mp hempty⟩

theorem mem_entryFiles_cons {name : Name} {node : Node} {rest : Entries} {path : List Name} :
    path ∈ entryFiles ((name, node) :: rest) ↔
      (∃ below ∈ nodeFiles node, name :: below = path) ∨ path ∈ entryFiles rest := by
  rw [entryFiles, List.mem_append, List.mem_map]

theorem mem_entryFiles_left {name : Name} {left : Option Node} {rest : Entries}
    {path : List Name} : path ∈ entryFiles ((left.map (name, ·)).toList ++ rest) ↔
      (∃ below, (∃ node, left = some node ∧ below ∈ nodeFiles node) ∧ name :: below = path) ∨
        path ∈ entryFiles rest := by
  cases left with
  | none => simp
  | some node =>
    rw [Option.map_some, Option.toList_some, List.singleton_append, mem_entryFiles_cons]
    simp

mutual

/-- The files left of an entry are those with an excluded entry on their way. -/
theorem mem_files_deleteEntry (currentPath : Path) (excludeFiles : List Path) :
    ∀ (node : Node) (path : List Name),
      (∃ left, deleteEntry currentPath excludeFiles node = some left ∧ path ∈ nodeFiles left) ↔
        path ∈ nodeFiles node ∧ excludedOnWay currentPath
          (excludeFiles.map fun file => currentPath.join file) path = true
  | .file, path => by
    constructor
    · rintro ⟨left, hleft, -⟩
      cases hleft
    · rintro ⟨hpath, hexcluded⟩
      rw [List.mem_singleton.mp hpath] at hexcluded
      cases hexcluded
  | .directory entries, path => by
    rw [nodeFiles, ← mem_files_deleteEntries currentPath _ entries path]
    constructor
    · rintro ⟨left, hleft, hpath⟩
      rw [(deleteEntry_directory hleft).1] at hpath
      exact hpath
    · intro hpath
      refine ⟨_, deleteEntry_of_left ?_, hpath⟩
      intro hnil
      rw [hnil] at hpath
      cases hpath

theorem mem_files_deleteEntries (folder : Path) (excludeFiles : List Path) :
    ∀ (entries : Entries) (path : List Name),
      path ∈ entryFiles (deleteEntries folder excludeFiles entries) ↔
        path ∈ entryFiles entries ∧ excludedOnWay folder excludeFiles path = true
  | [], path => ⟨fun h => absurd h List.not_mem_nil, fun h => absurd h.1 List.not_mem_nil⟩
  | (name, node) :: rest, path => by
    have hrest := mem_files_deleteEntries folder excludeFiles rest path
    by_cases hname : folder.child name ∈ excludeFiles
    · rw [deleteEntries_excluded hname, mem_entryFiles_cons, mem_entryFiles_cons, hrest,
        or_and_right]
      refine or_congr_left ⟨?_, And.left⟩
      rintro ⟨below, hbelow, rfl⟩
      exact ⟨⟨below, hbelow, rfl⟩, excludedOnWay_of_excluded hname below⟩
    · rw [deleteEntries_not hname, mem_entryFiles_left, mem_entryFiles_cons, hrest, or_and_right]
      refine or_congr_left ⟨?_, ?_⟩
      · rintro ⟨below, hbelow, rfl⟩
        obtain ⟨hfile, hexcluded⟩ :=
          (mem_files_deleteEntry (folder.child name) excludeFiles node below).mp hbelow
        exact ⟨⟨below, hfile, rfl⟩, (excludedOnWay_of_not hname below).trans hexcluded⟩
      · rintro ⟨⟨below, hfile, rfl⟩, hexcluded⟩
        rw [excludedOnWay_of_not hname] at hexcluded
        exact ⟨below, (mem_files_deleteEntry (folder.child name) excludeFiles node below).mpr
          ⟨hfile, hexcluded⟩, rfl⟩

end

end Files

section Directories

theorem mem_entryDirectories_cons {name : Name} {node : Node} {rest : Entries}
    {path : List Name} : path ∈ entryDirectories ((name, node) :: rest) ↔
      (∃ below ∈ nodeDirectories node, name :: below = path) ∨ path ∈ entryDirectories rest := by
  rw [entryDirectories, List.mem_append, List.mem_map]

theorem mem_entryDirectories_left {name : Name} {left : Option Node} {rest : Entries}
    {path : List Name} : path ∈ entryDirectories ((left.map (name, ·)).toList ++ rest) ↔
      (∃ below, (∃ node, left = some node ∧ below ∈ nodeDirectories node) ∧
        name :: below = path) ∨ path ∈ entryDirectories rest := by
  cases left with
  | none => simp
  | some node =>
    rw [Option.map_some, Option.toList_some, List.singleton_append, mem_entryDirectories_cons]
    simp

mutual

/-- What holds a file is a directory. -/
theorem nodeDirectories_of_file : ∀ (node : Node) (path : List Name) (name : Name)
    (rest : List Name), path ++ name :: rest ∈ nodeFiles node → path ∈ nodeDirectories node
  | .file, path, name, rest, h => by
    have hnil := List.mem_singleton.mp h
    simp at hnil
  | .directory entries, [], _, _, _ => List.mem_cons_self
  | .directory entries, first :: path, name, rest, h =>
    List.mem_cons_of_mem _ (entryDirectories_of_file entries first path name rest h)

theorem entryDirectories_of_file : ∀ (entries : Entries) (first : Name) (path : List Name)
    (name : Name) (rest : List Name), first :: path ++ name :: rest ∈ entryFiles entries →
    first :: path ∈ entryDirectories entries
  | [], _, _, _, _, h => absurd h List.not_mem_nil
  | (entry, node) :: others, first, path, name, rest, h => by
    rw [mem_entryDirectories_cons]
    rcases mem_entryFiles_cons.mp h with ⟨below, hbelow, heq⟩ | hothers
    · obtain ⟨rfl, rfl⟩ := List.cons.inj heq
      exact .inl ⟨path, nodeDirectories_of_file node path name rest hbelow, rfl⟩
    · exact .inr (entryDirectories_of_file others first path name rest hothers)

end

/-- A file or a directory among some entries or below them. -/
def IsEntry (entries : Entries) (path : List Name) : Prop :=
  path ∈ entryFiles entries ∨ path ∈ entryDirectories entries

theorem isEntry_name (name : Name) (node : Node) (rest : Entries) :
    IsEntry ((name, node) :: rest) [name] := by
  cases node with
  | file => exact .inl (mem_entryFiles_cons.mpr (.inl ⟨[], List.mem_singleton.mpr rfl, rfl⟩))
  | directory entries =>
    exact .inr (mem_entryDirectories_cons.mpr (.inl ⟨[], List.mem_cons_self, rfl⟩))

theorem IsEntry.below {name : Name} {entries : Entries} {path : List Name}
    (h : IsEntry entries path) (rest : Entries) :
    IsEntry ((name, .directory entries) :: rest) (name :: path) :=
  h.imp (fun hfile => mem_entryFiles_cons.mpr (.inl ⟨path, hfile, rfl⟩))
    fun hdirectory => mem_entryDirectories_cons.mpr
      (.inl ⟨path, List.mem_cons_of_mem _ hdirectory, rfl⟩)

theorem IsEntry.later {entries : Entries} {path : List Name} (h : IsEntry entries path)
    (entry : Name × Node) : IsEntry (entry :: entries) path :=
  h.imp (fun hfile => mem_entryFiles_cons.mpr (.inr hfile))
    fun hdirectory => mem_entryDirectories_cons.mpr (.inr hdirectory)

/-- What is left of the entries of a folder is left for an exclusion below it: of the folder
when anything is left, and of each directory that is left. -/
theorem excluded_of_left (folder : Path) (excludeFiles : List Path) :
    ∀ (entries : Entries) (path : List Name),
      (path = [] ∧ deleteEntries folder excludeFiles entries ≠ []) ∨
        path ∈ entryDirectories (deleteEntries folder excludeFiles entries) →
      ∃ rest, IsEntry entries (path ++ rest) ∧
        excludedOnWay folder excludeFiles (path ++ rest) = true
  | [], path, h => by
    rcases h with ⟨-, h⟩ | h
    · exact absurd rfl h
    · exact absurd h List.not_mem_nil
  | (name, node) :: others, path, h => by
    have hothers : (path = [] ∧ deleteEntries folder excludeFiles others ≠ []) ∨
        path ∈ entryDirectories (deleteEntries folder excludeFiles others) →
        ∃ rest, IsEntry ((name, node) :: others) (path ++ rest) ∧
          excludedOnWay folder excludeFiles (path ++ rest) = true := by
      intro hleft
      obtain ⟨rest, hentry, hexcluded⟩ := excluded_of_left folder excludeFiles others path hleft
      exact ⟨rest, hentry.later _, hexcluded⟩
    by_cases hname : folder.child name ∈ excludeFiles
    · rw [deleteEntries_excluded hname, mem_entryDirectories_cons] at h
      rcases h with ⟨rfl, -⟩ | ⟨below, hbelow, rfl⟩ | hlater
      · exact ⟨[name], isEntry_name name node others, excludedOnWay_of_excluded hname []⟩
      · refine ⟨[], ?_, excludedOnWay_of_excluded hname _⟩
        rw [List.append_nil]
        exact .inr (mem_entryDirectories_cons.mpr (.inl ⟨below, hbelow, rfl⟩))
      · exact hothers (.inr hlater)
    · rw [deleteEntries_not hname, mem_entryDirectories_left] at h
      cases hleft : deleteEntry (folder.child name) excludeFiles node with
      | none =>
        rw [hleft] at h
        refine hothers (h.imp_right fun hmem => hmem.resolve_left ?_)
        rintro ⟨below, ⟨left, hnone, -⟩, -⟩
        cases hnone
      | some left =>
        cases node with
        | file => cases hleft
        | directory entries =>
          obtain ⟨rfl, hne⟩ := deleteEntry_directory hleft
          rw [hleft] at h
          have hbelow : ∀ below, below = [] ∨ below ∈ entryDirectories (deleteEntries
              (folder.child name) (excludeFiles.map fun file => (folder.child name).join file)
                entries) →
              ∃ rest, IsEntry ((name, .directory entries) :: others) (name :: (below ++ rest)) ∧
                excludedOnWay folder excludeFiles (name :: (below ++ rest)) = true := by
            intro below hdirectory
            obtain ⟨rest, hentry, hexcluded⟩ := excluded_of_left (folder.child name) _ entries below
              (hdirectory.imp_left fun hnil => ⟨hnil, hne⟩)
            exact ⟨rest, hentry.below others, (excludedOnWay_of_not hname _).trans hexcluded⟩
          rcases h with ⟨rfl, -⟩ | ⟨below, ⟨left, heq, hmem⟩, rfl⟩ | hlater
          · obtain ⟨rest, hrest⟩ := hbelow [] (.inl rfl)
            exact ⟨name :: rest, hrest⟩
          · cases heq
            exact hbelow below (List.mem_cons.mp hmem)
          · exact hothers (.inr hlater)

theorem ne_nil_of_directory {entries : Entries} {path : List Name}
    (h : path ∈ entryDirectories entries) : entries ≠ [] := by
  rintro rfl
  exact absurd h List.not_mem_nil

/-- An excluded directory is left, and so is every directory below it. -/
theorem mem_directories_of_excluded (folder : Path) (excludeFiles : List Path) :
    ∀ (entries : Entries) (path : List Name), path ∈ entryDirectories entries →
      excludedOnWay folder excludeFiles path = true →
      path ∈ entryDirectories (deleteEntries folder excludeFiles entries)
  | [], _, h, _ => h
  | (name, node) :: others, path, h, hexcluded => by
    have hothers := mem_directories_of_excluded folder excludeFiles others path
    rw [mem_entryDirectories_cons] at h
    by_cases hname : folder.child name ∈ excludeFiles
    · rw [deleteEntries_excluded hname, mem_entryDirectories_cons]
      exact h.imp_right fun hlater => hothers hlater hexcluded
    · rw [deleteEntries_not hname, mem_entryDirectories_left]
      refine h.imp ?_ fun hlater => hothers hlater hexcluded
      rintro ⟨below, hbelow, rfl⟩
      rw [excludedOnWay_of_not hname] at hexcluded
      cases node with
      | file => cases hbelow
      | directory entries =>
        rcases List.mem_cons.mp hbelow with rfl | hdirectory
        · cases hexcluded
        · have hleft := mem_directories_of_excluded (folder.child name) _ entries below hdirectory
            hexcluded
          exact ⟨below, ⟨_, deleteEntry_of_left (ne_nil_of_directory hleft),
            List.mem_cons_of_mem [] hleft⟩, rfl⟩

/-- Directories are only taken away. -/
theorem directories_of_left (folder : Path) (excludeFiles : List Path) :
    ∀ (entries : Entries) (path : List Name),
      path ∈ entryDirectories (deleteEntries folder excludeFiles entries) →
      path ∈ entryDirectories entries
  | [], _, h => h
  | (name, node) :: others, path, h => by
    have hothers := directories_of_left folder excludeFiles others path
    rw [mem_entryDirectories_cons]
    by_cases hname : folder.child name ∈ excludeFiles
    · rw [deleteEntries_excluded hname, mem_entryDirectories_cons] at h
      exact h.imp_right hothers
    · rw [deleteEntries_not hname, mem_entryDirectories_left] at h
      refine h.imp ?_ hothers
      rintro ⟨below, ⟨left, hleft, hbelow⟩, rfl⟩
      cases node with
      | file => cases hleft
      | directory entries =>
        rw [(deleteEntry_directory hleft).1] at hbelow
        refine ⟨below, ?_, rfl⟩
        refine (List.mem_cons.mp hbelow).elim (fun hnil => ?_) fun hmem => ?_
        · rw [hnil]
          exact List.mem_cons_self
        · exact List.mem_cons_of_mem _ (directories_of_left _ _ entries below hmem)

end Directories

section Honours

variable {folder : Path} {excludeFiles : List Path} {tree : Option Entries}

theorem mem_files_deleteFolder (path : List Name) :
    path ∈ files (deleteFolder folder excludeFiles tree) ↔
      path ∈ files tree ∧ excludedOnWay folder excludeFiles path = true := by
  cases tree with
  | none => exact ⟨fun h => absurd h List.not_mem_nil, fun h => absurd h.1 List.not_mem_nil⟩
  | some entries =>
    have hentries := mem_files_deleteEntries folder excludeFiles entries path
    rw [deleteFolder, Option.bind_some]
    cases hempty : (deleteEntries folder excludeFiles entries).isEmpty with
    | true =>
      rw [List.isEmpty_iff.mp hempty] at hentries
      simp only [hempty, if_true]
      exact hentries
    | false =>
      simp only [hempty, Bool.false_eq_true, if_false]
      exact hentries

/-- The folder is left when anything in it is, and its directories as they are left in it. -/
theorem mem_directories_deleteFolder {entries : Entries} (path : List Name) :
    path ∈ directories (deleteFolder folder excludeFiles (some entries)) ↔
      (path = [] ∧ deleteEntries folder excludeFiles entries ≠ []) ∨
        path ∈ entryDirectories (deleteEntries folder excludeFiles entries) := by
  rw [deleteFolder, Option.bind_some]
  cases hempty : (deleteEntries folder excludeFiles entries).isEmpty with
  | true =>
    rw [List.isEmpty_iff.mp hempty]
    simp [directories, entryDirectories]
  | false =>
    have hne := List.isEmpty_eq_false_iff.mp hempty
    simp [directories, hne]

theorem directories_of_deleteFolder {path : List Name}
    (h : path ∈ directories (deleteFolder folder excludeFiles tree)) : path ∈ directories tree := by
  cases tree with
  | none => exact absurd h List.not_mem_nil
  | some entries =>
    rcases (mem_directories_deleteFolder path).mp h with ⟨rfl, -⟩ | hdirectory
    · exact List.mem_cons_self
    · exact List.mem_cons_of_mem _ (directories_of_left folder excludeFiles entries path hdirectory)

theorem excludedOnWay_append {folder : Path} {excludeFiles : List Path} {path : List Name}
    (h : excludedOnWay folder excludeFiles path = true) (rest : List Name) :
    excludedOnWay folder excludeFiles (path ++ rest) = true := by
  induction path generalizing folder excludeFiles with
  | nil => cases h
  | cons name path ih =>
    by_cases hname : folder.child name ∈ excludeFiles
    · exact excludedOnWay_of_excluded hname _
    · rw [excludedOnWay_of_not hname] at h
      rw [List.cons_append, excludedOnWay_of_not hname]
      exact ih h

/-- What holds a file that is left is left itself. -/
theorem mem_directories_of_holds {path : List Name}
    (h : Holds (deleteFolder folder excludeFiles tree) path) :
    path ∈ directories (deleteFolder folder excludeFiles tree) := by
  obtain ⟨name, rest, hfile⟩ := h
  cases hleft : deleteFolder folder excludeFiles tree with
  | none =>
    rw [hleft] at hfile
    exact absurd hfile List.not_mem_nil
  | some entries =>
    rw [hleft] at hfile
    exact nodeDirectories_of_file (.directory entries) path name rest hfile

/-- Every directory that is left holds a file when the excluded ones do, and only then. -/
theorem directories_left_iff :
    (∀ path ∈ directories (deleteFolder folder excludeFiles tree),
        Holds (deleteFolder folder excludeFiles tree) path) ↔
      ∀ path ∈ directories tree, excludedOnWay folder excludeFiles path = true →
        Holds tree path := by
  cases tree with
  | none => exact ⟨fun _ _ h => absurd h List.not_mem_nil, fun _ _ h => absurd h List.not_mem_nil⟩
  | some entries =>
    constructor
    · intro h path hpath hexcluded
      have hdirectory : path ∈ entryDirectories entries := by
        rcases List.mem_cons.mp hpath with rfl | hmem
        · cases hexcluded
        · exact hmem
      obtain ⟨name, rest, hfile⟩ := h path ((mem_directories_deleteFolder path).mpr
        (.inr (mem_directories_of_excluded folder excludeFiles entries path hdirectory hexcluded)))
      exact ⟨name, rest, ((mem_files_deleteFolder _).mp hfile).1⟩
    · intro h path hpath
      obtain ⟨rest, hentry, hexcluded⟩ := excluded_of_left folder excludeFiles entries path
        ((mem_directories_deleteFolder path).mp hpath)
      have hdirectory : ∀ below, path ++ below ∈ directories (some entries) →
          excludedOnWay folder excludeFiles (path ++ below) = true →
          Holds (deleteFolder folder excludeFiles (some entries)) path := by
        intro below hbelow hway
        obtain ⟨name, last, hfile⟩ := h _ hbelow hway
        have hleft := (mem_files_deleteFolder _).mpr ⟨hfile, excludedOnWay_append hway _⟩
        rw [List.append_assoc] at hleft
        cases below with
        | nil => exact ⟨name, last, hleft⟩
        | cons first below => exact ⟨first, below ++ name :: last, hleft⟩
      rcases hentry with hfile | hbelow
      · cases rest with
        | nil =>
          exact hdirectory [] (by
            rw [List.append_nil]
            exact directories_of_deleteFolder hpath) hexcluded
        | cons name rest =>
          exact ⟨name, rest, (mem_files_deleteFolder _).mpr ⟨hfile, hexcluded⟩⟩
      · exact hdirectory rest (List.mem_cons_of_mem _ hbelow) hexcluded

/-- The exclusions are honoured when every file with an excluded entry on its way is excluded
itself and every excluded file has one, and every directory that is left for an exclusion
holds a file. -/
theorem honours_iff : Honours folder excludeFiles tree ↔
    (∀ path ∈ files tree, excludedOnWay folder excludeFiles path = true ↔
      folder.below path ∈ excludeFiles) ∧
    ∀ path ∈ directories tree, excludedOnWay folder excludeFiles path = true →
      Holds tree path := by
  have hfiles : (∀ path ∈ files tree, path ∈ files (deleteFolder folder excludeFiles tree) ↔
      folder.below path ∈ excludeFiles) ↔
      ∀ path ∈ files tree, excludedOnWay folder excludeFiles path = true ↔
        folder.below path ∈ excludeFiles := by
    refine forall₂_congr fun path hpath => ?_
    rw [mem_files_deleteFolder, and_iff_right hpath]
  have hdirectories : (∀ path ∈ directories tree,
      path ∈ directories (deleteFolder folder excludeFiles tree) ↔
        Holds (deleteFolder folder excludeFiles tree) path) ↔
      ∀ path ∈ directories (deleteFolder folder excludeFiles tree),
        Holds (deleteFolder folder excludeFiles tree) path :=
    ⟨fun h path hpath => (h path (directories_of_deleteFolder hpath)).mp hpath,
      fun h path _ => ⟨h path, mem_directories_of_holds⟩⟩
  rw [Honours, hfiles, hdirectories, directories_left_iff]

/-- Exclusions that have at least two names match nothing once they are put behind a path. -/
theorem excludedOnWay_joined {currentPath : Path} (hups : currentPath.ups = 0)
    {excludeFiles : List Path} (h : ∀ file ∈ excludeFiles, file.ups = 0 ∧ 2 ≤ file.names.length)
    (path : List Name) :
    excludedOnWay currentPath (excludeFiles.map fun file => currentPath.join file) path =
      false := by
  induction path generalizing currentPath excludeFiles with
  | nil => rfl
  | cons name path ih =>
    have hjoined : ∀ file ∈ excludeFiles.map fun file => currentPath.join file,
        file.ups = 0 ∧ 2 ≤ file.names.length := by
      intro file hfile
      obtain ⟨original, horiginal, rfl⟩ := List.mem_map.mp hfile
      obtain ⟨hnone, hlength⟩ := h original horiginal
      rw [join_of_ups hnone]
      refine ⟨hups, ?_⟩
      rw [Path.below, List.length_append]
      omega
    have hname : currentPath.child name ∉ excludeFiles.map fun file => currentPath.join file := by
      intro hmem
      obtain ⟨original, horiginal, heq⟩ := List.mem_map.mp hmem
      obtain ⟨hnone, hlength⟩ := h original horiginal
      rw [join_of_ups hnone] at heq
      have hsame : original.names = [name] := below_injective.mp heq
      rw [hsame] at hlength
      exact absurd hlength (by simp)
    rw [excludedOnWay_of_not hname]
    exact @ih (currentPath.child name) hups _ hjoined

/-- In a folder whose path is names alone, an exclusion in it stops the walk at the entries
of the folder only. -/
theorem excludedOnWay_of_names (hups : folder.ups = 0) (hnames : folder.names ≠ [])
    (h : ∀ file ∈ excludeFiles, ∃ name rest, file = folder.below (name :: rest)) (name : Name)
    (rest : List Name) :
    excludedOnWay folder excludeFiles (name :: rest) = true ↔ folder.child name ∈ excludeFiles := by
  by_cases hname : folder.child name ∈ excludeFiles
  · exact iff_of_true (excludedOnWay_of_excluded hname rest) hname
  · have hlong : ∀ file ∈ excludeFiles, file.ups = 0 ∧ 2 ≤ file.names.length := by
      intro file hfile
      obtain ⟨first, others, rfl⟩ := h file hfile
      have hpos := List.length_pos_iff.mpr hnames
      refine ⟨hups, ?_⟩
      rw [Path.below, List.length_append, List.length_cons]
      omega
    rw [excludedOnWay_of_not hname,
      @excludedOnWay_joined (folder.child name) hups excludeFiles hlong]
    exact iff_of_false Bool.false_ne_true hname

/-- The excluded files are those of the folder itself and those below its excluded
directories, of which each holds a file. -/
def ExcludesDirectly (folder : Path) (excludeFiles : List Path) (tree : Option Entries) : Prop :=
  (∀ name rest, name :: rest ∈ files tree →
    (folder.child name ∈ excludeFiles ↔ folder.below (name :: rest) ∈ excludeFiles)) ∧
  ∀ name rest, name :: rest ∈ directories tree → folder.child name ∈ excludeFiles →
    Holds tree (name :: rest)

theorem nil_not_mem_files (tree : Option Entries) : [] ∉ files tree := by
  cases tree with
  | none => exact List.not_mem_nil
  | some entries => exact nil_not_mem_entryFiles entries

/-- When exclusions are honoured: in general by the exclusions as the walk rewrites them, and
in a folder whose path is names alone by the exclusions themselves. -/
theorem deleteFolder_honours_iff (folder : Path) (excludeFiles : List Path)
    (tree : Option Entries) :
    (Honours folder excludeFiles tree ↔
      (∀ path ∈ files tree, excludedOnWay folder excludeFiles path = true ↔
        folder.below path ∈ excludeFiles) ∧
      ∀ path ∈ directories tree, excludedOnWay folder excludeFiles path = true →
        Holds tree path) ∧
    (folder.ups = 0 → folder.names ≠ [] →
      (∀ file ∈ excludeFiles, ∃ name rest, file = folder.below (name :: rest)) →
      (Honours folder excludeFiles tree ↔ ExcludesDirectly folder excludeFiles tree)) := by
  refine ⟨honours_iff, ?_⟩
  intro hups hnames hinside
  have hway := excludedOnWay_of_names hups hnames hinside
  rw [honours_iff, ExcludesDirectly]
  refine and_congr ⟨?_, ?_⟩ ⟨?_, ?_⟩
  · intro h name rest hfile
    rw [← hway name rest]
    exact h _ hfile
  · intro h path hpath
    cases path with
    | nil => exact absurd hpath (nil_not_mem_files tree)
    | cons name rest =>
      rw [hway name rest]
      exact h name rest hpath
  · intro h name rest hdirectory hname
    exact h _ hdirectory ((hway name rest).mpr hname)
  · intro h path hpath hexcluded
    cases path with
    | nil => cases hexcluded
    | cons name rest => exact h name rest hpath ((hway name rest).mp hexcluded)

def entryName (text : List Char) (h : text ≠ [] ∧ '/' ∉ text ∧ text ≠ ['.'] ∧ text ≠ ['.', '.']) :
    Name :=
  ⟨text, h.1, h.2.1, h.2.2.1, h.2.2.2⟩

/-- The folder of a gateway with a certificate of its own and one in a folder. -/
def gatewayFolder : Path := ⟨false, 0, [entryName "rest-gateway".toList (by decide)], nofun⟩

def keyName : Name := entryName "restSSL.key".toList (by decide)

def certificatesName : Name := entryName "certificates".toList (by decide)

theorem deleteFolder_honours_key :
    Honours gatewayFolder [gatewayFolder.below [keyName]]
      (some [(keyName, .file), (certificatesName, .directory [(keyName, .file)])]) := by
  refine ((deleteFolder_honours_iff gatewayFolder [gatewayFolder.below [keyName]] _).2 rfl
    (List.cons_ne_nil _ _) ?_).mpr ⟨?_, ?_⟩
  · intro file hfile
    exact ⟨keyName, [], List.mem_singleton.mp hfile⟩
  · intro name rest hfile
    rcases List.mem_cons.mp hfile with heq | hlater
    · cases heq
      exact iff_of_true (by decide) (by decide)
    · cases List.mem_singleton.mp hlater
      exact iff_of_false (by decide) (by decide)
  · intro name rest hdirectory hname
    rcases List.mem_cons.mp hdirectory with heq | hlater
    · cases heq
    · cases List.mem_singleton.mp hlater
      exact absurd hname (by decide)

/-- An excluded file in a directory is deleted. -/
theorem deleteFolder_nested :
    ¬ Honours gatewayFolder [gatewayFolder.below [certificatesName, keyName]]
      (some [(certificatesName, .directory [(keyName, .file)])]) := by
  intro h
  have hkept := (h.1 [certificatesName, keyName] (by decide)).mpr (by decide)
  revert hkept
  decide

end Honours

end SymbolBootstrap.FileSystemService
