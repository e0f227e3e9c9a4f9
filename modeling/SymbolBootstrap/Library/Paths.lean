import Mathlib.Data.List.DropRight

/-!
Paths of files as `join` leaves them: the steps up come first, and an absolute path has
none. Two such paths are the same when their texts are.
-/
namespace Library.Paths

/-- The name of an entry of a directory. -/
structure Name where
  text : List Char
  text_ne_nil : text ≠ []
  text_slash : '/' ∉ text
  text_dot : text ≠ ['.']
  text_dots : text ≠ ['.', '.']
deriving DecidableEq

structure Path where
  absolute : Bool
  ups : ℕ
  names : List Name
  ups_absolute : absolute = true → ups = 0
deriving DecidableEq

/-- `join(base, path)`, where only the first path can be absolute. -/
def Path.join (base path : Path) : Path where
  absolute := base.absolute
  ups := if base.absolute then 0 else base.ups + (path.ups - base.names.length)
  names := base.names.rdrop path.ups ++ path.names
  ups_absolute := fun h => if_pos h

/-- `join(base, name)`. -/
def Path.child (base : Path) (name : Name) : Path := { base with names := base.names ++ [name] }

/-- The path below a path. -/
def Path.below (base : Path) (names : List Name) : Path :=
  { base with names := base.names ++ names }

def Path.segments (path : Path) : List (List Char) :=
  List.replicate path.ups ['.', '.'] ++ path.names.map Name.text

def Path.text (path : Path) : List Char :=
  if path.absolute then '/' :: ['/'].intercalate path.segments
  else if path.segments = [] then ['.'] else ['/'].intercalate path.segments

theorem below_injective {base : Path} {names names' : List Name} :
    base.below names = base.below names' ↔ names = names' := by
  constructor
  · intro h
    exact List.append_cancel_left (congrArg Path.names h)
  · exact fun h => h ▸ rfl

/-- Without steps up, `join` puts the names one after the other. -/
theorem join_of_ups {base path : Path} (h : path.ups = 0) :
    base.join path = base.below path.names := by
  have hups : (if base.absolute then 0 else base.ups + (path.ups - base.names.length)) =
      base.ups := by
    rw [h, Nat.zero_sub, Nat.add_zero]
    cases habsolute : base.absolute with
    | true => exact (base.ups_absolute habsolute).symm
    | false => rfl
  have hnames : base.names.rdrop path.ups = base.names := by rw [h, List.rdrop_zero]
  simp only [Path.join, Path.below, hups, hnames]

theorem child_eq_join (base : Path) (name : Name) :
    base.child name = base.join ⟨false, 0, [name], nofun⟩ := by
  rw [join_of_ups rfl]
  rfl

section Text

theorem name_text_injective : Function.Injective Name.text := by
  rintro ⟨text, _, _, _, _⟩ ⟨text', _, _, _, _⟩ h
  cases h
  rfl

theorem segments_injective {path path' : Path} (habsolute : path.absolute = path'.absolute)
    (h : path.segments = path'.segments) : path = path' := by
  have hups : ∀ p : Path, (p.segments.takeWhile fun s => s = ['.', '.']).length = p.ups := by
    intro p
    rw [Path.segments, List.takeWhile_append_of_pos (by simp)]
    cases hnames : p.names with
    | nil => simp
    | cons name rest =>
      rw [List.map_cons, List.takeWhile_cons_of_neg (by simpa using name.text_dots)]
      simp
  have hsame : path.ups = path'.ups := by rw [← hups, ← hups, h]
  have hnames : path.names = path'.names := by
    rw [Path.segments, Path.segments, hsame] at h
    exact (List.map_injective_iff.mpr name_text_injective) (List.append_cancel_left h)
  obtain ⟨absolute, ups, names, _⟩ := path
  obtain ⟨absolute', ups', names', _⟩ := path'
  cases habsolute
  cases hsame
  cases hnames
  rfl

theorem segment_facts {path : Path} {s : List Char} (h : s ∈ path.segments) :
    s ≠ [] ∧ '/' ∉ s ∧ s ≠ ['.'] := by
  rcases List.mem_append.mp h with hup | hname
  · rw [List.eq_of_mem_replicate hup]
    decide
  · obtain ⟨name, -, rfl⟩ := List.mem_map.mp hname
    exact ⟨name.text_ne_nil, name.text_slash, name.text_dot⟩

theorem splitOn_segments {path : Path} (h : path.segments ≠ []) :
    (['/'].intercalate path.segments).splitOn '/' = path.segments :=
  List.splitOn_intercalate '/' (fun _ hs => (segment_facts hs).2.1) h

/-- No segment is empty, so only no segments at all give the empty text. -/
theorem intercalate_eq_nil {path : Path} (h : ['/'].intercalate path.segments = []) :
    path.segments = [] := by
  by_contra hne
  have hsplit := splitOn_segments hne
  rw [h, List.splitOn_nil] at hsplit
  have hmem : [] ∈ path.segments := hsplit ▸ List.mem_cons_self
  exact (segment_facts hmem).1 rfl

theorem intercalate_injective {path path' : Path}
    (h : ['/'].intercalate path.segments = ['/'].intercalate path'.segments) :
    path.segments = path'.segments := by
  by_cases hne : path.segments = []
  · rw [hne, List.intercalate_nil] at h
    rw [hne, intercalate_eq_nil h.symm]
  · have hne' : path'.segments ≠ [] := by
      intro hnil
      rw [hnil, List.intercalate_nil] at h
      exact hne (intercalate_eq_nil h)
    rw [← splitOn_segments hne, h, splitOn_segments hne']

/-- A relative path does not begin with a slash. -/
theorem head_of_relative {path : Path} (h : path.absolute = false) {rest : List Char} :
    path.text ≠ '/' :: rest := by
  rw [Path.text, h, if_neg Bool.false_ne_true]
  by_cases hne : path.segments = []
  · rw [if_pos hne]
    intro heq
    cases heq
  · rw [if_neg hne]
    intro heq
    have hsplit := splitOn_segments hne
    rw [heq, ← List.nil_append ('/' :: rest), List.splitOn_append_cons_self, List.splitOn_nil]
      at hsplit
    have hmem : [] ∈ path.segments := hsplit ▸ List.mem_cons_self
    exact (segment_facts hmem).1 rfl

theorem intercalate_ne_dot {path : Path} (h : path.segments ≠ []) :
    ['/'].intercalate path.segments ≠ ['.'] := by
  intro heq
  have hsplit := splitOn_segments h
  rw [heq] at hsplit
  have hmem : ['.'] ∈ path.segments := hsplit ▸ List.mem_cons_self
  exact (segment_facts hmem).2.2 rfl

/-- Texts can be compared instead of paths. -/
theorem text_injective {path path' : Path} : path.text = path'.text ↔ path = path' := by
  refine ⟨fun h => ?_, fun h => h ▸ rfl⟩
  cases habsolute : path.absolute with
  | true =>
    cases habsolute' : path'.absolute with
    | true =>
      rw [Path.text, Path.text, habsolute, habsolute', if_pos rfl, if_pos rfl, List.cons.injEq] at h
      exact segments_injective (habsolute.trans habsolute'.symm) (intercalate_injective h.2)
    | false =>
      rw [Path.text, habsolute, if_pos rfl] at h
      exact absurd h.symm (head_of_relative habsolute')
  | false =>
    cases habsolute' : path'.absolute with
    | true =>
      rw [eq_comm, Path.text, habsolute', if_pos rfl] at h
      exact absurd h.symm (head_of_relative habsolute)
    | false =>
      refine segments_injective (habsolute.trans habsolute'.symm) ?_
      rw [Path.text, Path.text, habsolute, habsolute', if_neg Bool.false_ne_true,
        if_neg Bool.false_ne_true] at h
      by_cases hne : path.segments = []
      · by_cases hne' : path'.segments = []
        · rw [hne, hne']
        · rw [if_pos hne, if_neg hne'] at h
          exact absurd h.symm (intercalate_ne_dot hne')
      · by_cases hne' : path'.segments = []
        · rw [if_neg hne, if_pos hne'] at h
          exact absurd h (intercalate_ne_dot hne)
        · rw [if_neg hne, if_neg hne'] at h
          exact intercalate_injective h

end Text

end Library.Paths
