import SymbolBootstrap.Library.Documents

/-!
The leaves of a document with their paths, and a document without the texts of some of its
fields: which leaves are left, when two ways to choose the fields leave the same, and what
two removals one after the other leave. A path leads from a part up to the root.
-/
namespace Library.DocumentPaths

open Library.Documents

/-- From an array or an object to one of its parts. -/
inductive Step
  | key (name : String)
  | index (position : ℕ)
deriving DecidableEq

abbrev Path := List Step

/-- The names of the fields on a path. -/
def keys : Path → List String
  | [] => []
  | .key name :: above => name :: keys above
  | .index _ :: above => keys above

mutual

/-- Named fields of an array are not among its leaves. -/
def leaves (path : Path) : Value → List (Path × Value)
  | .scalar value => [(path, .scalar value)]
  | .str text => [(path, .str text)]
  | .date time => [(path, .date time)]
  | .binary bytes => [(path, .binary bytes)]
  | .array items _ => leavesItems path 0 items
  | .object fields => leavesFields path fields

def leavesItems (path : Path) (position : ℕ) : List Value → List (Path × Value)
  | [] => []
  | item :: rest => leaves (.index position :: path) item ++ leavesItems path (position + 1) rest

def leavesFields (path : Path) : Fields → List (Path × Value)
  | [] => []
  | (name, value) :: rest => leaves (.key name :: path) value ++ leavesFields path rest

end

/-- The path of a leaf that is the text of a field. -/
def textPath : Path × Value → Option Path
  | (.key name :: above, .str _) => some (.key name :: above)
  | _ => none

/-- The paths of the fields that hold a text. -/
def textFields (value : Value) : List Path := (leaves [] value).filterMap textPath

/-- A text of a field stays unless its path is chosen, and everything else stays. -/
def stays (gone : Path → Bool) (leaf : Path × Value) : Bool :=
  match textPath leaf with
  | some path => !gone path
  | none => true

mutual

/-- A document without the texts of the fields that are chosen by their paths. -/
def without (gone : Path → Bool) (path : Path) : Value → Value
  | .scalar value => .scalar value
  | .str text => .str text
  | .date time => .date time
  | .binary bytes => .binary bytes
  | .array items named => .array (withoutItems gone path 0 items) named
  | .object fields => .object (withoutFields gone path fields)

def withoutItems (gone : Path → Bool) (path : Path) (position : ℕ) : List Value → List Value
  | [] => []
  | item :: rest =>
      without gone (.index position :: path) item :: withoutItems gone path (position + 1) rest

def withoutFields (gone : Path → Bool) (path : Path) : Fields → Fields
  | [] => []
  | (name, value) :: rest =>
      if stays gone (.key name :: path, value) then
        (name, without gone (.key name :: path) value) :: withoutFields gone path rest
      else withoutFields gone path rest

end

section Leaves

variable {gone : Path → Bool}

theorem stays_index (position : ℕ) (path : Path) (value : Value) :
    stays gone (.index position :: path, value) = true := by
  cases value <;> rfl

theorem textPath_of_not_text {path : Path} {value : Value} (h : ∀ text, value ≠ .str text) :
    textPath (path, value) = none := by
  cases path with
  | nil => rfl
  | cons step above =>
    cases step with
    | index position => rfl
    | key name =>
      cases value with
      | str text => exact absurd rfl (h text)
      | scalar value | date time | binary bytes | array items named | object fields => rfl

/-- Only a text does not stay. -/
theorem text_of_not_stays {path : Path} {value : Value} (h : stays gone (path, value) = false) :
    ∃ text, value = .str text := by
  by_contra hno
  have hnone : textPath (path, value) = none :=
    textPath_of_not_text fun text heq => hno ⟨text, heq⟩
  unfold stays at h
  rw [hnone] at h
  cases h

theorem filter_leaf {leaf : Path × Value} (h : stays gone leaf = true) :
    [leaf] = [leaf].filter (stays gone) := by
  rw [List.filter_cons_of_pos h, List.filter_nil]

mutual

theorem leaves_without : ∀ (path : Path) (value : Value), stays gone (path, value) = true →
    leaves path (without gone path value) = (leaves path value).filter (stays gone)
  | _, .scalar _, h => filter_leaf h
  | _, .str _, h => filter_leaf h
  | _, .date _, h => filter_leaf h
  | _, .binary _, h => filter_leaf h
  | path, .array items _, _ => leavesItems_withoutItems path 0 items
  | path, .object fields, _ => leavesFields_withoutFields path fields

theorem leavesItems_withoutItems : ∀ (path : Path) (position : ℕ) (items : List Value),
    leavesItems path position (withoutItems gone path position items) =
      (leavesItems path position items).filter (stays gone)
  | _, _, [] => rfl
  | path, position, item :: rest => by
    rw [withoutItems, leavesItems, leavesItems, List.filter_append,
      leaves_without _ item (stays_index position path item),
      leavesItems_withoutItems path (position + 1) rest]

theorem leavesFields_withoutFields : ∀ (path : Path) (fields : Fields),
    leavesFields path (withoutFields gone path fields) =
      (leavesFields path fields).filter (stays gone)
  | _, [] => rfl
  | path, (name, value) :: rest => by
    have hrest := leavesFields_withoutFields path rest
    rw [withoutFields, leavesFields, List.filter_append, ← hrest]
    cases hstays : stays gone (.key name :: path, value) with
    | true => rw [if_pos rfl, leavesFields, leaves_without _ value hstays]
    | false =>
      obtain ⟨text, rfl⟩ := text_of_not_stays hstays
      rw [if_neg (by decide), leaves, List.filter_cons_of_neg (by rw [hstays]; decide)]
      rfl

end

end Leaves

section Same

variable {gone gone' : Path → Bool}

/-- Two choices that agree on a leaf agree on the field that holds it. -/
theorem stays_eq_of_leaves {path : Path} {value : Value}
    (h : ∀ leaf ∈ leaves path value, stays gone leaf = stays gone' leaf) :
    stays gone (path, value) = stays gone' (path, value) := by
  by_cases htext : ∃ text, value = .str text
  · obtain ⟨text, rfl⟩ := htext
    exact h _ List.mem_cons_self
  · unfold stays
    rw [textPath_of_not_text fun text heq => htext ⟨text, heq⟩]

mutual

theorem without_congr : ∀ (path : Path) (value : Value),
    (∀ leaf ∈ leaves path value, stays gone leaf = stays gone' leaf) →
    without gone path value = without gone' path value
  | _, .scalar _, _ => rfl
  | _, .str _, _ => rfl
  | _, .date _, _ => rfl
  | _, .binary _, _ => rfl
  | path, .array items _, h => by
    rw [without, without, withoutItems_congr path 0 items h]
  | path, .object fields, h => by
    rw [without, without, withoutFields_congr path fields h]

theorem withoutItems_congr : ∀ (path : Path) (position : ℕ) (items : List Value),
    (∀ leaf ∈ leavesItems path position items, stays gone leaf = stays gone' leaf) →
    withoutItems gone path position items = withoutItems gone' path position items
  | _, _, [], _ => rfl
  | path, position, item :: rest, h => by
    rw [withoutItems, withoutItems,
      without_congr _ item fun leaf hleaf => h leaf (List.mem_append_left _ hleaf),
      withoutItems_congr path _ rest fun leaf hleaf => h leaf (List.mem_append_right _ hleaf)]

theorem withoutFields_congr : ∀ (path : Path) (fields : Fields),
    (∀ leaf ∈ leavesFields path fields, stays gone leaf = stays gone' leaf) →
    withoutFields gone path fields = withoutFields gone' path fields
  | _, [], _ => rfl
  | path, (name, value) :: rest, h => by
    have hvalue : ∀ leaf ∈ leaves (.key name :: path) value, stays gone leaf = stays gone' leaf :=
      fun leaf hleaf => h leaf (List.mem_append_left _ hleaf)
    rw [withoutFields, withoutFields, stays_eq_of_leaves hvalue, without_congr _ value hvalue,
      withoutFields_congr path rest fun leaf hleaf => h leaf (List.mem_append_right _ hleaf)]

end

/-- At the root two choices agree on the leaves when they agree on the fields with a text. -/
theorem stays_eq_iff {value : Value} :
    (∀ leaf ∈ leaves [] value, stays gone leaf = stays gone' leaf) ↔
      ∀ path ∈ textFields value, gone path = gone' path := by
  constructor
  · intro h path hpath
    obtain ⟨leaf, hleaf, htext⟩ := List.mem_filterMap.mp hpath
    have hstays := h leaf hleaf
    unfold stays at hstays
    rw [htext] at hstays
    exact Bool.not_inj hstays
  · intro h leaf hleaf
    unfold stays
    cases htext : textPath leaf with
    | none => rfl
    | some path =>
      show (!gone path) = !gone' path
      rw [h path (List.mem_filterMap.mpr ⟨leaf, hleaf, htext⟩)]

/-- Two choices leave the same exactly when they agree on every field with a text. -/
theorem without_eq_iff {value : Value} :
    without gone [] value = without gone' [] value ↔
      ∀ path ∈ textFields value, gone path = gone' path := by
  rw [← stays_eq_iff]
  constructor
  · intro h leaf hleaf
    have hleaves := congrArg (leaves []) h
    rw [leaves_without [] value rfl, leaves_without [] value rfl] at hleaves
    have hsame : leaf ∈ (leaves [] value).filter (stays gone) ↔
        leaf ∈ (leaves [] value).filter (stays gone') := by rw [hleaves]
    rw [List.mem_filter, List.mem_filter] at hsame
    simp only [hleaf, true_and] at hsame
    exact Bool.eq_iff_iff.mpr hsame
  · exact without_congr [] value

end Same

section Twice

variable {gone gone' : Path → Bool}

theorem textPath_without (path path' : Path) (value : Value) :
    textPath (path', without gone path value) = textPath (path', value) := by
  cases path' with
  | nil => cases value <;> rfl
  | cons step above => cases step <;> cases value <;> rfl

theorem stays_without (path path' : Path) (value : Value) :
    stays gone' (path', without gone path value) = stays gone' (path', value) := by
  unfold stays
  rw [textPath_without]

theorem stays_or (leaf : Path × Value) :
    stays (fun path => gone path || gone' path) leaf = (stays gone leaf && stays gone' leaf) := by
  unfold stays
  cases textPath leaf with
  | none => rfl
  | some path => exact Bool.not_or _ _

mutual

/-- Two removals one after the other are the removal of what either of them removes. -/
theorem without_without : ∀ (path : Path) (value : Value),
    without gone' path (without gone path value) =
      without (fun path => gone path || gone' path) path value
  | _, .scalar _ => rfl
  | _, .str _ => rfl
  | _, .date _ => rfl
  | _, .binary _ => rfl
  | path, .array items _ => by
    rw [without, without, without, withoutItems_withoutItems path 0 items]
  | path, .object fields => by
    rw [without, without, without, withoutFields_withoutFields path fields]

theorem withoutItems_withoutItems : ∀ (path : Path) (position : ℕ) (items : List Value),
    withoutItems gone' path position (withoutItems gone path position items) =
      withoutItems (fun path => gone path || gone' path) path position items
  | _, _, [] => rfl
  | path, position, item :: rest => by
    rw [withoutItems, withoutItems, withoutItems, without_without _ item,
      withoutItems_withoutItems path _ rest]

theorem withoutFields_withoutFields : ∀ (path : Path) (fields : Fields),
    withoutFields gone' path (withoutFields gone path fields) =
      withoutFields (fun path => gone path || gone' path) path fields
  | _, [] => rfl
  | path, (name, value) :: rest => by
    have hrest := withoutFields_withoutFields path rest
    rw [withoutFields, withoutFields, stays_or]
    cases stays gone (.key name :: path, value) with
    | false => exact hrest
    | true =>
      rw [if_pos rfl, withoutFields, stays_without, without_without _ value, hrest,
        Bool.true_and]

end

end Twice

end Library.DocumentPaths
