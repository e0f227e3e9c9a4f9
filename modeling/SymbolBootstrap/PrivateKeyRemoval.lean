import Mathlib.Data.List.TakeWhile
import SymbolBootstrap.EncryptionRoundTrip
import SymbolBootstrap.Library.DocumentPaths

/-!
What `removePrivateKeys` takes away, told by the paths of the fields alone. On its way down
the code gives up the blacklist below a name that it matches; from the root this is the same
as a look at all names on the path. The empty name is an exception: `find` gives it back when
it matches, it counts as no match, and the names that follow it in the blacklist are not reached.
-/
namespace SymbolBootstrap.PrivateKeyRemoval

open Library.CaseMapping Library.Documents Library.DocumentPaths CryptoUtils EncryptionRoundTrip

section Rebuilt

/-- The bytes of a binary are no texts. -/
theorem withoutFields_byteFields (gone : Path → Bool) (path : Path) (bytes : List UInt8) :
    withoutFields gone path (byteFields bytes) = byteFields bytes := by
  refine byteFields_induction (motive := fun fields => withoutFields gone path fields = fields)
    rfl ?_ bytes
  intro name value rest ih
  rw [withoutFields, ih]
  rfl

theorem textPath_leavesFields_byteFields (path : Path) (bytes : List UInt8) :
    (leavesFields path (byteFields bytes)).filterMap textPath = [] := by
  refine byteFields_induction
    (motive := fun fields => (leavesFields path fields).filterMap textPath = []) rfl ?_ bytes
  intro name value rest ih
  rw [leavesFields, List.filterMap_append, ih]
  rfl

theorem isPlainFields_byteFields (bytes : List UInt8) :
    isPlainFields (byteFields bytes) = true := by
  refine byteFields_induction (motive := fun fields => isPlainFields fields = true) rfl ?_ bytes
  intro name value rest ih
  exact ih

mutual

theorem isPlain_rebuilt : ∀ value, isPlain (rebuilt value) = true
  | .scalar _ => rfl
  | .str _ => rfl
  | .date _ => rfl
  | .binary bytes => isPlainFields_byteFields bytes
  | .array items _ => by
    rw [rebuilt, isPlain, isPlainItems_rebuiltItems items]
    rfl
  | .object fields => isPlainFields_rebuiltFields fields

theorem isPlainItems_rebuiltItems : ∀ items, isPlainItems (rebuiltItems items) = true
  | [] => rfl
  | item :: rest => by
    rw [rebuiltItems, isPlainItems, isPlain_rebuilt item, isPlainItems_rebuiltItems rest]
    rfl

theorem isPlainFields_rebuiltFields : ∀ fields, isPlainFields (rebuiltFields fields) = true
  | [] => rfl
  | (name, value) :: rest => by
    rw [rebuiltFields, isPlainFields, isPlain_rebuilt value, isPlainFields_rebuiltFields rest]
    rfl

end

mutual

/-- Texts are plain, so a document is as plain without some of them. -/
theorem isPlain_without (gone : Path → Bool) : ∀ (path : Path) (value : Value),
    isPlain (without gone path value) = isPlain value
  | _, .scalar _ => rfl
  | _, .str _ => rfl
  | _, .date _ => rfl
  | _, .binary _ => rfl
  | path, .array items _ => by
    rw [without, isPlain, isPlain, isPlainItems_withoutItems gone path 0 items]
  | path, .object fields => isPlainFields_withoutFields gone path fields

theorem isPlainItems_withoutItems (gone : Path → Bool) :
    ∀ (path : Path) (position : ℕ) (items : List Value),
    isPlainItems (withoutItems gone path position items) = isPlainItems items
  | _, _, [] => rfl
  | path, position, item :: rest => by
    rw [withoutItems, isPlainItems, isPlainItems, isPlain_without gone _ item,
      isPlainItems_withoutItems gone path _ rest]

theorem isPlainFields_withoutFields (gone : Path → Bool) : ∀ (path : Path) (fields : Fields),
    isPlainFields (withoutFields gone path fields) = isPlainFields fields
  | _, [] => rfl
  | path, (name, value) :: rest => by
    have hrest := isPlainFields_withoutFields gone path rest
    rw [withoutFields, isPlainFields]
    cases hstays : stays gone (.key name :: path, value) with
    | true => rw [if_pos rfl, isPlainFields, isPlain_without gone _ value, hrest]
    | false =>
      obtain ⟨text, rfl⟩ := text_of_not_stays hstays
      rw [if_neg (by decide), hrest]
      rfl

end

mutual

theorem textPath_leaves_rebuilt : ∀ (path : Path) (value : Value),
    (leaves path (rebuilt value)).filterMap textPath = (leaves path value).filterMap textPath
  | _, .scalar _ => rfl
  | _, .str _ => rfl
  | path, .date time => by
    have hnone : textPath (path, .date time) = none := textPath_of_not_text fun _ h => nomatch h
    show [] = [(path, Value.date time)].filterMap textPath
    rw [List.filterMap_cons, hnone]
    rfl
  | path, .binary bytes => by
    have hnone : textPath (path, .binary bytes) = none :=
      textPath_of_not_text fun _ h => nomatch h
    show (leavesFields path (byteFields bytes)).filterMap textPath =
      [(path, Value.binary bytes)].filterMap textPath
    rw [textPath_leavesFields_byteFields, List.filterMap_cons, hnone]
    rfl
  | path, .array items _ => textPath_leavesItems_rebuiltItems path 0 items
  | path, .object fields => textPath_leavesFields_rebuiltFields path fields

theorem textPath_leavesItems_rebuiltItems : ∀ (path : Path) (position : ℕ) (items : List Value),
    (leavesItems path position (rebuiltItems items)).filterMap textPath =
      (leavesItems path position items).filterMap textPath
  | _, _, [] => rfl
  | path, position, item :: rest => by
    rw [rebuiltItems, leavesItems, leavesItems, List.filterMap_append, List.filterMap_append,
      textPath_leaves_rebuilt _ item, textPath_leavesItems_rebuiltItems path _ rest]

theorem textPath_leavesFields_rebuiltFields : ∀ (path : Path) (fields : Fields),
    (leavesFields path (rebuiltFields fields)).filterMap textPath =
      (leavesFields path fields).filterMap textPath
  | _, [] => rfl
  | path, (name, value) :: rest => by
    rw [rebuiltFields, leavesFields, leavesFields, List.filterMap_append, List.filterMap_append,
      textPath_leaves_rebuilt _ value, textPath_leavesFields_rebuiltFields path rest]

end

theorem textFields_rebuilt (value : Value) : textFields (rebuilt value) = textFields value :=
  textPath_leaves_rebuilt [] value

end Rebuilt

section Find

/-- The names that `find` can answer with. -/
def beforeEmpty (names : List String) : List String := names.takeWhile (· ≠ "")

/-- The text that `find` gives back is truthy when a text before the empty one is found. -/
theorem find_truthy {found : String → Bool} (hempty : found "" = true) : ∀ names : List String,
    decide ((names.find? found).getD "" ≠ "") = (beforeEmpty names).any found
  | [] => rfl
  | first :: rest => by
    by_cases hfirst : first = ""
    · subst hfirst
      rw [List.find?_cons_of_pos hempty]
      rfl
    · have htake : beforeEmpty (first :: rest) = first :: beforeEmpty rest :=
        List.takeWhile_cons_of_pos (decide_eq_true hfirst)
      rw [htake, List.any_cons]
      cases hfound : found first with
      | true =>
        rw [List.find?_cons_of_pos hfound, Bool.true_or]
        exact decide_eq_true hfirst
      | false =>
        rw [List.find?_cons_of_neg (by rw [hfound]; decide), Bool.false_or]
        exact find_truthy hempty rest

theorem mem_beforeEmpty {name : String} {names : List String} (h : name ∈ beforeEmpty names) :
    name ∈ names ∧ name ≠ "" := by
  refine ⟨(List.takeWhile_sublist _).mem h, ?_⟩
  exact of_decide_eq_true (List.mem_takeWhile_imp (p := fun name => decide (name ≠ "")) h)

theorem beforeEmpty_of_not_mem {names : List String} (h : "" ∉ names) :
    beforeEmpty names = names := by
  refine List.takeWhile_eq_self_iff.mpr fun name hname => ?_
  refine decide_eq_true fun heq => ?_
  rw [heq] at hname
  exact h hname

end Find

theorem blacklistNames_not_empty (mode : PrivateKeySecurityMode) : "" ∉ blacklistNames mode := by
  cases mode <;> decide

/-- From each mode to a later one the names grow, and the last one removes every private key. -/
theorem blacklistNames_grow : securityModes.Pairwise fun mode mode' =>
    blacklistNames mode' = [] ∨ blacklistNames mode ≠ [] ∧
      ∀ name ∈ blacklistNames mode, name ∈ blacklistNames mode' := by
  decide

section Removal

variable [LowerCase]

/-- A field under the name of a private key. -/
def isPrivateKeyPath : Path → Bool
  | .key name :: _ => isEncryptableKey name
  | _ => false

/-- Whether the name of a field contains one of the names, whatever the case. -/
def mentions (names : List String) (fieldName : String) : Bool :=
  names.any fun name => contains (LowerCase.toLowerCase fieldName) (LowerCase.toLowerCase name)

def isNamed (names : List String) (path : Path) : Bool := (keys path).any (mentions names)

/-- The private keys to remove: all, or those with a name of the blacklist on their path. -/
def removed (names : List String) (path : Path) : Bool :=
  isPrivateKeyPath path && (names.isEmpty || isNamed names path)

/-- The private keys that the code removes. -/
def reached (names : List String) (path : Path) : Bool :=
  isPrivateKeyPath path && (keys path).any (isBlacklisted names)

/-- The blacklist that is left on a path. -/
def below (names : List String) (path : Path) : List String :=
  if (keys path).any (isBlacklisted names) then [] else names

theorem isBlacklisted_below (names : List String) (path : Path) (name : String) :
    isBlacklisted (below names path) name =
      (keys (.key name :: path)).any (isBlacklisted names) := by
  rw [below, keys, List.any_cons]
  cases (keys path).any (isBlacklisted names) with
  | true => rw [if_pos rfl, Bool.or_true]; rfl
  | false => rw [if_neg (by decide), Bool.or_false]

theorem below_key (names : List String) (path : Path) (name : String) :
    (if isBlacklisted (below names path) name then [] else below names path) =
      below names (.key name :: path) := by
  rw [isBlacklisted_below]
  unfold below
  rw [keys, List.any_cons]
  cases isBlacklisted names name <;> cases (keys path).any (isBlacklisted names) <;> rfl

/-- The code tests the field with the blacklist that is left. -/
theorem stays_reached (names : List String) (path : Path) (name : String) (value : Value) :
    stays (reached names) (.key name :: path, value) =
      !(isBlacklisted (below names path) name && isEncryptableKeyField value name) := by
  rw [isBlacklisted_below]
  cases value with
  | str text =>
    show (!(isEncryptableKey name && _)) = !(_ && isEncryptableKey name)
    rw [Bool.and_comm]
  | scalar value | date time | binary bytes | array items named | object fields =>
    exact (congrArg Bool.not (Bool.and_false _)).symm

mutual

theorem removePrivateKeys_below (names : List String) : ∀ (path : Path) (value : Value),
    removePrivateKeys (below names path) value = without (reached names) path (rebuilt value)
  | _, .scalar _ => rfl
  | _, .str _ => rfl
  | _, .date _ => rfl
  | path, .binary bytes => by
    rw [removePrivateKeys, rebuilt, without, withoutFields_byteFields]
  | path, .array items _ => by
    rw [removePrivateKeys, rebuilt, without, removePrivateKeysItems_below names path 0 items]
  | path, .object fields => by
    rw [removePrivateKeys, rebuilt, without, removePrivateKeysFields_below names path fields]

theorem removePrivateKeysItems_below (names : List String) :
    ∀ (path : Path) (position : ℕ) (items : List Value),
    removePrivateKeysItems (below names path) items =
      withoutItems (reached names) path position (rebuiltItems items)
  | _, _, [] => rfl
  | path, position, item :: rest => by
    rw [removePrivateKeysItems, rebuiltItems, withoutItems,
      ← removePrivateKeys_below names (.index position :: path) item,
      removePrivateKeysItems_below names path (position + 1) rest]
    rfl

theorem removePrivateKeysFields_below (names : List String) : ∀ (path : Path) (fields : Fields),
    removePrivateKeysFields (below names path) fields =
      withoutFields (reached names) path (rebuiltFields fields)
  | _, [] => rfl
  | path, (name, value) :: rest => by
    have hfield :
        isEncryptableKeyField (rebuilt value) name = isEncryptableKeyField value name := by
      cases value <;> rfl
    rw [removePrivateKeysFields, rebuiltFields, withoutFields, stays_reached, hfield, below_key,
      removePrivateKeys_below names (.key name :: path) value,
      removePrivateKeysFields_below names path rest]
    cases isBlacklisted (below names path) name && isEncryptableKeyField value name <;> rfl

end

/-- `removePrivateKeys` rebuilds the value without the private keys that it reaches. -/
theorem removePrivateKeys_eq (names : List String) (value : Value) :
    removePrivateKeys names value = without (reached names) [] (rebuilt value) :=
  removePrivateKeys_below names [] value

theorem contains_empty (name : String) :
    contains (LowerCase.toLowerCase name) (LowerCase.toLowerCase "") = true := by
  rw [LowerCase.empty]
  exact decide_eq_true (List.nil_infix)

theorem isBlacklisted_eq (names : List String) :
    isBlacklisted names = fun name => names.isEmpty || mentions (beforeEmpty names) name := by
  funext name
  rw [isBlacklisted, find_truthy (contains_empty name)]
  rfl

theorem key_of_isPrivateKeyPath {path : Path} (h : isPrivateKeyPath path = true) :
    ∃ name above, path = .key name :: above := by
  cases path with
  | nil => cases h
  | cons step above =>
    cases step with
    | index position => cases h
    | key name => exact ⟨name, above, rfl⟩

theorem reached_eq (names : List String) (path : Path) :
    reached names path =
      (isPrivateKeyPath path && (names.isEmpty || isNamed (beforeEmpty names) path)) := by
  unfold reached isNamed
  rw [isBlacklisted_eq]
  cases hkey : isPrivateKeyPath path with
  | false => rfl
  | true =>
    obtain ⟨name, above, rfl⟩ := key_of_isPrivateKeyPath hkey
    cases names with
    | nil => rw [keys, List.any_cons]; rfl
    | cons first rest => rfl

theorem isNamed_iff {names : List String} {path : Path} :
    isNamed names path = true ↔ ∃ fieldName ∈ keys path, ∃ name ∈ names,
      contains (LowerCase.toLowerCase fieldName) (LowerCase.toLowerCase name) = true := by
  simp only [isNamed, mentions, List.any_eq_true]

theorem isNamed_mono {names names' : List String} {path : Path}
    (hsub : ∀ name ∈ names, name ∈ names') (h : isNamed names path = true) :
    isNamed names' path = true := by
  obtain ⟨fieldName, hkey, name, hname, hcontains⟩ := isNamed_iff.mp h
  exact isNamed_iff.mpr ⟨fieldName, hkey, name, hsub name hname, hcontains⟩

/-- The empty name is in the name of every field. -/
theorem isNamed_of_empty {names : List String} {path : Path} (hempty : "" ∈ names)
    (hkey : isPrivateKeyPath path = true) : isNamed names path = true := by
  obtain ⟨name, above, rfl⟩ := key_of_isPrivateKeyPath hkey
  exact isNamed_iff.mpr ⟨name, List.mem_cons_self, "", hempty, contains_empty name⟩

theorem reached_of_key {names : List String} {path : Path} (hnames : names ≠ [])
    (hkey : isPrivateKeyPath path = true) :
    reached names path = isNamed (beforeEmpty names) path := by
  rw [reached_eq, hkey, Bool.true_and, List.isEmpty_eq_false_iff.mpr hnames, Bool.false_or]

theorem reached_of_not_key {names : List String} {path : Path}
    (hkey : isPrivateKeyPath path = false) : reached names path = false := by
  rw [reached_eq, hkey, Bool.false_and]

/-- The private keys with a name of the blacklist on their path go, and nothing else does. -/
structure ExactEffect (names : List String) (value : Value) : Prop where
  document : removePrivateKeys names value = without (removed names) [] value
  leaves : leaves [] (removePrivateKeys names value) =
    (leaves [] value).filter (stays (removed names))

/-- No private key is named by the blacklist only from its first empty name on. -/
def NamesReach (names : List String) (value : Value) : Prop :=
  names = [] ∨ "" ∉ names ∨ ∀ path ∈ textFields value, isPrivateKeyPath path = true →
    isNamed (beforeEmpty names) path = true

/-- The code and the paths agree exactly when the names before the empty one are enough. -/
theorem reached_eq_removed_iff {names : List String} {value : Value} :
    (∀ path ∈ textFields value, reached names path = removed names path) ↔
      NamesReach names value := by
  by_cases hnil : names = []
  · subst hnil
    refine iff_of_true (fun path _ => ?_) (Or.inl rfl)
    rw [reached_eq]
    rfl
  by_cases hempty : "" ∈ names
  · constructor
    · intro h
      refine Or.inr (Or.inr fun path hpath hkey => ?_)
      have hsame := h path hpath
      rw [reached_of_key hnil hkey, removed, hkey, isNamed_of_empty hempty hkey,
        Bool.or_true] at hsame
      exact hsame
    · intro h path hpath
      have hreach := (h.resolve_left hnil).resolve_left (fun hno => hno hempty)
      cases hkey : isPrivateKeyPath path with
      | false => rw [reached_of_not_key hkey, removed, hkey, Bool.false_and]
      | true =>
        rw [reached_of_key hnil hkey, hreach path hpath hkey, removed, hkey,
          isNamed_of_empty hempty hkey, Bool.or_true]
        rfl
  · refine iff_of_true (fun path _ => ?_) (Or.inr (Or.inl hempty))
    rw [reached_eq, beforeEmpty_of_not_mem hempty]
    rfl

theorem exactEffect_iff {names : List String} {value : Value} :
    ExactEffect names value ↔ isPlain value = true ∧ NamesReach names value := by
  rw [← reached_eq_removed_iff, ← without_eq_iff]
  constructor
  · rintro ⟨hdocument, -⟩
    rw [removePrivateKeys_eq] at hdocument
    have hplain : isPlain value = true := by
      have hsame := congrArg isPlain hdocument
      rw [isPlain_without, isPlain_without, isPlain_rebuilt] at hsame
      exact hsame.symm
    rw [(rebuilt_eq_iff value).mpr hplain] at hdocument
    exact ⟨hplain, hdocument⟩
  · rintro ⟨hplain, hsame⟩
    have hdocument : removePrivateKeys names value = without (removed names) [] value := by
      rw [removePrivateKeys_eq, (rebuilt_eq_iff value).mpr hplain, hsame]
    exact ⟨hdocument, by rw [hdocument, leaves_without [] value rfl]⟩

section Union

variable {names names' union : List String} {value : Value}

/-- Two removals are the removal for the names of both, in whatever order these stand. -/
def UnionEffect (names names' : List String) (value : Value) : Prop :=
  ∀ union : List String, (∀ name, name ∈ union ↔ name ∈ names ∨ name ∈ names') →
    removePrivateKeys names' (removePrivateKeys names value) = removePrivateKeys union value

/-- Neither list has the empty name, or the other names of the lists name no private key. -/
def UnionReach (names names' : List String) (value : Value) : Prop :=
  ("" ∉ names ∧ "" ∉ names') ∨ ∀ path ∈ textFields value, isPrivateKeyPath path = true →
    isNamed ((names ++ names').filter (· ≠ "")) path = false

theorem removePrivateKeys_twice_iff :
    removePrivateKeys names' (removePrivateKeys names value) = removePrivateKeys union value ↔
      ∀ path ∈ textFields value,
        (reached names path || reached names' path) = reached union path := by
  have hplain : rebuilt (without (reached names) [] (rebuilt value)) =
      without (reached names) [] (rebuilt value) := by
    rw [rebuilt_eq_iff, isPlain_without, isPlain_rebuilt]
  rw [removePrivateKeys_eq, removePrivateKeys_eq, removePrivateKeys_eq, hplain, without_without,
    without_eq_iff, textFields_rebuilt]

omit [LowerCase] in
theorem union_ne_nil (hnames : names ≠ [])
    (hunion : ∀ name, name ∈ union ↔ name ∈ names ∨ name ∈ names') : union ≠ [] := by
  obtain ⟨name, hname⟩ := List.exists_mem_of_ne_nil names hnames
  exact List.ne_nil_of_mem ((hunion name).mpr (Or.inl hname))

theorem unionEffect_of_not_mem (hnames : names ≠ []) (hnames' : names' ≠ [])
    (hempty : "" ∉ names) (hempty' : "" ∉ names') : UnionEffect names names' value := by
  intro union hunion
  have hnil := union_ne_nil hnames hunion
  have hno : "" ∉ union := fun hin => ((hunion "").mp hin).elim hempty hempty'
  refine removePrivateKeys_twice_iff.mpr fun path _ => ?_
  cases hkey : isPrivateKeyPath path with
  | false => rw [reached_of_not_key hkey, reached_of_not_key hkey, reached_of_not_key hkey]; rfl
  | true =>
    rw [reached_of_key hnames hkey, reached_of_key hnames' hkey, reached_of_key hnil hkey,
      beforeEmpty_of_not_mem hempty, beforeEmpty_of_not_mem hempty', beforeEmpty_of_not_mem hno,
      Bool.eq_iff_iff, Bool.or_eq_true]
    constructor
    · rintro (h | h)
      · exact isNamed_mono (fun name hname => (hunion name).mpr (Or.inl hname)) h
      · exact isNamed_mono (fun name hname => (hunion name).mpr (Or.inr hname)) h
    · intro h
      obtain ⟨fieldName, hfield, name, hname, hcontains⟩ := isNamed_iff.mp h
      refine ((hunion name).mp hname).imp (fun hin => ?_) fun hin => ?_
      · exact isNamed_iff.mpr ⟨fieldName, hfield, name, hin, hcontains⟩
      · exact isNamed_iff.mpr ⟨fieldName, hfield, name, hin, hcontains⟩

/-- Names of which no private key has one remove nothing. -/
theorem reached_of_filter {part all : List String} {path : Path} (hpart : part ≠ [])
    (hsub : ∀ name ∈ part, name ∈ all)
    (hall : isPrivateKeyPath path = true → isNamed (all.filter (· ≠ "")) path = false) :
    reached part path = false := by
  cases hkey : isPrivateKeyPath path with
  | false => exact reached_of_not_key hkey
  | true =>
    rw [reached_of_key hpart hkey]
    refine Bool.eq_false_iff.mpr fun h => ?_
    have hnamed : isNamed (all.filter (· ≠ "")) path = true := by
      refine isNamed_mono (fun name hname => ?_) h
      obtain ⟨hin, hne⟩ := mem_beforeEmpty hname
      exact List.mem_filter.mpr ⟨hsub name hin, decide_eq_true hne⟩
    rw [hall hkey] at hnamed
    cases hnamed

theorem unionEffect_of_filter (hnames : names ≠ []) (hnames' : names' ≠ [])
    (h : ∀ path ∈ textFields value, isPrivateKeyPath path = true →
      isNamed ((names ++ names').filter (· ≠ "")) path = false) :
    UnionEffect names names' value := by
  intro union hunion
  refine removePrivateKeys_twice_iff.mpr fun path hpath => ?_
  have hnone := h path hpath
  rw [reached_of_filter hnames (fun name hname => List.mem_append_left _ hname) hnone,
    reached_of_filter hnames' (fun name hname => List.mem_append_right _ hname) hnone,
    reached_of_filter (union_ne_nil hnames hunion)
      (fun name hname => List.mem_append.mpr ((hunion name).mp hname)) hnone]
  rfl

/-- With an empty name, the union that begins with it removes nothing, and the union that
ends with it removes what any other name reaches. -/
theorem filter_of_unionEffect (hempty : "" ∈ names ++ names')
    (h : UnionEffect names names' value) : ∀ path ∈ textFields value,
    isPrivateKeyPath path = true → isNamed ((names ++ names').filter (· ≠ "")) path = false := by
  intro path hpath hkey
  have hfirst := h ("" :: (names ++ names')) fun name => by
    rw [List.mem_cons, ← List.mem_append]
    exact ⟨fun hname => hname.elim (fun heq => heq ▸ hempty) id, Or.inr⟩
  have hlast := h ((names ++ names').filter (· ≠ "") ++ [""]) fun name => by
    rw [← List.mem_append, List.mem_append, List.mem_filter, List.mem_singleton]
    refine ⟨fun hname => hname.elim And.left fun heq => heq ▸ hempty, fun hname => ?_⟩
    by_cases hname' : name = ""
    · exact Or.inr hname'
    · exact Or.inl ⟨hname, decide_eq_true hname'⟩
  have hreached := removePrivateKeys_twice_iff.mp hfirst path hpath
  rw [removePrivateKeys_twice_iff.mp hlast path hpath,
    reached_of_key (List.append_ne_nil_of_right_ne_nil _ (List.cons_ne_nil _ _)) hkey,
    reached_of_key (List.cons_ne_nil _ _) hkey] at hreached
  have hbefore : beforeEmpty ((names ++ names').filter (· ≠ "") ++ [""]) =
      (names ++ names').filter (· ≠ "") := by
    rw [beforeEmpty, List.takeWhile_append_of_pos fun name hname => (List.mem_filter.mp hname).2]
    exact List.append_nil _
  rw [hbefore] at hreached
  rw [hreached]
  exact Bool.eq_false_iff.mpr fun hnamed => by
    obtain ⟨_, _, name, hname, _⟩ := isNamed_iff.mp hnamed
    exact List.not_mem_nil hname

theorem unionEffect_iff (hnames : names ≠ []) (hnames' : names' ≠ []) :
    UnionEffect names names' value ↔ UnionReach names names' value := by
  constructor
  · intro h
    by_cases hempty : "" ∈ names ++ names'
    · exact Or.inr (filter_of_unionEffect hempty h)
    · rw [List.mem_append, not_or] at hempty
      exact Or.inl hempty
  · rintro (⟨hempty, hempty'⟩ | h)
    · exact unionEffect_of_not_mem hnames hnames' hempty hempty'
    · exact unionEffect_of_filter hnames hnames' h

end Union

section Modes

theorem reached_mode (mode : PrivateKeySecurityMode) (path : Path) :
    reached (blacklistNames mode) path = removed (blacklistNames mode) path := by
  rw [reached_eq, beforeEmpty_of_not_mem (blacklistNames_not_empty mode)]
  rfl

theorem removed_mono {names names' : List String} {path : Path}
    (hgrow : names' = [] ∨ names ≠ [] ∧ ∀ name ∈ names, name ∈ names')
    (h : removed names path = true) : removed names' path = true := by
  obtain ⟨hkey, hnamed⟩ := Bool.and_eq_true_iff.mp h
  refine Bool.and_eq_true_iff.mpr ⟨hkey, Bool.or_eq_true_iff.mpr ?_⟩
  rcases hgrow with rfl | ⟨hnil, hsub⟩
  · exact Or.inl rfl
  · rw [List.isEmpty_eq_false_iff.mpr hnil, Bool.false_or] at hnamed
    exact Or.inr (isNamed_mono hsub hnamed)

/-- What stays in a mode stays in every mode before it. -/
theorem leaves_mode_sublist (value : Value) : securityModes.Pairwise fun mode mode' =>
    (leaves [] (removePrivateKeysAccordingToSecurityMode value mode')).Sublist
      (leaves [] (removePrivateKeysAccordingToSecurityMode value mode)) := by
  refine blacklistNames_grow.imp fun {mode mode'} hgrow => ?_
  unfold removePrivateKeysAccordingToSecurityMode
  rw [removePrivateKeys_eq, removePrivateKeys_eq, leaves_without [] _ rfl,
    leaves_without [] _ rfl]
  refine List.monotone_filter_right _ fun leaf hstays => ?_
  unfold stays at hstays ⊢
  cases htext : textPath leaf with
  | none => rfl
  | some path =>
    rw [htext] at hstays
    simp only [reached_mode, Bool.not_eq_true'] at hstays ⊢
    refine Bool.eq_false_iff.mpr fun hremoved => ?_
    rw [removed_mono hgrow hremoved] at hstays
    cases hstays

end Modes

/-- The exact effect of `removePrivateKeys`, of two removals in a row and of the modes. -/
theorem removePrivateKeys_exactly (value : Value) :
    (∀ names, ExactEffect names value ↔ isPlain value = true ∧ NamesReach names value) ∧
    (∀ names names' : List String, names ≠ [] → names' ≠ [] →
      (UnionEffect names names' value ↔ UnionReach names names' value)) ∧
    securityModes.Pairwise fun mode mode' =>
      (leaves [] (removePrivateKeysAccordingToSecurityMode value mode')).Sublist
        (leaves [] (removePrivateKeysAccordingToSecurityMode value mode)) :=
  ⟨fun _ => exactEffect_iff, fun _ _ hnames hnames' => unionEffect_iff hnames hnames',
    leaves_mode_sublist value⟩

end Removal

theorem removePrivateKeys_exactly_account :
    ExactEffect ["main"] (.object [("main", .object [("privateKey", .str "ab12")]),
      ("vrf", .object [("privateKey", .str "cd34")])]) ∧
    UnionEffect ["main"] ["voting"] (.object [("main", .object [("privateKey", .str "ab12")]),
      ("vrf", .object [("privateKey", .str "cd34")])]) :=
  ⟨((removePrivateKeys_exactly _).1 _).mpr ⟨rfl, Or.inr (Or.inl (by decide))⟩,
    ((removePrivateKeys_exactly _).2.1 _ _ (by decide) (by decide)).mpr
      (Or.inl ⟨by decide, by decide⟩)⟩

/-- A blacklist with the empty name alone names every field, and the code removes none. -/
theorem removePrivateKeys_misses_empty_name :
    ¬ ∀ names value, isPlain value = true → ExactEffect names value := by
  intro h
  have hdocument := (h [""] (.object [("privateKey", .str "ab12")]) rfl).document
  have hcode : removePrivateKeys [""] (.object [("privateKey", .str "ab12")]) =
      .object [("privateKey", .str "ab12")] := rfl
  have hpaths : without (removed [""]) [] (.object [("privateKey", .str "ab12")]) =
      .object [] := rfl
  rw [hcode, hpaths] at hdocument
  cases hdocument

end SymbolBootstrap.PrivateKeyRemoval
