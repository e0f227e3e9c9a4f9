import SymbolBootstrap.ComposeService
import SymbolBootstrap.Library.DocumentPaths

/-!
`Utils.pruneEmpty`: a document without its missing values and its empty maps and arrays. A
part is deleted on the way back from its own parts, so a map or an array that only held
parts to delete is deleted with them.
-/
namespace SymbolBootstrap.PruneEmpty

open Library.Documents Library.DocumentPaths ComposeService

/-- `_.isUndefined`. -/
def isUndefined : Value → Bool
  | .scalar .undefined => true
  | _ => false

/-- `_.isUndefined(value) || _.isNull(value) || _.isNaN(value)`. -/
def isMissing : Value → Bool
  | .scalar .undefined => true
  | .scalar .null => true
  | .scalar .nan => true
  | _ => false

/-- `_.isObject`. A date is an object as well. -/
def isObject : Value → Bool
  | .scalar _ => false
  | .str _ => false
  | .date _ => true
  | .binary _ => true
  | .array _ _ => true
  | .object _ => true

/-- `_.isEmpty`: arrays and binaries by their lengths, other objects by their fields. -/
def isEmpty : Value → Bool
  | .scalar _ => true
  | .str text => text.isEmpty
  | .date _ => true
  | .binary bytes => bytes.isEmpty
  | .array items _ => items.isEmpty
  | .object fields => fields.isEmpty

mutual

/-- `_.cloneDeep`, which copies the items of an array and none of its named fields. -/
def cloneDeep : Value → Value
  | .scalar value => .scalar value
  | .str text => .str text
  | .date time => .date time
  | .binary bytes => .binary bytes
  | .array items _ => .array (cloneDeepItems items) []
  | .object fields => .object (cloneDeepFields fields)

def cloneDeepItems : List Value → List Value
  | [] => []
  | item :: rest => cloneDeep item :: cloneDeepItems rest

def cloneDeepFields : Fields → Fields
  | [] => []
  | (name, value) :: rest => (name, cloneDeep value) :: cloneDeepFields rest

end

/-- The test of a value by what `prune` leaves of it. -/
def deletes (value pruned : Value) : Bool :=
  isMissing value || (isObject value && isEmpty pruned)

/-- `_.pull(current, undefined)`. -/
def pullUndefined (items : List Value) : List Value := items.filter fun item => !isUndefined item

mutual

def prune : Value → Value
  | .scalar value => .scalar value
  | .str text => .str text
  | .date time => .date time
  | .binary bytes => .binary bytes
  | .array items named => .array (pullUndefined (pruneItems items)) (pruneNamed named)
  | .object fields => .object (pruneNamed fields)

/-- A deleted item of an array leaves a hole, which reads as `undefined`. -/
def pruneItems : List Value → List Value
  | [] => []
  | item :: rest =>
      (if deletes item (prune item) then .undefined else prune item) :: pruneItems rest

def pruneNamed : Fields → Fields
  | [] => []
  | (name, value) :: rest =>
      if deletes value (prune value) then pruneNamed rest
      else (name, prune value) :: pruneNamed rest

end

def pruneEmpty (obj : Value) : Value := prune (cloneDeep obj)

mutual

/-- The parts of a value below it, at any depth. -/
def parts : Value → List Value
  | .scalar _ => []
  | .str _ => []
  | .date _ => []
  | .binary _ => []
  | .array items named => partsItems items ++ partsFields named
  | .object fields => partsFields fields

def partsItems : List Value → List Value
  | [] => []
  | item :: rest => item :: (parts item ++ partsItems rest)

def partsFields : Fields → List Value
  | [] => []
  | (_, value) :: rest => value :: (parts value ++ partsFields rest)

end

/-- No part below a value is missing, an empty map or an empty array. -/
def Clean (value : Value) : Prop := ∀ part ∈ parts value, deletes part part = false

/-- A leaf that stays. A date has no fields, so it counts as empty. -/
def kept : Value → Bool
  | .scalar value => !isMissing (.scalar value)
  | .str _ => true
  | .date _ => false
  | .binary bytes => !bytes.isEmpty
  | .array _ _ => false
  | .object _ => false

mutual

/-- The leaves that stay, with their paths. The items of an array are counted without those
that hold no such leaf. -/
def keptLeaves (path : Path) : Value → List (Path × Value)
  | .scalar value => [(path, Value.scalar value)].filter fun leaf => kept leaf.2
  | .str text => [(path, .str text)]
  | .date _ => []
  | .binary bytes => [(path, Value.binary bytes)].filter fun leaf => kept leaf.2
  | .array items _ => keptItems path 0 items
  | .object fields => keptFields path fields

def keptItems (path : Path) (position : ℕ) : List Value → List (Path × Value)
  | [] => []
  | item :: rest =>
      let own := keptLeaves (.index position :: path) item
      own ++ keptItems path (if own.isEmpty then position else position + 1) rest

def keptFields (path : Path) : Fields → List (Path × Value)
  | [] => []
  | (name, value) :: rest => keptLeaves (.key name :: path) value ++ keptFields path rest

end

section Pruned

theorem isMissing_prune (value : Value) : isMissing (prune value) = isMissing value := by
  cases value <;> rfl

theorem isObject_prune (value : Value) : isObject (prune value) = isObject value := by
  cases value <;> rfl

/-- What is left of a value is judged as the value was. -/
theorem deletes_prune (value : Value) :
    deletes (prune value) (prune value) = deletes value (prune value) := by
  rw [deletes, deletes, isMissing_prune, isObject_prune]

theorem isUndefined_of_kept {value : Value} (h : deletes value (prune value) = false) :
    isUndefined (prune value) = false := by
  have hmissing : isMissing (prune value) = false := by
    rw [isMissing_prune]
    exact (Bool.or_eq_false_iff.mp h).1
  cases hpruned : prune value with
  | scalar scalar =>
    cases scalar with
    | undefined => rw [hpruned] at hmissing; cases hmissing
    | null | bool _ | number _ | nan | infinity _ => rfl
  | str _ | date _ | binary _ | array _ _ | object _ => rfl

/-- The items left of an array: those that are not deleted, each pruned. -/
theorem pullUndefined_pruneItems_cons (item : Value) (rest : List Value) :
    pullUndefined (pruneItems (item :: rest)) =
      if deletes item (prune item) then pullUndefined (pruneItems rest)
      else prune item :: pullUndefined (pruneItems rest) := by
  rw [pruneItems, pullUndefined]
  cases h : deletes item (prune item) with
  | true =>
    rw [if_pos rfl, if_pos rfl, List.filter_cons_of_neg (by decide)]
    rfl
  | false =>
    rw [if_neg (by decide), if_neg (by decide),
      List.filter_cons_of_pos (by rw [isUndefined_of_kept h]; rfl)]
    rfl

mutual

theorem clean_prune : ∀ value, Clean (prune value)
  | .scalar _ => fun _ h => absurd h List.not_mem_nil
  | .str _ => fun _ h => absurd h List.not_mem_nil
  | .date _ => fun _ h => absurd h List.not_mem_nil
  | .binary _ => fun _ h => absurd h List.not_mem_nil
  | .array items named => by
    intro part hpart
    rcases List.mem_append.mp hpart with hitems | hnamed
    · exact clean_pruneItems items part hitems
    · exact clean_pruneNamed named part hnamed
  | .object fields => clean_pruneNamed fields

theorem clean_pruneItems : ∀ items,
    ∀ part ∈ partsItems (pullUndefined (pruneItems items)), deletes part part = false
  | [] => fun _ h => absurd h List.not_mem_nil
  | item :: rest => by
    rw [pullUndefined_pruneItems_cons]
    cases hitem : deletes item (prune item) with
    | true => exact clean_pruneItems rest
    | false =>
      rw [if_neg (by decide), partsItems, List.forall_mem_cons, List.forall_mem_append,
        deletes_prune]
      exact ⟨hitem, clean_prune item, clean_pruneItems rest⟩

theorem clean_pruneNamed : ∀ fields,
    ∀ part ∈ partsFields (pruneNamed fields), deletes part part = false
  | [] => fun _ h => absurd h List.not_mem_nil
  | (name, value) :: rest => by
    rw [pruneNamed]
    cases hvalue : deletes value (prune value) with
    | true => exact clean_pruneNamed rest
    | false =>
      rw [if_neg (by decide), partsFields, List.forall_mem_cons, List.forall_mem_append,
        deletes_prune]
      exact ⟨hvalue, clean_prune value, clean_pruneNamed rest⟩

end

mutual

/-- A clean value is left as it is. -/
theorem prune_of_clean : ∀ value, Clean value → prune value = value
  | .scalar _, _ => rfl
  | .str _, _ => rfl
  | .date _, _ => rfl
  | .binary _, _ => rfl
  | .array items named, h => by
    obtain ⟨hitems, hnamed⟩ := List.forall_mem_append.mp h
    rw [prune, prune_of_cleanItems items hitems, prune_of_cleanFields named hnamed]
  | .object fields, h => by
    rw [prune, prune_of_cleanFields fields h]

theorem prune_of_cleanItems : ∀ items, (∀ part ∈ partsItems items, deletes part part = false) →
    pullUndefined (pruneItems items) = items
  | [], _ => rfl
  | item :: rest, h => by
    rw [partsItems, List.forall_mem_cons, List.forall_mem_append] at h
    obtain ⟨hitem, hparts, hrest⟩ := h
    rw [pullUndefined_pruneItems_cons, prune_of_clean item hparts, hitem,
      prune_of_cleanItems rest hrest]
    rfl

theorem prune_of_cleanFields : ∀ fields,
    (∀ part ∈ partsFields fields, deletes part part = false) → pruneNamed fields = fields
  | [], _ => rfl
  | (name, value) :: rest, h => by
    rw [partsFields, List.forall_mem_cons, List.forall_mem_append] at h
    obtain ⟨hvalue, hparts, hrest⟩ := h
    rw [pruneNamed, prune_of_clean value hparts, hvalue, prune_of_cleanFields rest hrest]
    rfl

end

mutual

/-- Pruning a copy leaves a document that is copied as it is. -/
theorem cloneDeep_pruneEmpty : ∀ value, cloneDeep (pruneEmpty value) = pruneEmpty value
  | .scalar _ => rfl
  | .str _ => rfl
  | .date _ => rfl
  | .binary _ => rfl
  | .array items _ => congrArg (Value.array · []) (cloneDeepItems_pruneItems items)
  | .object fields => congrArg Value.object (cloneDeepFields_pruneNamed fields)

theorem cloneDeepItems_pruneItems : ∀ items,
    cloneDeepItems (pullUndefined (pruneItems (cloneDeepItems items))) =
      pullUndefined (pruneItems (cloneDeepItems items))
  | [] => rfl
  | item :: rest => by
    have hitem : cloneDeep (prune (cloneDeep item)) = prune (cloneDeep item) :=
      cloneDeep_pruneEmpty item
    rw [cloneDeepItems, pullUndefined_pruneItems_cons]
    cases deletes (cloneDeep item) (prune (cloneDeep item)) with
    | true => exact cloneDeepItems_pruneItems rest
    | false =>
      rw [if_neg (by decide), cloneDeepItems, hitem, cloneDeepItems_pruneItems rest]

theorem cloneDeepFields_pruneNamed : ∀ fields,
    cloneDeepFields (pruneNamed (cloneDeepFields fields)) = pruneNamed (cloneDeepFields fields)
  | [] => rfl
  | (name, value) :: rest => by
    have hvalue : cloneDeep (prune (cloneDeep value)) = prune (cloneDeep value) :=
      cloneDeep_pruneEmpty value
    rw [cloneDeepFields, pruneNamed]
    cases deletes (cloneDeep value) (prune (cloneDeep value)) with
    | true => exact cloneDeepFields_pruneNamed rest
    | false =>
      rw [if_neg (by decide), cloneDeepFields, hvalue, cloneDeepFields_pruneNamed rest]

end

end Pruned

section Leaves

mutual

/-- A value that stays and is clean has a leaf. -/
theorem leaves_ne_nil : ∀ (path : Path) (value : Value), deletes value value = false →
    Clean value → leaves path value ≠ []
  | _, .scalar _, _, _ => List.cons_ne_nil _ _
  | _, .str _, _, _ => List.cons_ne_nil _ _
  | _, .date _, _, _ => List.cons_ne_nil _ _
  | _, .binary _, _, _ => List.cons_ne_nil _ _
  | path, .array items _, h, hclean =>
    leavesItems_ne_nil path 0 items h (List.forall_mem_append.mp hclean).1
  | path, .object fields, h, hclean => leavesFields_ne_nil path fields h hclean

theorem leavesItems_ne_nil : ∀ (path : Path) (position : ℕ) (items : List Value),
    items.isEmpty = false → (∀ part ∈ partsItems items, deletes part part = false) →
    leavesItems path position items ≠ []
  | path, position, item :: rest, _, hclean => by
    rw [partsItems, List.forall_mem_cons, List.forall_mem_append] at hclean
    obtain ⟨hitem, hparts, -⟩ := hclean
    exact List.append_ne_nil_of_left_ne_nil (leaves_ne_nil _ item hitem hparts) _

theorem leavesFields_ne_nil : ∀ (path : Path) (fields : Fields),
    fields.isEmpty = false → (∀ part ∈ partsFields fields, deletes part part = false) →
    leavesFields path fields ≠ []
  | path, (name, value) :: rest, _, hclean => by
    rw [partsFields, List.forall_mem_cons, List.forall_mem_append] at hclean
    obtain ⟨hvalue, hparts, -⟩ := hclean
    exact List.append_ne_nil_of_left_ne_nil (leaves_ne_nil _ value hvalue hparts) _

end

theorem leavesItems_of_isEmpty (path : Path) (position : ℕ) {items : List Value}
    (h : items.isEmpty = true) : leavesItems path position items = [] := by
  rw [List.isEmpty_iff.mp h]
  rfl

theorem leavesFields_of_isEmpty (path : Path) {fields : Fields} (h : fields.isEmpty = true) :
    leavesFields path fields = [] := by
  rw [List.isEmpty_iff.mp h]
  rfl

mutual

theorem keptLeaves_eq : ∀ (path : Path) (value : Value), keptLeaves path value =
    if deletes value (prune value) then [] else leaves path (prune value)
  | path, .scalar value => by cases value <;> rfl
  | _, .str _ => rfl
  | _, .date _ => rfl
  | path, .binary bytes => by cases bytes <;> rfl
  | path, .array items named => by
    rw [keptLeaves, keptItems_eq path 0 items]
    cases h : deletes (.array items named) (prune (.array items named)) with
    | true => exact leavesItems_of_isEmpty path 0 h
    | false => rfl
  | path, .object fields => by
    rw [keptLeaves, keptFields_eq path fields]
    cases h : deletes (.object fields) (prune (.object fields)) with
    | true => exact leavesFields_of_isEmpty path h
    | false => rfl

theorem keptItems_eq : ∀ (path : Path) (position : ℕ) (items : List Value),
    keptItems path position items = leavesItems path position (pullUndefined (pruneItems items))
  | _, _, [] => rfl
  | path, position, item :: rest => by
    rw [keptItems, pullUndefined_pruneItems_cons, keptLeaves_eq _ item]
    cases hitem : deletes item (prune item) with
    | true => exact keptItems_eq path position rest
    | false =>
      have hleaf : leaves (.index position :: path) (prune item) ≠ [] :=
        leaves_ne_nil _ _ ((deletes_prune item).trans hitem) (clean_prune item)
      have hown : (leaves (.index position :: path) (prune item)).isEmpty = false :=
        List.isEmpty_eq_false_iff.mpr hleaf
      simp only [Bool.false_eq_true, if_false, hown]
      rw [leavesItems, keptItems_eq path (position + 1) rest]

theorem keptFields_eq : ∀ (path : Path) (fields : Fields),
    keptFields path fields = leavesFields path (pruneNamed fields)
  | _, [] => rfl
  | path, (name, value) :: rest => by
    rw [keptFields, pruneNamed, keptLeaves_eq _ value, keptFields_eq path rest]
    cases deletes value (prune value) with
    | true => rfl
    | false => rfl

end

mutual

theorem keptLeaves_cloneDeep : ∀ (path : Path) (value : Value),
    keptLeaves path (cloneDeep value) = keptLeaves path value
  | _, .scalar _ => rfl
  | _, .str _ => rfl
  | _, .date _ => rfl
  | _, .binary _ => rfl
  | path, .array items _ => keptItems_cloneDeepItems path 0 items
  | path, .object fields => keptFields_cloneDeepFields path fields

theorem keptItems_cloneDeepItems : ∀ (path : Path) (position : ℕ) (items : List Value),
    keptItems path position (cloneDeepItems items) = keptItems path position items
  | _, _, [] => rfl
  | path, position, item :: rest => by
    rw [cloneDeepItems, keptItems, keptItems, keptLeaves_cloneDeep _ item,
      keptItems_cloneDeepItems path _ rest]

theorem keptFields_cloneDeepFields : ∀ (path : Path) (fields : Fields),
    keptFields path (cloneDeepFields fields) = keptFields path fields
  | _, [] => rfl
  | path, (name, value) :: rest => by
    rw [cloneDeepFields, keptFields, keptFields, keptLeaves_cloneDeep _ value,
      keptFields_cloneDeepFields path rest]

end

/-- A leaf under the names of the fields on its path, the positions in arrays aside. -/
def named (leaf : Path × Value) : List String × Value := (keys leaf.1, leaf.2)

theorem named_filter_leaf {path path' : Path} (value : Value) (h : keys path = keys path') :
    ([(path, value)].filter fun leaf => kept leaf.2).map named =
      ([(path', value)].filter fun leaf => kept leaf.2).map named := by
  cases hkept : kept value with
  | true => simp [hkept, named, h]
  | false => simp [hkept]

mutual

/-- The leaves that stay are the kept ones among all leaves, in their order. -/
theorem named_keptLeaves : ∀ (path path' : Path) (value : Value), keys path = keys path' →
    (keptLeaves path value).map named =
      ((leaves path' value).filter fun leaf => kept leaf.2).map named
  | _, _, .scalar value, h => named_filter_leaf (.scalar value) h
  | _, _, .str text, h => congrArg (fun names => [(names, Value.str text)]) h
  | _, _, .date _, _ => rfl
  | _, _, .binary bytes, h => named_filter_leaf (.binary bytes) h
  | path, path', .array items _, h => named_keptItems path path' 0 0 items h
  | path, path', .object fields, h => named_keptFields path path' fields h

theorem named_keptItems : ∀ (path path' : Path) (position position' : ℕ) (items : List Value),
    keys path = keys path' →
    (keptItems path position items).map named =
      ((leavesItems path' position' items).filter fun leaf => kept leaf.2).map named
  | _, _, _, _, [], _ => rfl
  | path, path', position, position', item :: rest, h => by
    rw [keptItems, leavesItems, List.filter_append, List.map_append, List.map_append,
      named_keptLeaves (.index position :: path) (.index position' :: path') item h,
      named_keptItems path path' _ (position' + 1) rest h]

theorem named_keptFields : ∀ (path path' : Path) (fields : Fields), keys path = keys path' →
    (keptFields path fields).map named =
      ((leavesFields path' fields).filter fun leaf => kept leaf.2).map named
  | _, _, [], _ => rfl
  | path, path', (name, value) :: rest, h => by
    rw [keptFields, leavesFields, List.filter_append, List.map_append, List.map_append,
      named_keptLeaves (.key name :: path) (.key name :: path') value (congrArg (name :: ·) h),
      named_keptFields path path' rest h]

end

end Leaves

section Compose

mutual

/-- The parts of a docker-compose are pruned the same way. -/
theorem pruneValue_eq : ∀ value : Value, pruneValue value =
    if deletes (cloneDeep value) (pruneEmpty value) then none else some (pruneEmpty value)
  | .scalar value => by cases value <;> rfl
  | .str _ => rfl
  | .date _ => rfl
  | .binary bytes => by cases bytes <;> rfl
  | .array items named => by
    rw [pruneValue, pruneItems_eq items]
    rfl
  | .object fields => by
    rw [pruneValue, pruneFields_eq fields]
    rfl

theorem pruneItems_eq : ∀ items : List Value, ComposeService.pruneItems items =
    pullUndefined (pruneItems (cloneDeepItems items))
  | [] => rfl
  | item :: rest => by
    rw [ComposeService.pruneItems, pruneValue_eq item, pruneItems_eq rest, cloneDeepItems,
      pullUndefined_pruneItems_cons, pruneEmpty]
    cases deletes (cloneDeep item) (prune (cloneDeep item)) with
    | true => rfl
    | false => rfl

theorem pruneFields_eq : ∀ fields : Fields,
    pruneFields fields = pruneNamed (cloneDeepFields fields)
  | [] => rfl
  | (name, value) :: rest => by
    rw [pruneFields, pruneValue_eq value, pruneFields_eq rest, cloneDeepFields, pruneNamed,
      pruneEmpty]
    cases deletes (cloneDeep value) (prune (cloneDeep value)) with
    | true => rfl
    | false => rfl

end

end Compose

/-- A document is a map or an array, or a leaf that is left as it is. -/
def isContainer : Value → Bool
  | .array _ _ => true
  | .object _ => true
  | .scalar _ => false
  | .str _ => false
  | .date _ => false
  | .binary _ => false

theorem leaves_pruneEmpty (obj : Value) : leaves [] (pruneEmpty obj) =
    if isContainer obj then keptLeaves [] obj else leaves [] obj := by
  cases obj with
  | scalar _ | str _ | date _ | binary _ => rfl
  | array items _ =>
    show leavesItems [] 0 (pullUndefined (pruneItems (cloneDeepItems items))) = keptItems [] 0 items
    rw [← keptItems_eq, keptItems_cloneDeepItems]
  | object fields =>
    show leavesFields [] (pruneNamed (cloneDeepFields fields)) = keptFields [] fields
    rw [← keptFields_eq, keptFields_cloneDeepFields]

theorem isMissing_iff {value : Value} : isMissing value = true ↔
    value = .scalar .undefined ∨ value = .scalar .null ∨ value = .scalar .nan := by
  cases value with
  | scalar scalar => cases scalar <;> simp [isMissing]
  | str _ | date _ | binary _ | array _ _ | object _ => simp [isMissing]

/-- Dates and what has no bytes, items or fields. -/
theorem isEmptyObject_iff {value : Value} : (isObject value && isEmpty value) = true ↔
    (∃ time, value = .date time) ∨ value = .binary [] ∨ (∃ named, value = .array [] named) ∨
      value = .object [] := by
  cases value <;> simp [isObject, isEmpty]

/-- Below its root the result has no undefined, null or NaN, no date, and no empty binary, array
or map. -/
theorem part_pruneEmpty {obj part : Value} (hpart : part ∈ parts (pruneEmpty obj)) :
    (part ≠ .scalar .undefined ∧ part ≠ .scalar .null ∧ part ≠ .scalar .nan) ∧
      (∀ time, part ≠ .date time) ∧ part ≠ .binary [] ∧ (∀ named, part ≠ .array [] named) ∧
        part ≠ .object [] := by
  have hclean := clean_prune (cloneDeep obj) part hpart
  obtain ⟨hmissing, hempty⟩ := Bool.or_eq_false_iff.mp hclean
  rw [← Bool.not_eq_true, isMissing_iff] at hmissing
  rw [← Bool.not_eq_true, isEmptyObject_iff] at hempty
  push Not at hmissing hempty
  exact ⟨hmissing, hempty⟩

/-- The result is clean below its root and holds the leaves that stay where they were, the
items of arrays counted among those that stay. Pruning it again changes nothing. -/
theorem pruneEmpty_prunes (obj : Value) :
    (∀ part ∈ parts (pruneEmpty obj),
      isMissing part = false ∧ (isObject part && isEmpty part) = false) ∧
    leaves [] (pruneEmpty obj) = (if isContainer obj then keptLeaves [] obj else leaves [] obj) ∧
    (keptLeaves [] obj).map named =
      ((leaves [] obj).filter fun leaf => kept leaf.2).map named ∧
    pruneEmpty (pruneEmpty obj) = pruneEmpty obj := by
  refine ⟨fun part hpart => Bool.or_eq_false_iff.mp (clean_prune _ part hpart),
    leaves_pruneEmpty obj, named_keptLeaves [] [] obj rfl, ?_⟩
  calc pruneEmpty (pruneEmpty obj) = prune (pruneEmpty obj) :=
      congrArg prune (cloneDeep_pruneEmpty obj)
    _ = pruneEmpty obj := prune_of_clean _ (clean_prune _)

-- the map is empty only once its array is gone
example : pruneEmpty (.array [.object [("ports", .array [] [])], .str "", .bool false] []) =
    .array [.str "", .bool false] [] := rfl

end SymbolBootstrap.PruneEmpty
