import SymbolBootstrap.Library.Documents

/-!
Objects of documents taken apart and put together as JavaScript and lodash do: `{ ...a, ...b }`,
`_.isEmpty` and `_.merge`. No object is array-like (has a length), and no name of a field is
an index of an array that the object is merged into. A date or a binary that an object is
merged into is from then on the object of its fields. A map of the strings of the fields commutes
with all of these.
-/
namespace Library.Merging

open Library.Documents

/-- `object[name]`, when the object has the field. -/
def field : Fields → String → Option Value
  | [], _ => none
  | (name', value) :: rest, name => if name' = name then some value else field rest name

/-- `object[name] = value`. -/
def setField : Fields → String → Value → Fields
  | [], name, value => [(name, value)]
  | (name', value') :: rest, name, value =>
      if name' = name then (name', value) :: rest else (name', value') :: setField rest name value

/-- `{ ...base, ...overrides }`. -/
def spread (base overrides : Fields) : Fields :=
  overrides.foldl (fun fields entry => setField fields entry.1 entry.2) base

/-- The own fields of an object, an array, a binary or a date. -/
def ownFields : Value → Fields
  | .object fields => fields
  | .array items named => indexed 0 items ++ named
  | .binary bytes => byteFields bytes
  | .date _ => []
  | .scalar _ => []
  | .str _ => []

/-- `_.isEmpty`. -/
def isEmpty : Value → Bool
  | .object fields => fields.isEmpty
  | .array items _ => items.isEmpty
  | .binary bytes => bytes.isEmpty
  | .str text => text = ""
  | .date _ => true
  | .scalar _ => true

def isUndefined : Value → Bool
  | .scalar .undefined => true
  | _ => false

/-- `assignMergeValue`: an undefined value does not replace a field. -/
def assignMergeValue (object : Fields) (name : String) (value : Value) : Fields :=
  if isUndefined value && (field object name).isSome then object else setField object name value

/-- The items that an array is merged into. -/
def arrayItems : Option Value → List Value
  | some (.array items _) => items
  | some (.binary bytes) => byteItems bytes
  | _ => []

/-- The named fields that those of an array are merged into. -/
def arrayNamed : Option Value → Fields
  | some (.array _ named) => named
  | _ => []

/-- The fields that those of an object are merged into. -/
def objectFields : Option Value → Fields
  | some (.object fields) => fields
  | some (.array _ named) => named
  | some (.binary bytes) => byteFields bytes
  | _ => []

/-- The value that takes the merged fields of an object: an array stays one. -/
def withFields : Option Value → Fields → Value
  | some (.array items _), fields => .array items fields
  | _, fields => .object fields

/-- A binary of the source: into an array or a binary it goes byte by byte. -/
def mergeBinary (bytes : List UInt8) : Option Value → Value
  | some (.array items named) => .array (byteItems bytes ++ items.drop bytes.length) named
  | some (.binary bytes') => .array (byteItems bytes ++ (byteItems bytes').drop bytes.length) []
  | _ => .binary bytes

mutual

/-- What `baseMerge` makes of a field: the value it has, and the one from the source. -/
def mergeValue (objValue : Option Value) : Value → Value
  | .scalar value => .scalar value
  | .str text => .str text
  | .date time => .date time
  | .binary bytes => mergeBinary bytes objValue
  | .array items named =>
      .array (mergeItems (arrayItems objValue) items) (mergeFields (arrayNamed objValue) named)
  | .object fields => withFields objValue (mergeFields (objectFields objValue) fields)

def mergeItems (object : List Value) : List Value → List Value
  | [] => object
  | item :: rest =>
      match object with
      | [] => mergeValue none item :: mergeItems [] rest
      | item' :: rest' =>
          (if isUndefined item then item' else mergeValue (some item') item) ::
            mergeItems rest' rest

def mergeFields (object : Fields) : Fields → Fields
  | [] => object
  | (name, value) :: rest =>
      mergeFields (assignMergeValue object name (mergeValue (field object name) value)) rest

end

/-- `_.merge({}, ...sources)`; a source that is undefined adds nothing. -/
def merge (sources : List (Option Fields)) : Fields :=
  sources.foldl (fun object source => mergeFields object (source.getD [])) []

theorem field_setField_ne (fields : Fields) {name name' : String} (value : Value)
    (h : name' ≠ name) : field (setField fields name' value) name = field fields name := by
  induction fields with
  | nil => simp only [setField, field, if_neg h]
  | cons entry rest ih =>
    by_cases hname : entry.1 = name'
    · rw [setField, if_pos hname, field, field, hname, if_neg h, if_neg h]
    · rw [setField, if_neg hname, field, field, ih]

theorem field_spread_of_notMem {overrides : Fields} {name : String}
    (h : name ∉ overrides.map Prod.fst) (base : Fields) :
    field (spread base overrides) name = field base name := by
  induction overrides generalizing base with
  | nil => rfl
  | cons entry rest ih =>
    rw [List.map_cons, List.mem_cons, not_or] at h
    show field (spread (setField base entry.1 entry.2) rest) name = _
    rw [ih h.2, field_setField_ne base entry.2 (Ne.symm h.1)]

theorem field_setField (fields : Fields) (name : String) (value : Value) :
    field (setField fields name value) name = some value := by
  induction fields with
  | nil => rw [setField, field, if_pos rfl]
  | cons entry rest ih =>
    by_cases hname : entry.1 = name
    · rw [setField, if_pos hname, field, if_pos hname]
    · rw [setField, if_neg hname, field, if_neg hname, ih]

theorem setField_of_field {fields : Fields} {name : String} {value : Value}
    (h : field fields name = some value) : setField fields name value = fields := by
  induction fields with
  | nil => cases h
  | cons entry rest ih =>
    rw [field] at h
    by_cases hname : entry.1 = name
    · rw [if_pos hname, Option.some.injEq] at h
      rw [setField, if_pos hname, ← h]
    · rw [if_neg hname] at h
      rw [setField, if_neg hname, ih h]

/-- Fields of the same names, each there once, are recovered from the object they override. -/
theorem spread_inj {overrides overrides' : Fields}
    (hnames : overrides.map Prod.fst = overrides'.map Prod.fst)
    (hnodup : (overrides.map Prod.fst).Nodup) (base : Fields) :
    spread base overrides = spread base overrides' ↔ overrides = overrides' := by
  refine ⟨?_, fun h => by rw [h]⟩
  intro h
  induction overrides generalizing overrides' base with
  | nil => exact (List.map_eq_nil_iff.mp hnames.symm).symm
  | cons entry rest ih =>
    obtain _ | ⟨entry', rest'⟩ := overrides'
    · cases hnames
    · obtain ⟨hname, hrest⟩ := List.cons_eq_cons.mp hnames
      obtain ⟨hfirst, hothers⟩ := List.nodup_cons.mp hnodup
      have hfirst' : entry'.1 ∉ rest'.map Prod.fst := by
        rw [← hrest, ← hname]
        exact hfirst
      have hvalue : entry.2 = entry'.2 := by
        have hfield := congrArg (fun fields => field fields entry.1) h
        change field (spread (setField base entry.1 entry.2) rest) entry.1 =
          field (spread (setField base entry'.1 entry'.2) rest') entry.1 at hfield
        rw [field_spread_of_notMem hfirst, hname, field_spread_of_notMem hfirst', field_setField,
          field_setField] at hfield
        exact Option.some.inj hfield
      obtain rfl : entry = entry' := Prod.ext hname hvalue
      rw [ih hrest hothers (setField base entry.1 entry.2) h]

section

variable (f : String → String → String)

/-- A string that stands in a field is mapped, any other value is what was made of it. -/
def onString (name : String) (original mapped : Value) : Value :=
  match original with
  | .str text => .str (f name text)
  | _ => mapped

mutual

/-- The strings that stand in fields, mapped with the name of their field. -/
def mapStrings : Value → Value
  | .scalar value => .scalar value
  | .str text => .str text
  | .date time => .date time
  | .binary bytes => .binary bytes
  | .array items named => .array (mapStringsItems items) (mapStringsFields named)
  | .object fields => .object (mapStringsFields fields)

def mapStringsItems : List Value → List Value
  | [] => []
  | item :: rest => mapStrings item :: mapStringsItems rest

def mapStringsFields : Fields → Fields
  | [] => []
  | (name, value) :: rest =>
      (name, onString f name value (mapStrings value)) :: mapStringsFields rest

end

/-- The value of a field, mapped. -/
def mapField (name : String) (value : Value) : Value := onString f name value (mapStrings f value)

end

section

variable {f : String → String → String}

theorem field_mapStrings (fields : Fields) (name : String) :
    field (mapStringsFields f fields) name = (field fields name).map (mapField f name) := by
  induction fields with
  | nil => rfl
  | cons entry rest ih =>
    obtain ⟨name', value⟩ := entry
    simp only [mapStringsFields, field]
    by_cases hname : name' = name
    · rw [if_pos hname, if_pos hname, Option.map_some, hname]
      rfl
    · rw [if_neg hname, if_neg hname, ih]

theorem setField_mapStrings (fields : Fields) (name : String) (value : Value) :
    mapStringsFields f (setField fields name value) =
      setField (mapStringsFields f fields) name (mapField f name value) := by
  induction fields with
  | nil => rfl
  | cons entry rest ih =>
    obtain ⟨name', value'⟩ := entry
    simp only [setField, mapStringsFields]
    by_cases hname : name' = name
    · rw [if_pos hname, if_pos hname, mapStringsFields, hname]
      rfl
    · rw [if_neg hname, if_neg hname, mapStringsFields, ih]

theorem spread_mapStrings (base overrides : Fields) :
    mapStringsFields f (spread base overrides) =
      spread (mapStringsFields f base) (mapStringsFields f overrides) := by
  induction overrides generalizing base with
  | nil => rfl
  | cons entry rest ih =>
    obtain ⟨name, value⟩ := entry
    show mapStringsFields f (spread (setField base name value) rest) = _
    rw [ih, setField_mapStrings]
    rfl

theorem isUndefined_mapField (name : String) (value : Value) :
    isUndefined (mapField f name value) = isUndefined value := by
  cases value <;> rfl

theorem isUndefined_mapStrings (value : Value) :
    isUndefined (mapStrings f value) = isUndefined value := by
  cases value <;> rfl

theorem assignMergeValue_mapStrings (fields : Fields) (name : String) (value : Value) :
    mapStringsFields f (assignMergeValue fields name value) =
      assignMergeValue (mapStringsFields f fields) name (mapField f name value) := by
  unfold assignMergeValue
  rw [isUndefined_mapField, field_mapStrings, Option.isSome_map, ← setField_mapStrings]
  split <;> rfl

theorem mapStringsItems_eq_map (items : List Value) :
    mapStringsItems f items = items.map (mapStrings f) := by
  induction items with
  | nil => rfl
  | cons item rest ih => rw [mapStringsItems, ih, List.map_cons]

theorem mapStringsFields_append (front back : Fields) :
    mapStringsFields f (front ++ back) = mapStringsFields f front ++ mapStringsFields f back := by
  induction front with
  | nil => rfl
  | cons entry rest ih =>
    obtain ⟨name, value⟩ := entry
    rw [List.cons_append, mapStringsFields, mapStringsFields, ih, List.cons_append]

/-- The bytes of a binary are no strings. -/
theorem map_mapStrings_byteItems (bytes : List UInt8) :
    (byteItems bytes).map (mapStrings f) = byteItems bytes := by
  rw [byteItems, List.map_map]
  rfl

theorem mapStrings_byteFields (bytes : List UInt8) :
    mapStringsFields f (byteFields bytes) = byteFields bytes := by
  refine byteFields_induction (motive := fun fields => mapStringsFields f fields = fields) rfl ?_
    bytes
  intro name value rest ih
  rw [mapStringsFields, ih]
  rfl

theorem mapStrings_arrayItems (objValue : Option Value) :
    (arrayItems objValue).map (mapStrings f) = arrayItems (objValue.map (mapStrings f)) := by
  obtain _ | ⟨_ | _ | bytes | _ | ⟨items, named⟩ | _⟩ := objValue
  case some.array => exact (mapStringsItems_eq_map items).symm
  case some.binary => exact map_mapStrings_byteItems bytes
  all_goals rfl

theorem mapStrings_arrayNamed (objValue : Option Value) :
    mapStringsFields f (arrayNamed objValue) = arrayNamed (objValue.map (mapStrings f)) := by
  obtain _ | ⟨_ | _ | _ | _ | _ | _⟩ := objValue <;> rfl

theorem mapStrings_objectFields (objValue : Option Value) :
    mapStringsFields f (objectFields objValue) = objectFields (objValue.map (mapStrings f)) := by
  obtain _ | ⟨_ | _ | bytes | _ | _ | _⟩ := objValue
  case some.binary => exact mapStrings_byteFields bytes
  all_goals rfl

theorem mapStrings_withFields (objValue : Option Value) (fields : Fields) :
    mapStrings f (withFields objValue fields) =
      withFields (objValue.map (mapStrings f)) (mapStringsFields f fields) := by
  obtain _ | ⟨_ | _ | _ | _ | _ | _⟩ := objValue <;> rfl

theorem mapStrings_mergeBinary (bytes : List UInt8) (objValue : Option Value) :
    mapStrings f (mergeBinary bytes objValue) =
      mergeBinary bytes (objValue.map (mapStrings f)) := by
  obtain _ | ⟨_ | _ | bytes' | _ | ⟨items, named⟩ | _⟩ := objValue
  case some.array =>
    show Value.array (mapStringsItems f _) _ = Value.array (_ ++ (mapStringsItems f items).drop _) _
    rw [mapStringsItems_eq_map, mapStringsItems_eq_map, List.map_append,
      map_mapStrings_byteItems, List.map_drop]
  case some.binary =>
    show Value.array (mapStringsItems f _) [] = Value.array _ []
    rw [mapStringsItems_eq_map, List.map_append, List.map_drop, map_mapStrings_byteItems,
      map_mapStrings_byteItems]
  all_goals rfl

/-- A string that is there is replaced or merged into like any other scalar. -/
theorem mergeValue_mapField (name : String) (objValue : Option Value) (value : Value) :
    mergeValue (objValue.map (mapField f name)) value =
      mergeValue (objValue.map (mapStrings f)) value := by
  obtain _ | ⟨_ | _ | _ | _ | _ | _⟩ := objValue <;> cases value <;> rfl

/-- A string of the source is taken as it is. -/
theorem mapField_mergeValue {name : String} {objValue : Option Value} {value : Value}
    (h : mapStrings f (mergeValue objValue value) =
      mergeValue (objValue.map (mapStrings f)) (mapStrings f value)) :
    mapField f name (mergeValue objValue value) =
      mergeValue (objValue.map (mapField f name)) (mapField f name value) := by
  rw [mergeValue_mapField]
  cases value with
  | str text => rfl
  | scalar value => rfl
  | date time => rfl
  | binary bytes => obtain _ | ⟨_ | _ | _ | _ | _ | _⟩ := objValue <;> exact h
  | array items named => exact h
  | object fields => obtain _ | ⟨_ | _ | _ | _ | _ | _⟩ := objValue <;> exact h

mutual

theorem mergeValue_mapStrings (objValue : Option Value) : ∀ value,
    mapStrings f (mergeValue objValue value) =
      mergeValue (objValue.map (mapStrings f)) (mapStrings f value)
  | .scalar _ => rfl
  | .str _ => rfl
  | .date _ => rfl
  | .binary bytes => mapStrings_mergeBinary bytes objValue
  | .array items named => by
    rw [mergeValue, mapStrings, mapStrings, mergeValue, mapStringsItems_eq_map,
      mergeItems_mapStrings _ items, mergeFields_mapStrings _ named, mapStrings_arrayItems,
      mapStrings_arrayNamed]
  | .object fields => by
    rw [mergeValue, mapStrings_withFields, mapStrings, mergeValue,
      mergeFields_mapStrings _ fields, mapStrings_objectFields]

theorem mergeItems_mapStrings (object : List Value) : ∀ items,
    (mergeItems object items).map (mapStrings f) =
      mergeItems (object.map (mapStrings f)) (mapStringsItems f items)
  | [] => rfl
  | item :: rest => by
    cases object with
    | nil =>
      rw [mergeItems, List.map_cons, mergeValue_mapStrings none item,
        mergeItems_mapStrings [] rest]
      rfl
    | cons item' rest' =>
      rw [mergeItems, List.map_cons, mergeItems_mapStrings rest' rest, mapStringsItems,
        List.map_cons, mergeItems, isUndefined_mapStrings]
      split
      · rfl
      · rw [mergeValue_mapStrings (some item') item]
        rfl

theorem mergeFields_mapStrings (object : Fields) : ∀ fields,
    mapStringsFields f (mergeFields object fields) =
      mergeFields (mapStringsFields f object) (mapStringsFields f fields)
  | [] => rfl
  | (name, value) :: rest => by
    rw [mergeFields, mergeFields_mapStrings _ rest, assignMergeValue_mapStrings,
      mapField_mergeValue (mergeValue_mapStrings _ value), mapStringsFields, mergeFields,
      field_mapStrings]
    rfl

end

theorem merge_mapStrings (sources : List (Option Fields)) :
    mapStringsFields f (merge sources) = merge (sources.map (Option.map (mapStringsFields f))) := by
  have hfold : ∀ object, mapStringsFields f
      (sources.foldl (fun object source => mergeFields object (source.getD [])) object) =
      (sources.map (Option.map (mapStringsFields f))).foldl
        (fun object source => mergeFields object (source.getD [])) (mapStringsFields f object) := by
    induction sources with
    | nil => exact fun _ => rfl
    | cons source rest ih =>
      intro object
      rw [List.foldl_cons, ih, mergeFields_mapStrings]
      cases source <;> rfl
  exact hfold []

section

variable (hempty : ∀ name text, f name text = "" ↔ text = "")
include hempty

theorem isEmpty_mapField (name : String) (value : Value) :
    isEmpty (mapField f name value) = isEmpty value := by
  cases value with
  | str text => simp [mapField, onString, isEmpty, hempty]
  | scalar value => rfl
  | date time => rfl
  | binary bytes => rfl
  | array items named => cases items <;> rfl
  | object fields => cases fields <;> rfl

end

/-- The own fields, when the map leaves what stands under an index alone. -/
theorem ownFields_mapStrings (hindex : ∀ (index : ℕ) text, f (toString index) text = text)
    (value : Value) : mapStringsFields f (ownFields value) = ownFields (mapStrings f value) := by
  have hindexed : ∀ start items, mapStringsFields f (indexed start items) =
      indexed start (mapStringsItems f items) := by
    intro start items
    induction items generalizing start with
    | nil => rfl
    | cons item rest ih =>
      rw [indexed, mapStringsFields, ih, mapStringsItems, indexed]
      cases item with
      | str text =>
        show (toString start, Value.str (f (toString start) text)) :: _ = _
        rw [hindex]
        rfl
      | scalar value => rfl
      | date time => rfl
      | binary bytes => rfl
      | array items named => rfl
      | object fields => rfl
  cases value with
  | array items named =>
    rw [ownFields, mapStringsFields_append, hindexed, mapStrings, ownFields]
  | object fields => rfl
  | scalar value => rfl
  | str text => rfl
  | date time => rfl
  | binary bytes => exact mapStrings_byteFields bytes

end

end Library.Merging
