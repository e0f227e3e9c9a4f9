import Mathlib.Data.List.Nodup
import SymbolBootstrap.Library.Merging

/-!
What is read of an object that others were merged into. The names of its fields stay
distinct, and where those of the source are distinct each field is merged by itself.
-/
namespace Library.MergedFields

open Library.Documents Library.Merging

/-- The text that a field holds. -/
def textOf : Option Value → Option String
  | some (.str text) => some text
  | _ => none

def textAt (fields : Fields) (name : String) : Option String := textOf (field fields name)

/-- Whether a merge takes the field. -/
def gives (fields : Fields) (name : String) : Bool :=
  (field fields name).any fun value => !isUndefined value

section Names

theorem mem_names_setField {fields : Fields} {name other : String} {value : Value}
    (h : other ∈ (setField fields name value).map Prod.fst) :
    other = name ∨ other ∈ fields.map Prod.fst := by
  induction fields with
  | nil => exact .inl (List.mem_singleton.mp h)
  | cons entry rest ih =>
    by_cases hname : entry.1 = name
    · rw [setField, if_pos hname] at h
      exact .inr h
    · rw [setField, if_neg hname, List.map_cons, List.mem_cons] at h
      rcases h with rfl | hrest
      · exact .inr List.mem_cons_self
      · exact (ih hrest).imp_right (List.mem_cons_of_mem _)

theorem nodup_setField {fields : Fields} (h : (fields.map Prod.fst).Nodup) (name : String)
    (value : Value) : ((setField fields name value).map Prod.fst).Nodup := by
  induction fields with
  | nil => exact List.nodup_singleton name
  | cons entry rest ih =>
    by_cases hname : entry.1 = name
    · rw [setField, if_pos hname]
      exact h
    · rw [setField, if_neg hname]
      obtain ⟨hnew, hrest⟩ := List.nodup_cons.mp h
      refine List.nodup_cons.mpr ⟨fun hmem => ?_, ih hrest⟩
      rcases mem_names_setField hmem with heq | hmem
      · exact hname heq
      · exact hnew hmem

theorem nodup_spread {base : Fields} (h : (base.map Prod.fst).Nodup) (overrides : Fields) :
    ((spread base overrides).map Prod.fst).Nodup := by
  induction overrides generalizing base with
  | nil => exact h
  | cons entry rest ih => exact ih (nodup_setField h entry.1 entry.2)

theorem nodup_assignMergeValue {object : Fields} (h : (object.map Prod.fst).Nodup)
    (name : String) (value : Value) :
    ((assignMergeValue object name value).map Prod.fst).Nodup := by
  rw [assignMergeValue]
  split
  · exact h
  · exact nodup_setField h name value

/-- A merge keeps the names distinct. -/
theorem nodup_mergeFields {object : Fields} (h : (object.map Prod.fst).Nodup) :
    ∀ fields, ((mergeFields object fields).map Prod.fst).Nodup := by
  intro fields
  induction fields generalizing object with
  | nil => exact h
  | cons entry rest ih =>
    obtain ⟨name, value⟩ := entry
    rw [mergeFields]
    exact ih (nodup_assignMergeValue h name _)

theorem nodup_merge (sources : List (Option Fields)) : ((merge sources).map Prod.fst).Nodup := by
  have hfold : ∀ object : Fields, (object.map Prod.fst).Nodup → ((sources.foldl
      (fun object source => mergeFields object (source.getD [])) object).map Prod.fst).Nodup := by
    induction sources with
    | nil => exact fun _ h => h
    | cons source rest ih => exact fun object h => ih _ (nodup_mergeFields h _)
  exact hfold [] .nil

theorem field_eq_none_iff {fields : Fields} {name : String} :
    field fields name = none ↔ name ∉ fields.map Prod.fst := by
  induction fields with
  | nil => exact iff_of_true rfl List.not_mem_nil
  | cons entry rest ih =>
    rw [field, List.map_cons, List.mem_cons, not_or]
    by_cases hname : entry.1 = name
    · rw [if_pos hname]
      exact iff_of_false (Option.some_ne_none _) fun h => h.1 hname.symm
    · rw [if_neg hname, ih]
      exact ⟨fun h => ⟨Ne.symm hname, h⟩, fun h => h.2⟩

/-- Each override is found, where their names are distinct. -/
theorem field_spread_of_mem {overrides : Fields} (h : (overrides.map Prod.fst).Nodup)
    {name : String} {value : Value} (hmem : (name, value) ∈ overrides) (base : Fields) :
    field (spread base overrides) name = some value := by
  induction overrides generalizing base with
  | nil => cases hmem
  | cons entry rest ih =>
    obtain ⟨hnew, hrest⟩ := List.nodup_cons.mp h
    change field (spread (setField base entry.1 entry.2) rest) name = _
    rcases List.mem_cons.mp hmem with rfl | hmem
    · rw [field_spread_of_notMem hnew, field_setField]
    · exact ih hrest hmem _

end Names

section Merge

theorem isUndefined_mergeValue (objValue : Option Value) (value : Value) :
    isUndefined (mergeValue objValue value) = isUndefined value := by
  cases value with
  | binary bytes => obtain _ | ⟨_ | _ | _ | _ | _ | _⟩ := objValue <;> rfl
  | object fields => obtain _ | ⟨_ | _ | _ | _ | _ | _⟩ := objValue <;> rfl
  | _ => rfl

theorem textOf_mergeValue (objValue : Option Value) (value : Value) :
    textOf (some (mergeValue objValue value)) = textOf (some value) := by
  cases value with
  | binary bytes => obtain _ | ⟨_ | _ | _ | _ | _ | _⟩ := objValue <;> rfl
  | object fields => obtain _ | ⟨_ | _ | _ | _ | _ | _⟩ := objValue <;> rfl
  | _ => rfl

theorem field_assignMergeValue (object : Fields) (name : String) (value : Value) :
    field (assignMergeValue object name value) name =
      if isUndefined value && (field object name).isSome then field object name
      else some value := by
  rw [assignMergeValue]
  split
  · rfl
  · rw [field_setField]

theorem field_assignMergeValue_ne (object : Fields) {name name' : String} (value : Value)
    (h : name' ≠ name) : field (assignMergeValue object name' value) name = field object name := by
  rw [assignMergeValue]
  split
  · rfl
  · rw [field_setField_ne object value h]

theorem field_mergeFields_of_notMem {name : String} : ∀ {fields : Fields},
    name ∉ fields.map Prod.fst → ∀ object : Fields,
      field (mergeFields object fields) name = field object name
  | [], _, _ => rfl
  | (name', value) :: rest, h, object => by
    rw [List.map_cons, List.mem_cons, not_or] at h
    rw [mergeFields, field_mergeFields_of_notMem h.2, field_assignMergeValue_ne _ _ (Ne.symm h.1)]

/-- A field of the source is merged into the one that is there. -/
theorem field_mergeFields {name : String} {value : Value} : ∀ {fields : Fields},
    (fields.map Prod.fst).Nodup → field fields name = some value → ∀ object : Fields,
      field (mergeFields object fields) name =
        field (assignMergeValue object name (mergeValue (field object name) value)) name
  | (name', value') :: rest, h, hfield, object => by
    obtain ⟨hnew, hrest⟩ := List.nodup_cons.mp h
    rw [mergeFields]
    rw [field] at hfield
    by_cases hname : name' = name
    · rw [if_pos hname, Option.some.injEq] at hfield
      subst hname hfield
      rw [field_mergeFields_of_notMem hnew]
    · rw [if_neg hname] at hfield
      rw [field_mergeFields hrest hfield, field_assignMergeValue, field_assignMergeValue,
        field_assignMergeValue_ne _ _ hname]

/-- The text of a field is the source's, where that gives it. -/
theorem textAt_mergeFields {fields : Fields} (h : (fields.map Prod.fst).Nodup) (object : Fields)
    (name : String) : textAt (mergeFields object fields) name =
      if gives fields name then textAt fields name else textAt object name := by
  rw [textAt, textAt, textAt, gives]
  cases hfield : field fields name with
  | none => rw [field_mergeFields_of_notMem (field_eq_none_iff.mp hfield)]; rfl
  | some value =>
    rw [field_mergeFields h hfield, field_assignMergeValue, isUndefined_mergeValue]
    cases hundefined : isUndefined value with
    | false =>
      have hgives : Option.any (fun value => !isUndefined value) (some value) = true := by
        simp [hundefined]
      rw [Bool.false_and, if_neg Bool.false_ne_true, hgives, if_pos rfl, textOf_mergeValue]
    | true =>
      have hvalue : value = .undefined := by
        cases value with
        | scalar scalar => cases scalar <;> first | rfl | cases hundefined
        | _ => cases hundefined
      cases hobject : field object name with
      | none => rw [hvalue]; rfl
      | some objValue => simp [hvalue, isUndefined, Value.undefined]

theorem textAt_of_not_gives {fields : Fields} {name : String} (h : gives fields name = false) :
    textAt fields name = none := by
  rw [textAt]
  rw [gives] at h
  cases hfield : field fields name with
  | none => rfl
  | some value =>
    rw [hfield] at h
    cases value with
    | str text => cases h
    | _ => rfl

/-- A merge into an empty object keeps the texts. -/
theorem textAt_mergeFields_nil {fields : Fields} (h : (fields.map Prod.fst).Nodup)
    (name : String) : textAt (mergeFields [] fields) name = textAt fields name := by
  rw [textAt_mergeFields h]
  cases hgives : gives fields name with
  | false => exact (textAt_of_not_gives hgives).symm
  | true => rfl

theorem mergeItems_nil (items : List Value) :
    mergeItems [] items = items.map (mergeValue none) := by
  induction items with
  | nil => rfl
  | cons item rest ih => rw [mergeItems, ih, List.map_cons]

/-- An item is merged into the one at its place. -/
theorem mergeItems_getElem? {object items : List Value} {place : ℕ} {objItem : Value}
    (h : object[place]? = some objItem) :
    (mergeItems object items)[place]? = some (match items[place]? with
      | none => objItem
      | some item => if isUndefined item then objItem else mergeValue (some objItem) item) := by
  induction items generalizing object place with
  | nil =>
    rw [mergeItems, h]
    rfl
  | cons item rest ih =>
    obtain _ | ⟨first, others⟩ := object
    · cases h
    · rw [mergeItems]
      cases place with
      | zero =>
        cases h
        rfl
      | succ place => exact ih h

end Merge

end Library.MergedFields
