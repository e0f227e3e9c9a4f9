import SymbolBootstrap.EncryptionRoundTrip
import SymbolBootstrap.PresetTemplates

/-!
The expansion of data without templates. Nothing is rendered and nothing is repeated, so all
that is left is how the value is rebuilt: an element of an array is taken for a service, also
when it is an array itself, and a date or a binary is taken for an object.
-/
namespace SymbolBootstrap.TemplateFree

open Library.CaseMapping Library.Documents Library.Merging ConfigLoader PresetTemplates
open EncryptionRoundTrip

/-- A text that has neither the opening braces of an expression nor a backslash. -/
def isTemplateFree (text : String) : Bool :=
  !contains text "\x7b\x7b" && !contains text "\\"

mutual

/-- No text of the value is a template, and no object of it has a field `repeat`. -/
def templateFree : Value → Bool
  | .scalar _ => true
  | .str text => isTemplateFree text
  | .date _ => true
  | .binary _ => true
  | .array items named => templateFreeItems items && templateFreeFields named
  | .object fields => templateFreeFields fields

def templateFreeItems : List Value → Bool
  | [] => true
  | item :: rest => templateFree item && templateFreeItems rest

def templateFreeFields : Fields → Bool
  | [] => true
  | (name, value) :: rest => name ≠ "repeat" && templateFree value && templateFreeFields rest

end

mutual

/-- A value as the expansion rebuilds it. -/
def regrouped : Value → Value
  | .scalar value => .scalar value
  | .str text => .str text
  | .date _ => .object []
  | .binary bytes => .object (byteFields bytes)
  | .array items _ => .array (regroupedItems items) []
  | .object fields => .object (regroupedFields fields)

def regroupedItems : List Value → List Value
  | [] => []
  | item :: rest => regroupedItem item :: regroupedItems rest

/-- An array in an array becomes the object of its items. -/
def regroupedItem : Value → Value
  | .scalar value => .scalar value
  | .str text => .str text
  | .date _ => .object []
  | .binary bytes => .object (byteFields bytes)
  | .array items named => .object (regroupedIndexed 0 items ++ regroupedFields named)
  | .object fields => .object (regroupedFields fields)

def regroupedFields : Fields → Fields
  | [] => []
  | (name, value) :: rest => (name, regrouped value) :: regroupedFields rest

def regroupedIndexed (start : ℕ) : List Value → Fields
  | [] => []
  | value :: rest => (toString start, regrouped value) :: regroupedIndexed (start + 1) rest

end

section Repeat

theorem index_ne_repeat (index : ℕ) : toString index ≠ "repeat" :=
  of_decide_eq_false (isRepeat_index index)

theorem field_indexed_append (start : ℕ) (items : List Value) (named : Fields) :
    field (indexed start items ++ named) "repeat" = field named "repeat" := by
  induction items generalizing start with
  | nil => rfl
  | cons item rest ih =>
    rw [indexed, List.cons_append, field, if_neg (index_ne_repeat start), ih]

theorem field_repeat_of_free : ∀ {fields : Fields}, templateFreeFields fields = true →
    field fields "repeat" = none
  | [], _ => rfl
  | (name, value) :: rest, h => by
    simp only [templateFreeFields, Bool.and_eq_true, decide_eq_true_eq] at h
    rw [field, if_neg h.1.1]
    exact field_repeat_of_free h.2

theorem repeatIndices_of_none {service : Fields} (h : field service "repeat" = none) :
    repeatIndices service = .ok [0] := by
  rw [repeatIndices, h]
  rfl

theorem omitRepeat_cons {name : String} (h : name ≠ "repeat") (value : Value) (rest : Fields) :
    omitRepeat ((name, value) :: rest) = (name, value) :: omitRepeat rest :=
  List.filter_cons_of_pos (p := fun entry : String × Value => decide (entry.1 ≠ "repeat"))
    (decide_eq_true h)

theorem omitRepeat_of_free : ∀ {fields : Fields}, templateFreeFields fields = true →
    omitRepeat (regroupedFields fields) = regroupedFields fields
  | [], _ => rfl
  | (name, value) :: rest, h => by
    simp only [templateFreeFields, Bool.and_eq_true, decide_eq_true_eq] at h
    rw [regroupedFields, omitRepeat_cons h.1.1, omitRepeat_of_free h.2]

theorem omitRepeat_indexed (start : ℕ) (items : List Value) (fields : Fields) :
    omitRepeat (regroupedIndexed start items ++ fields) =
      regroupedIndexed start items ++ omitRepeat fields := by
  induction items generalizing start with
  | nil => rfl
  | cons item rest ih =>
    rw [regroupedIndexed, List.cons_append, omitRepeat_cons (index_ne_repeat start), ih,
      List.cons_append]

end Repeat

section Expansion

/-- Outside of expressions a text is rendered as it is. -/
def RendersPlain (runTemplate : String → Fields → Except String String) : Prop :=
  ∀ text context, isTemplateFree text = true → runTemplate text context = .ok text

variable {runTemplate : String → Fields → Except String String}

mutual

/-- Without templates the expansion succeeds and rebuilds the value. -/
theorem applyValueTemplate_of_free (hplain : RendersPlain runTemplate)
    (context : Fields) : ∀ value, templateFree value = true →
    applyValueTemplate runTemplate context value = .ok (regrouped value)
  | .scalar _, _ => rfl
  | .str text, h => by
    unfold applyValueTemplate
    split
    · rfl
    · rw [hplain text context h]
      rfl
  | .date _, _ => rfl
  | .binary _, _ => rfl
  | .array items named, h => by
    obtain ⟨hitems, -⟩ := Bool.and_eq_true_iff.mp h
    rw [applyValueTemplate, expandServicesRepeat_of_free hplain context items hitems]
    rfl
  | .object fields, h => by
    rw [applyValueTemplate, mapValues_of_free hplain _ fields h]
    rfl
termination_by structural value => value

theorem expandServicesRepeat_of_free (hplain : RendersPlain runTemplate)
    (context : Fields) : ∀ items, templateFreeItems items = true →
    expandServicesRepeat runTemplate context items = .ok (regroupedItems items)
  | [], _ => rfl
  | item :: rest, h => by
    obtain ⟨hitem, hrest⟩ := Bool.and_eq_true_iff.mp h
    rw [expandServicesRepeat, repeatService_of_free hplain context item hitem,
      expandServicesRepeat_of_free hplain context rest hrest]
    rfl
termination_by structural items => items

theorem repeatService_of_free (hplain : RendersPlain runTemplate)
    (context : Fields) : ∀ item, templateFree item = true →
    repeatService runTemplate context item = .ok [regroupedItem item]
  | .scalar _, _ => rfl
  | .str _, _ => rfl
  | .date _, _ => rfl
  | .binary _, _ => rfl
  | .array items named, h => by
    obtain ⟨hitems, hnamed⟩ := Bool.and_eq_true_iff.mp h
    have hone : repeatIndices (ownFields (.array items named)) = .ok [0] := by
      refine repeatIndices_of_none ?_
      rw [ownFields, field_indexed_append]
      exact field_repeat_of_free hnamed
    rw [repeatService]
    simp only [hone, bind, Except.bind, List.mapM_cons, List.mapM_nil,
      mapIndexed_of_free hplain _ 0 items hitems, mapValues_of_free hplain _ named hnamed, pure,
      Except.pure, omitRepeat_indexed, omitRepeat_of_free hnamed, regroupedItem]
  | .object fields, h => by
    have hone : repeatIndices fields = .ok [0] := repeatIndices_of_none (field_repeat_of_free h)
    rw [repeatService]
    simp only [hone, bind, Except.bind, List.mapM_cons, List.mapM_nil,
      mapValues_of_free hplain _ fields h, pure, Except.pure, omitRepeat_of_free h, regroupedItem]
termination_by structural item => item

theorem mapValues_of_free (hplain : RendersPlain runTemplate)
    (context : Fields) : ∀ fields, templateFreeFields fields = true →
    mapValues runTemplate context fields = .ok (regroupedFields fields)
  | [], _ => rfl
  | (name, value) :: rest, h => by
    simp only [templateFreeFields, Bool.and_eq_true] at h
    rw [mapValues, applyValueTemplate_of_free hplain context value h.1.2,
      mapValues_of_free hplain context rest h.2]
    rfl
termination_by structural fields => fields

theorem mapIndexed_of_free (hplain : RendersPlain runTemplate)
    (context : Fields) (start : ℕ) :
    ∀ items, templateFreeItems items = true →
    mapIndexed runTemplate context start items = .ok (regroupedIndexed start items)
  | [], _ => rfl
  | item :: rest, h => by
    obtain ⟨hitem, hrest⟩ := Bool.and_eq_true_iff.mp h
    rw [mapIndexed, applyValueTemplate_of_free hplain context item hitem,
      mapIndexed_of_free hplain context (start + 1) rest hrest]
    rfl
termination_by structural items => items

end

end Expansion

def isArray : Value → Bool
  | .array _ _ => true
  | _ => false

mutual

/-- No array is an element of an array. -/
def flatArrays : Value → Bool
  | .scalar _ => true
  | .str _ => true
  | .date _ => true
  | .binary _ => true
  | .array items _ => flatItems items
  | .object fields => flatFields fields

def flatItems : List Value → Bool
  | [] => true
  | item :: rest => !isArray item && flatArrays item && flatItems rest

def flatFields : Fields → Bool
  | [] => true
  | (_, value) :: rest => flatArrays value && flatFields rest

end

section Same

theorem regroupedItem_of_not_array {item : Value} (h : isArray item = false) :
    regroupedItem item = regrouped item := by
  cases item with
  | array items named => cases h
  | scalar value | str text | date time | binary bytes | object fields => rfl

theorem regroupedItem_ne_array {item : Value} (h : isArray item = true) :
    regroupedItem item ≠ item := by
  cases item with
  | array items named =>
    intro hsame
    cases hsame
  | scalar value | str text | date time | binary bytes | object fields => cases h

mutual

theorem regrouped_eq_iff : ∀ value,
    regrouped value = value ↔ isPlain value = true ∧ flatArrays value = true
  | .scalar _ => by simp [regrouped, isPlain, flatArrays]
  | .str _ => by simp [regrouped, isPlain, flatArrays]
  | .date _ => by simp [regrouped, isPlain]
  | .binary _ => by simp [regrouped, isPlain]
  | .array items named => by
    rw [regrouped, isPlain, flatArrays, Value.array.injEq, regroupedItems_eq_iff items,
      Bool.and_eq_true, List.isEmpty_iff, eq_comm (a := named)]
    tauto
  | .object fields => by
    rw [regrouped, isPlain, flatArrays, Value.object.injEq, regroupedFields_eq_iff fields]

theorem regroupedItems_eq_iff : ∀ items,
    regroupedItems items = items ↔ isPlainItems items = true ∧ flatItems items = true
  | [] => by simp [regroupedItems, isPlainItems, flatItems]
  | item :: rest => by
    rw [regroupedItems, isPlainItems, flatItems, List.cons.injEq, regroupedItems_eq_iff rest]
    cases harray : isArray item with
    | true =>
      refine iff_of_false (fun h => regroupedItem_ne_array harray h.1) ?_
      simp
    | false =>
      rw [regroupedItem_of_not_array harray, regrouped_eq_iff item]
      simp only [Bool.not_false, Bool.true_and, Bool.and_eq_true]
      tauto

theorem regroupedFields_eq_iff : ∀ fields,
    regroupedFields fields = fields ↔ isPlainFields fields = true ∧ flatFields fields = true
  | [] => by simp [regroupedFields, isPlainFields, flatFields]
  | (name, value) :: rest => by
    rw [regroupedFields, isPlainFields, flatFields, List.cons.injEq, Prod.mk.injEq,
      regrouped_eq_iff value, regroupedFields_eq_iff rest]
    simp only [true_and, Bool.and_eq_true]
    tauto

end

end Same

/-- Data without templates comes back exactly when it holds no date, no binary and no array
in an array. -/
theorem applyValueTemplate_same_exactly {runTemplate : String → Fields → Except String String}
    (hplain : RendersPlain runTemplate)
    (context : Fields) (value : Value) (hfree : templateFree value = true) :
    applyValueTemplate runTemplate context value = .ok value ↔
      isPlain value = true ∧ flatArrays value = true := by
  rw [applyValueTemplate_of_free hplain context value hfree, Except.ok.injEq, regrouped_eq_iff]

/-- A stand-in for Handlebars that knows no expressions. -/
def verbatim (text : String) (_ : Fields) : Except String String := .ok text

theorem applyValueTemplate_same_exactly_peer :
    applyValueTemplate verbatim [] (.object [("knownPeers", .array [.object
        [("port", .number 7900), ("roles", .str "Api")]] [])]) =
      .ok (.object [("knownPeers", .array [.object
        [("port", .number 7900), ("roles", .str "Api")]] [])]) :=
  (applyValueTemplate_same_exactly (fun _ _ _ => rfl) [] _ (by decide)).mpr ⟨rfl, rfl⟩

/-- An array in an array comes back as the object of its items. -/
theorem applyValueTemplate_regroups : ¬ ∀ value, templateFree value = true →
    applyValueTemplate verbatim [] value = .ok value := by
  intro h
  have hnested := h (.array [.array [.number 1] []] []) rfl
  cases hnested

end SymbolBootstrap.TemplateFree
