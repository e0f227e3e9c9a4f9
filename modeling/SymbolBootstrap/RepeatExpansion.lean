import SymbolBootstrap.PresetTemplates

/-!
The strings of a repeated service as templates: in the copy of an index each is to be rendered
with `$index` bound to it. Below an element with a repetition of its own nothing is said.

The expansion takes the elements of an array for services. It leaves those that are strings as
they are, and binds `$index` to 0 for those that do not repeat. A copy is rendered as it should
be exactly when neither can be seen in it.
-/
namespace SymbolBootstrap.RepeatExpansion

open Library.Documents Library.Merging Library.Throwing ConfigLoader PresetTemplates

/-- The number of copies that a service asks for: one, when it does not say. -/
def repeatCount (service : Fields) : ℚ :=
  match field service "repeat" with
  | some (.scalar (.number count)) => count
  | _ => 1

def hasOwnRepeat (element : Value) : Bool := (field (ownFields element) "repeat").isSome

/-- The number of elements that the expansion makes of one. -/
def elementCount : Value → ℕ
  | .object fields => (indicesOf fields).length
  | .array items named => (indicesOf (ownFields (.array items named))).length
  | _ => 1

section

variable (runTemplate : String → Fields → Except String String) (index : ℤ)

mutual

/-- The strings of the result are those of the value, rendered with `$index` bound. -/
def Renders (context : Fields) : Value → Value → Prop
  | .scalar _, _ => True
  | .date _, _ => True
  | .binary _, _ => True
  | .str text, result =>
      ∃ rendered, runTemplate text context = .ok rendered ∧ result = .str rendered
  | .array items _, result =>
      ∃ results named, result = .array results named ∧ RendersElements context items results
  | .object fields, result =>
      ∃ values, result = .object values ∧
        RendersFields (serviceContext context fields index) fields values
termination_by structural value => value

/-- The elements of an array, each with the results that stand where it stood. -/
def RendersElements (context : Fields) : List Value → List Value → Prop
  | [], _ => True
  | item :: rest, results =>
      (hasOwnRepeat item = false →
        ∃ result, results.head? = some result ∧ RendersElement context item result) ∧
      RendersElements context rest (results.drop (elementCount item))
termination_by structural items => items

/-- An array in an array may have become the object of its items. -/
def RendersElement (context : Fields) : Value → Value → Prop
  | .scalar _, _ => True
  | .date _, _ => True
  | .binary _, _ => True
  | .str text, result =>
      ∃ rendered, runTemplate text context = .ok rendered ∧ result = .str rendered
  | .array items named, result =>
      RendersIndexed (serviceContext context (ownFields (.array items named)) index) items
        (ownFields result)
  | .object fields, result =>
      ∃ values, result = .object values ∧
        RendersFields (serviceContext context fields index) fields values
termination_by structural item => item

def RendersFields (context : Fields) : Fields → Fields → Prop
  | [], results => results = []
  | (name, value) :: rest, results =>
      ∃ result others, results = (name, result) :: others ∧
        (hasOwnRepeat value = false → Renders context value result) ∧
        RendersFields context rest others
termination_by structural fields => fields

def RendersIndexed (context : Fields) : List Value → Fields → Prop
  | [], _ => True
  | value :: rest, results =>
      ∃ name result others, results = (name, result) :: others ∧
        (hasOwnRepeat value = false → Renders context value result) ∧
        RendersIndexed context rest others
termination_by structural items => items

end

mutual

/-- What the expansion does with the strings of a value cannot be told from rendering them
with `$index` bound: the context it has, and the one that is expected. -/
def Agrees (context expected : Fields) : Value → Prop
  | .scalar _ => True
  | .date _ => True
  | .binary _ => True
  | .str text => runTemplate text context = runTemplate text expected
  | .array items _ => AgreesElements context expected items
  | .object fields =>
      AgreesFields (spread context fields) (serviceContext expected fields index) fields
termination_by structural value => value

def AgreesElements (context expected : Fields) : List Value → Prop
  | [] => True
  | item :: rest =>
      (hasOwnRepeat item = false → AgreesElement context expected item) ∧
        AgreesElements context expected rest
termination_by structural items => items

/-- A string is left as it is, and anything else has `$index` bound to 0. -/
def AgreesElement (context expected : Fields) : Value → Prop
  | .scalar _ => True
  | .date _ => True
  | .binary _ => True
  | .str text => runTemplate text expected = .ok text
  | .array items named =>
      AgreesIndexed (serviceContext context (ownFields (.array items named)) 0)
        (serviceContext expected (ownFields (.array items named)) index) items
  | .object fields =>
      AgreesFields (serviceContext context fields 0) (serviceContext expected fields index) fields
termination_by structural item => item

def AgreesFields (context expected : Fields) : Fields → Prop
  | [] => True
  | (_, value) :: rest =>
      (hasOwnRepeat value = false → Agrees context expected value) ∧
        AgreesFields context expected rest
termination_by structural fields => fields

def AgreesIndexed (context expected : Fields) : List Value → Prop
  | [] => True
  | value :: rest =>
      (hasOwnRepeat value = false → Agrees context expected value) ∧
        AgreesIndexed context expected rest
termination_by structural items => items

end

/-- The copies of a service: as many as it asks for, each rendered with its index. -/
def RendersCopies (context service : Fields) (copies : List Value) : Prop :=
  (copies.length : ℚ) = repeatCount service ∧
    ∀ (index : ℕ) copy, copies[index]? = some copy →
      ∃ values, copy = .object values ∧
        RendersFields runTemplate index (serviceContext context service index)
          (omitRepeat service) values

/-- The results are the copies of the services, one service after the other. -/
def RendersEverything (context : Fields) (services : List Fields) (results : List Value) : Prop :=
  ∃ copies : List (List Value),
    List.Forall₂ (RendersCopies runTemplate context) services copies ∧ results = copies.flatten

/-- A natural number of copies, in none of which the expansion can be told from rendering. -/
def AgreesService (context service : Fields) : Prop :=
  (∃ count : ℕ, repeatCount service = count) ∧
    ∀ index : ℕ, (index : ℚ) < repeatCount service →
      AgreesFields runTemplate index (serviceContext context service index)
        (serviceContext context service index) (omitRepeat service)

end

theorem indicesOf_of_ok {service : Fields} {indices : List ℤ}
    (h : repeatIndices service = .ok indices) : indicesOf service = indices := by
  rw [indicesOf, h]

/-- Without a repetition of its own an element gives one result, with `$index` 0. -/
theorem repeatIndices_single {service : Fields} (h : (field service "repeat").isSome = false) :
    repeatIndices service = .ok [0] := by
  rw [repeatIndices, Option.isSome_eq_false_iff.mp h |> Option.isNone_iff_eq_none.mp]
  rfl

section

variable {runTemplate : String → Fields → Except String String} {index : ℤ}

theorem repeatService_length {context : Fields} {service : Value} {results : List Value}
    (h : repeatService runTemplate context service = .ok results) :
    results.length = elementCount service := by
  cases service with
  | array items named =>
    obtain ⟨indices, hindices, hrun⟩ := bind_ok.mp h
    rw [elementCount, indicesOf_of_ok hindices, (mapM_ok.mp hrun).length_eq]
  | object fields =>
    obtain ⟨indices, hindices, hrun⟩ := bind_ok.mp h
    rw [elementCount, indicesOf_of_ok hindices, (mapM_ok.mp hrun).length_eq]
  | _ => cases h; rfl

/-- The names of the fields stay. -/
theorem mapValues_names {context : Fields} : ∀ {fields values : Fields},
    mapValues runTemplate context fields = .ok values →
      values.map Prod.fst = fields.map Prod.fst := by
  intro fields values h
  induction fields generalizing values with
  | nil =>
    cases h
    rfl
  | cons entry rest ih =>
    obtain ⟨name, value⟩ := entry
    obtain ⟨result, -, hnext⟩ := bind_ok.mp h
    obtain ⟨others, hothers, hpure⟩ := bind_ok.mp hnext
    cases hpure
    rw [List.map_cons, List.map_cons, ih hothers]

/-- Leaving out `repeat` after the expansion or before makes no difference. -/
theorem mapValues_omitRepeat {context : Fields} : ∀ {fields values : Fields},
    mapValues runTemplate context fields = .ok values →
      mapValues runTemplate context (omitRepeat fields) = .ok (omitRepeat values) := by
  intro fields values h
  induction fields generalizing values with
  | nil =>
    cases h
    rfl
  | cons entry rest ih =>
    obtain ⟨name, value⟩ := entry
    obtain ⟨result, hresult, hnext⟩ := bind_ok.mp h
    obtain ⟨others, hothers, hpure⟩ := bind_ok.mp hnext
    cases hpure
    have hrest := ih hothers
    unfold omitRepeat at hrest ⊢
    rw [List.filter_cons, List.filter_cons]
    by_cases hname : name = "repeat"
    · simpa only [hname, ne_eq, not_true, decide_false, Bool.false_eq_true, if_false] using hrest
    · simp only [ne_eq, hname, not_false_eq_true, decide_true, if_true]
      exact bind_ok.mpr ⟨result, hresult, bind_ok.mpr ⟨_, hrest, rfl⟩⟩

theorem omitRepeat_of_none {fields : Fields} (h : (field fields "repeat").isSome = false) :
    omitRepeat fields = fields := by
  induction fields with
  | nil => rfl
  | cons entry rest ih =>
    rw [field] at h
    by_cases hname : entry.1 = "repeat"
    · rw [if_pos hname] at h
      cases h
    · rw [if_neg hname] at h
      have hrest := ih h
      unfold omitRepeat at hrest ⊢
      rw [List.filter_cons, if_pos (by simpa using hname), hrest]

theorem mapIndexed_omitRepeat {context : Fields} : ∀ {start : ℕ} {items : List Value}
    {values : Fields}, mapIndexed runTemplate context start items = .ok values →
      omitRepeat values = values
  | _, [], values, h => by
    cases h
    rfl
  | start, value :: rest, values, h => by
    obtain ⟨result, -, hnext⟩ := bind_ok.mp h
    obtain ⟨others, hothers, hpure⟩ := bind_ok.mp hnext
    cases hpure
    have hrest := mapIndexed_omitRepeat hothers
    rw [omitRepeat_eq] at hrest ⊢
    rw [List.filter_cons, isRepeat_index, Bool.not_false, if_pos rfl, hrest]

theorem renders_text_iff (hempty : ∀ context, runTemplate "" context = .ok "")
    {context expected : Fields} {text : String} {result : Value}
    (h : applyValueTemplate runTemplate context (.str text) = .ok result) :
    Renders runTemplate index expected (.str text) result ↔
      Agrees runTemplate index context expected (.str text) := by
  have hrun : ∃ rendered, runTemplate text context = .ok rendered ∧ result = .str rendered := by
    unfold applyValueTemplate at h
    by_cases htext : text = ""
    · rw [if_pos htext] at h
      cases h
      exact ⟨"", by rw [htext, hempty], by rw [htext]⟩
    · rw [if_neg htext] at h
      obtain ⟨rendered, hrendered, hpure⟩ := bind_ok.mp h
      cases hpure
      exact ⟨rendered, hrendered, rfl⟩
  obtain ⟨rendered, hrendered, rfl⟩ := hrun
  rw [Renders, Agrees, hrendered]
  constructor
  · intro hexpected
    obtain ⟨rendered', hrendered', hsame⟩ := hexpected
    rw [hrendered', Value.str.inj hsame]
  · intro hsame
    exact ⟨rendered, hsame.symm, rfl⟩

mutual

/-- The value that the expansion makes of one is as it should be when the contexts agree. -/
theorem renders_iff (hempty : ∀ context, runTemplate "" context = .ok "")
    (context expected : Fields) : ∀ value result,
    applyValueTemplate runTemplate context value = .ok result →
      (Renders runTemplate index expected value result ↔
        Agrees runTemplate index context expected value)
  | .scalar _, _, _ => by rw [Renders, Agrees]
  | .date _, _, _ => by rw [Renders, Agrees]
  | .binary _, _, _ => by rw [Renders, Agrees]
  | .str _, _, h => renders_text_iff hempty h
  | .array items _, result, h => by
    obtain ⟨results, hresults, hpure⟩ := bind_ok.mp h
    cases hpure
    have hitems := rendersElements_iff hempty context expected items results hresults
    rw [Renders, Agrees, ← hitems]
    constructor
    · intro hrenders
      obtain ⟨results', named, hsame, hrenders⟩ := hrenders
      rw [(Value.array.inj hsame).1]
      exact hrenders
    · intro hrenders
      exact ⟨results, [], rfl, hrenders⟩
  | .object fields, result, h => by
    obtain ⟨values, hvalues, hpure⟩ := bind_ok.mp h
    cases hpure
    have hfields := rendersFields_iff hempty (spread context fields)
      (serviceContext expected fields index) fields values hvalues
    rw [Renders, Agrees, ← hfields]
    simp
termination_by structural value _ _ => value

theorem rendersElements_iff (hempty : ∀ context, runTemplate "" context = .ok "")
    (context expected : Fields) : ∀ items results,
    expandServicesRepeat runTemplate context items = .ok results →
      (RendersElements runTemplate index expected items results ↔
        AgreesElements runTemplate index context expected items)
  | [], _, _ => by rw [RendersElements, AgreesElements]
  | item :: rest, results, h => by
    obtain ⟨repeated, hrepeated, hrest⟩ := bind_ok.mp h
    obtain ⟨others, hothers, hpure⟩ := bind_ok.mp hrest
    cases hpure
    have hlength := repeatService_length hrepeated
    rw [RendersElements, AgreesElements, List.drop_left' hlength,
      rendersElements_iff hempty context expected rest others hothers]
    refine and_congr_left fun _ => imp_congr_right fun hown => ?_
    obtain ⟨result, rfl, hiff⟩ :=
      rendersElement_iff hempty context expected item repeated hrepeated hown
    rw [← hiff]
    simp
termination_by structural items _ _ => items

theorem rendersElement_iff (hempty : ∀ context, runTemplate "" context = .ok "")
    (context expected : Fields) : ∀ item results,
    repeatService runTemplate context item = .ok results → hasOwnRepeat item = false →
      ∃ result, results = [result] ∧ (RendersElement runTemplate index expected item result ↔
        AgreesElement runTemplate index context expected item)
  | .scalar value, results, h, _ => by
    cases h
    exact ⟨_, rfl, by rw [RendersElement, AgreesElement]⟩
  | .date _, results, h, _ => by
    cases h
    exact ⟨_, rfl, by rw [RendersElement, AgreesElement]⟩
  | .binary _, results, h, _ => by
    cases h
    exact ⟨_, rfl, by rw [RendersElement, AgreesElement]⟩
  | .str text, results, h, _ => by
    cases h
    refine ⟨_, rfl, ?_⟩
    rw [RendersElement, AgreesElement]
    simp
  | .array items named, results, h, hown => by
    obtain ⟨indices, hindices, hrun⟩ := bind_ok.mp h
    rw [repeatIndices_single hown] at hindices
    cases hindices
    obtain ⟨result, hresult, hpure⟩ := bind_ok.mp hrun
    cases hpure
    obtain ⟨values, hvalues, hnext⟩ := bind_ok.mp hresult
    obtain ⟨others, hothers, hpure⟩ := bind_ok.mp hnext
    cases hpure
    refine ⟨_, rfl, ?_⟩
    rw [RendersElement, AgreesElement, ownFields, omitRepeat, List.filter_append]
    have homit := mapIndexed_omitRepeat hvalues
    unfold omitRepeat at homit
    rw [homit]
    exact rendersIndexed_iff hempty _ _ 0 items values _ hvalues
  | .object fields, results, h, hown => by
    have hfield : (field fields "repeat").isSome = false := hown
    obtain ⟨indices, hindices, hrun⟩ := bind_ok.mp h
    rw [repeatIndices_single hfield] at hindices
    cases hindices
    obtain ⟨result, hresult, hpure⟩ := bind_ok.mp hrun
    cases hpure
    obtain ⟨values, hvalues, hpure⟩ := bind_ok.mp hresult
    cases hpure
    refine ⟨_, rfl, ?_⟩
    have homit : omitRepeat values = values := by
      have hboth := mapValues_omitRepeat hvalues
      rw [omitRepeat_of_none hfield, hvalues] at hboth
      exact (Except.ok.inj hboth).symm
    have hfields := rendersFields_iff hempty (serviceContext context fields 0)
      (serviceContext expected fields index) fields values hvalues
    rw [RendersElement, AgreesElement, ← hfields, homit]
    simp
termination_by structural item _ _ _ => item

theorem rendersFields_iff (hempty : ∀ context, runTemplate "" context = .ok "")
    (context expected : Fields) : ∀ fields values,
    mapValues runTemplate context fields = .ok values →
      (RendersFields runTemplate index expected fields values ↔
        AgreesFields runTemplate index context expected fields)
  | [], values, h => by
    cases h
    rw [RendersFields, AgreesFields]
    simp
  | (name, value) :: rest, values, h => by
    obtain ⟨result, hresult, hnext⟩ := bind_ok.mp h
    obtain ⟨others, hothers, hpure⟩ := bind_ok.mp hnext
    cases hpure
    rw [RendersFields, AgreesFields, ← renders_iff hempty context expected value result hresult,
      ← rendersFields_iff hempty context expected rest others hothers]
    simp
termination_by structural fields _ _ => fields

theorem rendersIndexed_iff (hempty : ∀ context, runTemplate "" context = .ok "")
    (context expected : Fields) (start : ℕ) : ∀ items values others,
    mapIndexed runTemplate context start items = .ok values →
      (RendersIndexed runTemplate index expected items (values ++ others) ↔
        AgreesIndexed runTemplate index context expected items)
  | [], _, _, _ => by rw [RendersIndexed, AgreesIndexed]
  | value :: rest, values, others, h => by
    obtain ⟨result, hresult, hnext⟩ := bind_ok.mp h
    obtain ⟨values, hvalues, hpure⟩ := bind_ok.mp hnext
    cases hpure
    rw [RendersIndexed, AgreesIndexed, ← renders_iff hempty context expected value result hresult,
      ← rendersIndexed_iff hempty context expected (start + 1) rest values others hvalues]
    simp
termination_by structural items _ _ _ => items

end

end

theorem range_natural {count : ℕ} {indices : List ℤ} (h : range (count : ℚ) = .ok indices) :
    indices = (List.range count).map (Nat.cast : ℕ → ℤ) := by
  unfold range at h
  by_cases hlong : ⌈|(count : ℚ)|⌉ > 4294967295
  · rw [if_pos hlong] at h
    cases h
  · rw [if_neg hlong, if_pos (Nat.cast_nonneg count)] at h
    cases h
    simp [List.map_eq_flatMap]

/-- A natural number of copies has the indices below it. -/
theorem repeatIndices_natural {service : Fields} {indices : List ℤ} {count : ℕ}
    (h : repeatIndices service = .ok indices) (hcount : repeatCount service = count) :
    indices = (List.range count).map (Nat.cast : ℕ → ℤ) := by
  unfold repeatIndices at h
  unfold repeatCount at hcount
  have hone : ∀ {count : ℕ}, (1 : ℚ) = count → [(0 : ℤ)] =
      (List.range count).map (Nat.cast : ℕ → ℤ) := by
    intro count hcount
    obtain rfl : 1 = count := Nat.cast_injective (by simpa using hcount)
    rfl
  obtain hnone | ⟨value, hvalue⟩ := Option.eq_none_or_eq_some (field service "repeat")
  · rw [hnone] at h hcount
    cases h
    exact hone hcount
  · rw [hvalue] at h hcount
    cases value with
    | scalar value =>
      cases value with
      | number count' =>
        obtain rfl : count' = count := hcount
        exact range_natural h
      | infinity negative => cases h
      | _ => cases h; exact hone hcount
    | _ => cases h; exact hone hcount

section

variable {runTemplate : String → Fields → Except String String}

/-- The copies of a service that asks for a natural number of them. -/
theorem repeatService_copies {context service : Fields} {copies : List Value} {count : ℕ}
    (h : repeatService runTemplate context (.object service) = .ok copies)
    (hcount : repeatCount service = count) :
    copies.length = count ∧ ∀ (index : ℕ), index < count →
      ∃ values, copies[index]? = some (.object (omitRepeat values)) ∧
        mapValues runTemplate (serviceContext context service index) service = .ok values := by
  obtain ⟨indices, hindices, hrun⟩ := bind_ok.mp h
  have hcopies := mapM_ok.mp hrun
  rw [repeatIndices_natural hindices hcount, List.forall₂_map_left_iff] at hcopies
  have hlength : copies.length = count := by
    rw [← hcopies.length_eq, List.length_range]
  refine ⟨hlength, ?_⟩
  intro index hindex
  have hcopy := hcopies.get (by rwa [List.length_range]) (hlength.symm ▸ hindex)
  rw [List.get_eq_getElem, List.getElem_range] at hcopy
  obtain ⟨values, hvalues, hpure⟩ := bind_ok.mp hcopy
  refine ⟨values, ?_, hvalues⟩
  rw [List.getElem?_eq_getElem (hlength.symm ▸ hindex)]
  exact congrArg some (Except.ok.inj hpure).symm

variable (hempty : ∀ context, runTemplate "" context = .ok "")
include hempty

/-- The copies of a service are as they should be exactly when the expansion agrees. -/
theorem rendersCopies_iff {context service : Fields} {copies : List Value}
    (h : repeatService runTemplate context (.object service) = .ok copies) :
    RendersCopies runTemplate context service copies ↔
      AgreesService runTemplate context service := by
  constructor
  · intro hrenders
    obtain ⟨hcount, hall⟩ := hrenders
    refine ⟨⟨copies.length, hcount.symm⟩, ?_⟩
    intro index hindex
    rw [← hcount, Nat.cast_lt] at hindex
    obtain ⟨values, hcopy, hvalues⟩ := (repeatService_copies h hcount.symm).2 index hindex
    obtain ⟨values', hsame, hfields⟩ := hall index _ hcopy
    rw [← Value.object.inj hsame] at hfields
    exact (rendersFields_iff hempty _ _ _ _ (mapValues_omitRepeat hvalues)).mp hfields
  · intro hagrees
    obtain ⟨⟨count, hcount⟩, hall⟩ := hagrees
    obtain ⟨hlength, hcopies⟩ := repeatService_copies h hcount
    refine ⟨by rw [hlength, hcount], ?_⟩
    intro index copy hcopy
    have hindex : index < count := by
      rw [← hlength]
      exact (List.getElem?_eq_some_iff.mp hcopy).1
    obtain ⟨values, hcopy', hvalues⟩ := hcopies index hindex
    rw [hcopy'] at hcopy
    refine ⟨omitRepeat values, (Option.some.inj hcopy).symm, ?_⟩
    exact (rendersFields_iff hempty _ _ _ _ (mapValues_omitRepeat hvalues)).mpr
      (hall index (by rw [hcount]; exact_mod_cast hindex))

/-- The expansion is as it should be exactly when every service asks for a natural number of
copies, the strings that are items of an array are not changed by rendering, and below the
other items without a repetition rendering does not depend on the `$index` of the copy. -/
theorem expansion_renders_everything_exactly {context : Fields} {services : List Fields}
    {results : List Value}
    (h : expandServicesRepeat runTemplate context (services.map Value.object) = .ok results) :
    RendersEverything runTemplate context services results ↔
      ∀ service ∈ services, AgreesService runTemplate context service := by
  induction services generalizing results with
  | nil =>
    cases h
    constructor
    · intro _ service hmem
      cases hmem
    · intro _
      exact ⟨[], .nil, rfl⟩
  | cons service rest ih =>
    obtain ⟨copies, hcopies, hnext⟩ := bind_ok.mp h
    obtain ⟨others, hothers, hpure⟩ := bind_ok.mp hnext
    cases hpure
    have hservice := rendersCopies_iff hempty hcopies
    rw [List.forall_mem_cons, ← hservice, ← ih hothers]
    constructor
    · intro heverything
      obtain ⟨chunks, hchunks, hsame⟩ := heverything
      obtain _ | ⟨hfirst, hrest⟩ := hchunks
      rw [List.flatten_cons] at hsame
      have hlength := (repeatService_copies hcopies hfirst.1.symm).1
      obtain ⟨rfl, hothers'⟩ := List.append_inj hsame hlength
      exact ⟨hfirst, _, hrest, hothers'⟩
    · intro hboth
      obtain ⟨hfirst, chunks, hrest, rfl⟩ := hboth
      exact ⟨copies :: chunks, .cons hfirst hrest, List.flatten_cons.symm⟩

end

section

variable {runTemplate : String → Fields → Except String String} {index : ℤ}

mutual

/-- A value without arrays, none of whose fields binds `$index`. -/
def isFlat : Value → Bool
  | .array _ _ => false
  | .object fields => isFlatFields fields
  | _ => true

def isFlatFields : Fields → Bool
  | [] => true
  | (name, value) :: rest => name ≠ "$index" && isFlat value && isFlatFields rest

end

theorem index_notMem_of_flat : ∀ {fields : Fields}, isFlatFields fields = true →
    "$index" ∉ fields.map Prod.fst
  | [], _ => List.not_mem_nil
  | (name, value) :: rest, h => by
    simp only [isFlatFields, Bool.and_eq_true, decide_eq_true_eq] at h
    rw [List.map_cons, List.mem_cons, not_or]
    exact ⟨Ne.symm h.1.1, index_notMem_of_flat h.2⟩

mutual

/-- Outside of arrays every string is rendered with the `$index` that is bound. -/
theorem agrees_of_flat {context : Fields} (hindex : field context "$index" = some (.number index)) :
    ∀ value, isFlat value = true → Agrees runTemplate index context context value
  | .scalar _, _ => by rw [Agrees]; trivial
  | .date _, _ => by rw [Agrees]; trivial
  | .binary _, _ => by rw [Agrees]; trivial
  | .str _, _ => by rw [Agrees]
  | .object fields, h => by
    have hspread : field (spread context fields) "$index" = some (.number index) := by
      rw [field_spread_of_notMem (index_notMem_of_flat h), hindex]
    rw [Agrees, serviceContext, setField_of_field hspread]
    exact agreesFields_of_flat hspread fields h

theorem agreesFields_of_flat {context : Fields}
    (hindex : field context "$index" = some (.number index)) : ∀ fields,
    isFlatFields fields = true → AgreesFields runTemplate index context context fields
  | [], _ => by rw [AgreesFields]; trivial
  | (name, value) :: rest, h => by
    simp only [isFlatFields, Bool.and_eq_true] at h
    rw [AgreesFields]
    exact ⟨fun _ => agrees_of_flat hindex value h.1.2, agreesFields_of_flat hindex rest h.2⟩

end

/-- A service of strings and objects of them is repeated as it should be. -/
theorem agreesService_of_flat {context service : Fields} {count : ℕ}
    (hcount : repeatCount service = count) (hflat : isFlatFields service = true) :
    AgreesService runTemplate context service := by
  have homit : ∀ {fields : Fields}, isFlatFields fields = true →
      isFlatFields (omitRepeat fields) = true := by
    intro fields h
    induction fields with
    | nil => rfl
    | cons entry rest ih =>
      simp only [isFlatFields, Bool.and_eq_true] at h
      unfold omitRepeat at ih ⊢
      rw [List.filter_cons]
      split
      · simp only [isFlatFields, Bool.and_eq_true]
        exact ⟨h.1, ih h.2⟩
      · exact ih h.2
  refine ⟨⟨count, hcount⟩, ?_⟩
  intro index _
  exact agreesFields_of_flat (field_setField _ _ _) _ (homit hflat)

end

/-- A stand-in for Handlebars: one template that shows the index, and texts without any. -/
def indexTemplate (text : String) (context : Fields) : Except String String :=
  match text, field context "$index" with
  | "{{$index}}", some (.scalar (.number index)) => .ok (toString index.num)
  | "{{$index}}", _ => .ok ""
  | _, _ => .ok text

theorem expansion_renders_everything_exactly_small :
    RendersEverything indexTemplate [] [[("repeat", .number 2), ("name", .str "{{$index}}")]]
        [.object [("name", .str "0")], .object [("name", .str "1")]] ↔
      ∀ service ∈ [[("repeat", .number 2), ("name", .str "{{$index}}")]],
        AgreesService indexTemplate [] service :=
  expansion_renders_everything_exactly (fun _ => rfl) rfl

/-- A template in a list of a service is left as it is. -/
theorem expansion_leaves_restNodes :
    expandServicesRepeat indexTemplate []
        [.object [("repeat", .number 1), ("restNodes", .array [.str "{{$index}}"] [])]] =
      .ok [.object [("restNodes", .array [.str "{{$index}}"] [])]] ∧
    ¬RendersEverything indexTemplate []
      [[("repeat", .number 1), ("restNodes", .array [.str "{{$index}}"] [])]]
      [.object [("restNodes", .array [.str "{{$index}}"] [])]] := by
  refine ⟨rfl, ?_⟩
  intro heverything
  obtain ⟨chunks, hchunks, hsame⟩ := heverything
  obtain _ | ⟨hfirst, hrest⟩ := hchunks
  cases hrest
  rw [List.flatten_cons, List.flatten_nil, List.append_nil] at hsame
  obtain ⟨values, hvalues, hfields⟩ := hfirst.2 0 _ (by rw [← hsame]; rfl)
  cases hvalues
  obtain ⟨result, others, hfield, hlist, -⟩ := hfields
  cases hfield
  obtain ⟨results, named, hresults, helement, -⟩ := hlist rfl
  cases hresults
  obtain ⟨result, hresult, text, htext, htext'⟩ := helement rfl
  cases hresult
  cases htext'
  exact absurd htext (by decide)

end SymbolBootstrap.RepeatExpansion
