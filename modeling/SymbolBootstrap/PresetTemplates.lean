import SymbolBootstrap.PresetSecrets

/-!
What `removePrivateKeys` leaves of an expanded preset, and the templates that it shows: those
of the fields that are not private keys, with the context in which each is rendered. Two
presets that differ in their private keys alone show the same templates, so their stripped
expansions are the same exactly when these templates render to the same texts.
-/
namespace SymbolBootstrap.PresetTemplates

open Library.Documents Library.Merging Library.Throwing CryptoUtils ConfigLoader PresetSecrets

/-- A template with the context that it is rendered in. -/
abbrev Template := String × Fields

/-- The indices of a service whose repetition does not fail. -/
def indicesOf (service : Fields) : List ℤ :=
  match repeatIndices service with
  | .ok indices => indices
  | .error _ => []

/-- The fields that `_.omit(service, 'repeat')` leaves out. -/
def isRepeat (name : String) : Bool := name = "repeat"

section

variable (runTemplate : String → Fields → Except String String)

/-- The text of a template whose rendering does not fail. -/
def rendered (template : Template) : String :=
  match runTemplate template.1 template.2 with
  | .ok text => text
  | .error _ => ""

mutual

/-- What is left of an expanded value without its private keys. -/
def publicValue (context : Fields) : Value → Value
  | .scalar value => .scalar value
  | .str text => .str (if text = "" then text else rendered runTemplate (text, context))
  | .date _ => .object []
  | .binary bytes => .object (byteFields bytes)
  | .array items _ => .array (publicServices context items) []
  | .object fields => .object (publicFields (fun _ => false) (spread context fields) fields)
termination_by structural value => value

def publicServices (context : Fields) : List Value → List Value
  | [] => []
  | service :: rest => publicService context service ++ publicServices context rest
termination_by structural services => services

def publicService (context : Fields) : Value → List Value
  | .scalar value => [.scalar value]
  | .str text => [.str text]
  | .date _ => [.object []]
  | .binary bytes => [.object (byteFields bytes)]
  | .array items named =>
      let service := ownFields (.array items named)
      (indicesOf service).map fun index =>
        .object (publicIndexed (serviceContext context service index) 0 items ++
          publicFields isRepeat (serviceContext context service index) named)
  | .object fields =>
      (indicesOf fields).map fun index =>
        .object (publicFields isRepeat (serviceContext context fields index) fields)
termination_by structural service => service

def publicFields (omitted : String → Bool) (context : Fields) : Fields → Fields
  | [] => []
  | (name, value) :: rest =>
      if isEncryptableKeyField value name || omitted name then publicFields omitted context rest
      else (name, publicValue context value) :: publicFields omitted context rest
termination_by structural fields => fields

def publicIndexed (context : Fields) (start : ℕ) : List Value → Fields
  | [] => []
  | value :: rest =>
      (toString start, publicValue context value) :: publicIndexed context (start + 1) rest
termination_by structural items => items

end

end

mutual

/-- The templates of a value outside its private keys. -/
def templatesOf (context : Fields) : Value → List Template
  | .scalar _ => []
  | .str text => if text = "" then [] else [(text, context)]
  | .date _ => []
  | .binary _ => []
  | .array items _ => templatesOfServices context items
  | .object fields => templatesOfFields (fun _ => false) (spread context fields) fields
termination_by structural value => value

def templatesOfServices (context : Fields) : List Value → List Template
  | [] => []
  | service :: rest => templatesOfService context service ++ templatesOfServices context rest
termination_by structural services => services

def templatesOfService (context : Fields) : Value → List Template
  | .scalar _ => []
  | .str _ => []
  | .date _ => []
  | .binary _ => []
  | .array items named =>
      let service := ownFields (.array items named)
      (indicesOf service).flatMap fun index =>
        templatesOfIndexed (serviceContext context service index) items ++
          templatesOfFields isRepeat (serviceContext context service index) named
  | .object fields =>
      (indicesOf fields).flatMap fun index =>
        templatesOfFields isRepeat (serviceContext context fields index) fields
termination_by structural service => service

def templatesOfFields (omitted : String → Bool) (context : Fields) : Fields → List Template
  | [] => []
  | (name, value) :: rest =>
      if isEncryptableKeyField value name || omitted name then
        templatesOfFields omitted context rest
      else templatesOf context value ++ templatesOfFields omitted context rest
termination_by structural fields => fields

def templatesOfIndexed (context : Fields) : List Value → List Template
  | [] => []
  | value :: rest => templatesOf context value ++ templatesOfIndexed context rest
termination_by structural items => items

end

section Expansion

variable {runTemplate : String → Fields → Except String String}

variable (runTemplate) in
/-- The templates of a successful run have been rendered. -/
def Rendered (templates : List Template) : Prop :=
  ∀ template ∈ templates, ∃ text, runTemplate template.1 template.2 = .ok text

theorem Rendered.append {front back : List Template} (hfront : Rendered runTemplate front)
    (hback : Rendered runTemplate back) : Rendered runTemplate (front ++ back) := by
  intro template hmem
  rcases List.mem_append.mp hmem with hmem | hmem
  · exact hfront template hmem
  · exact hback template hmem

theorem Rendered.nil : Rendered runTemplate [] := by
  intro template hmem
  cases hmem

/-- Expanding a value changes neither whether it is a text nor what its name says. -/
theorem isEncryptableKeyField_expanded {context : Fields} {value result : Value} {name : String}
    (h : applyValueTemplate runTemplate context value = .ok result) :
    isEncryptableKeyField result name = isEncryptableKeyField value name := by
  cases value with
  | scalar value => cases h; rfl
  | str text =>
    unfold applyValueTemplate at h
    split at h
    · cases h; rfl
    · obtain ⟨rendered, -, hpure⟩ := bind_ok.mp h
      cases hpure; rfl
  | date time => cases h; rfl
  | binary bytes => cases h; rfl
  | array items named =>
    obtain ⟨services, -, hpure⟩ := bind_ok.mp h
    cases hpure; rfl
  | object fields =>
    obtain ⟨values, -, hpure⟩ := bind_ok.mp h
    cases hpure; rfl

theorem omitRepeat_eq (fields : Fields) :
    omitRepeat fields = fields.filter fun entry => !isRepeat entry.1 := by
  simp only [omitRepeat, isRepeat, ne_eq, decide_not]

theorem isRepeat_index (index : ℕ) : isRepeat (toString index) = false := by
  refine decide_eq_false ?_
  intro hname
  have hr : 'r' ∈ (toString index).toList := by
    rw [hname]
    decide +kernel
  have hdigit := index_digits hr
  revert hdigit
  decide

/-- The services that a list of indices gives, one by one. -/
theorem repeated_public {indices : List ℤ} {expand : ℤ → Except String Value}
    {results : List Value} {values : ℤ → Value} {templates : ℤ → List Template}
    (hrun : indices.mapM expand = .ok results)
    (h : ∀ index result, expand index = .ok result →
      removePrivateKeys [] result = values index ∧ Rendered runTemplate (templates index)) :
    results.map (removePrivateKeys []) = indices.map values ∧
      Rendered runTemplate (indices.flatMap templates) := by
  have hall := mapM_ok.mp hrun
  clear hrun
  induction hall with
  | nil => exact ⟨rfl, Rendered.nil⟩
  | cons hindex _ ih =>
    obtain ⟨hvalues, hrendered⟩ := ih
    obtain ⟨hvalue, hrendered'⟩ := h _ _ hindex
    refine ⟨by rw [List.map_cons, List.map_cons, hvalues, hvalue], ?_⟩
    rw [List.flatMap_cons]
    exact hrendered'.append hrendered

mutual

theorem applyValueTemplate_public (context : Fields) : ∀ value result,
    applyValueTemplate runTemplate context value = .ok result →
      removePrivateKeys [] result = publicValue runTemplate context value ∧
        Rendered runTemplate (templatesOf context value)
  | .scalar _, result, h => by
    cases h
    exact ⟨rfl, Rendered.nil⟩
  | .str text, result, h => by
    unfold applyValueTemplate at h
    unfold publicValue templatesOf
    by_cases htext : text = ""
    · rw [if_pos htext] at h
      cases h
      rw [if_pos htext, if_pos htext]
      exact ⟨rfl, Rendered.nil⟩
    · rw [if_neg htext] at h
      obtain ⟨text', hrendered, hpure⟩ := bind_ok.mp h
      cases hpure
      rw [if_neg htext, if_neg htext]
      refine ⟨by simp only [rendered, hrendered, removePrivateKeys], ?_⟩
      intro template hmem
      rw [List.mem_singleton.mp hmem]
      exact ⟨text', hrendered⟩
  | .date _, result, h => by
    cases h
    exact ⟨rfl, Rendered.nil⟩
  | .binary bytes, result, h => by
    cases h
    exact ⟨removePrivateKeys_byteFields [] bytes, Rendered.nil⟩
  | .array items _, result, h => by
    obtain ⟨services, hservices, hpure⟩ := bind_ok.mp h
    cases hpure
    obtain ⟨hpublic, hrendered⟩ := expandServicesRepeat_public context items services hservices
    refine ⟨?_, hrendered⟩
    rw [removePrivateKeys, removePrivateKeysItems_eq_map, hpublic, publicValue]
  | .object fields, result, h => by
    obtain ⟨values, hvalues, hpure⟩ := bind_ok.mp h
    cases hpure
    obtain ⟨hpublic, hrendered⟩ :=
      mapValues_public (fun _ => false) (spread context fields) fields values hvalues
    refine ⟨?_, hrendered⟩
    rw [removePrivateKeys, publicValue, ← hpublic]
    simp
termination_by structural value _ _ => value

theorem expandServicesRepeat_public (context : Fields) : ∀ services results,
    expandServicesRepeat runTemplate context services = .ok results →
      results.map (removePrivateKeys []) = publicServices runTemplate context services ∧
        Rendered runTemplate (templatesOfServices context services)
  | [], results, h => by
    cases h
    exact ⟨rfl, Rendered.nil⟩
  | service :: rest, results, h => by
    obtain ⟨repeated, hrepeated, hrest⟩ := bind_ok.mp h
    obtain ⟨others, hothers, hpure⟩ := bind_ok.mp hrest
    cases hpure
    obtain ⟨hpublic, hrendered⟩ := repeatService_public context service repeated hrepeated
    obtain ⟨hpublic', hrendered'⟩ := expandServicesRepeat_public context rest others hothers
    exact ⟨by rw [List.map_append, hpublic, hpublic', publicServices],
      hrendered.append hrendered'⟩
termination_by structural services _ _ => services

theorem repeatService_public (context : Fields) : ∀ service results,
    repeatService runTemplate context service = .ok results →
      results.map (removePrivateKeys []) = publicService runTemplate context service ∧
        Rendered runTemplate (templatesOfService context service)
  | .scalar _, results, h => by
    cases h
    exact ⟨rfl, Rendered.nil⟩
  | .str _, results, h => by
    cases h
    exact ⟨rfl, Rendered.nil⟩
  | .date _, results, h => by
    cases h
    exact ⟨rfl, Rendered.nil⟩
  | .binary bytes, results, h => by
    cases h
    refine ⟨?_, Rendered.nil⟩
    rw [List.map_singleton, removePrivateKeys_byteFields]
    rfl
  | .array items named, results, h => by
    obtain ⟨indices, hindices, hrun⟩ := bind_ok.mp h
    simp only [publicService, templatesOfService, indicesOf, hindices]
    refine repeated_public hrun ?_
    intro index result hresult
    obtain ⟨values, hvalues, hnext⟩ := bind_ok.mp hresult
    obtain ⟨others, hothers, hpure⟩ := bind_ok.mp hnext
    cases hpure
    obtain ⟨hpublic, hrendered⟩ := mapIndexed_public _ 0 items values hvalues
    obtain ⟨hpublic', hrendered'⟩ := mapValues_public isRepeat _ named others hothers
    refine ⟨?_, hrendered.append hrendered'⟩
    rw [removePrivateKeys, omitRepeat_eq, List.filter_append, removePrivateKeysFields_append,
      hpublic, hpublic']
  | .object fields, results, h => by
    obtain ⟨indices, hindices, hrun⟩ := bind_ok.mp h
    simp only [publicService, templatesOfService, indicesOf, hindices]
    refine repeated_public hrun ?_
    intro index result hresult
    obtain ⟨values, hvalues, hpure⟩ := bind_ok.mp hresult
    cases hpure
    obtain ⟨hpublic, hrendered⟩ := mapValues_public isRepeat _ fields values hvalues
    exact ⟨by rw [removePrivateKeys, omitRepeat_eq, hpublic], hrendered⟩
termination_by structural service _ _ => service

theorem mapValues_public (omitted : String → Bool) (context : Fields) : ∀ fields values,
    mapValues runTemplate context fields = .ok values →
      removePrivateKeysFields [] (values.filter fun entry => !omitted entry.1) =
        publicFields runTemplate omitted context fields ∧
        Rendered runTemplate (templatesOfFields omitted context fields)
  | [], values, h => by
    cases h
    exact ⟨rfl, Rendered.nil⟩
  | (name, value) :: rest, values, h => by
    obtain ⟨result, hresult, hnext⟩ := bind_ok.mp h
    obtain ⟨others, hothers, hpure⟩ := bind_ok.mp hnext
    cases hpure
    obtain ⟨hpublic, hrendered⟩ := applyValueTemplate_public context value result hresult
    obtain ⟨hpublic', hrendered'⟩ := mapValues_public omitted context rest others hothers
    rw [publicFields, templatesOfFields, List.filter_cons]
    cases homitted : omitted name with
    | true => simpa using ⟨hpublic', hrendered'⟩
    | false =>
      simp only [Bool.not_false, if_true, Bool.or_false, removePrivateKeysFields_cons_all,
        isEncryptableKeyField_expanded hresult, hpublic, hpublic']
      split
      · exact ⟨trivial, hrendered'⟩
      · exact ⟨trivial, hrendered.append hrendered'⟩
termination_by structural fields _ _ => fields

theorem mapIndexed_public (context : Fields) (start : ℕ) : ∀ items values,
    mapIndexed runTemplate context start items = .ok values →
      removePrivateKeysFields [] (values.filter fun entry => !isRepeat entry.1) =
        publicIndexed runTemplate context start items ∧
        Rendered runTemplate (templatesOfIndexed context items)
  | [], values, h => by
    cases h
    exact ⟨rfl, Rendered.nil⟩
  | value :: rest, values, h => by
    obtain ⟨result, hresult, hnext⟩ := bind_ok.mp h
    obtain ⟨others, hothers, hpure⟩ := bind_ok.mp hnext
    cases hpure
    obtain ⟨hpublic, hrendered⟩ := applyValueTemplate_public context value result hresult
    obtain ⟨hpublic', hrendered'⟩ := mapIndexed_public context (start + 1) rest others hothers
    have hkey := isEncryptableKeyField_of_name (isEncryptableKey_index start) result
    refine ⟨?_, hrendered.append hrendered'⟩
    rw [List.filter_cons, isRepeat_index, Bool.not_false, if_pos rfl,
      removePrivateKeysFields_cons_all, hkey, hpublic, hpublic', publicIndexed]
    rfl
termination_by structural items _ _ => items

end

end Expansion

/-- A relation along two lists, in two parts. -/
theorem forall₂_append_iff {α β : Type} {R : α → β → Prop} {xs xs' : List α} {ys ys' : List β}
    (h : xs.length = ys.length) :
    List.Forall₂ R (xs ++ xs') (ys ++ ys') ↔ List.Forall₂ R xs ys ∧ List.Forall₂ R xs' ys' := by
  induction xs generalizing ys with
  | nil =>
    obtain rfl : ys = [] := List.length_eq_zero_iff.mp h.symm
    simp
  | cons x xs ih =>
    cases ys with
    | nil => cases h
    | cons y ys =>
      rw [List.cons_append, List.cons_append, List.forall₂_cons, List.forall₂_cons,
        ih (Nat.succ.inj h), and_assoc]

section Determined

variable {runTemplate : String → Fields → Except String String}

/-- The same template, in two contexts that differ in their private keys alone. -/
def Alike (t u : Template) : Prop :=
  t.1 = u.1 ∧ PresetSecrets.hidden t.2 = PresetSecrets.hidden u.2

variable (runTemplate) in
/-- Two results of the same templates that are the same exactly when the texts of these are. -/
structure Determined {α : Type} (x y : α) (ts us : List Template) : Prop where
  alike : List.Forall₂ Alike ts us
  eq_iff : x = y ↔
    List.Forall₂ (fun t u => rendered runTemplate t = rendered runTemplate u) ts us

variable {α β γ : Type} {x y : α} {x' y' : β} {ts us ts' us' : List Template}

theorem Determined.refl (x : α) : Determined runTemplate x x [] [] :=
  ⟨.nil, iff_of_true rfl .nil⟩

theorem Determined.map (h : Determined runTemplate x y ts us) {f : α → β}
    (hf : f x = f y ↔ x = y) : Determined runTemplate (f x) (f y) ts us :=
  ⟨h.alike, hf.trans h.eq_iff⟩

theorem Determined.pair (h : Determined runTemplate x y ts us)
    (h' : Determined runTemplate x' y' ts' us') {f : α → β → γ}
    (hf : f x x' = f y y' ↔ x = y ∧ x' = y') :
    Determined runTemplate (f x x') (f y y') (ts ++ ts') (us ++ us') := by
  refine ⟨List.rel_append h.alike h'.alike, ?_⟩
  rw [hf, h.eq_iff, h'.eq_iff, forall₂_append_iff h.alike.length_eq]

theorem Determined.cons {name : String} {value value' : Value} {rest rest' : Fields}
    (h : Determined runTemplate value value' ts us)
    (h' : Determined runTemplate rest rest' ts' us') :
    Determined runTemplate ((name, value) :: rest) ((name, value') :: rest') (ts ++ ts')
      (us ++ us') :=
  h.pair h' (f := fun value rest => (name, value) :: rest) (by simp)

/-- Lists made alike from the same elements. -/
theorem Determined.forall {xs : List γ} {f g : γ → β} {t u : γ → List Template}
    (h : ∀ x ∈ xs, Determined runTemplate (f x) (g x) (t x) (u x)) :
    Determined runTemplate (xs.map f) (xs.map g) (xs.flatMap t) (xs.flatMap u) := by
  induction xs with
  | nil => exact Determined.refl []
  | cons x xs ih =>
    rw [List.map_cons, List.map_cons, List.flatMap_cons, List.flatMap_cons]
    exact (h x List.mem_cons_self).pair (ih fun x' hx => h x' (List.mem_cons_of_mem x hx))
      List.cons_eq_cons

theorem Determined.append {xs ys xs' ys' : List α} (hlength : xs.length = ys.length)
    (h : Determined runTemplate xs ys ts us) (h' : Determined runTemplate xs' ys' ts' us') :
    Determined runTemplate (xs ++ xs') (ys ++ ys') (ts ++ ts') (us ++ us') := by
  refine h.pair h' ?_
  constructor
  · intro happend
    exact List.append_inj happend hlength
  · rintro ⟨rfl, rfl⟩
    rfl

end Determined

end SymbolBootstrap.PresetTemplates
