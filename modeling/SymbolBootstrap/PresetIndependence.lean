import SymbolBootstrap.PresetTemplates

/-!
Two custom presets that differ in their private keys alone give the same preset.yml exactly
when every template outside the private keys renders to the same text for both. A template
such as that of `FAUCET_PRIVATE_KEY` takes a private key into a field that is not one.
-/
namespace SymbolBootstrap.PresetIndependence

open Library.Documents Library.Merging Library.Throwing CryptoUtils ConfigLoader PresetSecrets
  PresetTemplates

/-- Two services with the same name for the same value, up to their private keys. -/
theorem indicesOf_hidden (service : Fields) : indicesOf (hidden service) = indicesOf service := by
  unfold indicesOf repeatIndices
  rw [field_hidden (by decide)]
  obtain _ | ⟨_ | _ | _ | _ | _ | _⟩ := field service "repeat" <;> rfl

theorem indicesOf_congr {service service' : Fields} (h : hidden service = hidden service') :
    indicesOf service = indicesOf service' := by
  rw [← indicesOf_hidden, h, indicesOf_hidden]

/-- Two values of a field that differ in their private keys alone are both a private key, or
they differ in the private keys below them alone. -/
theorem mapField_congr {name : String} {value value' : Value}
    (h : onString hide name value (mapStrings hide value) =
      onString hide name value' (mapStrings hide value')) :
    isEncryptableKeyField value name = isEncryptableKeyField value' name ∧
      (isEncryptableKeyField value name = false →
        mapStrings hide value = mapStrings hide value') := by
  have hsame : isEncryptableKeyField value name = isEncryptableKeyField value' name := by
    rw [← isEncryptableKeyField_hide name name value, h, isEncryptableKeyField_hide]
  have hpublic : ∀ value, isEncryptableKeyField value name = false →
      onString hide name value (mapStrings hide value) = mapStrings hide value := by
    intro value hkey
    cases value with
    | str text => simp [onString, hide_public hkey, mapStrings]
    | scalar value => rfl
    | date time => rfl
    | binary bytes => rfl
    | array items named => rfl
    | object fields => rfl
  refine ⟨hsame, ?_⟩
  intro hkey
  rw [hpublic value hkey, hpublic value' (hsame ▸ hkey)] at h
  exact h

section

variable {runTemplate : String → Fields → Except String String}

theorem publicIndexed_length (context : Fields) (start : ℕ) (items : List Value) :
    (publicIndexed runTemplate context start items).length = items.length := by
  induction items generalizing start with
  | nil => rfl
  | cons item rest ih => rw [publicIndexed, List.length_cons, List.length_cons, ih]

theorem mapStringsItems_length {items items' : List Value}
    (h : mapStringsItems hide items = mapStringsItems hide items') :
    items.length = items'.length := by
  rw [mapStringsItems_eq_map, mapStringsItems_eq_map] at h
  simpa using congrArg List.length h

theorem spread_hidden {base base' overrides overrides' : Fields}
    (hbase : PresetSecrets.hidden base = PresetSecrets.hidden base')
    (hoverrides : PresetSecrets.hidden overrides = PresetSecrets.hidden overrides') :
    PresetSecrets.hidden (spread base overrides) =
      PresetSecrets.hidden (spread base' overrides') := by
  unfold PresetSecrets.hidden at *
  rw [spread_mapStrings, spread_mapStrings, hbase, hoverrides]

theorem serviceContext_hidden {context context' service service' : Fields}
    (hcontext : PresetSecrets.hidden context = PresetSecrets.hidden context')
    (hservice : PresetSecrets.hidden service = PresetSecrets.hidden service') (index : ℤ) :
    PresetSecrets.hidden (serviceContext context service index) =
      PresetSecrets.hidden (serviceContext context' service' index) := by
  have hspread := spread_hidden hcontext hservice
  unfold PresetSecrets.hidden serviceContext at *
  rw [setField_mapStrings, setField_mapStrings, hspread]

mutual

theorem publicValue_determined {context context' : Fields}
    (hcontext : PresetSecrets.hidden context = PresetSecrets.hidden context') : ∀ value value',
    mapStrings hide value = mapStrings hide value' →
      Determined runTemplate (publicValue runTemplate context value)
        (publicValue runTemplate context' value') (templatesOf context value)
        (templatesOf context' value')
  | .scalar scalar, value', h => by
    cases value' with
    | scalar scalar' =>
      cases h
      exact Determined.refl _
    | _ => cases h
  | .str text, value', h => by
    cases value' with
    | str text' =>
      cases h
      by_cases htext : text = ""
      · simp only [publicValue, templatesOf, if_pos htext]
        exact Determined.refl _
      · simp only [publicValue, templatesOf, if_neg htext]
        refine ⟨.cons ⟨rfl, hcontext⟩ .nil, ?_⟩
        rw [Value.str.injEq, List.forall₂_cons]
        simp
    | _ => cases h
  | .date time, value', h => by
    cases value' with
    | date time' => exact Determined.refl _
    | _ => cases h
  | .binary bytes, value', h => by
    cases value' with
    | binary bytes' =>
      cases h
      exact Determined.refl _
    | _ => cases h
  | .array items named, value', h => by
    cases value' with
    | array items' named' =>
      have hitems : mapStringsItems hide items = mapStringsItems hide items' :=
        (Value.array.inj h).1
      exact (publicServices_determined hcontext items items' hitems).2.map
        (f := fun services => Value.array services []) (by simp)
    | _ => cases h
  | .object fields, value', h => by
    cases value' with
    | object fields' =>
      have hfields : mapStringsFields hide fields = mapStringsFields hide fields' :=
        Value.object.inj h
      exact (publicFields_determined _ (spread_hidden hcontext hfields) fields
        fields' hfields).map (f := Value.object) (by simp)
    | _ => cases h
termination_by structural value _ _ => value

theorem publicServices_determined {context context' : Fields}
    (hcontext : PresetSecrets.hidden context = PresetSecrets.hidden context') :
    ∀ services services', mapStringsItems hide services = mapStringsItems hide services' →
      (publicServices runTemplate context services).length =
        (publicServices runTemplate context' services').length ∧
      Determined runTemplate (publicServices runTemplate context services)
        (publicServices runTemplate context' services') (templatesOfServices context services)
        (templatesOfServices context' services')
  | [], services', h => by
    cases services' with
    | nil => exact ⟨rfl, Determined.refl _⟩
    | cons service' rest' => cases h
  | service :: rest, services', h => by
    cases services' with
    | nil => cases h
    | cons service' rest' =>
      obtain ⟨hservice, hrest⟩ := List.cons_eq_cons.mp h
      obtain ⟨hlength, hdetermined⟩ :=
        publicService_determined hcontext service service' hservice
      obtain ⟨hlength', hdetermined'⟩ :=
        publicServices_determined hcontext rest rest' hrest
      refine ⟨?_, hdetermined.append hlength hdetermined'⟩
      rw [publicServices, publicServices, List.length_append, List.length_append, hlength, hlength']
termination_by structural services _ _ => services

theorem publicService_determined {context context' : Fields}
    (hcontext : PresetSecrets.hidden context = PresetSecrets.hidden context') :
    ∀ service service', mapStrings hide service = mapStrings hide service' →
      (publicService runTemplate context service).length =
        (publicService runTemplate context' service').length ∧
      Determined runTemplate (publicService runTemplate context service)
        (publicService runTemplate context' service') (templatesOfService context service)
        (templatesOfService context' service')
  | .scalar scalar, service', h => by
    cases service' with
    | scalar scalar' =>
      cases h
      exact ⟨rfl, Determined.refl _⟩
    | _ => cases h
  | .str text, service', h => by
    cases service' with
    | str text' =>
      cases h
      exact ⟨rfl, Determined.refl _⟩
    | _ => cases h
  | .date time, service', h => by
    cases service' with
    | date time' => exact ⟨rfl, Determined.refl _⟩
    | _ => cases h
  | .binary bytes, service', h => by
    cases service' with
    | binary bytes' =>
      cases h
      exact ⟨rfl, Determined.refl _⟩
    | _ => cases h
  | .array items named, service', h => by
    cases service' with
    | array items' named' =>
      obtain ⟨hitems, hnamed⟩ := Value.array.inj h
      have hown : PresetSecrets.hidden (ownFields (.array items named)) =
          PresetSecrets.hidden (ownFields (.array items' named')) := by
        unfold PresetSecrets.hidden
        rw [ownFields_mapStrings hide_index, ownFields_mapStrings hide_index, h]
      have hindices := indicesOf_congr hown.symm
      simp only [publicService, templatesOfService, hindices]
      refine ⟨by rw [List.length_map, List.length_map], Determined.forall ?_⟩
      intro index _
      have hservice := serviceContext_hidden hcontext hown index
      refine Determined.map ?_ (f := Value.object) (by simp)
      refine Determined.append ?_ (publicIndexed_determined hservice 0 items items' hitems)
        (publicFields_determined isRepeat hservice named named' hnamed)
      rw [publicIndexed_length, publicIndexed_length, mapStringsItems_length hitems]
    | _ => cases h
  | .object fields, service', h => by
    cases service' with
    | object fields' =>
      have hfields : mapStringsFields hide fields = mapStringsFields hide fields' :=
        Value.object.inj h
      have hindices : indicesOf fields' = indicesOf fields := indicesOf_congr hfields.symm
      simp only [publicService, templatesOfService, hindices]
      refine ⟨by rw [List.length_map, List.length_map], Determined.forall ?_⟩
      intro index _
      have hservice := serviceContext_hidden hcontext hfields index
      exact (publicFields_determined isRepeat hservice fields fields' hfields).map
        (f := Value.object) (by simp)
    | _ => cases h
termination_by structural service _ _ => service

theorem publicFields_determined (omitted : String → Bool) {context context' : Fields}
    (hcontext : PresetSecrets.hidden context = PresetSecrets.hidden context') :
    ∀ fields fields', mapStringsFields hide fields = mapStringsFields hide fields' →
      Determined runTemplate (publicFields runTemplate omitted context fields)
        (publicFields runTemplate omitted context' fields')
        (templatesOfFields omitted context fields) (templatesOfFields omitted context' fields')
  | [], fields', h => by
    cases fields' with
    | nil => exact Determined.refl _
    | cons entry' rest' => cases h
  | (name, value) :: rest, fields', h => by
    cases fields' with
    | nil => cases h
    | cons entry' rest' =>
      obtain ⟨name', value'⟩ := entry'
      obtain ⟨hentry, hrest⟩ := List.cons_eq_cons.mp h
      obtain ⟨rfl, hvalue⟩ := Prod.mk.inj hentry
      obtain ⟨hkey, hpublic⟩ := mapField_congr hvalue
      have hdetermined := publicFields_determined omitted hcontext rest rest' hrest
      simp only [publicFields, templatesOfFields, ← hkey]
      by_cases hskip : (isEncryptableKeyField value name || omitted name) = true
      · rw [if_pos hskip, if_pos hskip, if_pos hskip, if_pos hskip]
        exact hdetermined
      · rw [if_neg hskip, if_neg hskip, if_neg hskip, if_neg hskip]
        have hname : isEncryptableKeyField value name = false := by
          cases hcase : isEncryptableKeyField value name with
          | false => rfl
          | true => exact absurd (by rw [hcase]; rfl) hskip
        exact (publicValue_determined hcontext value value' (hpublic hname)).cons
          hdetermined
termination_by structural fields _ _ => fields

theorem publicIndexed_determined {context context' : Fields}
    (hcontext : PresetSecrets.hidden context = PresetSecrets.hidden context') (start : ℕ) :
    ∀ items items', mapStringsItems hide items = mapStringsItems hide items' →
      Determined runTemplate (publicIndexed runTemplate context start items)
        (publicIndexed runTemplate context' start items') (templatesOfIndexed context items)
        (templatesOfIndexed context' items')
  | [], items', h => by
    cases items' with
    | nil => exact Determined.refl _
    | cons value' rest' => cases h
  | value :: rest, items', h => by
    cases items' with
    | nil => cases h
    | cons value' rest' =>
      obtain ⟨hvalue, hrest⟩ := List.cons_eq_cons.mp h
      exact (publicValue_determined hcontext value value' hvalue).cons
        (publicIndexed_determined hcontext (start + 1) rest rest' hrest)
termination_by structural items _ _ => items

end

theorem removePrivateKeys_setField {name : String} (h : isEncryptableKey name = false)
    (fields : Fields) (value : Value) :
    removePrivateKeysFields [] (setField fields name value) =
      setField (removePrivateKeysFields [] fields) name (removePrivateKeys [] value) := by
  have hkept := isEncryptableKeyField_of_name h
  induction fields with
  | nil =>
    rw [setField, removePrivateKeysFields_cons_all, hkept]
    rfl
  | cons entry rest ih =>
    obtain ⟨name', value'⟩ := entry
    by_cases hname : name' = name
    · subst hname
      rw [setField, if_pos rfl, removePrivateKeysFields_cons_all, removePrivateKeysFields_cons_all,
        hkept, hkept, if_neg Bool.false_ne_true, if_neg Bool.false_ne_true, setField, if_pos rfl]
    · rw [setField, if_neg hname, removePrivateKeysFields_cons_all,
        removePrivateKeysFields_cons_all, ih]
      split
      · rfl
      · rw [setField, if_neg hname]

theorem removePrivateKeys_spread {overrides : Fields}
    (h : ∀ entry ∈ overrides, isEncryptableKey entry.1 = false) (base : Fields) :
    removePrivateKeysFields [] (spread base overrides) = spread (removePrivateKeysFields [] base)
      (overrides.map fun entry => (entry.1, removePrivateKeys [] entry.2)) := by
  induction overrides generalizing base with
  | nil => rfl
  | cons entry rest ih =>
    show removePrivateKeysFields [] (spread (setField base entry.1 entry.2) rest) = _
    rw [ih (fun entry' hentry => h entry' (List.mem_cons_of_mem _ hentry)),
      removePrivateKeys_setField (h entry List.mem_cons_self)]
    rfl

/-- The part of the preset that is expanded. -/
def nemesisOf (presetData : Fields) : Value := (field presetData "nemesis").getD .undefined

/-- The templates of an expanded preset outside its private keys. -/
def publicTemplates (presetData : Fields) : List Template :=
  (serviceNames.flatMap fun name => templatesOfServices presetData (listField presetData name)) ++
    templatesOf presetData (nemesisOf presetData)

variable (runTemplate) in
/-- The fields that the expansion sets, without their private keys. -/
def publicExpansion (presetData : Fields) : Fields :=
  (serviceNames.map fun name =>
    (name, .array (publicServices runTemplate presetData (listField presetData name)) [])) ++
    [("nemesis", publicValue runTemplate presetData (nemesisOf presetData))]

/-- The lists of services, each by itself. -/
theorem expandLists_public {presetData : Fields} {names : List String}
    {lists : List (String × Value)}
    (h : (names.mapM fun name => do
        let services ← expandServicesRepeat runTemplate presetData (listField presetData name)
        return (name, Value.array services [])) = .ok lists) :
    (lists.map fun entry => (entry.1, removePrivateKeys [] entry.2)) = names.map (fun name =>
      (name, Value.array (publicServices runTemplate presetData (listField presetData name)) [])) ∧
    Rendered runTemplate (names.flatMap fun name =>
      templatesOfServices presetData (listField presetData name)) := by
  have hall := mapM_ok.mp h
  clear h
  induction hall with
  | nil => exact ⟨rfl, Rendered.nil⟩
  | cons hname _ ih =>
    obtain ⟨services, hservices, hpure⟩ := bind_ok.mp hname
    cases hpure
    obtain ⟨hpublic, hrendered⟩ := expandServicesRepeat_public presetData _ services hservices
    refine ⟨?_, ?_⟩
    · rw [List.map_cons, List.map_cons, ih.1, removePrivateKeys, removePrivateKeysItems_eq_map,
        hpublic]
    · rw [List.flatMap_cons]
      exact hrendered.append ih.2

theorem expandRepeat_public {presetData result : Fields}
    (h : expandRepeat runTemplate presetData = .ok result) :
    removePrivateKeysFields [] result =
      spread (removePrivateKeysFields [] presetData) (publicExpansion runTemplate presetData) ∧
      Rendered runTemplate (publicTemplates presetData) := by
  obtain ⟨services, hservices, hnext⟩ := bind_ok.mp h
  obtain ⟨nemesis, hnemesis, hpure⟩ := bind_ok.mp hnext
  cases hpure
  obtain ⟨hpublicNemesis, hrenderedNemesis⟩ :=
    applyValueTemplate_public presetData (nemesisOf presetData) nemesis hnemesis
  obtain ⟨hpublic, hrendered⟩ := expandLists_public hservices
  refine ⟨?_, hrendered.append hrenderedNemesis⟩
  have hnames : ∀ entry ∈ services ++ [("nemesis", nemesis)],
      isEncryptableKey entry.1 = false := by
    have hmem : ∀ name ∈ serviceNames ++ ["nemesis"], isEncryptableKey name = false := by decide
    have hfst :
        (services ++ [("nemesis", nemesis)]).map Prod.fst = serviceNames ++ ["nemesis"] := by
      have hfst' := congrArg (List.map Prod.fst) hpublic
      rw [List.map_map, List.map_map] at hfst'
      rw [List.map_append]
      congr 1
    intro entry hentry
    exact hmem _ (hfst ▸ List.mem_map_of_mem hentry)
  rw [removePrivateKeys_spread hnames, List.map_append, hpublic, publicExpansion, ← hpublicNemesis]
  rfl

/-- The expansions of two presets that differ in their private keys alone. -/
theorem publicExpansion_determined {presetData presetData' : Fields}
    (h : PresetSecrets.hidden presetData = PresetSecrets.hidden presetData') :
    Determined runTemplate (publicExpansion runTemplate presetData)
      (publicExpansion runTemplate presetData') (publicTemplates presetData)
      (publicTemplates presetData') := by
  have hlists : ∀ name ∈ serviceNames,
      mapStringsItems hide (listField presetData name) =
        mapStringsItems hide (listField presetData' name) := by
    intro name hname
    have hpublic : isEncryptableKey name = false := by
      revert name
      decide
    rw [mapStringsItems_eq_map, mapStringsItems_eq_map, ← listField_hidden hpublic, h,
      listField_hidden hpublic]
  have hnemesis : mapStrings hide (nemesisOf presetData) =
      mapStrings hide (nemesisOf presetData') := by
    have hfield : ∀ presetData, mapStrings hide (nemesisOf presetData) =
        (field (PresetSecrets.hidden presetData) "nemesis").getD .undefined := by
      intro presetData
      rw [field_hidden (by decide), nemesisOf]
      cases field presetData "nemesis" <;> rfl
    rw [hfield, hfield, h]
  refine Determined.append (by rw [List.length_map, List.length_map]) (Determined.forall ?_) ?_
  · intro name hname
    exact (publicServices_determined h _ _ (hlists name hname)).2.map
      (f := fun services => (name, Value.array services [])) (by simp)
  · exact (publicValue_determined h _ _ hnemesis).map
      (f := fun value => [("nemesis", value)]) (by simp)

/-- Where all templates are rendered, they have the same texts when they render alike. -/
theorem sameTexts_iff {ts us : List Template} (hts : Rendered runTemplate ts)
    (hus : Rendered runTemplate us) :
    List.Forall₂ (fun t u => rendered runTemplate t = rendered runTemplate u) ts us ↔
      List.Forall₂ (fun t u => runTemplate t.1 t.2 = runTemplate u.1 u.2) ts us := by
  constructor
  · intro h
    induction h with
    | nil => exact .nil
    | @cons t u ts us hsame _ ih =>
      obtain ⟨text, ht⟩ := hts t List.mem_cons_self
      obtain ⟨text', hu⟩ := hus u List.mem_cons_self
      refine .cons ?_ (ih (fun t ht => hts t (List.mem_cons_of_mem _ ht))
        (fun u hu => hus u (List.mem_cons_of_mem _ hu)))
      simp only [rendered, ht, hu] at hsame
      rw [ht, hu, hsame]
  · intro h
    refine h.imp ?_
    intro t u hsame
    rw [rendered, rendered, hsame]

end

/-- Parameters that differ in the private keys of the custom preset alone. -/
structure SameButPrivateKeys (params params' : Params) : Prop where
  preset : params.preset = params'.preset
  assembly : params.assembly = params'.assembly
  customPresetFileObject : params.customPresetFileObject.map PresetSecrets.hidden =
    params'.customPresetFileObject.map PresetSecrets.hidden
  customPresetObject : params.customPresetObject.map PresetSecrets.hidden =
    params'.customPresetObject.map PresetSecrets.hidden
  oldPresetData : params.oldPresetData = params'.oldPresetData

theorem SameButPrivateKeys.hiddenParams_eq {params params' : Params}
    (h : SameButPrivateKeys params params') : hiddenParams params = hiddenParams params' := by
  unfold hiddenParams
  rw [h.preset, h.assembly, h.customPresetFileObject, h.customPresetObject, h.oldPresetData]

/-- Two runs whose custom presets differ in their private keys alone have the same templates
outside the private keys, in contexts that differ in these alone. What they write to
preset.yml is the same exactly when these templates render alike. -/
theorem preset_independent_exactly {env : Environment} {params params' : Params}
    {presetData presetData' : Fields} (h : SameButPrivateKeys params params')
    (hrun : createPresetData env params = .ok presetData)
    (hrun' : createPresetData env params' = .ok presetData') :
    ∃ merged merged', mergedPresetData env params = .ok merged ∧
      mergedPresetData env params' = .ok merged' ∧
      List.Forall₂ Alike (publicTemplates merged) (publicTemplates merged') ∧
      (removePrivateKeys [] (.object presetData) = removePrivateKeys [] (.object presetData') ↔
        List.Forall₂ (fun t u => env.runTemplate t.1 t.2 = env.runTemplate u.1 u.2)
          (publicTemplates merged) (publicTemplates merged')) := by
  obtain ⟨merged, hmerged, hexpand⟩ := bind_ok.mp hrun
  obtain ⟨merged', hmerged', hexpand'⟩ := bind_ok.mp hrun'
  have hhidden : PresetSecrets.hidden merged = PresetSecrets.hidden merged' := by
    have hleft := mergedPresetData_hidden env params
    have hright := mergedPresetData_hidden env params'
    rw [hmerged] at hleft
    rw [hmerged', ← h.hiddenParams_eq, ← hleft] at hright
    exact (Except.ok.inj hright).symm
  have hbase : removePrivateKeysFields [] merged = removePrivateKeysFields [] merged' := by
    rw [← removePrivateKeysFields_hide merged, ← removePrivateKeysFields_hide merged']
    exact congrArg _ hhidden
  have hdetermined := @publicExpansion_determined env.runTemplate _ _ hhidden
  refine ⟨merged, merged', hmerged, hmerged', hdetermined.alike, ?_⟩
  obtain ⟨hpublic, hrendered⟩ := expandRepeat_public hexpand
  obtain ⟨hpublic', hrendered'⟩ := expandRepeat_public hexpand'
  have hnames : ∀ merged, (publicExpansion env.runTemplate merged).map Prod.fst =
      serviceNames ++ ["nemesis"] := by
    intro merged
    rfl
  rw [removePrivateKeys, removePrivateKeys, Value.object.injEq, hpublic, hpublic', hbase,
    spread_inj (by rw [hnames, hnames]) (by rw [hnames]; decide),
    hdetermined.eq_iff, sameTexts_iff hrendered hrendered']

/-- Handlebars on a text without expressions, and on one that is the name of a field. -/
def renderField (text : String) (context : Fields) : Except String String :=
  match context.find? fun entry => text = "\x7b\x7b" ++ entry.1 ++ "\x7d\x7d" with
  | some (_, .str value) => .ok value
  | _ => .ok text

/-- The faucet of assembly-services.yml on the test network. -/
def faucetEnvironment : Environment where
  sharedPreset := []
  loadNetworkPreset _ := .ok [("networkType", .number 152)]
  loadAssembly _ _ := .ok [("faucets", .array [.object [("name", .str "faucet"),
    ("compose", .object [("environment", .object
      [("FAUCET_PRIVATE_KEY", .str "\x7b\x7bfaucetPrivateKey\x7d\x7d")])])]] [])]
  runTemplate := renderField

/-- A custom preset with the private key of the faucet, and one for REST. -/
def faucetParams (faucetPrivateKey restSSLKeyBase64 : String) : Params where
  preset := some "testnet"
  assembly := some "services"
  customPresetFileObject := some [("faucetPrivateKey", .str faucetPrivateKey),
    ("gateways", .array [.object [("name", .str "rest-gateway"),
      ("restSSLKeyBase64", .str restSSLKeyBase64)]] [])]
  customPresetObject := none
  oldPresetData := none

theorem faucetParams_sameButPrivateKeys {key key' restKey restKey' : String} (hkey : key ≠ "")
    (hkey' : key' ≠ "") (hrest : restKey ≠ "") (hrest' : restKey' ≠ "") :
    SameButPrivateKeys (faucetParams key restKey) (faucetParams key' restKey') := by
  have hfaucet : isEncryptableKey "faucetPrivateKey" = true := by decide
  have hssl : isEncryptableKey "restSSLKeyBase64" = true := by decide
  refine ⟨rfl, rfl, ?_, rfl, rfl⟩
  simp [faucetParams, PresetSecrets.hidden, mapStringsFields, mapStringsItems, mapStrings, onString,
    hide, hfaucet, hssl, hkey, hkey', hrest, hrest']

theorem preset_independent_small :
    ∃ presetData presetData' merged merged',
      createPresetData faucetEnvironment (faucetParams "A1" "B1") = .ok presetData ∧
      createPresetData faucetEnvironment (faucetParams "A1" "B2") = .ok presetData' ∧
      mergedPresetData faucetEnvironment (faucetParams "A1" "B1") = .ok merged ∧
      mergedPresetData faucetEnvironment (faucetParams "A1" "B2") = .ok merged' ∧
      List.Forall₂ Alike (publicTemplates merged) (publicTemplates merged') ∧
      (removePrivateKeys [] (.object presetData) = removePrivateKeys [] (.object presetData') ↔
        List.Forall₂ (fun t u => faucetEnvironment.runTemplate t.1 t.2 =
          faucetEnvironment.runTemplate u.1 u.2) (publicTemplates merged)
          (publicTemplates merged')) := by
  obtain ⟨merged, merged', h⟩ := preset_independent_exactly (faucetParams_sameButPrivateKeys
    (by decide) (by decide) (by decide) (by decide))
    (show createPresetData faucetEnvironment (faucetParams "A1" "B1") = .ok _ from rfl)
    (show createPresetData faucetEnvironment (faucetParams "A1" "B2") = .ok _ from rfl)
  exact ⟨_, _, merged, merged', rfl, rfl, h⟩

/-- The text of the faucet's environment in a preset. -/
def faucetText (preset : Value) : Option String :=
  match field (ownFields preset) "faucets" with
  | some (.array (faucet :: _) _) =>
    match field (ownFields ((field (ownFields faucet) "compose").getD .undefined))
      "environment" with
    | some environment => textField (some (ownFields environment)) "FAUCET_PRIVATE_KEY"
    | none => none
  | _ => none

/-- The private key of the faucet is written to preset.yml. -/
theorem preset_shows_faucetPrivateKey :
    ∃ presetData presetData',
      SameButPrivateKeys (faucetParams "A1" "B1") (faucetParams "A2" "B1") ∧
      createPresetData faucetEnvironment (faucetParams "A1" "B1") = .ok presetData ∧
      createPresetData faucetEnvironment (faucetParams "A2" "B1") = .ok presetData' ∧
      faucetText (removePrivateKeys [] (.object presetData)) = some "A1" ∧
      removePrivateKeys [] (.object presetData) ≠ removePrivateKeys [] (.object presetData') := by
  refine ⟨_, _, faucetParams_sameButPrivateKeys (by decide) (by decide) (by decide) (by decide),
    rfl, rfl, rfl, ?_⟩
  intro h
  have htext : some "A1" = some "A2" := congrArg faucetText h
  revert htext
  decide

end SymbolBootstrap.PresetIndependence
