import SymbolBootstrap.ConfigLoader
import SymbolBootstrap.Library.Throwing

/-!
Presets whose private keys are hidden. The loader looks at the names of the fields, not at
the keys, so hiding the keys before or after it merges the presets makes no difference, and
what `removePrivateKeys` leaves of a value does not depend on the keys.
-/
namespace SymbolBootstrap.PresetSecrets

open Library.CaseMapping Library.Documents Library.Merging CryptoUtils ConfigLoader

theorem toLower_digit {c : Char} (h : c.isDigit = true) : lowerChar c = [c] := by
  have hkelvin : c ≠ Char.ofNat 0x212A := by
    rintro rfl
    revert h
    decide
  have hdotted : c ≠ Char.ofNat 0x0130 := by
    rintro rfl
    revert h
    decide
  rw [lowerChar, if_neg hkelvin, if_neg hdotted]
  have hlower : ¬('A'.val ≤ c.val ∧ c.val ≤ 'Z'.val) := by
    unfold Char.isDigit at h
    grind
  rw [Char.toLower.eq_def, dif_neg hlower]

theorem index_digits {index : ℕ} {c : Char} (hc : c ∈ (toString index).toList) :
    c.isDigit = true := by
  have hlist : (toString index).toList = Nat.toDigits 10 index := Nat.toList_repr
  rw [hlist] at hc
  exact Nat.isDigit_of_mem_toDigits (by omega) (by omega) hc

/-- The name of an index is in digits, and every name of a private key has letters. -/
theorem isEncryptableKey_index (index : ℕ) : isEncryptableKey (toString index) = false := by
  have hdigits : ∀ c ∈ (toLowerCase (toString index)).toList, c.isDigit = true := by
    intro c hc
    simp only [toLowerCase, String.toList_ofList, List.mem_flatMap] at hc
    obtain ⟨digit, hdigit, hc⟩ := hc
    rw [toLower_digit (index_digits hdigit), List.mem_singleton] at hc
    rw [hc]
    exact index_digits hdigit
  have hletters : ∀ key ∈ encryptableKeys,
      ((toLowerCase key).toList.any fun c => !c.isDigit) = true := by
    decide +kernel
  unfold isEncryptableKey
  rw [Bool.and_eq_false_iff]
  right
  rw [List.any_eq_false]
  intro key hkey hends
  obtain ⟨c, hc, hletter⟩ := List.any_eq_true.mp (hletters key hkey)
  have hsuffix : (toLowerCase key).toList <:+ (toLowerCase (toString index)).toList :=
    List.isSuffixOf_iff_suffix.mp hends
  rw [hdigits c (hsuffix.subset hc)] at hletter
  cases hletter

/-- A private key that is there is hidden behind a mark, every other string stays. -/
def hide (name text : String) : String :=
  if isEncryptableKey name = true ∧ text ≠ "" then "*" else text

theorem hide_empty (name text : String) : hide name text = "" ↔ text = "" := by
  unfold hide
  split
  · next h => simp [h.2]
  · rfl

theorem hide_public {name : String} (h : isEncryptableKey name = false) (text : String) :
    hide name text = text := by
  rw [hide, if_neg]
  rintro ⟨hname, -⟩
  rw [h] at hname
  cases hname

theorem hide_index (index : ℕ) (text : String) : hide (toString index) text = text :=
  hide_public (isEncryptableKey_index index) text

/-- Without a blacklist every private key goes. -/
theorem removePrivateKeysFields_cons_all (name : String) (value : Value) (rest : Fields) :
    removePrivateKeysFields [] ((name, value) :: rest) =
      if isEncryptableKeyField value name then removePrivateKeysFields [] rest
      else (name, removePrivateKeys [] value) :: removePrivateKeysFields [] rest := by
  rw [removePrivateKeysFields]
  simp [isBlacklisted]

/-- The fields with their private keys hidden. -/
def hidden (fields : Fields) : Fields := mapStringsFields hide fields

theorem mapField_hide_public {name : String} (h : isEncryptableKey name = false) (value : Value) :
    mapField hide name value = mapStrings hide value := by
  cases value with
  | str text => simp [mapField, onString, hide_public h, mapStrings]
  | scalar value => rfl
  | date time => rfl
  | binary bytes => rfl
  | array items named => rfl
  | object fields => rfl

/-- A field with a public name, in the presets with their private keys hidden. -/
theorem field_hidden {name : String} (h : isEncryptableKey name = false) (fields : Fields) :
    field (hidden fields) name = (field fields name).map (mapStrings hide) := by
  rw [hidden, field_mapStrings]
  congr 1
  funext value
  exact mapField_hide_public h value

theorem isEncryptableKeyField_hide (name name' : String) (value : Value) :
    isEncryptableKeyField (onString hide name value (mapStrings hide value)) name' =
      isEncryptableKeyField value name' := by
  cases value <;> rfl

mutual

/-- What is left of a value does not depend on its private keys. -/
theorem removePrivateKeys_hide : ∀ value,
    removePrivateKeys [] (mapStrings hide value) = removePrivateKeys [] value
  | .scalar _ => rfl
  | .str _ => rfl
  | .date _ => rfl
  | .binary _ => rfl
  | .array items named => by
    rw [mapStrings, removePrivateKeys, removePrivateKeys, removePrivateKeysItems_hide items]
  | .object fields => by
    rw [mapStrings, removePrivateKeys, removePrivateKeys, removePrivateKeysFields_hide fields]

theorem removePrivateKeysItems_hide : ∀ items,
    removePrivateKeysItems [] (mapStringsItems hide items) = removePrivateKeysItems [] items
  | [] => rfl
  | item :: rest => by
    rw [mapStringsItems, removePrivateKeysItems, removePrivateKeysItems,
      removePrivateKeys_hide item, removePrivateKeysItems_hide rest]

theorem removePrivateKeysFields_hide : ∀ fields,
    removePrivateKeysFields [] (mapStringsFields hide fields) = removePrivateKeysFields [] fields
  | [] => rfl
  | (name, value) :: rest => by
    rw [mapStringsFields, removePrivateKeysFields_cons_all, removePrivateKeysFields_cons_all,
      isEncryptableKeyField_hide, removePrivateKeysFields_hide rest]
    cases hkey : isEncryptableKeyField value name with
    | true => rfl
    | false =>
      have hvalue : onString hide name value (mapStrings hide value) = mapStrings hide value := by
        cases value with
        | str text => simp [onString, hide_public hkey, mapStrings]
        | scalar value => rfl
        | date time => rfl
        | binary bytes => rfl
        | array items named => rfl
        | object fields => rfl
      rw [hvalue, removePrivateKeys_hide value]

end

section

variable {presets : List (Option Fields)}

theorem field_hidden_preset {name : String} (h : isEncryptableKey name = false)
    (preset : Option Fields) :
    ((preset.map hidden).bind fun fields => field fields name) =
      (preset.bind fun fields => field fields name).map (mapStrings hide) := by
  cases preset with
  | none => rfl
  | some fields => exact field_hidden h fields

theorem textField_hidden {name : String} (h : isEncryptableKey name = false)
    (preset : Option Fields) : textField (preset.map hidden) name = textField preset name := by
  unfold textField
  rw [field_hidden_preset h]
  obtain _ | ⟨_ | _ | _ | _ | _ | _⟩ := preset.bind fun fields => field fields name <;> rfl

theorem objectField_hidden {name : String} (h : isEncryptableKey name = false)
    (preset : Option Fields) :
    objectField (preset.map hidden) name = hidden (objectField preset name) := by
  unfold objectField
  rw [field_hidden_preset h]
  obtain _ | ⟨_ | _ | _ | _ | _ | _⟩ := preset.bind fun fields => field fields name <;> rfl

theorem listField_hidden {name : String} (h : isEncryptableKey name = false) (preset : Fields) :
    listField (hidden preset) name = (listField preset name).map (mapStrings hide) := by
  unfold listField
  rw [field_hidden h]
  obtain _ | ⟨_ | _ | _ | _ | ⟨items, named⟩ | _⟩ := field preset name
  case some.array => exact mapStringsItems_eq_map items
  all_goals rfl

theorem replaceByLast_hidden {name : String} (h : isEncryptableKey name = false)
    (presetData : Fields) :
    hidden (replaceByLast presets presetData name) =
      replaceByLast (presets.map (Option.map hidden)) (hidden presetData) name := by
  have hvalues : ((presets.map (Option.map hidden)).reverse.filterMap fun preset =>
      preset.bind fun fields => field fields name) =
      (presets.reverse.filterMap fun preset => preset.bind fun fields => field fields name).map
        (mapStrings hide) := by
    rw [← List.map_reverse, List.filterMap_map, List.map_filterMap]
    congr 1
    funext preset
    exact field_hidden_preset h preset
  have hempty : ∀ value, isEmpty (mapStrings hide value) = isEmpty value := by
    intro value
    rw [← mapField_hide_public h, isEmpty_mapField hide_empty]
  unfold replaceByLast
  simp only
  rw [hvalues, List.find?_map]
  simp only [Function.comp_def, hempty]
  cases (presets.reverse.filterMap fun preset => preset.bind fun fields =>
      field fields name).find? fun value => !isEmpty value with
  | none => rfl
  | some value =>
    show hidden (setField presetData name value) = _
    rw [hidden, setField_mapStrings, mapField_hide_public h]
    rfl

theorem mergePresets_hidden (presets : List (Option Fields)) :
    hidden (mergePresets presets) = mergePresets (presets.map (Option.map hidden)) := by
  have hfold : ∀ (names : List String) (presetData : Fields),
      (∀ name ∈ names, isEncryptableKey name = false) →
      hidden (names.foldl (replaceByLast presets) presetData) =
        names.foldl (replaceByLast (presets.map (Option.map hidden))) (hidden presetData) := by
    intro names
    induction names with
    | nil => exact fun _ _ => rfl
    | cons name rest ih =>
      intro presetData hnames
      rw [List.foldl_cons, ih _ fun name hname => hnames name (List.mem_cons_of_mem _ hname),
        replaceByLast_hidden (hnames name List.mem_cons_self)]
      rfl
  unfold mergePresets
  rw [hfold _ _ (by decide), hidden, merge_mapStrings]
  rfl

theorem truthy_hide (value : Value) : (mapStrings hide value).truthy = value.truthy := by
  cases value <;> rfl

theorem isSet_hide {name : String} (h : isEncryptableKey name = false) (value : Value) :
    isSet (mapStrings hide value) name = isSet value name := by
  unfold isSet
  rw [← ownFields_mapStrings hide_index]
  have hfield := field_hidden h (ownFields value)
  unfold hidden at hfield
  rw [hfield, Option.map_map]
  congr 2
  funext value'
  exact truthy_hide value'

theorem getDefaultConfiguration_hide (node : Value) :
    hidden (getDefaultConfiguration node) = getDefaultConfiguration (mapStrings hide node) := by
  unfold getDefaultConfiguration
  rw [isSet_hide (by decide), isSet_hide (by decide)]
  split
  · rfl
  · split <;> rfl

theorem dynamicDefaultNodeConfiguration_hide (nodes : List Value) :
    (dynamicDefaultNodeConfiguration nodes).map (mapStrings hide) =
      dynamicDefaultNodeConfiguration (nodes.map (mapStrings hide)) := by
  unfold dynamicDefaultNodeConfiguration
  rw [List.map_map, List.map_map]
  congr 1
  funext node
  show Value.object (mapStringsFields hide (spread _ _)) = .object (spread _ _)
  rw [spread_mapStrings, ownFields_mapStrings hide_index]
  congr 2
  exact getDefaultConfiguration_hide node

/-- The same files, with the private keys of the presets hidden. -/
def hiddenEnvironment (env : Environment) : Environment where
  sharedPreset := hidden env.sharedPreset
  loadNetworkPreset preset := (env.loadNetworkPreset preset).map hidden
  loadAssembly preset assembly := (env.loadAssembly preset assembly).map hidden
  runTemplate := env.runTemplate

def hiddenParams (params : Params) : Params where
  preset := params.preset
  assembly := params.assembly
  customPresetFileObject := params.customPresetFileObject.map hidden
  customPresetObject := params.customPresetObject.map hidden
  oldPresetData := params.oldPresetData.map hidden

theorem resolvedCustomPreset_hidden (params : Params) :
    hidden (resolvedCustomPreset params) = resolvedCustomPreset (hiddenParams params) := by
  have hisEmpty : ∀ fields : Fields, (hidden fields).isEmpty = fields.isEmpty := by
    intro fields
    cases fields <;> rfl
  have hprovided : mergePresets [params.customPresetFileObject.map hidden,
      params.customPresetObject.map hidden] =
      hidden (mergePresets [params.customPresetFileObject, params.customPresetObject]) :=
    (mergePresets_hidden [params.customPresetFileObject, params.customPresetObject]).symm
  have hcache := objectField_hidden (show isEncryptableKey "customPresetCache" = false by decide)
    params.oldPresetData
  simp only [resolvedCustomPreset, hiddenParams, hprovided, hisEmpty, hcache]
  split <;> rfl

theorem resolveText_hidden {name : String} (h : isEncryptableKey name = false) (params : Params)
    (param : Option String) :
    resolveText (hiddenParams params) param name = resolveText params param name := by
  simp only [resolveText, hiddenParams, textField_hidden h]

theorem withDynamicDefaults_hidden (preset assembly : String) (customPreset presetData : Fields) :
    (withDynamicDefaults preset assembly customPreset presetData).map hidden =
      withDynamicDefaults preset assembly (hidden customPreset) (hidden presetData) := by
  have hset : isSet (.object (hidden presetData)) "networkType" =
      isSet (.object presetData) "networkType" := isSet_hide (by decide) (.object presetData)
  have hnodes : listField (hidden presetData) "nodes" =
      (listField presetData "nodes").map (mapStrings hide) :=
    listField_hidden (by decide) presetData
  unfold withDynamicDefaults
  rw [hset, hnodes, ← dynamicDefaultNodeConfiguration_hide, ← mapStringsItems_eq_map]
  split
  · show Except.ok (hidden (spread presetData _)) = .ok (spread (hidden presetData) _)
    rw [hidden, spread_mapStrings]
    simp only [mapStringsFields, onString, hide_public (show isEncryptableKey "preset" = false by
      decide), hide_public (show isEncryptableKey "assembly" = false by decide), mapStrings]
    rfl
  · rfl

/-- The presets can be hidden before they are merged or after. -/
theorem mergedPresetData_hidden (env : Environment) (params : Params) :
    (mergedPresetData env params).map hidden =
      mergedPresetData (hiddenEnvironment env) (hiddenParams params) := by
  unfold mergedPresetData
  rw [resolveText_hidden (by decide), resolveText_hidden (by decide), ← resolvedCustomPreset_hidden]
  cases hpreset : resolveText params params.preset "preset" with
  | none =>
    have hpreset' : resolveText params (hiddenParams params).preset "preset" = none := hpreset
    rw [hpreset']
    rfl
  | some preset =>
    have hpreset' :
        resolveText params (hiddenParams params).preset "preset" = some preset := hpreset
    rw [hpreset']
    simp only [hiddenEnvironment, hiddenParams]
    cases hnetwork : env.loadNetworkPreset preset with
    | error message => rfl
    | ok networkPreset =>
      cases hassembly : orElse (resolveText params params.assembly "assembly")
          (defaultAssembly preset) with
      | none => rfl
      | some assembly =>
        simp only [Except.map, bind, Except.bind]
        cases env.loadAssembly preset assembly with
        | error message => rfl
        | ok assemblyPreset =>
          have hmerge := mergePresets_hidden [some env.sharedPreset, some networkPreset,
            some assemblyPreset, some (resolvedCustomPreset params)]
          have hdefaults := withDynamicDefaults_hidden preset assembly (resolvedCustomPreset params)
            (mergePresets [some env.sharedPreset, some networkPreset, some assemblyPreset,
              some (resolvedCustomPreset params)])
          rw [hmerge] at hdefaults
          exact hdefaults

end

end SymbolBootstrap.PresetSecrets
