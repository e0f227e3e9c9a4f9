import SymbolBootstrap.RepeatExpansion
import SymbolBootstrap.Library.MergedFields

/-!
The nodes as `config` and as `link` and `modifyMultisig` see them. `config` merges the custom
preset into the others and repeats the nodes of the result. The announcing commands merge it,
as it is, into the nodes that were repeated and lost their private keys, place by place.
-/
namespace SymbolBootstrap.AnnouncedNodes

open Library.Documents Library.Merging Library.MergedFields Library.Throwing CryptoUtils
  ConfigLoader PresetSecrets PresetTemplates RepeatExpansion

/-- A custom preset. An object has a name once, and the nodes are a list of objects. -/
structure CustomPreset where
  fields : Fields
  nodes : List Fields
  fields_nodup : (fields.map Prod.fst).Nodup
  nodes_nodup : ∀ node ∈ nodes, (node.map Prod.fst).Nodup
  nodes_eq : (field fields "nodes" = none ∧ nodes = []) ∨
    field fields "nodes" = some (.array (nodes.map .object) [])

/-- The parameters of `createPresetData`, with the custom preset of a file. -/
def withCustomPreset (params : Params) (customPreset : Option CustomPreset) : Params :=
  { params with customPresetFileObject := customPreset.map (·.fields) }

/-- What `LinkService.run` and `ModifyMultisigService.run` pass to `announce`. -/
def announcedPreset (presetData : Fields) (customPreset : Option CustomPreset) : Fields :=
  mergePresets [some (removePrivateKeysFields [] presetData), customPreset.map (·.fields)]

/-- A text of `(presetData.nodes || [])[index]`. -/
def nodeText (presetData : Fields) (index : ℕ) (name : String) : Option String :=
  textOf ((listField presetData "nodes")[index]?.bind fun node => field (ownFields node) name)

/-- Each node has the same name and the same main private key. -/
def SameNodes (presetData announced : Fields) : Prop :=
  ∀ index < (listField presetData "nodes").length,
    nodeText announced index "name" = nodeText presetData index "name" ∧
      nodeText announced index "mainPrivateKey" = nodeText presetData index "mainPrivateKey"

/-- The nodes of the merged presets, each with every index that it is repeated for. -/
def copies (merged : Fields) : List (Fields × ℤ) :=
  (listField merged "nodes").flatMap fun node =>
    (indicesOf (ownFields node)).map fun index => (ownFields node, index)

/-- What a text of a copy renders to. -/
def copyText (runTemplate : String → Fields → Except String String) (merged : Fields)
    (copy : Fields × ℤ) (name : String) : Option String :=
  (textAt copy.1 name).map fun text =>
    if text = "" then "" else rendered runTemplate (text, serviceContext merged copy.1 copy.2)

/-- A text of the custom preset's node at a place, as it is. -/
def customText (customPreset : Option CustomPreset) (index : ℕ) (name : String) : Option String :=
  ((customPreset.map (·.nodes)).getD [])[index]?.bind fun node => textAt node name

def customGives (customPreset : Option CustomPreset) (index : ℕ) (name : String) : Bool :=
  (((customPreset.map (·.nodes)).getD [])[index]?).any fun node => gives node name

/-- The custom preset's node at the place of a copy gives the copy's name, or none, and its
main private key. -/
structure GivesTheSame (runTemplate : String → Fields → Except String String) (merged : Fields)
    (customPreset : Option CustomPreset) (index : ℕ) (copy : Fields × ℤ) : Prop where
  name : customGives customPreset index "name" = true →
    customText customPreset index "name" = copyText runTemplate merged copy "name"
  mainPrivateKey : customText customPreset index "mainPrivateKey" =
    copyText runTemplate merged copy "mainPrivateKey"

section Expanded

variable {runTemplate : String → Fields → Except String String} {context : Fields}

theorem textOf_applyValueTemplate {value result : Value}
    (h : applyValueTemplate runTemplate context value = .ok result) :
    textOf (some result) = (textOf (some value)).map fun text =>
      if text = "" then "" else rendered runTemplate (text, context) := by
  cases value with
  | str text =>
    rw [applyValueTemplate] at h
    by_cases htext : text = ""
    · rw [if_pos htext] at h
      cases h
      simp [textOf, htext]
    · rw [if_neg htext] at h
      obtain ⟨result', hresult, hpure⟩ := bind_ok.mp h
      cases hpure
      simp [textOf, htext, rendered, hresult]
  | array items named =>
    obtain ⟨services, -, hpure⟩ := bind_ok.mp h
    cases hpure
    rfl
  | object fields =>
    obtain ⟨values, -, hpure⟩ := bind_ok.mp h
    cases hpure
    rfl
  | _ =>
    cases h
    rfl

theorem textAt_mapValues {name : String} : ∀ {fields values : Fields},
    mapValues runTemplate context fields = .ok values →
      textAt values name = (textAt fields name).map fun text =>
        if text = "" then "" else rendered runTemplate (text, context) := by
  intro fields values h
  induction fields generalizing values with
  | nil =>
    cases h
    rfl
  | cons entry rest ih =>
    obtain ⟨name', value⟩ := entry
    obtain ⟨result, hresult, hnext⟩ := bind_ok.mp h
    obtain ⟨others, hothers, hpure⟩ := bind_ok.mp hnext
    cases hpure
    rw [textAt, textAt, field, field]
    by_cases hname : name' = name
    · rw [if_pos hname, if_pos hname]
      exact textOf_applyValueTemplate hresult
    · rw [if_neg hname, if_neg hname]
      exact ih hothers

theorem textAt_omitRepeat {name : String} (h : name ≠ "repeat") (fields : Fields) :
    textAt (omitRepeat fields) name = textAt fields name := by
  induction fields with
  | nil => rfl
  | cons entry rest ih =>
    unfold omitRepeat at ih ⊢
    rw [List.filter_cons]
    by_cases hrepeat : entry.1 = "repeat"
    · rw [if_neg (by simpa using hrepeat), ih, textAt, textAt, field, if_neg]
      exact fun heq => h (heq.symm.trans hrepeat)
    · rw [if_pos (by simpa using hrepeat), textAt, textAt, field, field]
      by_cases hname : entry.1 = name
      · rw [if_pos hname, if_pos hname]
      · rw [if_neg hname, if_neg hname]
        exact ih

/-- A node of the expanded preset, from the copy that it is made of. -/
def IsCopy (runTemplate : String → Fields → Except String String) (merged : Fields)
    (copy : Fields × ℤ) (node : Value) : Prop :=
  ∃ values, mapValues runTemplate (serviceContext merged copy.1 copy.2) copy.1 = .ok values ∧
    node = .object (omitRepeat values)

theorem expandServicesRepeat_copies : ∀ {services : List Fields} {results : List Value},
    expandServicesRepeat runTemplate context (services.map .object) = .ok results →
      List.Forall₂ (IsCopy runTemplate context)
        (services.flatMap fun service => (indicesOf service).map fun index => (service, index))
        results
  | [], results, h => by
    cases h
    exact .nil
  | service :: rest, results, h => by
    obtain ⟨nodes, hnodes, hnext⟩ := bind_ok.mp h
    obtain ⟨others, hothers, hpure⟩ := bind_ok.mp hnext
    cases hpure
    obtain ⟨indices, hindices, hrun⟩ := bind_ok.mp hnodes
    rw [List.flatMap_cons, indicesOf_of_ok hindices]
    refine List.rel_append ?_ (expandServicesRepeat_copies hothers)
    rw [List.forall₂_map_left_iff]
    refine (mapM_ok.mp hrun).imp fun index node hnode => ?_
    obtain ⟨values, hvalues, hpure⟩ := bind_ok.mp hnode
    cases hpure
    exact ⟨values, hvalues, rfl⟩

end Expanded

section Removed

theorem textOf_removePrivateKeys (value : Value) :
    textOf (some (removePrivateKeys [] value)) = textOf (some value) := by
  cases value <;> rfl

/-- No text is left where a private key may be. -/
theorem textAt_removed_key {name : String} (h : isEncryptableKey name = true) (fields : Fields) :
    textAt (removePrivateKeysFields [] fields) name = none := by
  induction fields with
  | nil => rfl
  | cons entry rest ih =>
    obtain ⟨name', value⟩ := entry
    rw [removePrivateKeysFields_cons_all]
    split
    next => exact ih
    next hkept =>
      rw [textAt, field]
      by_cases hname : name' = name
      · rw [if_pos hname]
        rw [hname] at hkept
        cases value with
        | str text => exact absurd h hkept
        | _ => rfl
      · rw [if_neg hname]
        exact ih

theorem names_removed (fields : Fields) :
    ((removePrivateKeysFields [] fields).map Prod.fst).Sublist (fields.map Prod.fst) := by
  induction fields with
  | nil => exact .slnil
  | cons entry rest ih =>
    obtain ⟨name, value⟩ := entry
    rw [removePrivateKeysFields_cons_all]
    split
    · exact ih.cons _
    · exact ih.cons_cons _

theorem field_removed {name : String} (h : isEncryptableKey name = false) (fields : Fields) :
    field (removePrivateKeysFields [] fields) name =
      (field fields name).map (removePrivateKeys []) := by
  induction fields with
  | nil => rfl
  | cons entry rest ih =>
    obtain ⟨name', value⟩ := entry
    rw [removePrivateKeysFields_cons_all, field]
    by_cases hname : name' = name
    · have hkept : isEncryptableKeyField value name' = false :=
        isEncryptableKeyField_of_name (hname ▸ h) value
      rw [hkept, if_neg Bool.false_ne_true, field, if_pos hname, if_pos hname, Option.map_some]
    · rw [if_neg hname]
      split
      · exact ih
      · rw [field, if_neg hname, ih]

theorem textAt_removed_public {name : String} (h : isEncryptableKey name = false)
    (fields : Fields) : textAt (removePrivateKeysFields [] fields) name = textAt fields name := by
  rw [textAt, field_removed h, textAt]
  cases field fields name with
  | none => rfl
  | some value => exact textOf_removePrivateKeys value

end Removed

section Merged

/-- The lists that the last preset decides on. -/
def replacedNames : List String := ["inflation", "knownRestGateways", "knownPeers"]

theorem field_mergePresets {name : String} (h : name ∉ replacedNames)
    (presets : List (Option Fields)) : field (mergePresets presets) name =
      field (merge presets) name := by
  have hfold : ∀ names : List String, name ∉ names → ∀ presetData,
      field (names.foldl (replaceByLast presets) presetData) name = field presetData name := by
    intro names
    induction names with
    | nil => exact fun _ _ => rfl
    | cons first rest ih =>
      intro hnames presetData
      rw [List.mem_cons, not_or] at hnames
      rw [List.foldl_cons, ih hnames.2, replaceByLast]
      split
      · exact field_setField_ne _ _ (Ne.symm hnames.1)
      · rfl
  exact hfold replacedNames h (merge presets)

theorem nodup_mergePresets (presets : List (Option Fields)) :
    ((mergePresets presets).map Prod.fst).Nodup := by
  have hfold : ∀ (names : List String) (presetData : Fields), (presetData.map Prod.fst).Nodup →
      ((names.foldl (replaceByLast presets) presetData).map Prod.fst).Nodup := by
    intro names
    induction names with
    | nil => exact fun _ h => h
    | cons first rest ih =>
      intro presetData h
      refine ih _ ?_
      simp only [replaceByLast]
      split
      · exact nodup_setField h _ _
      · exact h
  exact hfold replacedNames (merge presets) (nodup_merge presets)

/-- The nodes of merged presets are objects in which every name is there once. -/
structure NodesAre (presetData : Fields) (nodes : List Fields) : Prop where
  fields_nodup : (presetData.map Prod.fst).Nodup
  nodes_nodup : ∀ node ∈ nodes, (node.map Prod.fst).Nodup
  nodes_eq : field presetData "nodes" = some (.array (nodes.map .object) [])

theorem nodup_getDefaultConfiguration (node : Value) :
    ((getDefaultConfiguration node).map Prod.fst).Nodup := by
  have hnames : ∀ syncsource api, ((nodeDefaults syncsource api).map Prod.fst).Nodup := by decide
  rw [getDefaultConfiguration]
  split_ifs <;> exact hnames _ _

theorem nodesAre_withDynamicDefaults {preset assembly : String}
    {customPreset presetData merged : Fields} (hnodup : (presetData.map Prod.fst).Nodup)
    (h : withDynamicDefaults preset assembly customPreset presetData = .ok merged) :
    ∃ nodes, NodesAre merged nodes := by
  rw [withDynamicDefaults] at h
  split at h
  next =>
    cases h
    refine ⟨(listField presetData "nodes").map fun node =>
      spread (getDefaultConfiguration node) (ownFields node), nodup_spread hnodup _, ?_, ?_⟩
    · intro fields hfields
      obtain ⟨node, -, rfl⟩ := List.mem_map.mp hfields
      exact nodup_spread (nodup_getDefaultConfiguration node) _
    · have hnames : ["version", "preset", "assembly", "nodes", "customPresetCache"].Nodup := by
        decide
      rw [List.map_map]
      refine field_spread_of_mem ?_ ?_ _
      · exact hnames
      · simp [dynamicDefaultNodeConfiguration]
  next => cases h

theorem nodesAre_of_merged {env : Environment} {params : Params} {merged : Fields}
    (h : mergedPresetData env params = .ok merged) : ∃ nodes, NodesAre merged nodes := by
  rw [mergedPresetData] at h
  cases hpreset : resolveText params params.preset "preset" with
  | none =>
    rw [hpreset] at h
    cases h
  | some preset =>
    rw [hpreset] at h
    obtain ⟨networkPreset, -, h⟩ := bind_ok.mp h
    cases hassembly : orElse (resolveText params params.assembly "assembly")
      (defaultAssembly preset) with
    | none =>
      rw [hassembly] at h
      cases h
    | some assembly =>
      rw [hassembly] at h
      obtain ⟨assemblyPreset, -, h⟩ := bind_ok.mp h
      exact nodesAre_withDynamicDefaults (nodup_mergePresets _) h

end Merged

section Announced

variable {runTemplate : String → Fields → Except String String} {merged presetData : Fields}
  {nodes : List Fields}

theorem listField_of_field {name : String} {items : List Value} {named : Fields}
    (h : field presetData name = some (.array items named)) :
    listField presetData name = items := by
  rw [listField, h]

/-- The expanded preset has the copies of the nodes. -/
theorem expandRepeat_nodes (hnodes : NodesAre merged nodes)
    (h : expandRepeat runTemplate merged = .ok presetData) :
    (presetData.map Prod.fst).Nodup ∧ ∃ results,
      field presetData "nodes" = some (.array results []) ∧
      List.Forall₂ (IsCopy runTemplate merged) (copies merged) results := by
  obtain ⟨services, hservices, hnext⟩ := bind_ok.mp h
  obtain ⟨nemesis, -, hpure⟩ := bind_ok.mp hnext
  cases hpure
  refine ⟨nodup_spread hnodes.fields_nodup _, ?_⟩
  have hnames : services.map Prod.fst = serviceNames := by
    rw [← List.forall₂_eq_eq_eq, List.forall₂_map_left_iff]
    refine (mapM_ok.mp hservices).flip.imp fun entry name hentry => ?_
    obtain ⟨_, -, hpure⟩ := bind_ok.mp hentry
    cases hpure
    rfl
  obtain ⟨entry, hentry⟩ := exists_mapM_ok.mp ⟨services, hservices⟩ "nodes" (by decide)
  have hmem := (mem_mapM_ok hservices).mpr ⟨"nodes", by decide, hentry⟩
  obtain ⟨results, hresults, hpure⟩ := bind_ok.mp hentry
  cases hpure
  refine ⟨results, field_spread_of_mem ?_ (List.mem_append_left _ hmem) _, ?_⟩
  · have hnodup : (serviceNames ++ ["nemesis"]).Nodup := by decide
    rw [List.map_append, hnames]
    exact hnodup
  · rw [listField_of_field hnodes.nodes_eq] at hresults
    have hcopies : copies merged = nodes.flatMap fun node =>
        (indicesOf node).map fun index => (node, index) := by
      rw [copies, listField_of_field hnodes.nodes_eq, List.flatMap_map]
      rfl
    rw [hcopies]
    exact expandServicesRepeat_copies hresults

/-- The nodes of the expanded preset without their private keys, with those of the custom
preset merged into them. -/
theorem announcedPreset_nodes {results : List Value} (hnodup : (presetData.map Prod.fst).Nodup)
    (hresults : field presetData "nodes" = some (.array results []))
    (customPreset : Option CustomPreset) :
    listField (announcedPreset presetData customPreset) "nodes" =
      mergeItems ((results.map (removePrivateKeys [])).map (mergeValue none))
        (((customPreset.map (·.nodes)).getD []).map .object) := by
  have hremoved : field (removePrivateKeysFields [] presetData) "nodes" =
      some (.array (results.map (removePrivateKeys [])) []) := by
    rw [field_removed (by decide), hresults, Option.map_some, removePrivateKeys,
      removePrivateKeysItems_eq_map]
  have hremovedNodup := hnodup.sublist (names_removed presetData)
  have hcopied : field (mergeFields [] (removePrivateKeysFields [] presetData)) "nodes" =
      some (.array ((results.map (removePrivateKeys [])).map (mergeValue none)) []) := by
    rw [field_mergeFields hremovedNodup hremoved, field_assignMergeValue, mergeValue,
      ← mergeItems_nil]
    rfl
  have hmerged : field (announcedPreset presetData customPreset) "nodes" =
      field (mergeFields (mergeFields [] (removePrivateKeysFields [] presetData))
        ((customPreset.map (·.fields)).getD [])) "nodes" :=
    field_mergePresets (by decide) _
  cases customPreset with
  | none => exact listField_of_field (hmerged.trans hcopied)
  | some customPreset =>
    rcases customPreset.nodes_eq with ⟨hnone, hnodes⟩ | hnodes
    · rw [Option.map_some, Option.getD_some,
        field_mergeFields_of_notMem (field_eq_none_iff.mp hnone), hcopied] at hmerged
      rw [listField_of_field hmerged, Option.map_some, Option.getD_some, hnodes]
      rfl
    · rw [Option.map_some, Option.getD_some, field_mergeFields customPreset.fields_nodup hnodes,
        field_assignMergeValue, hcopied, mergeValue] at hmerged
      exact listField_of_field hmerged

/-- A copy's node in the expanded preset has the texts that the copy renders to. -/
theorem IsCopy.text {copy : Fields × ℤ} {node : Value} (h : IsCopy runTemplate merged copy node)
    {name : String} (hname : name ≠ "repeat") :
    textOf (field (ownFields node) name) = copyText runTemplate merged copy name := by
  obtain ⟨values, hvalues, rfl⟩ := h
  exact (textAt_omitRepeat hname values).trans (textAt_mapValues hvalues)

/-- What the announcing commands read of a copy's node. -/
theorem IsCopy.announced {copy : Fields × ℤ} {node : Value}
    (h : IsCopy runTemplate merged copy node) (hnodup : (copy.1.map Prod.fst).Nodup)
    {items : List Value} {index : ℕ} (hnode : items[index]? = some node)
    (customPreset : Option CustomPreset) (name : String) :
    textOf ((mergeItems ((items.map (removePrivateKeys [])).map (mergeValue none))
        (((customPreset.map (·.nodes)).getD []).map .object))[index]?.bind fun node =>
          field (ownFields node) name) =
      if customGives customPreset index name then customText customPreset index name
      else textOf (field (ownFields (removePrivateKeys [] node)) name) := by
  obtain ⟨values, hvalues, rfl⟩ := h
  have hvaluesNodup : ((removePrivateKeysFields [] (omitRepeat values)).map Prod.fst).Nodup := by
    have hnames := mapValues_names hvalues
    rw [← hnames] at hnodup
    exact (hnodup.sublist (List.filter_sublist.map Prod.fst)).sublist (names_removed _)
  have hitem : ((items.map (removePrivateKeys [])).map (mergeValue none))[index]? =
      some (.object (mergeFields [] (removePrivateKeysFields [] (omitRepeat values)))) := by
    rw [List.getElem?_map, List.getElem?_map, hnode]
    rfl
  rw [mergeItems_getElem? hitem, List.getElem?_map, customGives, customText]
  cases hcustom : ((customPreset.map (·.nodes)).getD [])[index]? with
  | none => exact textAt_mergeFields_nil hvaluesNodup name
  | some custom =>
    have hcustomNodup : (custom.map Prod.fst).Nodup := by
      cases customPreset with
      | none => cases hcustom
      | some customPreset =>
        exact customPreset.nodes_nodup custom (List.mem_of_getElem? hcustom)
    have htext := textAt_mergeFields hcustomNodup
      (mergeFields [] (removePrivateKeysFields [] (omitRepeat values))) name
    rw [textAt_mergeFields_nil hvaluesNodup] at htext
    exact htext

theorem customText_of_not_gives {customPreset : Option CustomPreset} {index : ℕ} {name : String}
    (h : customGives customPreset index name = false) :
    customText customPreset index name = none := by
  rw [customText]
  rw [customGives] at h
  cases hcustom : ((customPreset.map (·.nodes)).getD [])[index]? with
  | none => rfl
  | some custom =>
    rw [hcustom] at h
    exact textAt_of_not_gives h

/-- What is read for a key that is nowhere else. -/
theorem ite_customGives (customPreset : Option CustomPreset) (index : ℕ) (name : String) :
    (if customGives customPreset index name then customText customPreset index name else none) =
      customText customPreset index name := by
  rw [ite_eq_left_iff]
  intro h
  exact (customText_of_not_gives (Bool.not_eq_true _ ▸ h)).symm

theorem NodesAre.copy_nodup (h : NodesAre merged nodes) {copy : Fields × ℤ}
    (hcopy : copy ∈ copies merged) : (copy.1.map Prod.fst).Nodup := by
  obtain ⟨value, hvalue, hmem⟩ := List.mem_flatMap.mp hcopy
  rw [listField_of_field h.nodes_eq] at hvalue
  obtain ⟨fields, hfields, rfl⟩ := List.mem_map.mp hvalue
  obtain ⟨_, -, rfl⟩ := List.mem_map.mp hmem
  exact h.nodes_nodup fields hfields

/-- The node at one place. -/
theorem sameNode_iff {customPreset : Option CustomPreset} {results : List Value} {index : ℕ}
    {copy : Fields × ℤ} {node : Value} (hnodes : NodesAre merged nodes)
    (hnodup : (presetData.map Prod.fst).Nodup)
    (hresults : field presetData "nodes" = some (.array results []))
    (hindex : (copies merged)[index]? = some copy) (hnode : results[index]? = some node)
    (hcopy : IsCopy runTemplate merged copy node) :
    (nodeText (announcedPreset presetData customPreset) index "name" =
        nodeText presetData index "name" ∧
      nodeText (announcedPreset presetData customPreset) index "mainPrivateKey" =
        nodeText presetData index "mainPrivateKey") ↔
      GivesTheSame runTemplate merged customPreset index copy := by
  have hcopyNodup := hnodes.copy_nodup (List.mem_of_getElem? hindex)
  have hown : ∀ name, name ≠ "repeat" →
      nodeText presetData index name = copyText runTemplate merged copy name := by
    intro name hname
    rw [nodeText, listField_of_field hresults, hnode]
    exact hcopy.text hname
  have hannounced : ∀ name, nodeText (announcedPreset presetData customPreset) index name =
      if customGives customPreset index name then customText customPreset index name
      else textOf (field (ownFields (removePrivateKeys [] node)) name) := by
    intro name
    rw [nodeText, announcedPreset_nodes hnodup hresults]
    exact hcopy.announced hcopyNodup hnode customPreset name
  obtain ⟨fields, rfl⟩ : ∃ fields, node = .object fields := by
    obtain ⟨values, -, rfl⟩ := hcopy
    exact ⟨_, rfl⟩
  have hname : textOf (field (ownFields (removePrivateKeys [] (.object fields))) "name") =
      copyText runTemplate merged copy "name" :=
    (textAt_removed_public (by decide) fields).trans (hcopy.text (by decide))
  have hkey : textOf (field (ownFields (removePrivateKeys [] (.object fields))) "mainPrivateKey") =
      none := textAt_removed_key (by decide) fields
  rw [hannounced, hannounced, hown "name" (by decide), hown "mainPrivateKey" (by decide), hname,
    hkey, ite_eq_right_iff, ite_customGives]
  exact ⟨fun h => ⟨h.1, h.2⟩, fun h => ⟨h.name, h.mainPrivateKey⟩⟩

end Announced

/-- The nodes agree exactly when the custom preset gives every copy, at its place, what the
copy renders to. -/
theorem announced_nodes_agree_iff {env : Environment} {params : Params}
    {customPreset : Option CustomPreset} {merged presetData : Fields}
    (hmerged : mergedPresetData env (withCustomPreset params customPreset) = .ok merged)
    (hpreset : createPresetData env (withCustomPreset params customPreset) = .ok presetData) :
    SameNodes presetData (announcedPreset presetData customPreset) ↔
      ∀ index copy, (copies merged)[index]? = some copy →
        GivesTheSame env.runTemplate merged customPreset index copy := by
  obtain ⟨nodes, hnodes⟩ := nodesAre_of_merged hmerged
  obtain ⟨_, hmerged', hexpand⟩ := bind_ok.mp hpreset
  cases hmerged.symm.trans hmerged'
  obtain ⟨hnodup, results, hresults, hcopies⟩ := expandRepeat_nodes hnodes hexpand
  obtain ⟨hlength, hcopy⟩ := List.forall₂_iff_get.mp hcopies
  constructor
  · intro hsame index copy hindex
    obtain ⟨hlt, rfl⟩ := List.getElem?_eq_some_iff.mp hindex
    have hlt' : index < results.length := hlength ▸ hlt
    refine (sameNode_iff hnodes hnodup hresults hindex (List.getElem?_eq_getElem hlt')
      (hcopy index hlt hlt')).mp (hsame index ?_)
    rwa [listField_of_field hresults]
  · intro hgives index hindex
    rw [listField_of_field hresults] at hindex
    have hlt : index < (copies merged).length := hlength ▸ hindex
    have hget := List.getElem?_eq_getElem hlt
    exact (sameNode_iff hnodes hnodup hresults hget (List.getElem?_eq_getElem hindex)
      (hcopy index hlt hindex)).mpr (hgives index _ hget)

/-- Handlebars on the names of the nodes, and on texts without expressions. -/
def renderName (text : String) (context : Fields) : Except String String :=
  match text, field context "$index" with
  | "peer-node-{{$index}}", some (.scalar (.number index)) => .ok s!"peer-node-{index.num}"
  | "api-node-{{$index}}", some (.scalar (.number index)) => .ok s!"api-node-{index.num}"
  | _, _ => .ok text

/-- The nodes of assembly-multinode.yml. -/
def multinodeEnvironment : Environment where
  sharedPreset := []
  loadNetworkPreset _ := .ok [("networkType", .number 152)]
  loadAssembly _ _ := .ok [("nodes", .array
    [.object [("repeat", .number 2), ("harvesting", .bool true), ("voting", .bool true),
      ("api", .bool false), ("name", .str "peer-node-{{$index}}")],
    .object [("repeat", .number 1), ("harvesting", .bool false), ("api", .bool true),
      ("name", .str "api-node-{{$index}}")]] [])]
  runTemplate := renderName

def multinodeParams : Params where
  preset := some "bootstrap"
  assembly := some "multinode"
  customPresetFileObject := none
  customPresetObject := none
  oldPresetData := none

/-- One node of each kind, with its key. -/
def singlePeerPreset : CustomPreset where
  fields := [("nodes", .array [.object [("repeat", .number 1), ("mainPrivateKey", .str "A1")],
    .object [("mainPrivateKey", .str "A2")]] [])]
  nodes := [[("repeat", .number 1), ("mainPrivateKey", .str "A1")], [("mainPrivateKey", .str "A2")]]
  fields_nodup := by decide
  nodes_nodup := by decide
  nodes_eq := .inr rfl

theorem announced_nodes_agree_small :
    ∃ presetData, createPresetData multinodeEnvironment
        (withCustomPreset multinodeParams (some singlePeerPreset)) = .ok presetData ∧
      SameNodes presetData (announcedPreset presetData (some singlePeerPreset)) := by
  refine ⟨_, rfl, (@announced_nodes_agree_iff multinodeEnvironment multinodeParams
    (some singlePeerPreset) _ _ rfl rfl).mpr ?_⟩
  intro index copy hcopy
  match index, hcopy with
  | 0, hcopy =>
    cases hcopy
    exact ⟨fun hgives => absurd hgives (by decide), rfl⟩
  | 1, hcopy =>
    cases hcopy
    exact ⟨fun hgives => absurd hgives (by decide), rfl⟩

/-- The key of the API node, which is the second node of the presets and the third node of the
network. -/
def apiKeyPreset : CustomPreset where
  fields := [("nodes", .array [.object [], .object [("mainPrivateKey", .str "A2")]] [])]
  nodes := [[], [("mainPrivateKey", .str "A2")]]
  fields_nodup := by decide
  nodes_nodup := by decide
  nodes_eq := .inr rfl

/-- The key of the API node is announced as the key of the second peer. -/
theorem announced_key_of_other_node :
    ¬ ∀ (env : Environment) (params : Params) (customPreset : Option CustomPreset)
      (presetData : Fields),
      createPresetData env (withCustomPreset params customPreset) = .ok presetData →
      SameNodes presetData (announcedPreset presetData customPreset) := by
  intro hclaim
  have hsame := hclaim multinodeEnvironment multinodeParams (some apiKeyPreset) _ rfl
  have hkey := (hsame 1 (by decide)).2
  revert hkey
  decide

end SymbolBootstrap.AnnouncedNodes
