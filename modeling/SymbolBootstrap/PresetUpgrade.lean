import SymbolBootstrap.AnnouncedNodes
import SymbolBootstrap.PresetIndependence

/-!
The preset of an upgrade that is given no custom preset. Of the stored preset it reads the names
of the preset and of the assembly and the custom preset of the earlier run, which was stored
without its private keys. All else is read from the bundled files again, so that an upgrade is a
first run on them, and one more upgrade changes nothing.
-/
namespace SymbolBootstrap.PresetUpgrade

open Library.Documents Library.Merging Library.MergedFields Library.Throwing CryptoUtils
  ConfigLoader PresetSecrets PresetIndependence AnnouncedNodes

/-- `createPresetData` once the preset, the assembly and the custom preset are resolved. -/
def createFrom (env : Environment) (preset assembly : String) (customPreset : Fields) :
    Except String Fields := do
  let networkPreset ← env.loadNetworkPreset preset
  let assemblyPreset ← env.loadAssembly preset assembly
  let presetData ← withDynamicDefaults preset assembly customPreset (mergePresets
    [some env.sharedPreset, some networkPreset, some assemblyPreset, some customPreset])
  expandRepeat env.runTemplate presetData

/-- The parameters of an upgrade: the flags that were given, and no custom preset. -/
def upgradeParams (preset assembly : Option String) (oldPresetData : Fields) : Params where
  preset
  assembly
  customPresetFileObject := some []
  customPresetObject := none
  oldPresetData := some oldPresetData

/-- What is stored of a preset without its private keys, whatever else was resolved in it. -/
structure StoredOf (presetData stored : Fields) : Prop where
  preset : field stored "preset" = field (removePrivateKeysFields [] presetData) "preset"
  assembly : field stored "assembly" = field (removePrivateKeysFields [] presetData) "assembly"
  customPresetCache : field stored "customPresetCache" =
    field (removePrivateKeysFields [] presetData) "customPresetCache"

section Removal

mutual

/-- What is left has no private keys. -/
theorem removePrivateKeys_twice : ∀ value,
    removePrivateKeys [] (removePrivateKeys [] value) = removePrivateKeys [] value
  | .scalar value => rfl
  | .str text => rfl
  | .date _ => rfl
  | .binary bytes => removePrivateKeys_byteFields [] bytes
  | .array items _ => by
      rw [removePrivateKeys, removePrivateKeys, removePrivateKeysItems_twice items]
  | .object fields => by
      rw [removePrivateKeys, removePrivateKeys, removePrivateKeysFields_twice fields]

theorem removePrivateKeysItems_twice : ∀ items,
    removePrivateKeysItems [] (removePrivateKeysItems [] items) = removePrivateKeysItems [] items
  | [] => rfl
  | item :: rest => by
      rw [removePrivateKeysItems, removePrivateKeysItems, removePrivateKeys_twice item,
        removePrivateKeysItems_twice rest]

theorem removePrivateKeysFields_twice : ∀ fields,
    removePrivateKeysFields [] (removePrivateKeysFields [] fields) =
      removePrivateKeysFields [] fields
  | [] => rfl
  | (name, value) :: rest => by
      rw [removePrivateKeysFields_cons_all]
      split
      · exact removePrivateKeysFields_twice rest
      · rename_i hpublic
        have hkept : isEncryptableKeyField (removePrivateKeys [] value) name = false := by
          cases value with
          | str text => exact Bool.eq_false_iff.mpr hpublic
          | scalar _ => rfl
          | date _ => rfl
          | binary _ => rfl
          | array _ _ => rfl
          | object _ => rfl
        rw [removePrivateKeysFields_cons_all, hkept, if_neg Bool.false_ne_true,
          removePrivateKeys_twice value, removePrivateKeysFields_twice rest]

end

end Removal

section Fields

variable {env : Environment} {params : Params} {presetData : Fields}

theorem orElse_eq_some {text other : Option String} {value : String} :
    orElse text other = some value ↔ (text = some value ∧ value ≠ "") ∨
      (orElse text none = none ∧ other = some value) := by
  unfold orElse
  cases text with
  | none => simp
  | some text =>
    by_cases htext : text = ""
    · simp [htext]
    · simp only [Option.filter_some, htext, ne_eq, not_false_eq_true, decide_true, if_true,
        Option.some_or, Option.some.injEq]
      constructor
      · rintro rfl
        exact .inl ⟨rfl, htext⟩
      · rintro (⟨rfl, -⟩ | ⟨hnone, -⟩)
        · rfl
        · cases hnone

theorem textField_ne {preset : Option Fields} {name value : String}
    (h : textField preset name = some value) : value ≠ "" := by
  unfold textField at h
  split at h
  · rename_i text htext
    split at h
    · cases h
    · rename_i hne
      rwa [← Option.some.inj h]
  · cases h

theorem resolveText_ne {param : Option String} {name value : String}
    (h : resolveText params param name = some value) : value ≠ "" := by
  unfold resolveText at h
  rcases orElse_eq_some.mp h with ⟨-, hne⟩ | ⟨-, h⟩
  · exact hne
  · rcases orElse_eq_some.mp h with ⟨-, hne⟩ | ⟨-, h⟩
    · exact hne
    · rcases orElse_eq_some.mp h with ⟨-, hne⟩ | ⟨-, h⟩
      · exact hne
      · exact textField_ne h

theorem createPresetData_resolved (h : createPresetData env params = .ok presetData) :
    ∃ preset assembly, preset ≠ "" ∧ assembly ≠ "" ∧
      resolveText params params.preset "preset" = some preset ∧
      orElse (resolveText params params.assembly "assembly") (defaultAssembly preset) =
        some assembly ∧
      createFrom env preset assembly (resolvedCustomPreset params) = .ok presetData := by
  obtain ⟨merged, hmerged, hexpand⟩ := bind_ok.mp h
  unfold mergedPresetData at hmerged
  split at hmerged
  · cases hmerged
  · rename_i preset hpreset
    obtain ⟨networkPreset, hnetwork, hmerged⟩ := bind_ok.mp hmerged
    split at hmerged
    · cases hmerged
    · rename_i assembly hassembly
      obtain ⟨assemblyPreset, hassemblyPreset, hdefaults⟩ := bind_ok.mp hmerged
      refine ⟨preset, assembly, resolveText_ne hpreset, ?_, hpreset, hassembly, ?_⟩
      · rcases orElse_eq_some.mp hassembly with ⟨-, hne⟩ | ⟨-, hdefault⟩
        · exact hne
        · unfold defaultAssembly at hdefault
          split at hdefault
          · cases hdefault
            decide
          · cases hdefault
      · exact bind_ok.mpr ⟨networkPreset, hnetwork, bind_ok.mpr ⟨assemblyPreset, hassemblyPreset,
          bind_ok.mpr ⟨merged, hdefaults, hexpand⟩⟩⟩

/-- The expansion sets the services and the nemesis, and nothing else. -/
theorem field_expandRepeat {runTemplate : String → Fields → Except String String}
    {merged : Fields} (h : expandRepeat runTemplate merged = .ok presetData) {name : String}
    (hname : name ∉ serviceNames ++ ["nemesis"]) :
    field presetData name = field merged name := by
  obtain ⟨services, hservices, hnemesis⟩ := bind_ok.mp h
  obtain ⟨nemesis, -, hpure⟩ := bind_ok.mp hnemesis
  cases hpure
  have hnames : services.map Prod.fst = serviceNames := by
    have hpublic := congrArg (List.map Prod.fst) (expandLists_public hservices).1
    rw [List.map_map, List.map_map] at hpublic
    exact hpublic
  refine field_spread_of_notMem ?_ merged
  rw [List.map_append, hnames]
  exact hname

/-- The run writes down what it has resolved. -/
theorem createFrom_fields {preset assembly : String} {customPreset : Fields}
    (h : createFrom env preset assembly customPreset = .ok presetData) :
    field presetData "preset" = some (.str preset) ∧
      field presetData "assembly" = some (.str assembly) ∧
      field presetData "customPresetCache" = some (.object customPreset) := by
  obtain ⟨networkPreset, -, h⟩ := bind_ok.mp h
  obtain ⟨assemblyPreset, -, h⟩ := bind_ok.mp h
  obtain ⟨merged, hdefaults, hexpand⟩ := bind_ok.mp h
  unfold withDynamicDefaults at hdefaults
  split at hdefaults
  · cases hdefaults
    rw [field_expandRepeat hexpand (by decide), field_expandRepeat hexpand (by decide),
      field_expandRepeat hexpand (by decide)]
    have hnames : ["version", "preset", "assembly", "nodes", "customPresetCache"].Nodup := by decide
    refine ⟨field_spread_of_mem ?_ ?_ _, field_spread_of_mem ?_ ?_ _,
      field_spread_of_mem ?_ ?_ _⟩
    all_goals first | exact hnames | simp
  · cases hdefaults

end Fields

section Upgrades

variable {env env' : Environment} {params : Params} {presetData stored : Fields}
  {preset assembly : String} {customPreset : Fields}

/-- What an upgrade reads of the stored preset. -/
theorem StoredOf.fields (hstored : StoredOf presetData stored)
    (h : createFrom env preset assembly customPreset = .ok presetData) :
    field stored "preset" = some (.str preset) ∧ field stored "assembly" = some (.str assembly) ∧
      field stored "customPresetCache" =
        some (.object (removePrivateKeysFields [] customPreset)) := by
  obtain ⟨hpreset, hassembly, hcustom⟩ := createFrom_fields h
  rw [hstored.preset, hstored.assembly, hstored.customPresetCache, field_removed (by decide),
    field_removed (by decide), field_removed (by decide), hpreset, hassembly, hcustom]
  exact ⟨rfl, rfl, rfl⟩

/-- A flag that is not given, or given as before. -/
theorem resolveText_upgrade {flag : Option String} {name value : String} {old : Fields}
    {presetFlag assemblyFlag : Option String} (hflag : flag = none ∨ flag = some value)
    (hvalue : value ≠ "") (hold : field old name = some (.str value)) :
    resolveText (upgradeParams presetFlag assemblyFlag old) flag name = some value := by
  have htext : textField (some old) name = some value := by
    unfold textField
    rw [Option.bind_some, hold]
    exact if_neg hvalue
  have hrest : orElse (textField none name) (orElse (textField (some []) name)
      (textField (some old) name)) = some value := htext
  unfold resolveText
  rcases hflag with rfl | rfl
  · exact hrest
  · exact orElse_eq_some.mpr (.inl ⟨rfl, hvalue⟩)

/-- An upgrade is a first run with the custom preset less its private keys. -/
theorem upgrade_resolves (h : createFrom env preset assembly customPreset = .ok presetData)
    (hpreset : preset ≠ "") (hassembly : assembly ≠ "") (hstored : StoredOf presetData stored)
    {presetFlag assemblyFlag : Option String}
    (hpresetFlag : presetFlag = none ∨ presetFlag = some preset)
    (hassemblyFlag : assemblyFlag = none ∨ assemblyFlag = some assembly) :
    createPresetData env' (upgradeParams presetFlag assemblyFlag stored) =
      createFrom env' preset assembly (removePrivateKeysFields [] customPreset) := by
  obtain ⟨hpresetField, hassemblyField, hcustom⟩ := hstored.fields h
  have hresolved : resolvedCustomPreset (upgradeParams presetFlag assemblyFlag stored) =
      removePrivateKeysFields [] customPreset := by
    have hempty : (mergePresets [some [], none]).isEmpty = true := by decide
    unfold resolvedCustomPreset upgradeParams
    simp only [hempty, if_true, objectField, Option.bind_some, hcustom]
  unfold createPresetData mergedPresetData
  rw [show (upgradeParams presetFlag assemblyFlag stored).preset = presetFlag from rfl,
    show (upgradeParams presetFlag assemblyFlag stored).assembly = assemblyFlag from rfl,
    resolveText_upgrade hpresetFlag hpreset hpresetField,
    resolveText_upgrade hassemblyFlag hassembly hassemblyField, hresolved,
    createFrom]
  have hgiven : orElse (some assembly) (defaultAssembly preset) = some assembly :=
    orElse_eq_some.mpr (.inl ⟨rfl, hassembly⟩)
  simp only [hgiven, bind_assoc]

variable (env') in
/-- Upgrades one after the other, each on what is stored of the one before. -/
def upgrades (store : ℕ → Fields → Fields) (presetData : Fields) : ℕ → Except String Fields
  | 0 => .ok presetData
  | n + 1 => do
      let oldPresetData ← upgrades store presetData n
      createPresetData env' (upgradeParams none none (store n oldPresetData))

theorem upgrades_succ {store : ℕ → Fields → Fields}
    (hstore : ∀ n presetData, StoredOf presetData (store n presetData)) (hpreset : preset ≠ "")
    (hassembly : assembly ≠ "")
    (h : createFrom env preset assembly customPreset = .ok presetData) (n : ℕ) :
    upgrades env' store presetData (n + 1) =
      createFrom env' preset assembly (removePrivateKeysFields [] customPreset) := by
  induction n with
  | zero => exact upgrade_resolves h hpreset hassembly (hstore 0 presetData) (.inl rfl) (.inl rfl)
  | succ n ih =>
    rw [upgrades, ih]
    cases hagain : createFrom env' preset assembly (removePrivateKeysFields [] customPreset) with
    | error message => rfl
    | ok presetData' =>
      have hnext :
          createPresetData env' (upgradeParams none none (store (n + 1) presetData')) = _ :=
        upgrade_resolves hagain hpreset hassembly (hstore (n + 1) presetData') (.inl rfl) (.inl rfl)
      rw [removePrivateKeysFields_twice, hagain] at hnext
      exact hnext

/-- Every upgrade gives what a first run would give for the custom preset less its private
keys; without private keys, and with the files as they were, no upgrade changes the preset. -/
theorem upgrades_settle {store : ℕ → Fields → Fields}
    (hstore : ∀ n presetData, StoredOf presetData (store n presetData))
    (h : createPresetData env params = .ok presetData) :
    ∃ preset assembly,
      createFrom env preset assembly (resolvedCustomPreset params) = .ok presetData ∧
      (∀ n, upgrades env' store presetData (n + 1) =
        createFrom env' preset assembly
          (removePrivateKeysFields [] (resolvedCustomPreset params))) ∧
      (removePrivateKeysFields [] (resolvedCustomPreset params) = resolvedCustomPreset params →
        ∀ n, upgrades env store presetData n = .ok presetData) := by
  obtain ⟨preset, assembly, hpreset, hassembly, -, -, hcreate⟩ := createPresetData_resolved h
  refine ⟨preset, assembly, hcreate, upgrades_succ hstore hpreset hassembly hcreate, ?_⟩
  intro hpublic n
  cases n with
  | zero => rfl
  | succ n => rw [upgrades_succ hstore hpreset hassembly hcreate, hpublic, hcreate]

theorem upgrades_settle_faucet :
    ∃ presetData preset assembly,
      createFrom faucetEnvironment preset assembly
        (resolvedCustomPreset (faucetParams "A1" "B1")) = .ok presetData ∧
      (∀ n, upgrades faucetEnvironment (fun _ => removePrivateKeysFields []) presetData (n + 1) =
        createFrom faucetEnvironment preset assembly
          (removePrivateKeysFields [] (resolvedCustomPreset (faucetParams "A1" "B1")))) ∧
      (removePrivateKeysFields [] (resolvedCustomPreset (faucetParams "A1" "B1")) =
          resolvedCustomPreset (faucetParams "A1" "B1") →
        ∀ n, upgrades faucetEnvironment (fun _ => removePrivateKeysFields []) presetData n =
          .ok presetData) :=
  ⟨_, upgrades_settle (fun _ _ => ⟨rfl, rfl, rfl⟩)
    (show createPresetData faucetEnvironment (faucetParams "A1" "B1") = .ok _ from rfl)⟩

end Upgrades
end SymbolBootstrap.PresetUpgrade
