import SymbolBootstrap.AddressesRetained

/-!
`resolveAddresses` on what a first run stored, with the preset of the first run less its private
keys. Whatever the run draws, what it would store is what is stored already, of the addresses
and of the preset.
-/
namespace SymbolBootstrap.StoredUpgrade

open Library.Throwing CryptoUtils ConfigurationUtils NemesisBalances AddressesService
  AddressesDocuments AccountResolution NodeResolution AddressesUpgrade AddressesRetained

section

variable {services : Services} {presetData : ConfigPreset} {draws draws' : Draws}
  {mode : PrivateKeySecurityMode}

theorem stored_stored (stores : Bool) (a : ConfigAccount) :
    stored stores (stored stores a) = stored stores a := by
  cases stores <;> rfl

theorem storedAddresses_storedAddresses (mode : PrivateKeySecurityMode) (a : Addresses) :
    storedAddresses mode (storedAddresses mode a) = storedAddresses mode a := by
  have hnode : ∀ n, storedNode mode (storedNode mode n) = storedNode mode n := by
    intro n
    simp only [storedNode, Option.map_map, Function.comp_def, stored_stored]
  have hmosaic : ∀ m, storedMosaic mode (storedMosaic mode m) = storedMosaic mode m := by
    intro m
    simp only [storedMosaic, List.map_map, Function.comp_def, stored_stored]
  have hsigner : ∀ signer : Option ConfigAccount,
      (signer.map (stored (storesKeys mode))).map (stored (storesKeys mode)) =
        signer.map (stored (storesKeys mode)) := by
    intro signer
    simp only [Option.map_map, Function.comp_def, stored_stored]
  have hmosaics : ∀ mosaics : Option (List MosaicAccounts),
      (mosaics.map (List.map (storedMosaic mode))).map (List.map (storedMosaic mode)) =
        mosaics.map (List.map (storedMosaic mode)) := by
    intro mosaics
    simp only [Option.map_map, Function.comp_def, List.map_map, hmosaic]
  simp only [storedAddresses, List.map_map, Function.comp_def, hnode, hsigner, hmosaics]

theorem storedPreset_storedPreset (p : ConfigPreset) :
    storedPreset (storedPreset p) = storedPreset p := by
  simp only [storedPreset, List.map_map, Option.map_map]
  rfl

section Network

variable {networkType : NetworkType} {sinkAddress sinkAddress' providedAddress : Option String}
  {address : String} {a : Addresses} {presetData' : ConfigPreset}

/-- With the sink address that a run ends with, each address is found again. -/
theorem resolveSyncAddress_same (hsdk : services.sdk.Lawful) {last : Option String}
    (h : resolveSyncAddress services networkType sinkAddress providedAddress draws =
      .ok ((address, sinkAddress'), draws'))
    (hlast : (given sinkAddress').isSome = true → last = sinkAddress') (upgradeDraws : Draws) :
    resolveSyncAddress services networkType last providedAddress upgradeDraws =
      .ok ((address, last), upgradeDraws) := by
  cases hprovided : given providedAddress with
  | some rawAddress =>
    simp only [resolveSyncAddress, hprovided, run_bind_ok, run_lift_ok, run_pure_ok] at h ⊢
    obtain ⟨plain, _, ⟨hplain, rfl⟩, hresult⟩ := h
    cases hresult
    exact ⟨_, _, ⟨hplain, rfl⟩, rfl⟩
  | none =>
    cases hsink : given sinkAddress with
    | some stored =>
      simp only [resolveSyncAddress, hprovided, hsink, run_pure_ok] at h
      cases h
      have hgiven := given_some (given_eq_some.mp hsink).2
      obtain rfl := hlast (by rw [hgiven]; rfl)
      simp only [resolveSyncAddress, hprovided, hgiven]
      rfl
    | none =>
      simp only [resolveSyncAddress, hprovided, hsink] at h
      cases h
      have hgiven := given_some (hsdk.address_ne draws.next networkType)
      obtain rfl := hlast (by rw [hgiven]; rfl)
      simp only [resolveSyncAddress, hprovided, hgiven]
      rfl

/-- The network part of a second run: the stored addresses without the nemesis, and the same
preset but for private keys. -/
theorem resolveNetwork_same (hsdk : services.sdk.Lawful)
    (hfirst : resolveNetwork services none presetData draws = .ok ((a, presetData'), draws'))
    (signer : Option ConfigAccount) (mosaics : Option (List MosaicAccounts))
    {upgradeDraws draws'' : Draws} {second : Addresses} {secondPreset : ConfigPreset}
    (hsecond : resolveNetwork services
      (some (storedAddresses mode { a with nemesisSigner := signer, mosaics }))
      (storedPreset presetData) upgradeDraws = .ok ((second, secondPreset), draws'')) :
    second = { storedAddresses mode { a with nemesisSigner := signer, mosaics } with
      nemesisSigner := none, mosaics := none } ∧
    secondPreset = storedPreset presetData' ∧ draws'' = upgradeDraws := by
  have hsettled := (resolveNetwork_first hsdk hfirst).1
  have hfix : (storedPreset presetData).nodes =
      (storedPreset presetData).nodes.map storedNodePreset := by
    simp only [storedPreset, List.map_map]
    rfl
  have hstored := (hsettled.withNemesis signer mosaics).stored mode
  obtain ⟨hsame, hdraws⟩ : second = { storedAddresses mode { a with
        nemesisSigner := signer, mosaics } with nemesisSigner := none, mosaics := none } ∧
      draws'' = upgradeDraws := by
    obtain ⟨presetData₂, -, hagain⟩ :=
      resolveNetwork_again hsdk hstored (resolveNetwork_reads hsecond hfix) hfix
    obtain ⟨hresult, hdraws⟩ := Prod.mk.inj (Except.ok.inj (hsecond.symm.trans hagain))
    exact ⟨(Prod.mk.inj hresult).1, hdraws⟩
  refine ⟨hsame, ?_, hdraws⟩
  -- the preset is put together from the seed, the fee sinks and the name of both runs
  obtain ⟨seed, draws₁, presetSinks, sinkAddress, draws₂, networkName, nodes, hseed, hsinks, hname,
    -, hfirstResult⟩ := resolveNetwork_run.mp hfirst
  obtain ⟨rfl, rfl⟩ := Prod.mk.inj hfirstResult
  obtain ⟨harvest, sink₁, draws₃, mosaicRental, sink₂, draws₄, namespaceRental, sink₃, h₁, h₂, h₃,
    hsinksResult⟩ := resolveSinkAddresses_run.mp hsinks
  obtain ⟨rfl, rfl⟩ := Prod.mk.inj hsinksResult
  obtain ⟨seed', draws₁', presetSinks', sinkAddress', draws₂', networkName', nodes', hseed',
    hsinks', hname', -, hsecondResult⟩ := resolveNetwork_run.mp hsecond
  obtain ⟨rfl, rfl⟩ := Prod.mk.inj hsecondResult
  obtain ⟨harvest', sink₁', draws₃', mosaicRental', sink₂', draws₄', namespaceRental', sink₃', h₁',
    h₂', h₃', hsinksResult'⟩ := resolveSinkAddresses_run.mp hsinks'
  obtain ⟨rfl, rfl⟩ := Prod.mk.inj hsinksResult'
  have hstart : (given (storedPreset presetData).sinkAddress).or sinkAddress = sinkAddress := by
    cases hsink : given (storedPreset presetData).sinkAddress with
    | none => rfl
    | some value =>
      have hvalue : sinkAddress = some value := hsettled.sinkAddress value hsink
      rw [hvalue, Option.some_or]
  obtain ⟨hkeep₂, -, -⟩ := resolveSyncAddress_first hsdk h₂
  obtain ⟨hkeep₃, -, -⟩ := resolveSyncAddress_first hsdk h₃
  have hlast₁ : (given sink₁).isSome = true → sinkAddress = sink₁ := by
    intro hsome
    have hsink := hkeep₂ hsome
    rw [← hsink] at hsome ⊢
    exact hkeep₃ hsome
  have hsame₁ := (resolveSyncAddress_same hsdk h₁ hlast₁ draws₁').symm.trans (hstart ▸ h₁')
  obtain ⟨hpair₁, rfl⟩ := Prod.mk.inj (Except.ok.inj hsame₁)
  obtain ⟨rfl, rfl⟩ := Prod.mk.inj hpair₁
  have hsame₂ := (resolveSyncAddress_same hsdk h₂ hkeep₃ draws₁').symm.trans h₂'
  obtain ⟨hpair₂, rfl⟩ := Prod.mk.inj (Except.ok.inj hsame₂)
  obtain ⟨rfl, rfl⟩ := Prod.mk.inj hpair₂
  have hsame₃ := (resolveSyncAddress_same hsdk h₃ (fun _ => rfl) draws₁').symm.trans h₃'
  obtain ⟨hpair₃, rfl⟩ := Prod.mk.inj (Except.ok.inj hsame₃)
  obtain ⟨rfl, -⟩ := Prod.mk.inj hpair₃
  obtain rfl := Except.ok.inj (hname.symm.trans hname')
  have hseedAgain := hseed'.symm.trans (resolveHashSeed_again hstored.seed_ne hstored.seed)
  obtain ⟨hseeds, -⟩ := Prod.mk.inj (Except.ok.inj hseedAgain)
  rw [hseeds]
  rfl

end Network

section Nemesis

variable {nemesis : NemesisPreset} {a first second : Addresses}
  {firstPreset secondPreset : ConfigPreset}

variable (services) in
/-- The mosaic ids do not depend on private keys. -/
theorem resolveSignerAddress_stored (presetData : ConfigPreset) :
    resolveSignerAddress services (storedPreset presetData) =
      (resolveSignerAddress services presetData).map fun r => (r.1, storedPreset r.2) := by
  unfold resolveSignerAddress
  have hids : ∀ address, resolveMosaicIds services (storedPreset presetData) address =
      (resolveMosaicIds services presetData address).map storedPreset := by
    intro address
    unfold resolveMosaicIds
    cases hharvesting : given presetData.harvestingMosaicId with
    | some id =>
      simp only [storedPreset, hharvesting]
      rfl
    | none =>
      cases hnemesis : presetData.nemesis with
      | none =>
        simp only [storedPreset, hharvesting, hnemesis]
        rfl
      | some nemesis =>
        simp only [storedPreset, hharvesting, hnemesis]
        rfl
  show (services.sdk.createAddressFromPublicKey presetData.nemesisSignerPublicKey
    presetData.networkType >>= _) = _
  cases services.sdk.createAddressFromPublicKey presetData.nemesisSignerPublicKey
      presetData.networkType with
  | error message => rfl
  | ok address =>
    show (resolveMosaicIds services (storedPreset presetData) address >>= _) =
      Except.map _ (resolveMosaicIds services presetData address >>= _)
    rw [hids]
    cases resolveMosaicIds services presetData address with
    | error message => rfl
    | ok presetIds => rfl

/-- Presets that differ in private keys only get the same mosaic ids. -/
theorem resolveSignerAddress_same {presetData presetData' presetIds presetIds' : ConfigPreset}
    {address address' : String} (hsame : storedPreset presetData' = storedPreset presetData)
    (h : resolveSignerAddress services presetData = .ok (address, presetIds))
    (h' : resolveSignerAddress services presetData' = .ok (address', presetIds')) :
    storedPreset presetIds' = storedPreset presetIds := by
  have hstored := resolveSignerAddress_stored services presetData'
  rw [hsame, resolveSignerAddress_stored, h, h'] at hstored
  exact (Prod.mk.inj (Except.ok.inj hstored)).2.symm

theorem resolveNemesis_same (hsdk : services.sdk.Lawful) (hmode : mode ≠ .promptAll)
    (hfirst : resolveNemesis services none none a presetData nemesis draws =
      .ok ((first, firstPreset), draws'))
    {b : Addresses} {upgradeDraws draws'' : Draws}
    (hsecond : resolveNemesis services (some (storedAddresses mode first))
      (some (storedPreset firstPreset)) b (storedPreset presetData)
      { nemesis with nemesisSignerPrivateKey := none } upgradeDraws =
        .ok ((second, secondPreset), draws'')) :
    second = { b with
      nemesisSigner := (storedAddresses mode first).nemesisSigner
      mosaics := (storedAddresses mode first).mosaics } ∧
    storedPreset secondPreset = storedPreset firstPreset := by
  obtain ⟨signer, key, mosaics, hwhole, hkey, hgenuine, hagrees, haddress⟩ :=
    resolveNemesis_first hsdk hfirst
  have hkept : (storedAddresses mode first).nemesisSigner = some signer := by
    have hstores : storesKeys mode = true := by simpa [storesKeys] using hmode
    rw [hwhole]
    show some (stored (storesKeys mode) signer) = some signer
    rw [hstores]
    rfl
  obtain ⟨signer₁, draws₁, address₁, presetIds₁, mosaics₁, -, hids₁, hmosaics₁, hresult₁⟩ :=
    resolveNemesis_run.mp hfirst
  obtain ⟨signer₂, draws₂, address₂, presetIds₂, mosaics₂, hsigner₂, hids₂, hmosaics₂, rfl⟩ :=
    resolveNemesis_run.mp hsecond
  have hagain := hsigner₂.symm.trans
    (resolveNemesisAccount_again hkept hkey hgenuine hagrees rfl)
  obtain rfl : signer = signer₂ := (Prod.mk.inj (Except.ok.inj hagain)).1.symm
  -- the first run has the same signer
  obtain rfl : signer = signer₁ := by
    have hboth := congrArg Addresses.nemesisSigner (hwhole.symm.trans hresult₁)
    exact Option.some.inj hboth
  cases hmosaics₂
  obtain ⟨⟨mosaicAccounts, processed⟩, draws₃, -, hpure⟩ := run_bind_ok.mp hmosaics₁
  cases hpure
  have hsame : storedPreset (withSigner (storedPreset presetData)
        { nemesis with nemesisSignerPrivateKey := none } signer) =
      storedPreset (withSigner presetData nemesis signer) := by
    simp only [storedPreset, withSigner, List.map_map]
    rfl
  have hids := resolveSignerAddress_same hsame hids₁ hids₂
  refine ⟨by rw [hkept], ?_⟩
  -- the nemesis is the stored one, all else is stored as in the first run
  exact congrArg (fun p : ConfigPreset => { p with nemesis := some { nemesis with
    mosaics := some processed, nemesisSignerPrivateKey := none } }) hids

end Nemesis

section Runs

variable {first second : Addresses} {firstPreset secondPreset : ConfigPreset}

/-- A run that creates no nemesis block ends with the network part and the mosaic ids. -/
theorem resolveAddresses_ids {old : Option Addresses} {oldPresetData : Option ConfigPreset}
    (hcreates : shouldCreateNemesis services.seedExists presetData = false)
    (h : resolveAddresses services old oldPresetData presetData draws =
      .ok ((first, firstPreset), draws')) :
    ∃ presetData₁ address, resolveNetwork services old presetData draws =
        .ok ((first, presetData₁), draws') ∧
      resolveSignerAddress services presetData₁ = .ok (address, firstPreset) := by
  obtain ⟨⟨a₁, presetData₁⟩, draws₁, hnetwork, hrest⟩ := run_bind_ok.mp h
  have hcreates₁ : shouldCreateNemesis services.seedExists presetData₁ = false := by
    obtain ⟨harvest, mosaicRental, namespaceRental, networkName, seed, rfl⟩ :=
      resolveNetwork_preset hnetwork
    exact hcreates
  simp only [hcreates₁] at hrest
  obtain ⟨⟨address, presetIds⟩, draws₂, hlift, hpure⟩ := run_bind_ok.mp hrest
  obtain ⟨hids, rfl⟩ := run_lift_ok.mp hlift
  cases hpure
  exact ⟨presetData₁, address, hnetwork, hids⟩

theorem shouldCreateNemesis_storedPreset (seedExists : String → Bool) (p : ConfigPreset) :
    shouldCreateNemesis seedExists (storedPreset p) = shouldCreateNemesis seedExists p := by
  unfold shouldCreateNemesis storedPreset
  rw [Option.isSome_map]

/-- What a second run stores is what the first one stored. -/
theorem resolveAddresses_same (hsdk : services.sdk.Lawful)
    (hmode : shouldCreateNemesis services.seedExists presetData = true → mode ≠ .promptAll)
    (hfirst : resolveAddresses services none none presetData draws =
      .ok ((first, firstPreset), draws'))
    {upgradeDraws draws'' : Draws}
    (hsecond : resolveAddresses services (some (storedAddresses mode first))
      (some (storedPreset firstPreset)) (storedPreset presetData) upgradeDraws =
        .ok ((second, secondPreset), draws'')) :
    storedAddresses mode second = storedAddresses mode first ∧
      storedPreset secondPreset = storedPreset firstPreset := by
  have hsecondCreates := shouldCreateNemesis_storedPreset services.seedExists presetData
  cases hcreates : shouldCreateNemesis services.seedExists presetData with
  | true =>
    obtain ⟨nemesis, hnemesis⟩ := nemesis_of_creates hcreates
    have hsecondNemesis : (storedPreset presetData).nemesis =
        some { nemesis with nemesisSignerPrivateKey := none } := by
      rw [storedPreset, hnemesis, Option.map_some]
    obtain ⟨a, presetData₁, draws₁, hnetwork, hrest⟩ :=
      (resolveAddresses_creating hnemesis hcreates).mp hfirst
    obtain ⟨b, presetData₂, draws₂, hnetwork₂, hrest₂⟩ :=
      (resolveAddresses_creating hsecondNemesis (hsecondCreates.trans hcreates)).mp hsecond
    obtain ⟨signer, key, mosaics, rfl, -⟩ := resolveNemesis_first hsdk hrest
    obtain ⟨rfl, rfl, -⟩ := resolveNetwork_same hsdk hnetwork (some signer) mosaics hnetwork₂
    obtain ⟨rfl, hpreset⟩ := resolveNemesis_same hsdk (hmode hcreates) hrest hrest₂
    exact ⟨storedAddresses_storedAddresses mode { a with nemesisSigner := some signer, mosaics },
      hpreset⟩
  | false =>
    obtain ⟨presetData₁, address, hnetwork, hids⟩ := resolveAddresses_ids hcreates hfirst
    obtain ⟨presetData₂, address₂, hnetwork₂, hids₂⟩ :=
      resolveAddresses_ids (hsecondCreates.trans hcreates) hsecond
    have hnemesis : { first with nemesisSigner := none, mosaics := none } = first := by
      obtain ⟨seed, draws₁, presetSinks, sinkAddress, draws₂, networkName, nodes, -, -, -, -,
        hresult⟩ := resolveNetwork_run.mp hnetwork
      obtain ⟨rfl, -⟩ := Prod.mk.inj hresult
      rfl
    rw [← hnemesis] at hnetwork₂ ⊢
    obtain ⟨rfl, rfl, -⟩ := resolveNetwork_same hsdk hnetwork none none hnetwork₂
    refine ⟨storedAddresses_storedAddresses mode { first with
      nemesisSigner := none, mosaics := none }, ?_⟩
    exact resolveSignerAddress_same (storedPreset_storedPreset _) hids hids₂

/-- What of the preset no run resolves. -/
def unresolved (p : ConfigPreset) : String × Option String × Option String × List NodePreset :=
  (p.preset, p.nemesisSeedFolder, p.privateKeySecurityMode, p.nodes)

theorem resolveSignerAddress_unresolved {presetIds : ConfigPreset} {address : String}
    (h : resolveSignerAddress services presetData = .ok (address, presetIds)) :
    unresolved presetIds = unresolved presetData ∧ presetIds.nemesis = presetData.nemesis := by
  obtain ⟨address', -, hrest⟩ := bind_ok.mp h
  obtain ⟨presetIds', hids, hpure⟩ := bind_ok.mp hrest
  cases hpure
  unfold resolveMosaicIds at hids
  split at hids
  · cases hids
    exact ⟨rfl, rfl⟩
  · cases hids
  · cases hids
    exact ⟨rfl, rfl⟩

theorem resolveNetwork_unresolved {old : Option Addresses} {a : Addresses}
    {presetData' : ConfigPreset}
    (h : resolveNetwork services old presetData draws = .ok ((a, presetData'), draws')) :
    unresolved presetData' = unresolved presetData ∧
      presetData'.nemesis = presetData.nemesis := by
  obtain ⟨harvest, mosaicRental, namespaceRental, networkName, seed, rfl⟩ :=
    resolveNetwork_preset h
  exact ⟨rfl, rfl⟩

/-- A run leaves what is not resolved; a nemesis section stays one, unless an upgrade takes that of
an old preset without. -/
theorem resolveAddresses_unresolved {old : Option Addresses} {oldPresetData : Option ConfigPreset}
    (h : resolveAddresses services old oldPresetData presetData draws =
      .ok ((first, firstPreset), draws')) :
    unresolved firstPreset = unresolved presetData ∧
      ((∀ oldPreset, oldPresetData = some oldPreset → oldPreset.nemesis.isSome = true) →
        firstPreset.nemesis.isSome = presetData.nemesis.isSome) := by
  cases hcreates : shouldCreateNemesis services.seedExists presetData with
  | false =>
    obtain ⟨presetData₁, address, hnetwork, hids⟩ := resolveAddresses_ids hcreates h
    obtain ⟨hgiven, hnemesis⟩ := resolveNetwork_unresolved hnetwork
    obtain ⟨hgiven₁, hnemesis₁⟩ := resolveSignerAddress_unresolved hids
    exact ⟨hgiven₁.trans hgiven, fun _ => by rw [hnemesis₁, hnemesis]⟩
  | true =>
    obtain ⟨nemesis, hnemesis⟩ := nemesis_of_creates hcreates
    obtain ⟨a, presetData₁, draws₁, hnetwork, hrest⟩ :=
      (resolveAddresses_creating hnemesis hcreates).mp h
    obtain ⟨signer, draws₂, address, presetIds, mosaics, -, hids, hmosaics, -⟩ :=
      resolveNemesis_run.mp hrest
    have hgiven : unresolved presetIds = unresolved presetData :=
      (resolveSignerAddress_unresolved hids).1.trans (resolveNetwork_unresolved hnetwork).1
    rw [← hgiven, hnemesis]
    unfold resolveMosaics at hmosaics
    split at hmosaics
    · exact absurd hmosaics run_throw_ok
    · rename_i oldPreset
      cases hmosaics
      exact ⟨rfl, fun hold => hold oldPreset rfl⟩
    · obtain ⟨⟨mosaicAccounts, processed⟩, draws₃, -, hpure⟩ := run_bind_ok.mp hmosaics
      cases hpure
      exact ⟨rfl, fun _ => rfl⟩

/-- A run creates a nemesis block before and after, where an old preset has a nemesis section. -/
theorem resolveAddresses_creates {old : Option Addresses} {oldPresetData : Option ConfigPreset}
    (hold : ∀ oldPreset, oldPresetData = some oldPreset → oldPreset.nemesis.isSome = true)
    (h : resolveAddresses services old oldPresetData presetData draws =
      .ok ((first, firstPreset), draws')) :
    shouldCreateNemesis services.seedExists firstPreset =
      shouldCreateNemesis services.seedExists presetData := by
  obtain ⟨hgiven, hnemesis⟩ := resolveAddresses_unresolved h
  have hpreset : firstPreset.preset = presetData.preset := congrArg Prod.fst hgiven
  have hfolder : firstPreset.nemesisSeedFolder = presetData.nemesisSeedFolder :=
    congrArg (fun fields => fields.2.1) hgiven
  unfold shouldCreateNemesis
  rw [hpreset, hfolder, hnemesis hold]

/-- The accounts of the nodes come from the network part. -/
theorem resolveAddresses_network {old : Option Addresses} {oldPresetData : Option ConfigPreset}
    (h : resolveAddresses services old oldPresetData presetData draws =
      .ok ((first, firstPreset), draws')) :
    ∃ a presetData₁ draws₁,
      resolveNetwork services old presetData draws = .ok ((a, presetData₁), draws₁) ∧
        first.nodes = a.nodes := by
  cases hcreates : shouldCreateNemesis services.seedExists presetData with
  | false =>
    obtain ⟨presetData₁, address, hnetwork, -⟩ := resolveAddresses_ids hcreates h
    exact ⟨first, presetData₁, draws', hnetwork, rfl⟩
  | true =>
    obtain ⟨nemesis, hnemesis⟩ := nemesis_of_creates hcreates
    obtain ⟨a, presetData₁, draws₁, hnetwork, hrest⟩ :=
      (resolveAddresses_creating hnemesis hcreates).mp h
    obtain ⟨signer, draws₂, address, presetIds, mosaics, -, -, -, hresult⟩ :=
      resolveNemesis_run.mp hrest
    exact ⟨a, presetData₁, draws₁, hnetwork, by rw [hresult]⟩

/-- A node has the name that its preset gives it, or one of its index. -/
theorem resolveAddresses_names {old : Option Addresses} {oldPresetData : Option ConfigPreset}
    (h : resolveAddresses services old oldPresetData presetData draws =
      .ok ((first, firstPreset), draws')) {account : NodeAccount}
    (haccount : account ∈ first.nodes) :
    ∃ nodePreset ∈ presetData.nodes, ∃ index : ℕ,
      account.name = (given nodePreset.name).getD s!"node-{index}" := by
  obtain ⟨a, presetData₁, draws₁, hnetwork, hnodes⟩ := resolveAddresses_network h
  have hgiven : presetData₁.nodes = presetData.nodes :=
    congrArg (fun fields => fields.2.2.2) (resolveNetwork_unresolved hnetwork).1
  obtain ⟨seed, draws₂, presetSinks, sinkAddress, draws₃, networkName, nodes, -, -, -, hrun,
    hresult⟩ := resolveNetwork_run.mp hnetwork
  obtain ⟨rfl, rfl⟩ := Prod.mk.inj hresult
  rw [hnodes] at haccount
  rw [← hgiven]
  refine run_mapM_zipIdx_ok (P := fun presets accounts _ => ∀ account ∈ accounts,
    ∃ nodePreset ∈ presets, ∃ index : ℕ,
      account.name = (given nodePreset.name).getD s!"node-{index}") ?_ ?_ hrun account haccount
  · intro done results before nodePreset node after hdone _ hnode account hmem
    obtain ⟨mode, main, draws₄, transport, draws₅, remote, draws₆, vrf, -, -, -, -, -, rfl⟩ :=
      resolveNodeAccounts_run.mp hnode
    rcases List.mem_append.mp hmem with hin | hin
    · obtain ⟨other, hother, hname⟩ := hdone account hin
      exact ⟨other, List.mem_append_left _ hother, hname⟩
    · rw [List.mem_singleton.mp hin]
      exact ⟨nodePreset, by simp, done.length, rfl⟩
  · intro account hmem
    cases hmem

end Runs
end
end SymbolBootstrap.StoredUpgrade
