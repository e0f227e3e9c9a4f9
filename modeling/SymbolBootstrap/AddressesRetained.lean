import SymbolBootstrap.AddressesUpgrade

/-!
The accounts that `resolveAddresses` draws at random, and whether their private keys are in
what is stored. Every drawn account is placed in the addresses; for the nodes the drawing
itself asks whether the mode stores the key. The nemesis signer and the accounts of the
mosaics are drawn in every mode.
-/
namespace SymbolBootstrap.AddressesRetained

open Library.Throwing CryptoUtils ConfigurationUtils NemesisBalances AddressesService
  AddressesDocuments AccountResolution NodeResolution AddressesUpgrade

def accountOf (node : NodeAccount) : KeyName → Option ConfigAccount
  | .main => some node.main
  | .transport => some node.transport
  | .remote => node.remote
  | .vrf => node.vrf

/-- The account of the addresses that something was drawn for. Of a sink account only the
address is used. -/
def accountAt (a : Addresses) : Purpose → Option ConfigAccount
  | .node index keyName => a.nodes[index]?.bind fun node => accountOf node keyName
  | .nemesisSigner => a.nemesisSigner
  | .mosaic mosaicIndex accountIndex =>
      (a.mosaics.getD [])[mosaicIndex]?.bind fun m => m.accounts[accountIndex]?
  | .sink => none

/-- Every account that was drawn has its private key in the addresses. -/
def Retained (generated : List (Purpose × Account)) (a : Addresses) : Prop :=
  ∀ entry ∈ generated, entry.1 ≠ .sink →
    ∃ b, accountAt a entry.1 = some b ∧ b.privateKey = some entry.2.privateKey

/-- Whether a mode stores the private key of what was drawn. -/
def stores (mode : PrivateKeySecurityMode) : Purpose → Bool
  | .node _ keyName => storesNodeKey mode keyName
  | .nemesisSigner | .mosaic _ _ | .sink => storesKeys mode

/-- What is drawn for the nemesis block. -/
def IsNemesis : Purpose → Prop
  | .nemesisSigner | .mosaic _ _ => True
  | .node _ _ | .sink => False

theorem IsNemesis.ne_sink {purpose : Purpose} (h : IsNemesis purpose) : purpose ≠ .sink := by
  rintro rfl
  exact h

theorem IsNemesis.stores_eq {purpose : Purpose} (h : IsNemesis purpose)
    (mode : PrivateKeySecurityMode) : stores mode purpose = storesKeys mode := by
  cases purpose with
  | node index keyName => exact h.elim
  | nemesisSigner => rfl
  | mosaic mosaicIndex accountIndex => rfl
  | sink => rfl

theorem stores_promptAll (purpose : Purpose) : stores .promptAll purpose = false := by
  cases purpose <;> rfl

/-- A mode that stores no private key stores those of no drawn nemesis accounts only. -/
theorem stores_promptAll_iff {entries : List (Purpose × Account)}
    (hnemesis : ∀ entry ∈ entries, IsNemesis entry.1) :
    (∀ entry ∈ entries, entry.1 ≠ .sink → stores .promptAll entry.1 = true) ↔ entries = [] := by
  constructor
  · intro hstores
    apply List.eq_nil_iff_forall_not_mem.mpr
    intro entry hmem
    have hentry := hstores entry hmem (hnemesis entry hmem).ne_sink
    rw [stores_promptAll] at hentry
    cases hentry
  · rintro rfl entry hmem
    cases hmem

/-- The drawn account is in its place. -/
def Held (a : Addresses) (entry : Purpose × Account) : Prop :=
  accountAt a entry.1 = some (toConfigAccount (.account entry.2))

theorem accountOf_storedNode (mode : PrivateKeySecurityMode) (node : NodeAccount)
    (keyName : KeyName) :
    accountOf (storedNode mode node) keyName =
      (accountOf node keyName).map (stored (storesNodeKey mode keyName)) := by
  cases keyName <;> rfl

theorem accountAt_storedAddresses (mode : PrivateKeySecurityMode) (a : Addresses)
    (purpose : Purpose) :
    accountAt (storedAddresses mode a) purpose =
      (accountAt a purpose).map (stored (stores mode purpose)) := by
  cases purpose with
  | node index keyName =>
    show (a.nodes.map (storedNode mode))[index]?.bind _ = (a.nodes[index]?.bind _).map _
    rw [List.getElem?_map]
    cases a.nodes[index]? with
    | none => rfl
    | some node => exact accountOf_storedNode mode node keyName
  | nemesisSigner => rfl
  | mosaic mosaicIndex accountIndex =>
    have hmosaics : (a.mosaics.map (List.map (storedMosaic mode))).getD [] =
        (a.mosaics.getD []).map (storedMosaic mode) := by
      cases a.mosaics <;> rfl
    show ((a.mosaics.map (List.map (storedMosaic mode))).getD [])[mosaicIndex]?.bind _ =
      ((a.mosaics.getD [])[mosaicIndex]?.bind _).map _
    rw [hmosaics, List.getElem?_map]
    cases (a.mosaics.getD [])[mosaicIndex]? with
    | none => rfl
    | some m => exact List.getElem?_map ..
  | sink => rfl

/-- When every drawn account is in its place, it is the mode that decides. -/
theorem retained_iff_stores {generated : List (Purpose × Account)} {a : Addresses}
    {mode : PrivateKeySecurityMode}
    (hheld : ∀ entry ∈ generated, entry.1 ≠ .sink → Held a entry) :
    Retained generated (storedAddresses mode a) ↔
      ∀ entry ∈ generated, entry.1 ≠ .sink → stores mode entry.1 = true := by
  refine forall₂_congr fun entry hentry => forall_congr' fun hsink => ?_
  rw [accountAt_storedAddresses, hheld entry hentry hsink, Option.map_some]
  cases stores mode entry.1 with
  | true => exact ⟨fun _ => rfl, fun _ => ⟨_, rfl, rfl⟩⟩
  | false =>
    constructor
    · rintro ⟨b, hb, hkey⟩
      cases hb
      cases hkey
    · intro hfalse
      cases hfalse

/-- The draws between two states, all of a kind. -/
def Drawn (P : Purpose × Account → Prop) (draws draws' : Draws) : Prop :=
  ∃ entries, draws'.generated = draws.generated ++ entries ∧ ∀ entry ∈ entries, P entry

section Drawn

variable {P Q : Purpose × Account → Prop} {draws draws₁ draws' : Draws}

theorem Drawn.of_eq (h : draws'.generated = draws.generated) : Drawn P draws draws' := by
  refine ⟨[], by rw [h, List.append_nil], ?_⟩
  intro entry hentry
  cases hentry

theorem Drawn.one {entry : Purpose × Account}
    (h : draws'.generated = draws.generated ++ [entry]) (hentry : P entry) :
    Drawn P draws draws' := by
  refine ⟨[entry], h, ?_⟩
  intro entry' hmem
  rw [List.mem_singleton.mp hmem]
  exact hentry

theorem Drawn.trans (h : Drawn P draws draws₁) (h' : Drawn P draws₁ draws') :
    Drawn P draws draws' := by
  obtain ⟨entries, hgenerated, hall⟩ := h
  obtain ⟨entries', hgenerated', hall'⟩ := h'
  refine ⟨entries ++ entries', by rw [hgenerated', hgenerated, List.append_assoc], ?_⟩
  intro entry hentry
  rcases List.mem_append.mp hentry with hentry | hentry
  · exact hall entry hentry
  · exact hall' entry hentry

theorem Drawn.imp (h : Drawn P draws draws') (himp : ∀ entry, P entry → Q entry) :
    Drawn Q draws draws' := by
  obtain ⟨entries, hgenerated, hall⟩ := h
  exact ⟨entries, hgenerated, fun entry hentry => himp entry (hall entry hentry)⟩

/-- Nothing is drawn in two parts when nothing is drawn in either. -/
theorem Drawn.eq_iff (h : Drawn P draws draws₁) (h' : Drawn Q draws₁ draws') :
    draws'.generated = draws.generated ↔
      draws₁.generated = draws.generated ∧ draws'.generated = draws₁.generated := by
  obtain ⟨entries, hgenerated, -⟩ := h
  obtain ⟨entries', hgenerated', -⟩ := h'
  rw [hgenerated', hgenerated]
  simp

end Drawn

section

variable {services : Services} {presetData presetData' : ConfigPreset} {draws draws' : Draws}
  {mode : PrivateKeySecurityMode}

/-- The message is missing exactly where the mode stores the key. -/
theorem resolveGenerateErrorMessage_none {keyName : KeyName} :
    resolveGenerateErrorMessage keyName mode = none ↔ storesNodeKey mode keyName = true := by
  cases mode <;> cases keyName <;> simp [resolveGenerateErrorMessage, storesNodeKey]

section Nodes

variable {index : ℕ} {nodePreset : NodePreset} {node : NodeAccount}

variable (mode index node) in
/-- An account that was drawn for a node whose key the mode stores. -/
def NodeEntry (entry : Purpose × Account) : Prop :=
  ∃ keyName, entry.1 = .node index keyName ∧ storesNodeKey mode keyName = true ∧
    accountOf node keyName = some (toConfigAccount (.account entry.2))

theorem resolveNodeAccount_drawn {networkType : NetworkType} {keyName : KeyName}
    {old : Option ConfigAccount} {publicKey privateKey : Option String} {a : ConfigAccount}
    (ha : accountOf node keyName = some a)
    (h : resolveNodeAccount services networkType mode keyName index nodePreset old publicKey
      privateKey draws = .ok (a, draws')) : Drawn (NodeEntry mode index node) draws draws' := by
  rcases resolveNodeAccount_draws h with rfl | ⟨hmessage, account, rfl, hgenerated⟩
  · exact Drawn.of_eq rfl
  · exact Drawn.one hgenerated ⟨keyName, rfl, resolveGenerateErrorMessage_none.mp hmessage, ha⟩

theorem resolveNodeAccounts_drawn {old : Option NodeAccount}
    (hmode : getPrivateKeySecurityMode presetData.privateKeySecurityMode = .ok mode)
    (h : resolveNodeAccounts services old presetData index nodePreset draws =
      .ok (node, draws')) : Drawn (NodeEntry mode index node) draws draws' := by
  obtain ⟨mode', main, draws₁, transport, draws₂, remote, draws₃, vrf, hmode', hmain, htransport,
    hremote, hvrf, hnode⟩ := resolveNodeAccounts_run.mp h
  rw [hmode] at hmode'
  cases hmode'
  have hmainAt : accountOf node .main = some main := by rw [hnode]; rfl
  have htransportAt : accountOf node .transport = some transport := by rw [hnode]; rfl
  have hremoteDrawn : Drawn (NodeEntry mode index node) draws₂ draws₃ := by
    obtain ⟨-, a, rfl, hrun⟩ | ⟨-, -, rfl⟩ := hremote
    · exact resolveNodeAccount_drawn (by rw [hnode]; rfl) hrun
    · exact Drawn.of_eq rfl
  have hvrfDrawn : Drawn (NodeEntry mode index node) draws₃ draws' := by
    obtain ⟨-, a, rfl, hrun⟩ | ⟨-, -, rfl⟩ := hvrf
    · exact resolveNodeAccount_drawn (by rw [hnode]; rfl) hrun
    · exact Drawn.of_eq rfl
  exact (((resolveNodeAccount_drawn hmainAt hmain).trans (resolveNodeAccount_drawn htransportAt
    htransport)).trans hremoteDrawn).trans hvrfDrawn

variable (mode) in
/-- An account that was drawn for one of the nodes. -/
def NodesEntry (nodes : List NodeAccount) (entry : Purpose × Account) : Prop :=
  ∃ (index : ℕ) (node : NodeAccount), nodes[index]? = some node ∧ NodeEntry mode index node entry

theorem resolveNodesAccounts_drawn {old : Option Addresses} {nodes : List NodeAccount}
    (hmode : getPrivateKeySecurityMode presetData.privateKeySecurityMode = .ok mode)
    (h : resolveNodesAccounts services old presetData draws = .ok (nodes, draws')) :
    Drawn (NodesEntry mode nodes) draws draws' := by
  refine run_mapM_zipIdx_ok (P := fun _ results after => Drawn (NodesEntry mode results) draws
    after) ?_ (Drawn.of_eq rfl) h
  intro done results before nodePreset node after hdrawn hlength hnode
  have hkept : ∀ entry, NodesEntry mode results entry →
      NodesEntry mode (results ++ [node]) entry := by
    rintro entry ⟨index, earlier, hearlier, hentry⟩
    have hindex := (List.getElem?_eq_some_iff.mp hearlier).1
    exact ⟨index, earlier, by rw [List.getElem?_append_left hindex, hearlier], hentry⟩
  have hnew := (resolveNodeAccounts_drawn hmode hnode).imp (Q := NodesEntry mode
    (results ++ [node])) fun entry hentry =>
      ⟨done.length, node, by rw [← hlength, List.getElem?_concat_length], hentry⟩
  exact (hdrawn.imp hkept).trans hnew

end Nodes

theorem resolveSyncAddress_drawn {networkType : NetworkType}
    {sinkAddress sinkAddress' providedAddress : Option String} {address : String}
    (h : resolveSyncAddress services networkType sinkAddress providedAddress draws =
      .ok ((address, sinkAddress'), draws')) : Drawn (·.1 = .sink) draws draws' := by
  cases hprovided : given providedAddress with
  | some rawAddress =>
    simp only [resolveSyncAddress, hprovided, run_bind_ok, run_lift_ok, run_pure_ok] at h
    obtain ⟨plain, _, ⟨-, rfl⟩, hresult⟩ := h
    cases hresult
    exact Drawn.of_eq rfl
  | none =>
    cases hsink : given sinkAddress with
    | some stored =>
      simp only [resolveSyncAddress, hprovided, hsink, run_pure_ok] at h
      cases h
      exact Drawn.of_eq rfl
    | none =>
      simp only [resolveSyncAddress, hprovided, hsink] at h
      cases h
      exact Drawn.one rfl rfl

theorem resolveHashSeed_drawn {old : Option Addresses} {seed : String}
    (h : resolveHashSeed services old presetData draws = .ok (seed, draws')) :
    draws'.generated = draws.generated := by
  cases hseed : (given presetData.nemesisGenerationHashSeed).or
      (given (old.map Addresses.nemesisGenerationHashSeed)) with
  | some seed =>
    simp only [resolveHashSeed, hseed, run_pure_ok] at h
    cases h
    rfl
  | none =>
    simp only [resolveHashSeed, hseed] at h
    cases h
    rfl

/-- Up to the nodes, only sink accounts and accounts of nodes are drawn. -/
theorem resolveNetwork_drawn {old : Option Addresses} {a : Addresses}
    (hmode : getPrivateKeySecurityMode presetData.privateKeySecurityMode = .ok mode)
    (h : resolveNetwork services old presetData draws = .ok ((a, presetData'), draws')) :
    Drawn (fun entry => entry.1 = .sink ∨ NodesEntry mode a.nodes entry) draws draws' := by
  obtain ⟨seed, draws₁, presetSinks, sinkAddress, draws₂, networkName, nodes, hseed, hsinks, -,
    hnodes, hresult⟩ := resolveNetwork_run.mp h
  obtain ⟨rfl, -⟩ := Prod.mk.inj hresult
  obtain ⟨harvest, sink₁, draws₃, mosaicRental, sink₂, draws₄, namespaceRental, sink₃, h₁, h₂, h₃,
    hsinksResult⟩ := resolveSinkAddresses_run.mp hsinks
  obtain ⟨rfl, -⟩ := Prod.mk.inj hsinksResult
  have hsinkDrawn := ((resolveSyncAddress_drawn h₁).trans (resolveSyncAddress_drawn h₂)).trans
    (resolveSyncAddress_drawn h₃)
  have hnodesDrawn : Drawn (NodesEntry mode nodes) draws₂ draws' :=
    resolveNodesAccounts_drawn hmode hnodes
  exact ((Drawn.of_eq (resolveHashSeed_drawn hseed)).trans
    (hsinkDrawn.imp fun _ => Or.inl)).trans (hnodesDrawn.imp fun _ => Or.inr)

section Nemesis

variable {nemesis : NemesisPreset} {old : Option Addresses}

variable (nemesis old) in
/-- The private key of the nemesis signer is in the preset or in the old addresses. -/
def SignerGiven : Prop :=
  ((given nemesis.nemesisSignerPrivateKey).or
    (given ((old.bind Addresses.nemesisSigner).bind ConfigAccount.privateKey))).isSome = true

/-- A signer whose private key is not given is drawn. -/
theorem resolveNemesisAccount_drawn (hsdk : services.sdk.Lawful) {signer : ConfigAccount}
    (h : resolveNemesisAccount services presetData nemesis old draws = .ok (signer, draws')) :
    SignerGiven nemesis old ∧ draws' = draws ∨
    ¬SignerGiven nemesis old ∧ ∃ account : Account,
      signer = toConfigAccount (.account account) ∧
      draws'.generated = draws.generated ++ [(.nemesisSigner, account)] := by
  obtain ⟨key, account, hkey, hcreated, rfl, -⟩ := resolveNemesisAccount_run h
  unfold SignerGiven
  cases hgiven : (given nemesis.nemesisSignerPrivateKey).or
      (given ((old.bind Addresses.nemesisSigner).bind ConfigAccount.privateKey)) with
  | some text =>
    simp only [resolveSignerPrivateKey, hgiven, run_pure_ok] at hkey
    exact Or.inl ⟨rfl, (Prod.mk.inj hkey).2⟩
  | none =>
    simp only [resolveSignerPrivateKey, hgiven] at hkey
    cases hkey
    -- the account of the drawn private key is the one that was drawn
    rw [hsdk.generated] at hcreated
    cases hcreated
    exact Or.inr ⟨Bool.false_ne_true, _, rfl, rfl⟩

/-- The number of accounts that are drawn for a mosaic. -/
def generatedCount : RequestedAccounts → ℕ
  | .count number => number.toNat
  | .publicKeys _ => 0

variable (mosaics : List MosaicAccounts) in
/-- An account that was drawn for one of the mosaics. -/
def MosaicsEntry (entry : Purpose × Account) : Prop :=
  ∃ (mosaicIndex accountIndex : ℕ) (m : MosaicAccounts),
    entry.1 = .mosaic mosaicIndex accountIndex ∧ mosaics[mosaicIndex]? = some m ∧
    m.accounts[accountIndex]? = some (toConfigAccount (.account entry.2))

/-- The accounts drawn one after the other for a mosaic. -/
theorem generateRange_drawn {sdk : SymbolSdk} {networkType : NetworkType} {mosaicIndex : ℕ}
    {indices : List ℕ} {accounts : List ConfigAccount}
    (h : (indices.mapM fun accountIndex => do
        let account ← generateNewAccount sdk networkType (.mosaic mosaicIndex accountIndex)
        return toConfigAccount (.account account)) draws = .ok (accounts, draws')) :
    ∃ drawn : List Account, accounts = drawn.map (fun a => toConfigAccount (.account a)) ∧
      drawn.length = indices.length ∧
      draws'.generated = draws.generated ++
        (indices.zip drawn).map fun entry => (.mosaic mosaicIndex entry.1, entry.2) := by
  refine run_mapM_ok (P := fun done results after => ∃ drawn : List Account,
    results = drawn.map (fun a => toConfigAccount (.account a)) ∧ drawn.length = done.length ∧
    after.generated = draws.generated ++ (done.zip drawn).map
      fun entry => (Purpose.mosaic mosaicIndex entry.1, entry.2)) ?_
    ⟨[], rfl, rfl, by simp⟩ h
  rintro done results before accountIndex a after ⟨drawn, rfl, hlength, hgenerated⟩ hrun
  cases hrun
  refine ⟨drawn ++ [sdk.generateNewAccount before.next networkType], ?_, ?_, ?_⟩
  · rw [List.map_append]
    rfl
  · rw [List.length_append, List.length_append, hlength]
    rfl
  · rw [List.zip_append hlength.symm, List.map_append, ← List.append_assoc, ← hgenerated]
    rfl

theorem generateAddresses_drawn {sdk : SymbolSdk} {networkType : NetworkType} {mosaicIndex : ℕ}
    {requested : RequestedAccounts} {accounts : List ConfigAccount}
    (h : generateAddresses sdk networkType mosaicIndex requested draws =
      .ok (accounts, draws')) :
    Drawn (fun entry => ∃ accountIndex, entry.1 = .mosaic mosaicIndex accountIndex ∧
      accounts[accountIndex]? = some (toConfigAccount (.account entry.2))) draws draws' ∧
    (draws'.generated = draws.generated ↔ generatedCount requested = 0) := by
  cases requested with
  | publicKeys keys =>
    have hsame : draws' = draws := by
      refine run_mapM_ok (P := fun _ _ after => after = draws) ?_ rfl h
      rintro done results before key a after rfl hkey
      obtain ⟨account, draws₁, hcreated, hpure⟩ := run_bind_ok.mp hkey
      cases hpure
      exact (run_lift_ok.mp hcreated).2
    rw [hsame]
    exact ⟨Drawn.of_eq rfl, by simp [generatedCount]⟩
  | count number =>
    by_cases hnumber : 0 ≤ number ∧ number < 4294967296
    · simp only [generateAddresses, if_pos hnumber] at h
      obtain ⟨drawn, rfl, hlength, hgenerated⟩ := generateRange_drawn h
      refine ⟨⟨_, hgenerated, ?_⟩, ?_⟩
      · intro entry hentry
        obtain ⟨⟨accountIndex, account⟩, hmem, rfl⟩ := List.mem_map.mp hentry
        obtain ⟨k, hk⟩ := List.mem_iff_getElem?.mp hmem
        obtain ⟨hindex, haccount⟩ := List.getElem?_zip_eq_some.mp hk
        obtain ⟨hk, rfl⟩ := List.getElem?_eq_some_iff.mp hindex
        refine ⟨k, by rw [List.getElem_range], ?_⟩
        rw [List.getElem?_map, haccount]
        rfl
      · rw [hgenerated]
        simp [generatedCount, ← List.length_eq_zero_iff, hlength]
    · simp only [generateAddresses, if_neg hnumber] at h
      exact absurd h run_throw_ok

/-- The accounts of the mosaics are drawn into their places, and none is drawn exactly when
none is asked for. -/
theorem processNemesisBalances_drawn {nodes : List NodeAccount} {nemesisSignerAddress : String}
    {mosaicAccounts : List MosaicAccounts} {processed : List MosaicPreset}
    (h : processNemesisBalances services.sdk services.toYaml presetData nodes nemesisSignerAddress
      nemesis draws = .ok ((mosaicAccounts, processed), draws')) :
    Drawn (MosaicsEntry mosaicAccounts) draws draws' ∧
    (draws'.generated = draws.generated ↔
      ∀ m ∈ nemesis.mosaics.getD [], generatedCount m.accounts = 0) := by
  obtain ⟨-, mosaics, results, hmosaics, hrun, hresult⟩ :=
    NemesisSplit.processNemesisBalances_ok.mp h
  rw [List.unzip_eq_map] at hresult
  obtain ⟨rfl, -⟩ := Prod.mk.inj hresult
  rw [hmosaics, Option.getD_some]
  refine run_mapM_zipIdx_ok (P := fun done results after =>
    Drawn (MosaicsEntry (results.map Prod.fst)) draws after ∧
    (after.generated = draws.generated ↔ ∀ m ∈ done, generatedCount m.accounts = 0)) ?_ ?_ hrun
  · rintro done results before m result after ⟨hdrawn, hnothing⟩ hlength hmosaic
    obtain ⟨accounts, distributions, hgenerate, -, rfl⟩ :=
      NemesisSplit.processMosaic_ok.mp hmosaic
    obtain ⟨hnew, hnewNothing⟩ := generateAddresses_drawn hgenerate
    constructor
    · rw [List.map_append]
      apply Drawn.trans
      · apply hdrawn.imp
        rintro entry ⟨mosaicIndex, accountIndex, earlier, hpurpose, hearlier, haccount⟩
        have hindex := (List.getElem?_eq_some_iff.mp hearlier).1
        exact ⟨mosaicIndex, accountIndex, earlier, hpurpose,
          by rw [List.getElem?_append_left hindex, hearlier], haccount⟩
      · apply hnew.imp
        rintro entry ⟨accountIndex, hpurpose, haccount⟩
        have hcount : done.length = (results.map Prod.fst).length := by simp [hlength]
        refine ⟨done.length, accountIndex, ⟨services.sdk.createMosaicId done.length
          nemesisSignerAddress, m.name, accounts⟩, hpurpose, ?_, haccount⟩
        rw [hcount]
        exact List.getElem?_concat_length ..
    · rw [hdrawn.eq_iff hnew, hnothing, hnewNothing, List.forall_mem_append]
      simp
  · exact ⟨Drawn.of_eq rfl, by simp⟩

variable (nemesis old) in
/-- Nothing is left to draw at random for the nemesis block. -/
def NothingToDraw : Prop :=
  SignerGiven nemesis old ∧
    (old.isSome = true ∨ ∀ m ∈ nemesis.mosaics.getD [], generatedCount m.accounts = 0)

theorem resolveMosaics_drawn {oldPresetData : Option ConfigPreset} {nodes : List NodeAccount}
    {nemesisSignerAddress : String} {mosaics : Option (List MosaicAccounts)}
    (h : resolveMosaics services old oldPresetData presetData nodes nemesis nemesisSignerAddress
      draws = .ok ((mosaics, presetData'), draws')) :
    Drawn (MosaicsEntry (mosaics.getD [])) draws draws' ∧
    (draws'.generated = draws.generated ↔
      old.isSome = true ∨ ∀ m ∈ nemesis.mosaics.getD [], generatedCount m.accounts = 0) := by
  cases old with
  | some oldAddresses =>
    cases oldPresetData with
    | none => exact absurd h run_throw_ok
    | some oldPreset =>
      cases h
      exact ⟨Drawn.of_eq rfl, iff_of_true rfl (Or.inl rfl)⟩
  | none =>
    obtain ⟨⟨mosaicAccounts, processed⟩, draws₁, hprocess, hpure⟩ := run_bind_ok.mp h
    cases hpure
    obtain ⟨hdrawn, hnothing⟩ := processNemesisBalances_drawn hprocess
    refine ⟨hdrawn, hnothing.trans ?_⟩
    simp

/-- The accounts of the nemesis block are drawn into their places. -/
theorem resolveNemesis_drawn (hsdk : services.sdk.Lawful) {oldPresetData : Option ConfigPreset}
    {a a' : Addresses}
    (h : resolveNemesis services old oldPresetData a presetData nemesis draws =
      .ok ((a', presetData'), draws')) :
    a'.nodes = a.nodes ∧
    Drawn (fun entry => IsNemesis entry.1 ∧ Held a' entry) draws draws' ∧
    (draws'.generated = draws.generated ↔ NothingToDraw nemesis old) := by
  obtain ⟨signer, draws₁, address, presetIds, mosaics, hsigner, -, hmosaics, rfl⟩ :=
    resolveNemesis_run.mp h
  have hsignerDrawn : Drawn (fun entry => IsNemesis entry.1 ∧
        Held { a with nemesisSigner := some signer, mosaics } entry) draws draws₁ ∧
      (draws₁.generated = draws.generated ↔ SignerGiven nemesis old) := by
    rcases resolveNemesisAccount_drawn hsdk hsigner with
      ⟨hgiven, rfl⟩ | ⟨hgiven, account, rfl, hgenerated⟩
    · exact ⟨Drawn.of_eq rfl, iff_of_true rfl hgiven⟩
    · refine ⟨Drawn.one hgenerated ⟨trivial, rfl⟩, iff_of_false ?_ hgiven⟩
      rw [hgenerated]
      simp
  have hmosaicsDrawn : Drawn (fun entry => IsNemesis entry.1 ∧
        Held { a with nemesisSigner := some signer, mosaics } entry) draws₁ draws' ∧
      (draws'.generated = draws₁.generated ↔ (old.isSome = true ∨
        ∀ m ∈ nemesis.mosaics.getD [], generatedCount m.accounts = 0)) := by
    obtain ⟨hdrawn, hnothing⟩ := resolveMosaics_drawn hmosaics
    refine ⟨hdrawn.imp ?_, hnothing⟩
    rintro ⟨purpose, account⟩ ⟨mosaicIndex, accountIndex, m, rfl, hm, haccount⟩
    refine ⟨trivial, ?_⟩
    show (mosaics.getD [])[mosaicIndex]?.bind _ = _
    rw [hm]
    exact haccount
  refine ⟨rfl, hsignerDrawn.1.trans hmosaicsDrawn.1, ?_⟩
  rw [hsignerDrawn.1.eq_iff hmosaicsDrawn.1, hsignerDrawn.2, hmosaicsDrawn.2]
  rfl

end Nemesis

/-- The run of a preset for which no nemesis block is created. -/
theorem resolveAddresses_plain {old : Option Addresses} {oldPresetData : Option ConfigPreset}
    {a : Addresses} (hcreates : shouldCreateNemesis services.seedExists presetData = false)
    (h : resolveAddresses services old oldPresetData presetData draws =
      .ok ((a, presetData'), draws')) :
    ∃ presetData₁, resolveNetwork services old presetData draws =
      .ok ((a, presetData₁), draws') := by
  obtain ⟨⟨a₁, presetData₁⟩, draws₁, hnetwork, hrest⟩ := run_bind_ok.mp h
  have hcreates₁ : shouldCreateNemesis services.seedExists presetData₁ = false := by
    obtain ⟨harvest, mosaicRental, namespaceRental, networkName, seed, rfl⟩ :=
      resolveNetwork_preset hnetwork
    exact hcreates
  simp only [hcreates₁] at hrest
  obtain ⟨result, draws₂, hlift, hpure⟩ := run_bind_ok.mp hrest
  have hdraws := (run_lift_ok.mp hlift).2
  cases hpure
  rw [← hdraws] at hnetwork
  exact ⟨presetData₁, hnetwork⟩

theorem nodesEntry_held {a : Addresses} {entry : Purpose × Account}
    (h : NodesEntry mode a.nodes entry) :
    entry.1 ≠ .sink ∧ Held a entry ∧ stores mode entry.1 = true := by
  obtain ⟨purpose, account⟩ := entry
  obtain ⟨index, node, hnode, keyName, rfl, hstores, haccount⟩ := h
  refine ⟨Purpose.noConfusion, ?_, hstores⟩
  show a.nodes[index]?.bind _ = _
  rw [hnode]
  exact haccount

end

variable {services : Services} {old : Option Addresses} {oldPresetData : Option ConfigPreset}
  {presetData presetData' : ConfigPreset} {a : Addresses} {n : ℕ} {draws' : Draws}
  {mode : PrivateKeySecurityMode}

/-- What is stored of a run holds the private key of every account that the run drew exactly
when the mode stores private keys or the nemesis block needs no random account. -/
theorem drawn_accounts_retained_exactly (hsdk : services.sdk.Lawful)
    (hmode : getPrivateKeySecurityMode presetData.privateKeySecurityMode = .ok mode)
    (hrun : resolveAddresses services old oldPresetData presetData ⟨n, []⟩ =
      .ok ((a, presetData'), draws')) :
    Retained draws'.generated (storedAddresses mode a) ↔
      mode ≠ .promptAll ∨ shouldCreateNemesis services.seedExists presetData = false ∨
        ∃ nemesis, presetData.nemesis = some nemesis ∧ NothingToDraw nemesis old := by
  cases hcreates : shouldCreateNemesis services.seedExists presetData with
  | false =>
    obtain ⟨presetData₁, hnetwork⟩ := resolveAddresses_plain hcreates hrun
    obtain ⟨entries, hgenerated, hentries⟩ := resolveNetwork_drawn hmode hnetwork
    rw [List.nil_append] at hgenerated
    refine iff_of_true ((retained_iff_stores ?_).mpr ?_) (Or.inr (Or.inl rfl))
    · intro entry hmem hsink
      rw [hgenerated] at hmem
      exact (nodesEntry_held ((hentries entry hmem).resolve_left hsink)).2.1
    · intro entry hmem hsink
      rw [hgenerated] at hmem
      exact (nodesEntry_held ((hentries entry hmem).resolve_left hsink)).2.2
  | true =>
    obtain ⟨nemesis, hnemesis⟩ := nemesis_of_creates hcreates
    obtain ⟨a₁, presetData₁, draws₁, hnetwork, hrest⟩ :=
      (resolveAddresses_creating hnemesis hcreates).mp hrun
    obtain ⟨entries, hgenerated, hentries⟩ := resolveNetwork_drawn hmode hnetwork
    obtain ⟨hnodes, ⟨entries', hgenerated', hentries'⟩, hnothing⟩ := resolveNemesis_drawn hsdk hrest
    rw [List.nil_append] at hgenerated
    rw [hgenerated', hgenerated, List.append_right_eq_self] at hnothing
    rw [hgenerated', hgenerated]
    have hnetworkHeld : ∀ entry ∈ entries, entry.1 ≠ .sink →
        Held a entry ∧ stores mode entry.1 = true := by
      intro entry hmem hsink
      have hentry := (hentries entry hmem).resolve_left hsink
      rw [← hnodes] at hentry
      exact (nodesEntry_held hentry).2
    have hheld : ∀ entry ∈ entries ++ entries', entry.1 ≠ .sink → Held a entry := by
      intro entry hmem hsink
      rcases List.mem_append.mp hmem with hmem | hmem
      · exact (hnetworkHeld entry hmem hsink).1
      · exact (hentries' entry hmem).2
    rw [retained_iff_stores hheld, List.forall_mem_append]
    by_cases hmode' : mode = .promptAll
    · -- then only a run that draws nothing for the nemesis block keeps all keys
      subst hmode'
      rw [stores_promptAll_iff fun entry hmem => (hentries' entry hmem).1, hnothing]
      constructor
      · rintro ⟨-, hdraw⟩
        exact Or.inr (Or.inr ⟨nemesis, hnemesis, hdraw⟩)
      · rintro (hmode' | hcreates' | ⟨nemesis', hnemesis', hdraw⟩)
        · exact absurd rfl hmode'
        · cases hcreates'
        · rw [hnemesis] at hnemesis'
          cases hnemesis'
          exact ⟨fun entry hmem hsink => (hnetworkHeld entry hmem hsink).2, hdraw⟩
    · refine iff_of_true ⟨?_, ?_⟩ (Or.inl hmode')
      · intro entry hmem hsink
        exact (hnetworkHeld entry hmem hsink).2
      · intro entry hmem _
        rw [(hentries' entry hmem).1.stores_eq]
        simpa [storesKeys] using hmode'

theorem drawn_accounts_retained_small :
    ∃ a presetData' draws',
      resolveAddresses knownServices none none newNetwork ⟨0, []⟩ =
        .ok ((a, presetData'), draws') ∧
      (Retained draws'.generated (storedAddresses .encrypt a) ↔
        PrivateKeySecurityMode.encrypt ≠ .promptAll ∨
          shouldCreateNemesis knownServices.seedExists newNetwork = false ∨
          ∃ nemesis, newNetwork.nemesis = some nemesis ∧ NothingToDraw nemesis none) := by
  obtain ⟨a, presetData', draws', hrun⟩ : ∃ a presetData' draws',
      resolveAddresses knownServices none none newNetwork ⟨0, []⟩ =
        .ok ((a, presetData'), draws') := ⟨_, _, _, rfl⟩
  exact ⟨a, presetData', draws', hrun,
    drawn_accounts_retained_exactly KnownAccounts.knownSdk_lawful rfl hrun⟩

/-- The mode that stores no private key does not keep a nemesis signer from being drawn. -/
theorem promptNetwork_loses_nemesisSigner :
    getPrivateKeySecurityMode promptNetwork.privateKeySecurityMode = .ok .promptAll ∧
    ∃ a presetData' draws',
      resolveAddresses knownServices none none promptNetwork ⟨0, []⟩ =
        .ok ((a, presetData'), draws') ∧
      ¬Retained draws'.generated (storedAddresses .promptAll a) := by
  obtain ⟨firstPreset, hrun⟩ := promptNetwork_run
  refine ⟨rfl, _, firstPreset, _, hrun, ?_⟩
  intro hretained
  obtain ⟨b, hb, hkey⟩ := hretained _ List.mem_cons_self Purpose.noConfusion
  cases hb
  cases hkey

end SymbolBootstrap.AddressesRetained
