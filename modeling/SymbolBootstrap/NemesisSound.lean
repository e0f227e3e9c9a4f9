import SymbolBootstrap.KnownAccounts
import SymbolBootstrap.NemesisSplit

/-!
The balances of the nemesis block: what a successful run gives every account, and for
which presets with balances that fit there is a successful run. The rest of the supply
goes to the first entry left by the filter; when the share is zero that entry is a given
one, or there is none.
-/
namespace SymbolBootstrap.NemesisSound

open Library.Throwing CryptoUtils ConfigurationUtils NemesisBalances NemesisSplit

/-- What a split owes to the accounts of a mosaic. -/
structure SoundSplit (presetData : ConfigPreset) (nodes : List NodeAccount)
    (mosaicsLength mosaicIndex : ℕ) (m : MosaicPreset) (accounts : List ConfigAccount)
    (distributions : List CurrencyDistribution) : Prop where
  total : totalAmount distributions = m.supply
  amounts_pos : ∀ d ∈ distributions, 0 < d.amount
  provided_kept :
    ((providedDistributions presetData nodes mosaicIndex m).filter positive).Sublist distributions
  first : ∃ first, distributions.head? = some first ∧
    equalShare presetData nodes mosaicIndex m accounts.length ≤ first.amount
  first_generated : distributions.head?.map CurrencyDistribution.address =
    (accounts.map ConfigAccount.address ++
      (nodeMainAccounts presetData nodes mosaicIndex).map fun n => n.main.address).head?
  account_share : ∀ (j : ℕ) (a : ConfigAccount), accounts[j]? = some a → 0 < j →
    distributions[j]? =
      some ⟨a.address, equalShare presetData nodes mosaicIndex m accounts.length⟩
  node_share : ∀ (j : ℕ) (n : NodeAccount),
    (nodeMainAccounts presetData nodes mosaicIndex)[j]? = some n → 0 < accounts.length + j →
    0 < getMaxHarvesterBalance presetData mosaicsLength mosaicIndex →
    distributions[accounts.length + j]? =
      some ⟨n.main.address, min (getMaxHarvesterBalance presetData mosaicsLength mosaicIndex)
        (equalShare presetData nodes mosaicIndex m accounts.length)⟩
  /-- A share of zero is no entry: with no room for harvesters only the accounts and the
  provided entries are there. -/
  node_nothing : 0 < (nodeMainAccounts presetData nodes mosaicIndex).length →
    getMaxHarvesterBalance presetData mosaicsLength mosaicIndex ≤ 0 →
    0 < accounts.length ∧ getMaxHarvesterBalance presetData mosaicsLength mosaicIndex = 0 ∧
      distributions.drop accounts.length =
        (providedDistributions presetData nodes mosaicIndex m).filter positive

section Words

variable {presetData : ConfigPreset} {nodes : List NodeAccount} {mosaicsLength mosaicIndex : ℕ}
  {m : MosaicPreset} {accounts : List ConfigAccount} {distributions : List CurrencyDistribution}

/-- What a preset fixes for a node: its balance, or nothing where it is excluded. -/
def Fixes (presetData : ConfigPreset) (mosaicIndex nodeIndex : ℕ) (balance : ℤ) : Prop :=
  ∃ node, presetData.nodes[nodeIndex]? = some node ∧
    (node.balances[mosaicIndex]? = some balance ∨
      node.balances[mosaicIndex]? = none ∧ node.excludeFromNemesis = true ∧ balance = 0)

theorem getBalance_eq_some {nodeIndex : ℕ} {balance : ℤ} :
    getBalance presetData mosaicIndex nodeIndex = some balance ↔
      Fixes presetData mosaicIndex nodeIndex balance := by
  unfold getBalance Fixes
  cases presetData.nodes[nodeIndex]? with
  | none => simp
  | some node =>
    simp only [Option.some.injEq, exists_eq_left']
    generalize node.balances[mosaicIndex]? = own
    cases own with
    | some own => simp
    | none =>
      cases node.excludeFromNemesis with
      | true => simp [eq_comm]
      | false => simp

/-- The provided entries are the currency distributions of the mosaic and what the preset fixes
for the nodes. -/
theorem mem_providedDistributions {d : CurrencyDistribution} :
    d ∈ providedDistributions presetData nodes mosaicIndex m ↔
      d ∈ m.currencyDistributions ∨ ∃ (nodeIndex : ℕ) (node : NodeAccount) (balance : ℤ),
        nodes[nodeIndex]? = some node ∧ Fixes presetData mosaicIndex nodeIndex balance ∧
          d = ⟨node.main.address, balance⟩ := by
  rw [providedDistributions, List.mem_append, List.mem_filterMap]
  refine or_congr_right ⟨?_, ?_⟩
  · rintro ⟨⟨node, nodeIndex⟩, hnode, hbalance⟩
    obtain ⟨balance, hfixed, rfl⟩ := Option.map_eq_some_iff.mp hbalance
    exact ⟨nodeIndex, node, balance, List.mem_zipIdx_iff_getElem?.mp hnode,
      getBalance_eq_some.mp hfixed, rfl⟩
  · rintro ⟨nodeIndex, node, balance, hnode, hfixes, rfl⟩
    refine ⟨(node, nodeIndex), List.mem_zipIdx_iff_getElem?.mpr hnode, ?_⟩
    exact Option.map_eq_some_iff.mpr ⟨balance, getBalance_eq_some.mpr hfixes, rfl⟩

/-- The other nodes take part in the split. -/
theorem mem_nodeMainAccounts {node : NodeAccount} :
    node ∈ nodeMainAccounts presetData nodes mosaicIndex ↔
      ∃ nodeIndex : ℕ, nodes[nodeIndex]? = some node ∧
        ∀ balance, ¬ Fixes presetData mosaicIndex nodeIndex balance := by
  have hnone : ∀ nodeIndex, getBalance presetData mosaicIndex nodeIndex = none ↔
      ∀ balance, ¬ Fixes presetData mosaicIndex nodeIndex balance := by
    intro nodeIndex
    rw [Option.eq_none_iff_forall_ne_some]
    exact forall_congr' fun balance => not_congr getBalance_eq_some
  simp only [nodeMainAccounts, List.mem_map, List.mem_filter, decide_eq_true_eq, hnone]
  constructor
  · rintro ⟨⟨node, nodeIndex⟩, ⟨hnode, hfree⟩, rfl⟩
    exact ⟨nodeIndex, List.mem_zipIdx_iff_getElem?.mp hnode, hfree⟩
  · rintro ⟨nodeIndex, hnode, hfree⟩
    exact ⟨(node, nodeIndex), ⟨List.mem_zipIdx_iff_getElem?.mpr hnode, hfree⟩, rfl⟩

/-- What is given to an address, with the mosaic or by the balance of a node, is in the split. -/
theorem SoundSplit.given_kept
    (h : SoundSplit presetData nodes mosaicsLength mosaicIndex m accounts distributions)
    {d : CurrencyDistribution} (hpositive : 0 < d.amount)
    (hgiven : d ∈ m.currencyDistributions ∨ ∃ (nodeIndex : ℕ) (node : NodeAccount),
      nodes[nodeIndex]? = some node ∧ Fixes presetData mosaicIndex nodeIndex d.amount ∧
        d.address = node.main.address) : d ∈ distributions := by
  refine h.provided_kept.subset (List.mem_filter.mpr ⟨?_, decide_eq_true hpositive⟩)
  refine mem_providedDistributions.mpr (hgiven.imp_right ?_)
  rintro ⟨nodeIndex, node, hnode, hfixes, haddress⟩
  exact ⟨nodeIndex, node, d.amount, hnode, hfixes, by rw [← haddress]⟩

end Words

theorem filter_positive_eq_self {distribution : List CurrencyDistribution}
    (h : ∀ d ∈ distribution, 0 < d.amount) : distribution.filter positive = distribution := by
  rw [List.filter_eq_self]
  intro d hd
  simpa [positive] using h d hd

section

variable {toYaml : List CurrencyDistribution → String} {presetData : ConfigPreset}
  {nodes : List NodeAccount} {mosaicsLength mosaicIndex : ℕ} {m : MosaicPreset}
  {accounts : List ConfigAccount} {distributions : List CurrencyDistribution}

variable (presetData nodes mosaicsLength mosaicIndex m accounts) in
/-- The entries that survive the filter, before the first one takes the rest. -/
def keptEntries : List CurrencyDistribution :=
  (generatedEntries presetData nodes mosaicsLength mosaicIndex m accounts ++
    providedDistributions presetData nodes mosaicIndex m).filter positive

variable (presetData nodes mosaicsLength mosaicIndex m accounts) in
/-- With a positive share all the accounts are kept, ahead of the nodes. -/
theorem keptEntries_eq
    (hshare : 0 < equalShare presetData nodes mosaicIndex m accounts.length) :
    keptEntries presetData nodes mosaicsLength mosaicIndex m accounts =
      (accounts.map fun a =>
        ⟨a.address, equalShare presetData nodes mosaicIndex m accounts.length⟩) ++
      (((nodeMainAccounts presetData nodes mosaicIndex).map fun n =>
          ⟨n.main.address, min (getMaxHarvesterBalance presetData mosaicsLength mosaicIndex)
            (equalShare presetData nodes mosaicIndex m accounts.length)⟩).filter positive ++
        (providedDistributions presetData nodes mosaicIndex m).filter positive) := by
  unfold keptEntries generatedEntries generatedAccounts
  rw [List.append_assoc, List.filter_append, filter_positive_eq_self, List.filter_append]
  intro d hd
  obtain ⟨a, -, rfl⟩ := List.mem_map.mp hd
  exact hshare

variable (presetData nodes mosaicsLength mosaicIndex m) in
theorem keptEntries_account
    (hshare : 0 < equalShare presetData nodes mosaicIndex m accounts.length)
    {j : ℕ} {a : ConfigAccount} (ha : accounts[j]? = some a) :
    (keptEntries presetData nodes mosaicsLength mosaicIndex m accounts)[j]? =
      some ⟨a.address, equalShare presetData nodes mosaicIndex m accounts.length⟩ := by
  rw [keptEntries_eq presetData nodes mosaicsLength mosaicIndex m accounts hshare,
    List.getElem?_append_left, List.getElem?_map, ha, Option.map_some]
  rw [List.length_map]
  exact (List.getElem?_eq_some_iff.mp ha).1

variable (presetData nodes mosaicsLength mosaicIndex m accounts) in
/-- Where there is room for harvesters, the nodes come after the accounts. -/
theorem keptEntries_node
    (hshare : 0 < equalShare presetData nodes mosaicIndex m accounts.length)
    (hlimit : 0 < getMaxHarvesterBalance presetData mosaicsLength mosaicIndex)
    {j : ℕ} {n : NodeAccount} (hn : (nodeMainAccounts presetData nodes mosaicIndex)[j]? = some n) :
    (keptEntries presetData nodes mosaicsLength mosaicIndex m accounts)[accounts.length + j]? =
      some ⟨n.main.address, min (getMaxHarvesterBalance presetData mosaicsLength mosaicIndex)
        (equalShare presetData nodes mosaicIndex m accounts.length)⟩ := by
  rw [keptEntries_eq presetData nodes mosaicsLength mosaicIndex m accounts hshare,
    filter_positive_eq_self, List.getElem?_append_right (by simp), List.length_map,
    Nat.add_sub_cancel_left, List.getElem?_append_left, List.getElem?_map, hn, Option.map_some]
  · rw [List.length_map]
    exact (List.getElem?_eq_some_iff.mp hn).1
  · intro d hd
    obtain ⟨n', -, rfl⟩ := List.mem_map.mp hd
    exact lt_min hlimit hshare

variable (presetData nodes mosaicsLength mosaicIndex m accounts) in
/-- Where there is none, only the provided entries do. -/
theorem keptEntries_drop
    (hshare : 0 < equalShare presetData nodes mosaicIndex m accounts.length)
    (hlimit : getMaxHarvesterBalance presetData mosaicsLength mosaicIndex ≤ 0) :
    (keptEntries presetData nodes mosaicsLength mosaicIndex m accounts).drop accounts.length =
      (providedDistributions presetData nodes mosaicIndex m).filter positive := by
  rw [keptEntries_eq presetData nodes mosaicsLength mosaicIndex m accounts hshare,
    filter_positive_eq_nil, List.nil_append, List.drop_left' (by simp)]
  intro d hd
  obtain ⟨n', -, rfl⟩ := List.mem_map.mp hd
  exact (min_le_left _ _).trans hlimit

/-- A split that works without room for harvesters has an account to take the first entry, and
the harvesters' entries are zero. -/
theorem generatedEntries_no_room {first : CurrencyDistribution}
    {others : List CurrencyDistribution}
    (hgenerated : generatedEntries presetData nodes mosaicsLength mosaicIndex m accounts =
      first :: others)
    (hfirst : 0 < first.amount) (htail : ∀ d ∈ others, 0 ≤ d.amount)
    (hnodes : 0 < (nodeMainAccounts presetData nodes mosaicIndex).length)
    (hlimit : getMaxHarvesterBalance presetData mosaicsLength mosaicIndex ≤ 0) :
    0 < accounts.length ∧ getMaxHarvesterBalance presetData mosaicsLength mosaicIndex = 0 := by
  obtain ⟨n, hn⟩ := List.exists_mem_of_length_pos hnodes
  have hentry : min (getMaxHarvesterBalance presetData mosaicsLength mosaicIndex)
      (equalShare presetData nodes mosaicIndex m accounts.length) ≤ 0 :=
    (min_le_left _ _).trans hlimit
  have hzero : 0 ≤ min (getMaxHarvesterBalance presetData mosaicsLength mosaicIndex)
      (equalShare presetData nodes mosaicIndex m accounts.length) := by
    have hmem : (⟨n.main.address,
        min (getMaxHarvesterBalance presetData mosaicsLength mosaicIndex)
          (equalShare presetData nodes mosaicIndex m accounts.length)⟩ :
          CurrencyDistribution) ∈
        generatedEntries presetData nodes mosaicsLength mosaicIndex m accounts :=
      List.mem_append_right _ (List.mem_map.mpr ⟨n, hn, rfl⟩)
    rw [hgenerated] at hmem
    rcases List.mem_cons.mp hmem with rfl | hmem
    · exact hfirst.le
    · exact htail _ hmem
  refine ⟨?_, le_antisymm hlimit (hzero.trans (min_le_left _ _))⟩
  by_contra hnone
  have hnil : accounts = [] := List.eq_nil_of_length_eq_zero (by omega)
  subst hnil
  have hmem : first ∈ generatedEntries presetData nodes mosaicsLength mosaicIndex m [] := by
    rw [hgenerated]
    exact List.mem_cons_self
  obtain ⟨n', -, rfl⟩ := List.mem_map.mp hmem
  exact absurd hfirst (not_lt.mpr hentry)

theorem soundSplit_of_ok
    (h : distributeMosaic toYaml presetData nodes mosaicsLength mosaicIndex m accounts =
      .ok distributions) :
    SoundSplit presetData nodes mosaicsLength mosaicIndex m accounts distributions := by
  have hchecks := distributeMosaic_checks.mp h
  obtain ⟨hprovided, hremaining, first, others, hgenerated, htail, hfirst, rfl⟩ :=
    distributeMosaic_ok.mp h
  obtain ⟨-, -, -, -, -, -, -, -, hsupply⟩ := hchecks
  have hleft := share_le_first hgenerated
  have hfirstle : first.amount ≤ equalShare presetData nodes mosaicIndex m accounts.length := by
    apply generatedEntries_le_share presetData nodes mosaicsLength
    rw [hgenerated]
    exact List.mem_cons_self
  have hshare : 0 < equalShare presetData nodes mosaicIndex m accounts.length := by omega
  have hkept : keptEntries presetData nodes mosaicsLength mosaicIndex m accounts =
      first :: (others ++ providedDistributions presetData nodes mosaicIndex m).filter
        positive := by
    unfold keptEntries
    rw [hgenerated, List.cons_append,
      List.filter_cons_of_pos (by simpa [positive] using hfirst)]
  -- past the first entry the result is the list of the entries kept
  have hlater : ∀ {k : ℕ}, 0 < k →
      ({ first with amount := remainingSupply presetData nodes mosaicIndex m -
          totalAmount others } ::
        (others ++ providedDistributions presetData nodes mosaicIndex m).filter positive)[k]? =
      (keptEntries presetData nodes mosaicsLength mosaicIndex m accounts)[k]? := by
    intro k hk
    obtain ⟨k, rfl⟩ := Nat.exists_eq_succ_of_ne_zero hk.ne'
    rw [hkept, List.getElem?_cons_succ, List.getElem?_cons_succ]
  refine ⟨hsupply.symm, ?_, ?_, ⟨_, rfl, hleft⟩, ?_, ?_, ?_, ?_⟩
  · intro d hd
    rcases List.mem_cons.mp hd with rfl | hd
    · show 0 < remainingSupply presetData nodes mosaicIndex m - totalAmount others
      omega
    · simpa [positive] using (List.mem_filter.mp hd).2
  · rw [List.filter_append]
    exact (List.sublist_append_right _ _).cons _
  · show some first.address = _
    have haddress := congrArg (fun entries => (entries.map CurrencyDistribution.address).head?)
      hgenerated
    simp only [generatedEntries, generatedAccounts, List.map_append, List.map_map,
      List.map_cons, List.head?_cons] at haddress
    exact haddress.symm
  · intro j a ha hj
    rw [hlater hj]
    exact keptEntries_account presetData nodes mosaicsLength mosaicIndex m hshare ha
  · intro j n hn hj hlimit
    rw [hlater hj]
    exact keptEntries_node presetData nodes mosaicsLength mosaicIndex m accounts hshare hlimit hn
  · intro hnodes hlimit
    obtain ⟨haccounts, hroom⟩ :=
      generatedEntries_no_room hgenerated hfirst htail hnodes hlimit
    refine ⟨haccounts, hroom, ?_⟩
    rw [← keptEntries_drop presetData nodes mosaicsLength mosaicIndex m accounts hshare hlimit,
      hkept]
    obtain ⟨count, hcount⟩ := Nat.exists_eq_succ_of_ne_zero haccounts.ne'
    rw [hcount, List.drop_succ_cons, List.drop_succ_cons]

end

/-- The accounts and the mosaics that a run returns split every supply soundly. -/
def SoundBalances (presetData : ConfigPreset) (nodes : List NodeAccount)
    (nemesis : NemesisPreset) (mosaicAccounts : List MosaicAccounts)
    (processed : List MosaicPreset) : Prop :=
  ∃ mosaics, nemesis.mosaics = some mosaics ∧
    mosaicAccounts.length = mosaics.length ∧ processed.length = mosaics.length ∧
    ∀ (mosaicIndex : ℕ) (m : MosaicPreset), mosaics[mosaicIndex]? = some m →
      ∃ own m', mosaicAccounts[mosaicIndex]? = some own ∧ processed[mosaicIndex]? = some m' ∧
        m' = { m with currencyDistributions := m'.currencyDistributions } ∧
        SoundSplit presetData nodes mosaics.length mosaicIndex m own.accounts
          m'.currencyDistributions

/-- Every mosaic of a successful run gets a sound split of its supply. -/
theorem nemesisBalances_sound {sdk : SymbolSdk} {toYaml : List CurrencyDistribution → String}
    {presetData : ConfigPreset} {nodes : List NodeAccount} {nemesisSignerAddress : String}
    {nemesis : NemesisPreset} {draws draws' : Draws} {mosaicAccounts : List MosaicAccounts}
    {processed : List MosaicPreset}
    (h : processNemesisBalances sdk toYaml presetData nodes nemesisSignerAddress nemesis draws =
      .ok ((mosaicAccounts, processed), draws')) :
    SoundBalances presetData nodes nemesis mosaicAccounts processed := by
  obtain ⟨-, mosaics, results, hmosaics, hrun, hresults⟩ := processNemesisBalances_ok.mp h
  rw [List.unzip_eq_map] at hresults
  obtain ⟨rfl, rfl⟩ := Prod.mk.inj hresults
  have hall := run_mapM_forall₂ hrun
  have hlength : results.length = mosaics.length := by
    simpa using hall.length_eq.symm
  refine ⟨mosaics, hmosaics, by simpa using hlength, by simpa using hlength, ?_⟩
  intro mosaicIndex m hm
  obtain ⟨own, m', hown, hm', hsame, -, hdistribute⟩ :=
    processNemesisBalances_mosaic h hmosaics hm
  exact ⟨own, m', hown, hm', hsame, soundSplit_of_ok hdistribute⟩

def harvestingNode : NodePreset where
  name := some "node-0"
  friendlyName := none
  roles := none
  syncsource := true
  api := false
  voting := false
  harvesting := true
  nodeUseRemoteAccount := false
  excludeFromNemesis := false
  balances := []
  mainPrivateKey := none
  mainPublicKey := none
  transportPrivateKey := none
  transportPublicKey := none
  remotePrivateKey := none
  remotePublicKey := none
  vrfPrivateKey := none
  vrfPublicKey := none

/-- A bootstrap network of one harvesting node, up to its nemesis. -/
def smallPreset : ConfigPreset where
  preset := "bootstrap"
  networkType := 152
  privateKeySecurityMode := none
  nemesisSeedFolder := none
  nemesisGenerationHashSeed := none
  sinkAddress := none
  harvestNetworkFeeSinkAddressV1 := none
  harvestNetworkFeeSinkAddress := none
  mosaicRentalFeeSinkAddressV1 := none
  mosaicRentalFeeSinkAddress := none
  namespaceRentalFeeSinkAddressV1 := none
  namespaceRentalFeeSinkAddress := none
  networkIdentifier := none
  networkName := none
  nemesisSignerPublicKey := none
  currencyMosaicId := none
  harvestingMosaicId := none
  maxHarvesterBalance := 50
  nodeUseRemoteAccount := true
  nodes := [harvestingNode]
  nemesis := none

def smallNode : NodeAccount where
  name := "node-0"
  friendlyName := "69AAAE7"
  roles := "Peer"
  main := toConfigAccount (.account KnownAccounts.peerMain)
  transport := toConfigAccount (.account KnownAccounts.peerTransport)
  remote := none
  vrf := none

def currency (supply : ℤ) (accounts : RequestedAccounts) (given : ℤ) : MosaicPreset :=
  ⟨"currency", supply, accounts, [⟨KnownAccounts.secondCurrency.address, given⟩]⟩

/-- One mosaic of 1000 for two accounts, a node that may hold 50 and a given 100. -/
theorem nemesisBalances_sound_small :
    ∃ mosaicAccounts processed draws',
      processNemesisBalances KnownAccounts.knownSdk (fun _ => "") smallPreset [smallNode]
          KnownAccounts.nemesisSigner.address ⟨some [currency 1000 (.count 2) 100], none⟩ ⟨0, []⟩ =
        .ok ((mosaicAccounts, processed), draws') ∧
      SoundBalances smallPreset [smallNode] ⟨some [currency 1000 (.count 2) 100], none⟩
        mosaicAccounts processed :=
  ⟨_, _, _, rfl, @nemesisBalances_sound KnownAccounts.knownSdk (fun _ => "") smallPreset
    [smallNode] KnownAccounts.nemesisSigner.address _ ⟨0, []⟩ _ _ _ rfl⟩

section Feasible

variable (presetData : ConfigPreset) (nodes : List NodeAccount)

/-- The number of accounts that share what remains of a mosaic. -/
def dynamicAccounts (mosaicIndex : ℕ) (m : MosaicPreset) : ℕ :=
  m.accounts.length + (nodeMainAccounts presetData nodes mosaicIndex).length

/-- The amounts given for a mosaic fit in its supply, something is there to take the rest,
and no harvester limit is below the share. -/
structure Distributable (mosaicsLength mosaicIndex : ℕ) (m : MosaicPreset) : Prop where
  supply_pos : 0 < m.supply
  given_nonneg : ∀ d ∈ providedDistributions presetData nodes mosaicIndex m, 0 ≤ d.amount
  given_le : totalAmount (providedDistributions presetData nodes mosaicIndex m) ≤ m.supply
  some_dynamic : totalAmount (providedDistributions presetData nodes mosaicIndex m) = m.supply ∨
    0 < dynamicAccounts presetData nodes mosaicIndex m
  limit : 0 < dynamicAccounts presetData nodes mosaicIndex m →
    IsHarvestingMosaic mosaicsLength mosaicIndex →
    remainingSupply presetData nodes mosaicIndex m / dynamicAccounts presetData nodes mosaicIndex m
      ≤ presetData.maxHarvesterBalance

/-- A run succeeds, spends the supplies and keeps what was provided. -/
def Distributed (sdk : SymbolSdk) (toYaml : List CurrencyDistribution → String)
    (nemesisSignerAddress : String) (nemesis : NemesisPreset) (mosaics : List MosaicPreset)
    (draws : Draws) : Prop :=
  ∃ mosaicAccounts processed draws',
    processNemesisBalances sdk toYaml presetData nodes nemesisSignerAddress nemesis draws =
      .ok ((mosaicAccounts, processed), draws') ∧
    ∀ (mosaicIndex : ℕ) (m m' : MosaicPreset), mosaics[mosaicIndex]? = some m →
      processed[mosaicIndex]? = some m' →
      totalAmount m'.currencyDistributions = m.supply ∧
      ((providedDistributions presetData nodes mosaicIndex m).filter positive).Sublist
        m'.currencyDistributions

/-- Whole shares of at least one for at least one account. -/
def SharesWhole (mosaicIndex : ℕ) (m : MosaicPreset) : Prop :=
  0 < dynamicAccounts presetData nodes mosaicIndex m ∧
    (dynamicAccounts presetData nodes mosaicIndex m : ℤ) ≤
      remainingSupply presetData nodes mosaicIndex m

variable {presetData nodes}

theorem sharesWhole_iff_share_pos {mosaicIndex : ℕ} {m : MosaicPreset} :
    SharesWhole presetData nodes mosaicIndex m ↔
      0 < equalShare presetData nodes mosaicIndex m m.accounts.length := by
  unfold SharesWhole equalShare
  change 0 < dynamicAccounts presetData nodes mosaicIndex m ∧ _ ↔
    0 < _ / (dynamicAccounts presetData nodes mosaicIndex m : ℤ)
  generalize dynamicAccounts presetData nodes mosaicIndex m = count
  rcases Nat.eq_zero_or_pos count with rfl | hcount
  · simp
  · have hshare : 1 ≤ remainingSupply presetData nodes mosaicIndex m / (count : ℤ) ↔
        1 * (count : ℤ) ≤ remainingSupply presetData nodes mosaicIndex m :=
      Int.le_ediv_iff_mul_le (by omega)
    rw [one_mul] at hshare
    exact ⟨fun h => hshare.mpr h.2, fun h => ⟨hcount, hshare.mp h⟩⟩

/-- Where a mosaic splits, its share is positive. -/
theorem sharesWhole_of_ok {toYaml : List CurrencyDistribution → String}
    {mosaicsLength mosaicIndex : ℕ} {m : MosaicPreset} {accounts : List ConfigAccount}
    {distributions : List CurrencyDistribution} (hlength : accounts.length = m.accounts.length)
    (h : distributeMosaic toYaml presetData nodes mosaicsLength mosaicIndex m accounts =
      .ok distributions) : SharesWhole presetData nodes mosaicIndex m := by
  obtain ⟨-, -, first, others, hgenerated, -, hfirst, -⟩ := distributeMosaic_ok.mp h
  have hmem : first ∈ generatedEntries presetData nodes mosaicsLength mosaicIndex m accounts := by
    rw [hgenerated]
    exact List.mem_cons_self
  have hle := generatedEntries_le_share presetData nodes mosaicsLength mosaicIndex m accounts hmem
  rw [hlength] at hle
  exact sharesWhole_iff_share_pos.mpr (hfirst.trans_le hle)

/-- A distributable mosaic with whole shares splits. -/
theorem exists_distributeMosaic (toYaml : List CurrencyDistribution → String)
    {mosaicsLength mosaicIndex : ℕ} {m : MosaicPreset} {accounts : List ConfigAccount}
    (hlength : accounts.length = m.accounts.length)
    (h : Distributable presetData nodes mosaicsLength mosaicIndex m)
    (hwhole : SharesWhole presetData nodes mosaicIndex m) :
    ∃ distributions, distributeMosaic toYaml presetData nodes mosaicsLength mosaicIndex m
      accounts = .ok distributions := by
  have hshare : 0 < equalShare presetData nodes mosaicIndex m accounts.length := by
    rw [hlength]
    exact sharesWhole_iff_share_pos.mp hwhole
  have hlimit : 0 < getMaxHarvesterBalance presetData mosaicsLength mosaicIndex := by
    unfold getMaxHarvesterBalance
    split
    · rename_i hharvesting
      have hle := h.limit hwhole.1 hharvesting
      rw [hlength] at hshare
      exact hshare.trans_le hle
    · decide
  have hall : ∀ d ∈ generatedEntries presetData nodes mosaicsLength mosaicIndex m accounts,
      0 < d.amount := by
    intro d hd
    rcases List.mem_append.mp hd with hd | hd
    · obtain ⟨a, -, rfl⟩ := List.mem_map.mp hd
      exact hshare
    · obtain ⟨n, -, rfl⟩ := List.mem_map.mp hd
      exact lt_min hlimit hshare
  have hcount : (generatedEntries presetData nodes mosaicsLength mosaicIndex m accounts).length =
      dynamicAccounts presetData nodes mosaicIndex m := by
    rw [generatedEntries, generatedAccounts_length, hlength]
    rfl
  cases hgenerated : generatedEntries presetData nodes mosaicsLength mosaicIndex m accounts with
  | nil =>
    have hpos := hwhole.1
    rw [hgenerated, List.length_nil] at hcount
    omega
  | cons first others =>
    rw [hgenerated] at hall
    have hremaining : 0 ≤ remainingSupply presetData nodes mosaicIndex m :=
      sub_nonneg.mpr h.given_le
    exact ⟨_, distributeMosaic_ok.mpr ⟨h.given_nonneg, hremaining, first, others, hgenerated,
      fun d hd => (hall d (List.mem_cons_of_mem first hd)).le, hall first List.mem_cons_self,
      rfl⟩⟩

/-- Presets whose balances fit are distributed exactly when the accounts asked for can be
made and each mosaic leaves at least one unit for each of its dynamic accounts. -/
theorem nemesisBalances_feasible_exactly {sdk : SymbolSdk}
    {toYaml : List CurrencyDistribution → String} {nemesisSignerAddress : String}
    {nemesis : NemesisPreset} {mosaics : List MosaicPreset} {draws : Draws}
    (hmosaics : nemesis.mosaics = some mosaics)
    (hfits : ∀ (mosaicIndex : ℕ) (m : MosaicPreset), mosaics[mosaicIndex]? = some m →
      Distributable presetData nodes mosaics.length mosaicIndex m) :
    Distributed presetData nodes sdk toYaml nemesisSignerAddress nemesis mosaics draws ↔
      (∃ mode, getPrivateKeySecurityMode presetData.privateKeySecurityMode = .ok mode) ∧
      ∀ (mosaicIndex : ℕ) (m : MosaicPreset), mosaics[mosaicIndex]? = some m →
        m.accounts.Creatable sdk presetData.networkType ∧
          SharesWhole presetData nodes mosaicIndex m := by
  constructor
  · rintro ⟨mosaicAccounts, processed, draws', hrun, -⟩
    obtain ⟨hmode, mosaics', results, hsome, hmapM, -⟩ := processNemesisBalances_ok.mp hrun
    rw [hmosaics] at hsome
    cases hsome
    refine ⟨hmode, ?_⟩
    intro mosaicIndex m hm
    obtain ⟨result, -, before, after, hmosaic⟩ :=
      forall₂_zipIdx_getElem (run_mapM_forall₂ hmapM) hm
    obtain ⟨accounts, distributions, hgenerate, hdistribute, -⟩ := processMosaic_ok.mp hmosaic
    obtain ⟨hlength, hcreatable⟩ := generateAddresses_ok hgenerate
    exact ⟨hcreatable, sharesWhole_of_ok hlength hdistribute⟩
  · rintro ⟨hmode, hall⟩
    have heach : ∀ entry ∈ mosaics.zipIdx, ∀ draws, ∃ result draws',
        processMosaic sdk toYaml presetData nodes nemesisSignerAddress mosaics.length entry.2
          entry.1 draws = .ok (result, draws') ∧
        totalAmount result.2.currencyDistributions = entry.1.supply ∧
        ((providedDistributions presetData nodes entry.2 entry.1).filter positive).Sublist
          result.2.currencyDistributions := by
      rintro ⟨m, mosaicIndex⟩ hentry draws
      have hm : mosaics[mosaicIndex]? = some m := List.mem_zipIdx_iff_getElem?.mp hentry
      obtain ⟨hcreatable, hwhole⟩ := hall mosaicIndex m hm
      obtain ⟨accounts, draws', hgenerate⟩ := generateAddresses_total mosaicIndex hcreatable draws
      have hlength := (generateAddresses_ok hgenerate).1
      obtain ⟨distributions, hdistribute⟩ :=
        exists_distributeMosaic toYaml hlength (hfits mosaicIndex m hm) hwhole
      have hsound := soundSplit_of_ok hdistribute
      exact ⟨_, draws', processMosaic_ok.mpr ⟨accounts, distributions, hgenerate, hdistribute, rfl⟩,
        hsound.total, hsound.provided_kept⟩
    obtain ⟨results, draws', hrun, hresults⟩ := run_mapM_total heach draws
    refine ⟨_, _, draws', processNemesisBalances_ok.mpr
      ⟨hmode, mosaics, results, hmosaics, hrun, rfl⟩, ?_⟩
    intro mosaicIndex m m' hm hm'
    obtain ⟨result, hresult, htotal, hkept⟩ := forall₂_zipIdx_getElem hresults hm
    rw [List.unzip_eq_map, List.getElem?_map, hresult, Option.map_some] at hm'
    cases hm'
    exact ⟨htotal, hkept⟩

theorem nemesisBalances_feasible_exactly_small :
    Distributed smallPreset [smallNode] KnownAccounts.knownSdk (fun _ => "")
        KnownAccounts.nemesisSigner.address ⟨some [currency 150 (.count 2) 100], none⟩
        [currency 150 (.count 2) 100] ⟨0, []⟩ ↔
      (∃ mode, getPrivateKeySecurityMode smallPreset.privateKeySecurityMode = .ok mode) ∧
      ∀ (mosaicIndex : ℕ) (m : MosaicPreset),
        [currency 150 (.count 2) 100][mosaicIndex]? = some m →
        m.accounts.Creatable KnownAccounts.knownSdk smallPreset.networkType ∧
          SharesWhole smallPreset [smallNode] mosaicIndex m := by
  apply nemesisBalances_feasible_exactly rfl
  intro mosaicIndex m hm
  obtain ⟨rfl, rfl⟩ : mosaicIndex = 0 ∧ m = currency 150 (.count 2) 100 := by
    cases mosaicIndex with
    | zero => exact ⟨rfl, (Option.some.inj hm).symm⟩
    | succ n => cases hm
  exact ⟨by decide, by decide, by decide, by decide, by decide⟩

/-- A supply that is given away entirely, or but for less than there are dynamic accounts,
fits and is still refused. -/
theorem nemesisBalances_infeasible :
    (Distributable smallPreset [smallNode] 1 0 (currency 100 (.count 2) 100) ∧
      ¬Distributed smallPreset [smallNode] KnownAccounts.knownSdk (fun _ => "")
        KnownAccounts.nemesisSigner.address ⟨some [currency 100 (.count 2) 100], none⟩
        [currency 100 (.count 2) 100] ⟨0, []⟩) ∧
    (Distributable smallPreset [smallNode] 1 0 (currency 102 (.count 2) 100) ∧
      ¬Distributed smallPreset [smallNode] KnownAccounts.knownSdk (fun _ => "")
        KnownAccounts.nemesisSigner.address ⟨some [currency 102 (.count 2) 100], none⟩
        [currency 102 (.count 2) 100] ⟨0, []⟩) := by
  refine ⟨⟨⟨by decide, by decide, by decide, by decide, by decide⟩, ?_⟩,
    ⟨by decide, by decide, by decide, by decide, by decide⟩, ?_⟩
  · rintro ⟨_, _, _, hrun, -⟩
    have herror : ∃ message, processNemesisBalances KnownAccounts.knownSdk (fun _ => "")
        smallPreset [smallNode] KnownAccounts.nemesisSigner.address
        ⟨some [currency 100 (.count 2) 100], none⟩ ⟨0, []⟩ = .error message := ⟨_, rfl⟩
    obtain ⟨message, hmessage⟩ := herror
    rw [hmessage] at hrun
    cases hrun
  · rintro ⟨_, _, _, hrun, -⟩
    have herror : ∃ message, processNemesisBalances KnownAccounts.knownSdk (fun _ => "")
        smallPreset [smallNode] KnownAccounts.nemesisSigner.address
        ⟨some [currency 102 (.count 2) 100], none⟩ ⟨0, []⟩ = .error message := ⟨_, rfl⟩
    obtain ⟨message, hmessage⟩ := herror
    rw [hmessage] at hrun
    cases hrun

end Feasible

end SymbolBootstrap.NemesisSound
