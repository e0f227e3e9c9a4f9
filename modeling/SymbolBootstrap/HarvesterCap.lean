import Mathlib.Data.List.DropRight
import Mathlib.Tactic.Ring
import SymbolBootstrap.NemesisSound

/-!
What the nodes get of the harvesting mosaic. The shares are cut to what a harvester may
hold, but the first entry then takes the rest of the supply. It is an account's when there
are any, and otherwise the first node's, whose balance is only below the limit when its
share and the remainder of the division are.
-/
namespace SymbolBootstrap.HarvesterCap

open Library.Throwing CryptoUtils ConfigurationUtils NemesisBalances NemesisSplit NemesisSound

section Split

variable {toYaml : List CurrencyDistribution → String} {presetData : ConfigPreset}
  {nodes : List NodeAccount} {mosaicsLength mosaicIndex : ℕ} {m : MosaicPreset}
  {accounts : List ConfigAccount} {distributions : List CurrencyDistribution}

variable (presetData nodes mosaicIndex m) in
/-- The entries computed for nodes: those after the accounts and before the given ones. -/
def nodeEntries (ownAccounts : ℕ) (distributions : List CurrencyDistribution) :
    List CurrencyDistribution :=
  (distributions.drop ownAccounts).rdrop
    ((providedDistributions presetData nodes mosaicIndex m).filter positive).length

/-- The share of a node, cut to the limit. -/
def cappedShare (presetData : ConfigPreset) (nodes : List NodeAccount)
    (mosaicsLength mosaicIndex : ℕ) (m : MosaicPreset) (ownAccounts : ℕ) : ℤ :=
  min (getMaxHarvesterBalance presetData mosaicsLength mosaicIndex)
    (equalShare presetData nodes mosaicIndex m ownAccounts)

theorem rdrop_append_length (front back : List CurrencyDistribution) :
    (front ++ back).rdrop back.length = front := by
  rw [List.rdrop, List.length_append, Nat.add_sub_cancel]
  exact List.take_left

theorem totalAmount_map_const (nodes : List NodeAccount) (amount : ℤ) :
    totalAmount (nodes.map fun n => ⟨n.main.address, amount⟩) = nodes.length * amount := by
  induction nodes with
  | nil => simp
  | cons n rest ih =>
    rw [List.map_cons, totalAmount_cons, ih, List.length_cons]
    push_cast
    ring

/-- With accounts the rest goes to the first of them, and the nodes keep their shares. -/
theorem nodeEntries_of_accounts (haccounts : 0 < accounts.length)
    (h : distributeMosaic toYaml presetData nodes mosaicsLength mosaicIndex m accounts =
      .ok distributions) :
    nodeEntries presetData nodes mosaicIndex m accounts.length distributions =
      ((nodeMainAccounts presetData nodes mosaicIndex).map fun n =>
        ⟨n.main.address,
          cappedShare presetData nodes mosaicsLength mosaicIndex m accounts.length⟩).filter
        positive := by
  obtain ⟨-, -, first, others, hgenerated, -, hfirst, rfl⟩ := distributeMosaic_ok.mp h
  have hshare : 0 < equalShare presetData nodes mosaicIndex m accounts.length := by
    refine lt_of_lt_of_le hfirst (generatedEntries_le_share presetData nodes mosaicsLength
      mosaicIndex m accounts ?_)
    rw [hgenerated]
    exact List.mem_cons_self
  have hkept : keptEntries presetData nodes mosaicsLength mosaicIndex m accounts =
      first :: (others ++ providedDistributions presetData nodes mosaicIndex m).filter
        positive := by
    unfold keptEntries
    rw [hgenerated, List.cons_append,
      List.filter_cons_of_pos (by simpa [positive] using hfirst)]
  obtain ⟨count, hcount⟩ := Nat.exists_eq_succ_of_ne_zero haccounts.ne'
  have hdrop : ∀ amount, ({ first with amount } ::
      (others ++ providedDistributions presetData nodes mosaicIndex m).filter positive).drop
        accounts.length =
      (keptEntries presetData nodes mosaicsLength mosaicIndex m accounts).drop
        accounts.length := by
    intro amount
    rw [hkept, hcount, List.drop_succ_cons, List.drop_succ_cons]
  rw [nodeEntries, hdrop, keptEntries_eq presetData nodes mosaicsLength mosaicIndex m accounts
    hshare, List.drop_left' (by rw [List.length_map]), rdrop_append_length]
  rfl

/-- Without accounts the first node takes what the shares of the others leave. -/
theorem nodeEntries_of_nodes {n : NodeAccount} {rest : List NodeAccount}
    (hnodes : nodeMainAccounts presetData nodes mosaicIndex = n :: rest)
    (h : distributeMosaic toYaml presetData nodes mosaicsLength mosaicIndex m [] =
      .ok distributions) :
    nodeEntries presetData nodes mosaicIndex m 0 distributions =
      ⟨n.main.address, remainingSupply presetData nodes mosaicIndex m - rest.length *
          cappedShare presetData nodes mosaicsLength mosaicIndex m 0⟩ ::
        rest.map fun n => ⟨n.main.address,
          cappedShare presetData nodes mosaicsLength mosaicIndex m 0⟩ := by
  obtain ⟨-, -, first, others, hgenerated, -, hfirst, rfl⟩ := distributeMosaic_ok.mp h
  have hsplit : (⟨n.main.address, cappedShare presetData nodes mosaicsLength mosaicIndex m 0⟩ :
        CurrencyDistribution) ::
      rest.map (fun n => ⟨n.main.address,
        cappedShare presetData nodes mosaicsLength mosaicIndex m 0⟩) = first :: others := by
    rw [← hgenerated, generatedEntries, generatedAccounts, hnodes]
    rfl
  obtain ⟨rfl, rfl⟩ := List.cons.inj hsplit
  have hothers : (rest.map fun n => (⟨n.main.address,
      cappedShare presetData nodes mosaicsLength mosaicIndex m 0⟩ :
        CurrencyDistribution)).filter positive =
      rest.map fun n => ⟨n.main.address,
        cappedShare presetData nodes mosaicsLength mosaicIndex m 0⟩ := by
    apply filter_positive_eq_self
    intro d hd
    obtain ⟨n', -, rfl⟩ := List.mem_map.mp hd
    exact hfirst
  rw [nodeEntries, List.drop_zero, List.filter_append, ← List.cons_append, rdrop_append_length,
    hothers, totalAmount_map_const]

/-- What one of several gets of a supply when the others have a share cut to a limit. -/
theorem rest_le_limit (others : ℕ) (supply limit : ℤ) :
    supply - others * min limit (supply / (others + 1 : ℕ)) ≤ limit ↔
      supply / (others + 1 : ℕ) + supply % (others + 1 : ℕ) ≤ limit := by
  have hdivision := Int.mul_ediv_add_emod supply (others + 1 : ℕ)
  have hremainder := Int.emod_nonneg supply (show ((others + 1 : ℕ) : ℤ) ≠ 0 by omega)
  generalize supply / (others + 1 : ℕ) = share at hdivision ⊢
  generalize supply % (others + 1 : ℕ) = remainder at hdivision hremainder ⊢
  push_cast at hdivision
  rcases le_or_gt share limit with hle | hlt
  · rw [min_eq_right hle]
    constructor
    · intro h
      linarith
    · intro h
      linarith
  · rw [min_eq_left hlt.le]
    have hothers : (others : ℤ) * limit ≤ others * share :=
      mul_le_mul_of_nonneg_left hlt.le (Int.natCast_nonneg others)
    constructor
    · intro h
      linarith
    · intro h
      linarith

variable (presetData nodes mosaicIndex m) in
/-- The nodes can stay below the limit: an account takes the rest, or the share of the
nodes and the remainder of the division are below it together. -/
def RestFits (limit : ℤ) : Prop :=
  0 < m.accounts.length ∨ nodeMainAccounts presetData nodes mosaicIndex = [] ∨
    equalShare presetData nodes mosaicIndex m 0 +
      remainingSupply presetData nodes mosaicIndex m %
        (nodeMainAccounts presetData nodes mosaicIndex).length ≤ limit

/-- The nodes of a split stay below the limit exactly when they can. -/
theorem nodeEntries_le_limit_iff (hcount : accounts.length = m.accounts.length)
    (h : distributeMosaic toYaml presetData nodes mosaicsLength mosaicIndex m accounts =
      .ok distributions) :
    (∀ d ∈ nodeEntries presetData nodes mosaicIndex m accounts.length distributions,
        d.amount ≤ getMaxHarvesterBalance presetData mosaicsLength mosaicIndex) ↔
      RestFits presetData nodes mosaicIndex m
        (getMaxHarvesterBalance presetData mosaicsLength mosaicIndex) := by
  unfold RestFits
  rw [← hcount]
  rcases Nat.eq_zero_or_pos accounts.length with hnone | hsome
  · obtain rfl := List.eq_nil_of_length_eq_zero hnone
    cases hnodes : nodeMainAccounts presetData nodes mosaicIndex with
    | nil =>
      obtain ⟨-, -, first, others, hgenerated, -⟩ := distributeMosaic_ok.mp h
      rw [generatedEntries, generatedAccounts, hnodes] at hgenerated
      cases hgenerated
    | cons n rest =>
      have hshare : equalShare presetData nodes mosaicIndex m 0 =
          remainingSupply presetData nodes mosaicIndex m / (rest.length + 1 : ℕ) := by
        rw [equalShare, hnodes, List.length_cons, Nat.zero_add]
      have hrest := rest_le_limit rest.length (remainingSupply presetData nodes mosaicIndex m)
        (getMaxHarvesterBalance presetData mosaicsLength mosaicIndex)
      rw [List.length_nil, nodeEntries_of_nodes hnodes h, List.forall_mem_cons, cappedShare,
        hshare, hrest, List.length_cons]
      constructor
      · exact fun hall => Or.inr (Or.inr hall.1)
      · rintro (hpos | hnil | hfits)
        · exact absurd hpos (Nat.lt_irrefl 0)
        · cases hnil
        · refine ⟨hfits, fun d hd => ?_⟩
          obtain ⟨n', -, rfl⟩ := List.mem_map.mp hd
          exact min_le_left _ _
  · refine iff_of_true (fun d hd => ?_) (Or.inl hsome)
    rw [nodeEntries_of_accounts hsome h] at hd
    obtain ⟨n, -, rfl⟩ := List.mem_map.mp (List.mem_filter.mp hd).1
    exact min_le_left _ _

end Split

section Run

variable (presetData : ConfigPreset) (nodes : List NodeAccount) (nemesis : NemesisPreset)

/-- No node gets more of the harvesting mosaic than a harvester may hold. -/
def HarvestersCapped (mosaicAccounts : List MosaicAccounts) (processed : List MosaicPreset) :
    Prop :=
  ∀ mosaics mosaicIndex m own m', nemesis.mosaics = some mosaics →
    IsHarvestingMosaic mosaics.length mosaicIndex → mosaics[mosaicIndex]? = some m →
    mosaicAccounts[mosaicIndex]? = some own → processed[mosaicIndex]? = some m' →
    ∀ d ∈ nodeEntries presetData nodes mosaicIndex m own.accounts.length
      m'.currencyDistributions, d.amount ≤ presetData.maxHarvesterBalance

/-- The preset leaves its nodes below the limit in the harvesting mosaic. -/
def HarvestingRestFits : Prop :=
  ∀ mosaics mosaicIndex m, nemesis.mosaics = some mosaics →
    IsHarvestingMosaic mosaics.length mosaicIndex → mosaics[mosaicIndex]? = some m →
    RestFits presetData nodes mosaicIndex m presetData.maxHarvesterBalance

variable {presetData nodes nemesis}

/-- A run leaves the nodes below the limit of the harvesting mosaic exactly when an account
takes the rest of it, no node has a share, or share and remainder are below the limit. -/
theorem harvesters_capped_exactly (sdk : SymbolSdk)
    (toYaml : List CurrencyDistribution → String) (nemesisSignerAddress : String)
    (draws draws' : Draws) (mosaicAccounts : List MosaicAccounts) (processed : List MosaicPreset)
    (h : processNemesisBalances sdk toYaml presetData nodes nemesisSignerAddress nemesis draws =
      .ok ((mosaicAccounts, processed), draws')) :
    HarvestersCapped presetData nodes nemesis mosaicAccounts processed ↔
      HarvestingRestFits presetData nodes nemesis := by
  constructor
  · intro hcapped mosaics mosaicIndex m hmosaics hharvesting hm
    obtain ⟨own, m', hown, hm', -, hcount, hdistribute⟩ :=
      processNemesisBalances_mosaic h hmosaics hm
    have hlimit := nodeEntries_le_limit_iff hcount hdistribute
    rw [getMaxHarvesterBalance, if_pos hharvesting] at hlimit
    exact hlimit.mp (hcapped mosaics mosaicIndex m own m' hmosaics hharvesting hm hown hm')
  · intro hfits mosaics mosaicIndex m own m' hmosaics hharvesting hm hown hm'
    obtain ⟨own', m'', hown', hm'', -, hcount, hdistribute⟩ :=
      processNemesisBalances_mosaic h hmosaics hm
    rw [hown] at hown'
    rw [hm'] at hm''
    cases hown'
    cases hm''
    have hlimit := nodeEntries_le_limit_iff hcount hdistribute
    rw [getMaxHarvesterBalance, if_pos hharvesting] at hlimit
    exact hlimit.mpr (hfits mosaics mosaicIndex m hmosaics hharvesting hm)

end Run

/-- A node that may hold 50 next to two accounts. -/
theorem harvesters_capped_exactly_small :
    ∃ mosaicAccounts processed draws',
      processNemesisBalances KnownAccounts.knownSdk (fun _ => "") smallPreset [smallNode]
          KnownAccounts.nemesisSigner.address ⟨some [currency 1000 (.count 2) 100], none⟩ ⟨0, []⟩ =
        .ok ((mosaicAccounts, processed), draws') ∧
      (HarvestersCapped smallPreset [smallNode] ⟨some [currency 1000 (.count 2) 100], none⟩
          mosaicAccounts processed ↔
        HarvestingRestFits smallPreset [smallNode]
          ⟨some [currency 1000 (.count 2) 100], none⟩) :=
  ⟨_, _, _, rfl, harvesters_capped_exactly KnownAccounts.knownSdk (fun _ => "")
    KnownAccounts.nemesisSigner.address ⟨0, []⟩ _ _ _ rfl⟩

/-- Without accounts the node that may hold 50 gets 900 of the 1000. -/
theorem node_gets_all_the_rest :
    ¬ ∀ (nemesis : NemesisPreset) (mosaicAccounts : List MosaicAccounts)
        (processed : List MosaicPreset) (draws' : Draws),
      processNemesisBalances KnownAccounts.knownSdk (fun _ => "") smallPreset [smallNode]
          KnownAccounts.nemesisSigner.address nemesis ⟨0, []⟩ =
        .ok ((mosaicAccounts, processed), draws') →
      HarvestersCapped smallPreset [smallNode] nemesis mosaicAccounts processed := by
  intro hclaim
  obtain ⟨mosaicAccounts, processed, draws', hrun⟩ : ∃ mosaicAccounts processed draws',
      processNemesisBalances KnownAccounts.knownSdk (fun _ => "") smallPreset [smallNode]
          KnownAccounts.nemesisSigner.address ⟨some [currency 1000 (.count 0) 100], none⟩ ⟨0, []⟩ =
        .ok ((mosaicAccounts, processed), draws') := ⟨_, _, _, rfl⟩
  have hm : [currency 1000 (.count 0) 100][0]? = some (currency 1000 (.count 0) 100) := rfl
  obtain ⟨own, m', hown, hm', -, hcount, hdistribute⟩ := processNemesisBalances_mosaic hrun rfl hm
  have hharvesting : IsHarvestingMosaic [currency 1000 (.count 0) 100].length 0 :=
    Or.inl ⟨rfl, rfl⟩
  have hcapped := hclaim _ _ _ _ hrun _ 0 _ own m' rfl hharvesting hm hown hm'
  have hlimit := nodeEntries_le_limit_iff hcount hdistribute
  rw [getMaxHarvesterBalance, if_pos hharvesting] at hlimit
  rcases hlimit.mp hcapped with haccounts | hnodes | hrest
  · exact absurd haccounts (by decide)
  · exact absurd (congrArg List.length hnodes) (by decide)
  · exact absurd hrest (by decide)

end SymbolBootstrap.HarvesterCap
