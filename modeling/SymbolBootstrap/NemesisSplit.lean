import Mathlib.Algebra.Order.BigOperators.Group.List
import Mathlib.Tactic.Linarith
import SymbolBootstrap.Library.Throwing
import SymbolBootstrap.NemesisBalances

/-!
When the split of a mosaic succeeds and what it gives: the entry that takes the rest of
the supply is the first of the generated ones, which has to survive the filter.
-/
namespace SymbolBootstrap.NemesisSplit

open Library.Throwing CryptoUtils ConfigurationUtils NemesisBalances

def totalAmount (distribution : List CurrencyDistribution) : ℤ :=
  (distribution.map CurrencyDistribution.amount).sum

def positive (d : CurrencyDistribution) : Bool := d.amount > 0

@[simp] theorem totalAmount_nil : totalAmount [] = 0 := rfl

@[simp] theorem totalAmount_cons (d : CurrencyDistribution)
    (rest : List CurrencyDistribution) :
    totalAmount (d :: rest) = d.amount + totalAmount rest := by
  simp [totalAmount]

@[simp] theorem totalAmount_append (front back : List CurrencyDistribution) :
    totalAmount (front ++ back) = totalAmount front + totalAmount back := by
  simp [totalAmount]

theorem totalAmount_le_length_mul {distribution : List CurrencyDistribution} {bound : ℤ}
    (h : ∀ d ∈ distribution, d.amount ≤ bound) :
    totalAmount distribution ≤ distribution.length * bound := by
  induction distribution with
  | nil => simp
  | cons d rest ih =>
    have hd := h d List.mem_cons_self
    have hrest := ih fun e he => h e (List.mem_cons_of_mem d he)
    rw [totalAmount_cons, List.length_cons]
    push_cast
    linarith

/-- Entries of zero add nothing. -/
theorem totalAmount_filter_positive {distribution : List CurrencyDistribution}
    (h : ∀ d ∈ distribution, 0 ≤ d.amount) :
    totalAmount (distribution.filter positive) = totalAmount distribution := by
  induction distribution with
  | nil => rfl
  | cons d rest ih =>
    have hd := h d List.mem_cons_self
    have hrest := ih fun e he => h e (List.mem_cons_of_mem d he)
    by_cases hpos : positive d = true
    · rw [List.filter_cons_of_pos hpos, totalAmount_cons, totalAmount_cons, hrest]
    · have hzero : d.amount = 0 := by
        simp only [positive, decide_eq_true_eq] at hpos
        omega
      rw [List.filter_cons_of_neg hpos, totalAmount_cons, hrest, hzero, zero_add]

theorem filter_positive_eq_nil {distribution : List CurrencyDistribution}
    (h : ∀ d ∈ distribution, d.amount ≤ 0) : distribution.filter positive = [] := by
  rw [List.filter_eq_nil_iff]
  intro d hd
  have hle := h d hd
  simp only [positive, decide_eq_true_eq]
  omega

section

variable {toYaml : List CurrencyDistribution → String} {name : String}

theorem checkAmount_ok {whole : List CurrencyDistribution} {d : CurrencyDistribution}
    {index : ℕ} {amount : ℤ} :
    checkAmount toYaml whole name d index = .ok amount ↔ 0 ≤ d.amount ∧ amount = d.amount := by
  unfold checkAmount
  split
  · rename_i hneg
    constructor
    · intro h
      cases h
    · rintro ⟨hnonneg, -⟩
      omega
  · rename_i hnonneg
    constructor
    · intro h
      cases h
      exact ⟨by omega, rfl⟩
    · rintro ⟨-, rfl⟩
      rfl

theorem checkAmounts_ok {whole rest : List CurrencyDistribution} {start : ℕ}
    {amounts : List ℤ} :
    List.Forall₂ (fun entry amount => checkAmount toYaml whole name entry.1 entry.2 = .ok amount)
        (rest.zipIdx start) amounts ↔
      (∀ d ∈ rest, 0 ≤ d.amount) ∧ amounts = rest.map CurrencyDistribution.amount := by
  induction rest generalizing start amounts with
  | nil => simp
  | cons d rest ih =>
    rw [List.zipIdx_cons, List.forall₂_cons_left_iff, List.forall_mem_cons, List.map_cons]
    constructor
    · rintro ⟨amount, amounts, hd, hrest, rfl⟩
      obtain ⟨hnonneg, rfl⟩ := checkAmount_ok.mp hd
      obtain ⟨hall, rfl⟩ := ih.mp hrest
      exact ⟨⟨hnonneg, hall⟩, rfl⟩
    · rintro ⟨⟨hnonneg, hall⟩, rfl⟩
      exact ⟨_, _, checkAmount_ok.mpr ⟨hnonneg, rfl⟩, ih.mpr ⟨hall, rfl⟩, rfl⟩

/-- `sum` throws on a negative amount and adds the amounts otherwise. -/
theorem sum_ok {distribution : List CurrencyDistribution} {total : ℤ} :
    sum toYaml distribution name = .ok total ↔
      (∀ d ∈ distribution, 0 ≤ d.amount) ∧ total = totalAmount distribution := by
  unfold sum
  rw [bind_ok]
  simp only [mapM_ok, checkAmounts_ok]
  constructor
  · rintro ⟨amounts, ⟨hnonneg, rfl⟩, hpure⟩
    cases hpure
    exact ⟨hnonneg, rfl⟩
  · rintro ⟨hnonneg, rfl⟩
    exact ⟨_, ⟨hnonneg, rfl⟩, rfl⟩

end

section

variable (accounts : List ConfigAccount) (nodes : List NodeAccount)
  (maxHarvesterBalance amountPerAccount : ℤ)

theorem generatedAccounts_length :
    (generatedAccounts accounts nodes maxHarvesterBalance amountPerAccount).length =
      accounts.length + nodes.length := by
  simp [generatedAccounts]

theorem generatedAccounts_le_share {d : CurrencyDistribution}
    (h : d ∈ generatedAccounts accounts nodes maxHarvesterBalance amountPerAccount) :
    d.amount ≤ amountPerAccount := by
  rcases List.mem_append.mp h with h | h
  · obtain ⟨a, -, rfl⟩ := List.mem_map.mp h
    exact le_rfl
  · obtain ⟨n, -, rfl⟩ := List.mem_map.mp h
    exact min_le_right _ _

/-- The first generated entry has the largest amount. -/
theorem generatedAccounts_le_first {first d : CurrencyDistribution}
    {rest : List CurrencyDistribution}
    (h : generatedAccounts accounts nodes maxHarvesterBalance amountPerAccount = first :: rest)
    (hd : d ∈ rest) : d.amount ≤ first.amount := by
  have hmem : d ∈ generatedAccounts accounts nodes maxHarvesterBalance amountPerAccount := by
    rw [h]
    exact List.mem_cons_of_mem first hd
  cases accounts with
  | cons a accounts =>
    obtain ⟨rfl, -⟩ := List.cons.inj h
    exact generatedAccounts_le_share _ _ _ _ hmem
  | nil =>
    -- without generated accounts every entry is a node's and they are all the same
    cases nodes with
    | nil => cases h
    | cons n nodes =>
      obtain ⟨rfl, rfl⟩ := List.cons.inj h
      obtain ⟨n', -, rfl⟩ := List.mem_map.mp hd
      exact le_rfl

end

/-- What is left for the first of the dynamic accounts, when none of the others has more
than the share, is at least the share. -/
theorem share_le_rest {others : List CurrencyDistribution} {remaining : ℤ}
    (h : ∀ d ∈ others, d.amount ≤ remaining / (others.length + 1 : ℕ)) :
    remaining / (others.length + 1 : ℕ) ≤ remaining - totalAmount others := by
  have hothers := totalAmount_le_length_mul h
  have hshares : (others.length + 1 : ℕ) * (remaining / (others.length + 1 : ℕ)) ≤ remaining :=
    Int.mul_ediv_self_le (by omega)
  push_cast at hshares hothers ⊢
  linarith

section

variable {toYaml : List CurrencyDistribution → String} {presetData : ConfigPreset}
  {nodes : List NodeAccount} {mosaicsLength mosaicIndex : ℕ} {m : MosaicPreset}
  {accounts : List ConfigAccount} {distributions : List CurrencyDistribution}

variable (presetData nodes mosaicIndex m) in
/-- What the given distributions and balances leave of the supply. -/
def remainingSupply : ℤ :=
  m.supply - totalAmount (providedDistributions presetData nodes mosaicIndex m)

variable (presetData nodes mosaicIndex m) in
/-- The equal share when the mosaic has a number of accounts of its own. -/
def equalShare (ownAccounts : ℕ) : ℤ :=
  remainingSupply presetData nodes mosaicIndex m /
    (ownAccounts + (nodeMainAccounts presetData nodes mosaicIndex).length : ℕ)

variable (presetData nodes mosaicsLength mosaicIndex m accounts) in
def generatedEntries : List CurrencyDistribution :=
  generatedAccounts accounts (nodeMainAccounts presetData nodes mosaicIndex)
    (getMaxHarvesterBalance presetData mosaicsLength mosaicIndex)
    (equalShare presetData nodes mosaicIndex m accounts.length)

theorem assignRemainder_ok {amount : ℤ} {kept : List CurrencyDistribution} :
    assignRemainder toYaml m amount kept = .ok distributions ↔
      ∃ first rest, kept = first :: rest ∧
        distributions = { first with amount } :: rest ∧
        (∀ d ∈ distributions, 0 ≤ d.amount) ∧ m.supply = totalAmount distributions := by
  cases kept with
  | nil =>
    constructor
    · intro h
      cases h
    · rintro ⟨first, rest, hkept, -⟩
      cases hkept
  | cons first rest =>
    simp only [assignRemainder, bind_ok, sum_ok, check_ok]
    constructor
    · rintro ⟨supplied, ⟨hnonneg, rfl⟩, hsupply, hpure⟩
      cases hpure
      exact ⟨first, rest, rfl, rfl, hnonneg, not_not.mp hsupply⟩
    · rintro ⟨first', rest', hkept, rfl, hnonneg, hsupply⟩
      cases hkept
      exact ⟨_, ⟨hnonneg, rfl⟩, not_not.mpr hsupply, rfl⟩

/-- The checks of `distributeMosaic`, read off a run. -/
theorem distributeMosaic_checks :
    distributeMosaic toYaml presetData nodes mosaicsLength mosaicIndex m accounts =
        .ok distributions ↔
      (∀ d ∈ providedDistributions presetData nodes mosaicIndex m, 0 ≤ d.amount) ∧
      0 ≤ remainingSupply presetData nodes mosaicIndex m ∧
      (∀ d ∈ (generatedEntries presetData nodes mosaicsLength mosaicIndex m accounts).drop 1,
        0 ≤ d.amount) ∧
      ∃ first rest,
        (generatedEntries presetData nodes mosaicsLength mosaicIndex m accounts ++
            providedDistributions presetData nodes mosaicIndex m).filter positive =
          first :: rest ∧
        distributions =
          { first with amount := remainingSupply presetData nodes mosaicIndex m -
              totalAmount ((generatedEntries presetData nodes mosaicsLength mosaicIndex m
                accounts).drop 1) } :: rest ∧
        (∀ d ∈ distributions, 0 ≤ d.amount) ∧ m.supply = totalAmount distributions := by
  simp only [distributeMosaic, bind_ok, sum_ok, check_ok, assignRemainder_ok]
  constructor
  · rintro ⟨provided, ⟨hprovided, rfl⟩, hremaining, generated, ⟨hgenerated, rfl⟩, hassign⟩
    exact ⟨hprovided, not_lt.mp hremaining, hgenerated, hassign⟩
  · rintro ⟨hprovided, hremaining, hgenerated, hassign⟩
    exact ⟨_, ⟨hprovided, rfl⟩, not_lt.mpr hremaining, _, ⟨hgenerated, rfl⟩, hassign⟩

variable (presetData nodes mosaicsLength mosaicIndex m accounts) in
theorem generatedEntries_le_share {d : CurrencyDistribution}
    (h : d ∈ generatedEntries presetData nodes mosaicsLength mosaicIndex m accounts) :
    d.amount ≤ equalShare presetData nodes mosaicIndex m accounts.length :=
  generatedAccounts_le_share _ _ _ _ h

/-- The first of the entries can take what the others leave: at least the share. -/
theorem share_le_first {first : CurrencyDistribution} {others : List CurrencyDistribution}
    (h : generatedEntries presetData nodes mosaicsLength mosaicIndex m accounts =
      first :: others) :
    equalShare presetData nodes mosaicIndex m accounts.length ≤
      remainingSupply presetData nodes mosaicIndex m - totalAmount others := by
  have hlength : others.length + 1 =
      accounts.length + (nodeMainAccounts presetData nodes mosaicIndex).length := by
    rw [← generatedAccounts_length accounts _
      (getMaxHarvesterBalance presetData mosaicsLength mosaicIndex)
      (equalShare presetData nodes mosaicIndex m accounts.length)]
    exact (congrArg List.length h).symm
  unfold equalShare
  rw [← hlength]
  apply share_le_rest
  intro d hd
  have hmem : d ∈ generatedEntries presetData nodes mosaicsLength mosaicIndex m accounts := by
    rw [h]
    exact List.mem_cons_of_mem first hd
  have hle := generatedEntries_le_share presetData nodes mosaicsLength mosaicIndex m accounts hmem
  rw [equalShare, ← hlength] at hle
  exact hle

/-- When no generated entry survives the filter, the first provided one is overwritten
and the amounts no longer add up. -/
theorem remainder_lost {supply remaining : ℤ}
    {generated provided rest : List CurrencyDistribution} {first : CurrencyDistribution}
    (hgenerated : ∀ d ∈ generated, d.amount ≤ 0)
    (htail : ∀ d ∈ generated.drop 1, 0 ≤ d.amount) (hprovided : ∀ d ∈ provided, 0 ≤ d.amount)
    (hremaining : remaining = supply - totalAmount provided)
    (hkept : (generated ++ provided).filter positive = first :: rest) :
    supply ≠ remaining - totalAmount (generated.drop 1) + totalAmount rest := by
  have hzero : totalAmount (generated.drop 1) = 0 := by
    rw [← totalAmount_filter_positive htail, filter_positive_eq_nil, totalAmount_nil]
    intro d hd
    exact hgenerated d (List.mem_of_mem_drop hd)
  rw [List.filter_append, filter_positive_eq_nil hgenerated, List.nil_append] at hkept
  have htotal := totalAmount_filter_positive hprovided
  rw [hkept, totalAmount_cons] at htotal
  have hfirst : first ∈ provided.filter positive := by
    rw [hkept]
    exact List.mem_cons_self
  have hpos : 0 < first.amount := by simpa [positive] using (List.mem_filter.mp hfirst).2
  omega

/-- The split of a mosaic succeeds exactly when nothing given is negative, the given
amounts fit in the supply and the first generated entry is not empty; that entry then
takes the rest. -/
theorem distributeMosaic_ok :
    distributeMosaic toYaml presetData nodes mosaicsLength mosaicIndex m accounts =
        .ok distributions ↔
      (∀ d ∈ providedDistributions presetData nodes mosaicIndex m, 0 ≤ d.amount) ∧
      0 ≤ remainingSupply presetData nodes mosaicIndex m ∧
      ∃ first others,
        generatedEntries presetData nodes mosaicsLength mosaicIndex m accounts =
          first :: others ∧
        (∀ d ∈ others, 0 ≤ d.amount) ∧ 0 < first.amount ∧
        distributions =
          { first with amount := remainingSupply presetData nodes mosaicIndex m -
              totalAmount others } ::
            (others ++ providedDistributions presetData nodes mosaicIndex m).filter positive := by
  rw [distributeMosaic_checks]
  constructor
  · rintro ⟨hprovided, hremaining, htail, first, rest, hkept, rfl, hnonneg, hsupply⟩
    refine ⟨hprovided, hremaining, ?_⟩
    rw [totalAmount_cons] at hsupply
    cases hgenerated : generatedEntries presetData nodes mosaicsLength mosaicIndex m accounts with
    | nil =>
      rw [hgenerated] at htail hkept hsupply
      exact absurd hsupply
        (remainder_lost (by simp) htail hprovided rfl hkept)
    | cons head others =>
      rw [hgenerated] at htail hkept hsupply
      rw [List.drop_one, List.tail_cons] at htail
      by_cases hhead : 0 < head.amount
      · have hpositive : positive head = true := by simpa [positive] using hhead
        rw [List.cons_append, List.filter_cons_of_pos hpositive] at hkept
        obtain ⟨rfl, rfl⟩ := List.cons.inj hkept
        exact ⟨head, others, rfl, htail, hhead, rfl⟩
      · have hall : ∀ d ∈ head :: others, d.amount ≤ 0 := by
          intro d hd
          rcases List.mem_cons.mp hd with rfl | hd
          · omega
          · have hle := generatedAccounts_le_first _ _ _ _ hgenerated hd
            omega
        exact absurd hsupply (remainder_lost hall htail hprovided rfl hkept)
  · rintro ⟨hprovided, hremaining, first, others, hgenerated, htail, hfirst, rfl⟩
    have hpositive : positive first = true := by simpa [positive] using hfirst
    have hrest : ∀ d ∈ others ++ providedDistributions presetData nodes mosaicIndex m,
        0 ≤ d.amount := by
      intro d hd
      rcases List.mem_append.mp hd with hd | hd
      · exact htail d hd
      · exact hprovided d hd
    have hfits := share_le_first hgenerated
    have hshare : first.amount ≤ equalShare presetData nodes mosaicIndex m accounts.length := by
      apply generatedEntries_le_share presetData nodes mosaicsLength
      rw [hgenerated]
      exact List.mem_cons_self
    rw [hgenerated]
    refine ⟨hprovided, hremaining, htail, first, _, ?_, rfl, ?_, ?_⟩
    · rw [List.cons_append, List.filter_cons_of_pos hpositive]
    · intro d hd
      rcases List.mem_cons.mp hd with rfl | hd
      · show 0 ≤ remainingSupply presetData nodes mosaicIndex m - totalAmount others
        omega
      · exact hrest d (List.mem_filter.mp hd).1
    · rw [totalAmount_cons, totalAmount_filter_positive hrest, totalAmount_append,
        remainingSupply]
      show m.supply = m.supply - _ - totalAmount others + (totalAmount others + _)
      omega

end

section

variable {sdk : SymbolSdk} {networkType : NetworkType} {mosaicIndex : ℕ}
  {requested : RequestedAccounts}

theorem generateAddresses_ok {accounts : List ConfigAccount} {draws draws' : Draws}
    (h : generateAddresses sdk networkType mosaicIndex requested draws = .ok (accounts, draws')) :
    accounts.length = requested.length ∧ requested.Creatable sdk networkType := by
  cases requested with
  | count number =>
    rw [generateAddresses] at h
    split at h
    · rename_i hnumber
      have hlength := (run_mapM_forall₂ h).length_eq
      exact ⟨by simpa [RequestedAccounts.length] using hlength.symm, hnumber⟩
    · exact absurd h run_throw_ok
  | publicKeys keys =>
    have hall := run_mapM_forall₂ h
    refine ⟨hall.length_eq.symm, ?_⟩
    refine ((List.forall₂_and_left (R := fun _ _ => True) keys accounts).mp (hall.imp ?_)).1
    rintro key account ⟨before, after, hrun⟩
    obtain ⟨created, _, hcreated, -⟩ := run_bind_ok.mp hrun
    exact ⟨⟨created, (run_lift_ok.mp hcreated).1⟩, trivial⟩

variable (mosaicIndex) in
theorem generateAddresses_total (h : requested.Creatable sdk networkType) (draws : Draws) :
    ∃ accounts draws',
      generateAddresses sdk networkType mosaicIndex requested draws = .ok (accounts, draws') := by
  cases requested with
  | count number =>
    have hnumber : 0 ≤ number ∧ number < 4294967296 := h
    rw [generateAddresses, if_pos hnumber]
    obtain ⟨accounts, draws', hrun, -⟩ := run_mapM_total (Q := fun _ _ => True)
      (fun accountIndex _ draws => ⟨_, _, rfl, trivial⟩) draws
    exact ⟨accounts, draws', hrun⟩
  | publicKeys keys =>
    have heach : ∀ key ∈ keys, ∀ draws, ∃ account draws',
        ((liftM (sdk.createFromPublicKey key networkType) >>= fun account =>
          pure (toConfigAccount (.publicAccount account))) : Gen ConfigAccount) draws =
            .ok (account, draws') ∧ True := by
      intro key hkey draws
      obtain ⟨account, haccount⟩ := h key hkey
      exact ⟨_, draws, run_bind_ok.mpr ⟨account, draws, run_lift_ok.mpr ⟨haccount, rfl⟩, rfl⟩,
        trivial⟩
    obtain ⟨accounts, draws', hrun, -⟩ := run_mapM_total heach draws
    exact ⟨accounts, draws', hrun⟩

end

section

variable {sdk : SymbolSdk} {toYaml : List CurrencyDistribution → String}
  {presetData : ConfigPreset} {nodes : List NodeAccount} {nemesisSignerAddress : String}
  {draws draws' : Draws}

theorem processMosaic_ok {mosaicsLength mosaicIndex : ℕ} {m : MosaicPreset}
    {result : MosaicAccounts × MosaicPreset} :
    processMosaic sdk toYaml presetData nodes nemesisSignerAddress mosaicsLength mosaicIndex m
        draws = .ok (result, draws') ↔
      ∃ accounts currencyDistributions,
        generateAddresses sdk presetData.networkType mosaicIndex m.accounts draws =
          .ok (accounts, draws') ∧
        distributeMosaic toYaml presetData nodes mosaicsLength mosaicIndex m accounts =
          .ok currencyDistributions ∧
        result = (⟨sdk.createMosaicId mosaicIndex nemesisSignerAddress, m.name, accounts⟩,
          { m with currencyDistributions }) := by
  simp only [processMosaic, run_bind_ok, run_lift_ok, run_pure_ok, Prod.mk.injEq]
  constructor
  · rintro ⟨accounts, _, hgenerate, distributions, _, ⟨hdistribute, rfl⟩, rfl, rfl⟩
    exact ⟨accounts, distributions, hgenerate, hdistribute, rfl⟩
  · rintro ⟨accounts, distributions, hgenerate, hdistribute, rfl⟩
    exact ⟨accounts, _, hgenerate, distributions, _, ⟨hdistribute, rfl⟩, rfl, rfl⟩

theorem processNemesisBalances_ok {nemesis : NemesisPreset}
    {result : List MosaicAccounts × List MosaicPreset} :
    processNemesisBalances sdk toYaml presetData nodes nemesisSignerAddress nemesis draws =
        .ok (result, draws') ↔
      (∃ mode, getPrivateKeySecurityMode presetData.privateKeySecurityMode = .ok mode) ∧
      ∃ mosaics processed, nemesis.mosaics = some mosaics ∧
        (mosaics.zipIdx.mapM fun (m, mosaicIndex) =>
          processMosaic sdk toYaml presetData nodes nemesisSignerAddress mosaics.length
            mosaicIndex m) draws = .ok (processed, draws') ∧
        result = processed.unzip := by
  simp only [processNemesisBalances, run_bind_ok, run_lift_ok]
  cases hmosaics : nemesis.mosaics with
  | none =>
    constructor
    · rintro ⟨mode, _, -, hthrow⟩
      exact absurd hthrow run_throw_ok
    · rintro ⟨-, mosaics, _, hnone, -⟩
      cases hnone
  | some mosaics =>
    simp only [run_bind_ok, run_pure_ok, Prod.mk.injEq]
    constructor
    · rintro ⟨mode, _, ⟨hmode, rfl⟩, processed, _, hrun, rfl, rfl⟩
      exact ⟨⟨mode, hmode⟩, mosaics, processed, rfl, hrun, rfl⟩
    · rintro ⟨⟨mode, hmode⟩, mosaics', processed, hsome, hrun, rfl⟩
      cases hsome
      exact ⟨mode, draws, ⟨hmode, rfl⟩, processed, draws', hrun, rfl, rfl⟩

/-- The mosaics of a run, each split with the accounts that it generated. -/
theorem processNemesisBalances_mosaic {nemesis : NemesisPreset}
    {mosaicAccounts : List MosaicAccounts} {processed : List MosaicPreset}
    (h : processNemesisBalances sdk toYaml presetData nodes nemesisSignerAddress nemesis draws =
      .ok ((mosaicAccounts, processed), draws'))
    {mosaics : List MosaicPreset} (hmosaics : nemesis.mosaics = some mosaics) {mosaicIndex : ℕ}
    {m : MosaicPreset} (hm : mosaics[mosaicIndex]? = some m) :
    ∃ own m', mosaicAccounts[mosaicIndex]? = some own ∧ processed[mosaicIndex]? = some m' ∧
      m' = { m with currencyDistributions := m'.currencyDistributions } ∧
      own.accounts.length = m.accounts.length ∧
      distributeMosaic toYaml presetData nodes mosaics.length mosaicIndex m own.accounts =
        .ok m'.currencyDistributions := by
  obtain ⟨-, mosaics', results, hmosaics', hrun, hresults⟩ := processNemesisBalances_ok.mp h
  rw [hmosaics] at hmosaics'
  cases hmosaics'
  rw [List.unzip_eq_map] at hresults
  obtain ⟨rfl, rfl⟩ := Prod.mk.inj hresults
  obtain ⟨result, hresult, before, after, hmosaic⟩ :=
    forall₂_zipIdx_getElem (run_mapM_forall₂ hrun) hm
  obtain ⟨accounts, distributions, hgenerate, hdistribute, hparts⟩ := processMosaic_ok.mp hmosaic
  have hcount := (generateAddresses_ok hgenerate).1
  refine ⟨result.1, result.2, ?_, ?_, ?_, ?_, ?_⟩
  · rw [List.getElem?_map, hresult, Option.map_some]
  · rw [List.getElem?_map, hresult, Option.map_some]
  · rw [hparts]
  · rw [hparts]
    exact hcount
  · rw [hparts]
    exact hdistribute

end

end SymbolBootstrap.NemesisSplit
