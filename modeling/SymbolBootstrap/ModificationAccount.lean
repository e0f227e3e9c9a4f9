import Mathlib.Data.Fintype.EquivFin
import Mathlib.Data.Fintype.Option
import SymbolBootstrap.KnownAccounts
import SymbolBootstrap.ModificationChecks

/-!
Whose multisig account a modification is checked against. The modification is a
transaction of the node's main account, with or without a service provider; the factory
is given the account that announces. So with a service provider of another address the
decision is about the service provider, and the main account's entry does not settle it
unless the parameters settle it on their own.
-/
namespace SymbolBootstrap.ModificationAccount

open Library.Throwing ConfigurationUtils KnownAccounts NemesisBalances AnnounceService
  ModifyMultisigService ModificationChecks

section Found

/-- What `getMultisigAccount` can find on a chain. -/
def CanBeFound (found : Option MultisigAccountInfo) : Prop :=
  ∀ info ∈ found, info.Sound ∧ info.isMultisig = true

theorem canBeFound_getMultisigAccount (chain : Chain) (address : Address) :
    CanBeFound (getMultisigAccount chain address) := by
  intro info hinfo
  obtain ⟨hentry, hmultisig⟩ := Option.filter_eq_some_iff.mp hinfo
  exact ⟨chain.sound address info hentry, hmultisig⟩

variable {additions deletions : List Address} {removalDelta approvalDelta : ℤ}

theorem membersFit_some {found : Option MultisigAccountInfo} :
    MembersFit (some additions) (some deletions) found ↔
      (∀ address ∈ additions, address ∉ cosignatories found) ∧
        ∀ address ∈ deletions, address ∈ cosignatories found :=
  ⟨fun h => ⟨h.additions, h.deletions⟩, fun h => ⟨h.1, h.2⟩⟩

/-- An address that is added and removed is in the way on every chain. -/
theorem not_ok_of_both {address : Address} (hadded : address ∈ additions)
    (hdeleted : address ∈ deletions) (found : Option MultisigAccountInfo) :
    validateParams (some additions) (some deletions) (some removalDelta) (some approvalDelta)
      found ≠ .ok () := by
  intro hok
  have hmembers := membersFit_some.mp (validateParams_ok _ _ _ _ _ |>.mp hok).1
  exact hmembers.1 address hadded (hmembers.2 address hdeleted)

/-- A modification that changes nothing is accepted on every chain. -/
theorem ok_of_empty {found : Option MultisigAccountInfo} (hfound : CanBeFound found) :
    validateParams (some []) (some []) (some 0) (some 0) found = .ok () := by
  refine (validateParams_ok _ _ _ _ _).mpr ⟨membersFit_some.mpr ?_, ?_⟩
  · simp
  · cases found with
    | none => decide
    | some info =>
      obtain ⟨hsound, hmultisig⟩ := hfound info rfl
      have hremoval := hsound.minRemoval_le
      have happroval := hsound.minApproval_le
      simp only [MultisigAccountInfo.isMultisig, Bool.and_eq_true, bne_iff_ne] at hmultisig
      simp only [newMinApproval, newMinRemoval, newCosignatoryNumber, numberOfAddedCosigners,
        Option.getD_some, List.length_nil]
      omega

/-- There are as many addresses as one asks for besides the given ones. -/
theorem exists_fresh_addresses (used : Finset Address) (count : ℕ) :
    ∃ fresh : List Address, fresh.Nodup ∧ fresh.length = count ∧
      ∀ address ∈ fresh, address ∉ used := by
  obtain ⟨all, hused, hcard⟩ :=
    Infinite.exists_superset_card_eq used (used.card + count) (Nat.le_add_right _ _)
  refine ⟨(all \ used).toList, Finset.nodup_toList _, ?_, ?_⟩
  · rw [Finset.length_toList, Finset.card_sdiff_of_subset hused, hcard]
    omega
  · intro address haddress
    exact (Finset.mem_sdiff.mp (Finset.mem_toList.mp haddress)).2

variable (removalDelta approvalDelta) in
/-- A modification that does not contradict itself is accepted on some chain. -/
theorem exists_accepting (hapart : ∀ address ∈ additions, address ∉ deletions) :
    ∃ found, CanBeFound found ∧
      validateParams (some additions) (some deletions) (some removalDelta) (some approvalDelta)
        found = .ok () := by
  let minApproval := 1 + (-approvalDelta).toNat
  let minRemoval := 1 + (-removalDelta).toNat
  obtain ⟨fresh, hnodup, hlength, hfresh⟩ := exists_fresh_addresses
    (additions.toFinset ∪ deletions.toFinset)
    (deletions.length + minApproval + minRemoval + approvalDelta.toNat + removalDelta.toNat)
  have hnew : ∀ address ∈ fresh, address ∉ additions ∧ address ∉ deletions := by
    intro address haddress
    simpa using hfresh address haddress
  have hcosigners : (deletions.dedup ++ fresh).Nodup := by
    refine List.nodup_append.mpr ⟨List.nodup_dedup deletions, hnodup, ?_⟩
    intro address haddress other hother heq
    rw [heq, List.mem_dedup] at haddress
    exact (hnew other hother).2 haddress
  refine ⟨some ⟨minApproval, minRemoval, deletions.dedup ++ fresh⟩, ?_, ?_⟩
  · rintro info ⟨⟩
    refine ⟨⟨hcosigners, ?_, ?_, ?_⟩, ?_⟩
    · show minApproval ≤ (deletions.dedup ++ fresh).length
      rw [List.length_append]
      omega
    · show minRemoval ≤ (deletions.dedup ++ fresh).length
      rw [List.length_append]
      omega
    · exact fun _ => ⟨Nat.le_add_right 1 _, Nat.le_add_right 1 _⟩
    · simp [MultisigAccountInfo.isMultisig, minApproval, minRemoval]
  · refine (validateParams_ok _ _ _ _ _).mpr ⟨membersFit_some.mpr ⟨?_, ?_⟩, ?_⟩
    · intro address haddress hmem
      rcases List.mem_append.mp hmem with hin | hin
      · exact hapart address haddress (List.mem_dedup.mp hin)
      · exact (hnew address hin).1 haddress
    · intro address haddress
      exact List.mem_append_left _ (List.mem_dedup.mpr haddress)
    · simp only [newMinApproval, newMinRemoval, newCosignatoryNumber, numberOfAddedCosigners,
        Option.getD_some, List.length_append, hlength, minApproval, minRemoval]
      omega

/-- A modification that changes something is rejected on some chain. -/
theorem exists_rejecting (hchange : ¬ (additions = [] ∧ deletions = [] ∧ approvalDelta = 0 ∧
      removalDelta = 0)) :
    ∃ found, CanBeFound found ∧
      validateParams (some additions) (some deletions) (some removalDelta) (some approvalDelta)
        found ≠ .ok () := by
  have hnone : CanBeFound none := fun _ h => absurd h (by simp)
  cases deletions with
  | cons address rest =>
    refine ⟨none, hnone, fun hok => ?_⟩
    have hmembers := membersFit_some.mp (validateParams_ok _ _ _ _ _ |>.mp hok).1
    exact absurd (hmembers.2 address List.mem_cons_self) List.not_mem_nil
  | nil =>
    cases additions with
    | cons address rest =>
      refine ⟨some ⟨1, 1, [address]⟩, ?_, fun hok => ?_⟩
      · rintro info ⟨⟩
        exact ⟨⟨List.nodup_singleton address, Nat.le_refl 1, Nat.le_refl 1,
          fun _ => ⟨Nat.le_refl 1, Nat.le_refl 1⟩⟩, rfl⟩
      · have hmembers := membersFit_some.mp (validateParams_ok _ _ _ _ _ |>.mp hok).1
        exact hmembers.1 address List.mem_cons_self (List.mem_singleton_self address)
    | nil =>
      by_cases hraises : 0 < approvalDelta ∨ 0 < removalDelta
      · refine ⟨none, hnone, fun hok => ?_⟩
        have hchecks := (validateParams_ok _ _ _ _ _ |>.mp hok).2
        simp only [newMinApproval, newMinRemoval, newCosignatoryNumber, numberOfAddedCosigners,
          Option.getD_some, List.length_nil] at hchecks
        omega
      · -- some threshold falls, to zero where it was the amount by which it falls
        obtain ⟨cosigners, hnodup, hlength, _⟩ := exists_fresh_addresses ∅
          (1 + (-approvalDelta).toNat + (-removalDelta).toNat)
        refine ⟨some ⟨max 1 (-approvalDelta).toNat, max 1 (-removalDelta).toNat, cosigners⟩, ?_,
          fun hok => ?_⟩
        · rintro info ⟨⟩
          refine ⟨⟨hnodup, ?_, ?_, fun _ => ⟨Nat.le_max_left 1 _, Nat.le_max_left 1 _⟩⟩, ?_⟩
          · show max 1 _ ≤ cosigners.length
            omega
          · show max 1 _ ≤ cosigners.length
            omega
          · simp [MultisigAccountInfo.isMultisig]
        · have hchecks := (validateParams_ok _ _ _ _ _ |>.mp hok).2
          simp only [newMinApproval, newMinRemoval, newCosignatoryNumber, numberOfAddedCosigners,
            Option.getD_some, List.length_nil, hlength] at hchecks
          simp only [true_and] at hchange
          omega

end Found

section Decision

variable (sdk : SymbolSdk) (addressSdk : AddressSdk) (prompts : Prompts)
  (announceParams : AnnounceParams) (nodeAccount : NodeAccount) (params : ModifyMultisigParams)

/-- The factory accepts what it is asked for when the node's turn comes. -/
def Accepts (chain : Chain) : Prop :=
  ∃ given transactions,
    factoryParams sdk chain announceParams nodeAccount = .ok given ∧
    createTransactions addressSdk prompts chain params given = .ok transactions

/-- Two chains hold the same for the account that signs the modification. -/
def SameMainAccount (chain chain' : Chain) : Prop :=
  ∀ mainAccount, mainAccountOf sdk announceParams nodeAccount = .ok mainAccount →
    chain.getMultisigAccountInfo mainAccount.address =
      chain'.getMultisigAccountInfo mainAccount.address

/-- The decision is about the account that signs the modification. -/
def DecidedByMainAccount : Prop :=
  ∀ chain chain', SameMainAccount sdk announceParams nodeAccount chain chain' →
    (Accepts sdk addressSdk prompts announceParams nodeAccount params chain ↔
      Accepts sdk addressSdk prompts announceParams nodeAccount params chain')

def approvalDelta : ℤ := resolveMinApprovalDelta prompts params.minApprovalDelta

def removalDelta : ℤ := resolveMinRemovalDelta prompts params.minRemovalDelta

/-- The parameters leave nothing to decide: an address is both added and removed, or
nothing is changed. -/
def Settled (additions deletions : List Address) (approvalDelta removalDelta : ℤ) : Prop :=
  (∃ address ∈ additions, address ∈ deletions) ∨
    (additions = [] ∧ deletions = [] ∧ approvalDelta = 0 ∧ removalDelta = 0)

/-- How the accounts and the lists of addresses are read. -/
structure ReadAs (mainAccount announcer : PublicAccount) (additions deletions : List Address) :
    Prop where
  mainAccount : mainAccountOf sdk announceParams nodeAccount = .ok mainAccount
  announcer : announcerOf sdk announceParams nodeAccount = .ok announcer
  additions : resolveAddressAdditions addressSdk prompts announceParams.networkType
    params.addressAdditions = .ok additions
  deletions : resolveAddressDeletions addressSdk prompts announceParams.networkType
    params.addressDeletions = .ok deletions

/-- If all can be read, the main account's address is the announcer's, or the parameters
leave nothing to decide. -/
def ProviderMakesNoDifference : Prop :=
  ∀ mainAccount announcer additions deletions,
    ReadAs sdk addressSdk prompts announceParams nodeAccount params mainAccount announcer
      additions deletions →
    announcer.address = mainAccount.address ∨
      Settled additions deletions (approvalDelta prompts params) (removalDelta prompts params)

variable {sdk addressSdk prompts announceParams nodeAccount params}

/-- What is announced for a node was accepted by the factory, and is a modification of the
node's main account. -/
theorem announceNode_signer {chain : Chain}
    {transactions : List (InnerTransaction MultisigAccountModificationTransaction)}
    (h : announceNode sdk chain announceParams nodeAccount
      (createTransactions addressSdk prompts chain params) = .ok (.announced transactions)) :
    Accepts sdk addressSdk prompts announceParams nodeAccount params chain ∧
      ∀ transaction signer, .created transaction signer ∈ transactions →
        mainAccountOf sdk announceParams nodeAccount = .ok signer := by
  obtain ⟨mainAccount, hmain, hrest⟩ := bind_ok.mp h
  obtain ⟨serviceProvider, _, hrest⟩ := bind_ok.mp hrest
  obtain ⟨announcer, _, hrest⟩ := bind_ok.mp hrest
  cases hinfo : chain.getAccountInfo announcer.address with
  | none =>
    rw [hinfo] at hrest
    cases hrest
  | some info =>
    simp only [hinfo] at hrest
    split at hrest
    · cases hrest
    · obtain ⟨given, hgiven, hrest⟩ := bind_ok.mp hrest
      obtain ⟨created, hcreated, hrest⟩ := bind_ok.mp hrest
      split at hrest
      · cases hrest
      · cases hrest
        refine ⟨⟨given, created, hgiven, hcreated⟩, ?_⟩
        intro transaction signer hmem
        rcases List.mem_append.mp hmem with hin | hin
        · obtain ⟨_, _, heq⟩ := List.mem_map.mp hin
          cases heq
          exact hmain
        · obtain ⟨_, _, heq⟩ := List.mem_map.mp hin
          cases heq

theorem Accepts.exists_read {chain : Chain}
    (h : Accepts sdk addressSdk prompts announceParams nodeAccount params chain) :
    ∃ mainAccount announcer additions deletions,
      ReadAs sdk addressSdk prompts announceParams nodeAccount params mainAccount announcer
        additions deletions := by
  obtain ⟨given, transactions, hgiven, hcreated⟩ := h
  obtain ⟨mainAccount, hmain, hrest⟩ := bind_ok.mp hgiven
  obtain ⟨announcer, hannouncer, hpure⟩ := bind_ok.mp hrest
  cases hpure
  obtain ⟨additions, hadditions, hrest⟩ := bind_ok.mp hcreated
  obtain ⟨deletions, hdeletions, _⟩ := bind_ok.mp hrest
  exact ⟨mainAccount, announcer, additions, deletions, hmain, hannouncer, hadditions, hdeletions⟩

/-- Once all is read, what is accepted is what passes the checks for the announcer. -/
theorem ReadAs.accepts_iff {mainAccount announcer : PublicAccount}
    {additions deletions : List Address}
    (h : ReadAs sdk addressSdk prompts announceParams nodeAccount params mainAccount announcer
      additions deletions) (chain : Chain) :
    Accepts sdk addressSdk prompts announceParams nodeAccount params chain ↔
      validateParams (some additions) (some deletions) (some (removalDelta prompts params))
        (some (approvalDelta prompts params)) (getMultisigAccount chain announcer.address) =
          .ok () := by
  have hgiven : factoryParams sdk chain announceParams nodeAccount = .ok
      { networkType := announceParams.networkType
        nodeAccount := nodeAccount
        mainAccountInfo := chain.getAccountInfo mainAccount.address
        latestFinalizedBlockEpoch := announceParams.latestFinalizedBlockEpoch
        mainAccount := announcer
        deadline := announceParams.deadline
        maxFee := announceParams.providedMaxFee.getD 0 } :=
    bind_ok.mpr ⟨mainAccount, h.mainAccount, bind_ok.mpr ⟨announcer, h.announcer, rfl⟩⟩
  constructor
  · rintro ⟨given, transactions, hgiven', hcreated⟩
    cases hgiven.symm.trans hgiven'
    obtain ⟨additions', hadditions, hrest⟩ := bind_ok.mp hcreated
    cases h.additions.symm.trans hadditions
    obtain ⟨deletions', hdeletions, hrest⟩ := bind_ok.mp hrest
    cases h.deletions.symm.trans hdeletions
    obtain ⟨_, hvalid, _⟩ := bind_ok.mp hrest
    exact hvalid
  · intro hvalid
    exact ⟨_, _, hgiven, bind_ok.mpr ⟨additions, h.additions, bind_ok.mpr ⟨deletions, h.deletions,
      bind_ok.mpr ⟨(), hvalid, rfl⟩⟩⟩⟩

/-- A chain that knows at most one account as multisig. -/
def chainWith (address : Address) (found : Option MultisigAccountInfo)
    (h : CanBeFound found) : Chain where
  getAccountInfo := fun _ => none
  getMultisigAccountInfo := fun other => if other = address then found else none
  sound := by
    intro other info hinfo
    by_cases heq : other = address
    · rw [if_pos heq] at hinfo
      exact (h info hinfo).1
    · rw [if_neg heq] at hinfo
      exact absurd hinfo (by simp)

theorem getMultisigAccount_chainWith (address : Address) {found : Option MultisigAccountInfo}
    (h : CanBeFound found) : getMultisigAccount (chainWith address found h) address = found := by
  have hentry : (chainWith address found h).getMultisigAccountInfo address = found :=
    if_pos rfl
  rw [getMultisigAccount, hentry]
  cases found with
  | none => rfl
  | some info => exact Option.filter_some_pos (h info rfl).2

theorem sameMainAccount_chainWith {address : Address}
    (h : ∀ mainAccount, mainAccountOf sdk announceParams nodeAccount = .ok mainAccount →
      address ≠ mainAccount.address) {found found' : Option MultisigAccountInfo}
    (hfound : CanBeFound found) (hfound' : CanBeFound found') :
    SameMainAccount sdk announceParams nodeAccount (chainWith address found hfound)
      (chainWith address found' hfound') := by
  intro mainAccount hmain
  have hother : mainAccount.address ≠ address := (h mainAccount hmain).symm
  exact (if_neg hother).trans (if_neg hother).symm

/-- The decision is about the account that signs the modification exactly when that account
announces, or there is nothing to decide. -/
theorem decided_by_main_account_exactly (sdk : SymbolSdk) (addressSdk : AddressSdk)
    (prompts : Prompts) (announceParams : AnnounceParams) (nodeAccount : NodeAccount)
    (params : ModifyMultisigParams) :
    DecidedByMainAccount sdk addressSdk prompts announceParams nodeAccount params ↔
      ProviderMakesNoDifference sdk addressSdk prompts announceParams nodeAccount params := by
  constructor
  · intro hdecided mainAccount announcer additions deletions hread
    by_contra hdifference
    obtain ⟨hother, hopen⟩ := not_or.mp hdifference
    obtain ⟨hapart, hchange⟩ := not_or.mp hopen
    have hapart : ∀ address ∈ additions, address ∉ deletions :=
      fun address hadded hdeleted => hapart ⟨address, hadded, hdeleted⟩
    obtain ⟨found, hfound, haccepted⟩ := exists_accepting (removalDelta prompts params)
      (approvalDelta prompts params) hapart
    obtain ⟨found', hfound', hrejected⟩ := exists_rejecting hchange
    have hmain : ∀ account, mainAccountOf sdk announceParams nodeAccount = .ok account →
        announcer.address ≠ account.address := by
      intro account haccount
      cases hread.mainAccount.symm.trans haccount
      exact hother
    have hiff := hdecided _ _ (sameMainAccount_chainWith hmain hfound hfound')
    rw [hread.accepts_iff, hread.accepts_iff, getMultisigAccount_chainWith,
      getMultisigAccount_chainWith] at hiff
    exact hrejected (hiff.mp haccepted)
  · intro hno chain chain' hsame
    by_cases hread : ∃ mainAccount announcer additions deletions,
        ReadAs sdk addressSdk prompts announceParams nodeAccount params mainAccount announcer
          additions deletions
    · obtain ⟨mainAccount, announcer, additions, deletions, hread⟩ := hread
      rw [hread.accepts_iff, hread.accepts_iff]
      rcases hno mainAccount announcer additions deletions hread with hown | hboth | hempty
      · have hfound : getMultisigAccount chain announcer.address =
            getMultisigAccount chain' announcer.address := by
          rw [hown, getMultisigAccount, getMultisigAccount, hsame mainAccount hread.mainAccount]
        rw [hfound]
      · obtain ⟨address, hadded, hdeleted⟩ := hboth
        exact iff_of_false (not_ok_of_both hadded hdeleted _) (not_ok_of_both hadded hdeleted _)
      · obtain ⟨rfl, rfl, happroval, hremoval⟩ := hempty
        rw [happroval, hremoval]
        exact iff_of_true (ok_of_empty (canBeFound_getMultisigAccount chain _))
          (ok_of_empty (canBeFound_getMultisigAccount chain' _))
    · exact iff_of_false (fun h => hread h.exists_read) (fun h => hread h.exists_read)

/-- A service provider announces for a node: whether the threshold can be raised is found
out from the provider's cosigners. -/
theorem decided_by_service_provider :
    ¬ ∀ (sdk : SymbolSdk) (addressSdk : AddressSdk) (prompts : Prompts)
      (announceParams : AnnounceParams) (nodeAccount : NodeAccount)
      (params : ModifyMultisigParams),
      DecidedByMainAccount sdk addressSdk prompts announceParams nodeAccount params := by
  intro h
  let announceParams : AnnounceParams :=
    ⟨152, some firstCurrency.publicKey, "5ECF396E439048D4", 1, 0, none⟩
  let nodeAccount : NodeAccount :=
    { name := "peer-node-0"
      friendlyName := "peer-node-0"
      roles := "Peer"
      main := toConfigAccount (.account peerMain)
      transport := toConfigAccount (.account peerTransport)
      remote := none
      vrf := none }
  let params : ModifyMultisigParams := ⟨some 0, some 1, some "", some ""⟩
  let addressSdk : AddressSdk := ⟨fun _ => true, id, fun _ => 152⟩
  let prompts : Prompts := ⟨fun _ _ => "", fun _ _ => 0⟩
  have hmain : mainAccountOf knownSdk announceParams nodeAccount = .ok peerMain.toPublicAccount :=
    createFromPublicKey_ok.mpr
      ⟨peerMain, by decide, (knownAccounts_upper _ (by decide)).2.symm, rfl⟩
  have hprovider : knownSdk.createFromPublicKey firstCurrency.publicKey 152 =
      .ok firstCurrency.toPublicAccount :=
    createFromPublicKey_ok.mpr
      ⟨firstCurrency, by decide, (knownAccounts_upper _ (by decide)).2.symm, rfl⟩
  have hgiven : given announceParams.serviceProviderPublicKey = some firstCurrency.publicKey := by
    decide
  have hserviceProvider : serviceProviderOf knownSdk announceParams =
      .ok (some firstCurrency.toPublicAccount) := by
    rw [serviceProviderOf, hgiven]
    exact bind_ok.mpr ⟨_, hprovider, rfl⟩
  have hread : ReadAs knownSdk addressSdk prompts announceParams nodeAccount params
      peerMain.toPublicAccount firstCurrency.toPublicAccount [] [] :=
    ⟨hmain, bind_ok.mpr ⟨_, hmain, bind_ok.mpr ⟨_, hserviceProvider, rfl⟩⟩, rfl, rfl⟩
  have hregular : CanBeFound none := fun _ hnone => absurd hnone (by simp)
  have hmultisig : CanBeFound (some ⟨1, 1, [nemesisSigner.address, secondCurrency.address]⟩) := by
    rintro info ⟨⟩
    exact ⟨⟨by decide, by decide, by decide, fun _ => by decide⟩, rfl⟩
  have hother : ∀ account, mainAccountOf knownSdk announceParams nodeAccount = .ok account →
      firstCurrency.address ≠ account.address := by
    intro account haccount
    cases hmain.symm.trans haccount
    decide
  have hiff := h knownSdk addressSdk prompts announceParams nodeAccount params _ _
    (sameMainAccount_chainWith hother hregular hmultisig)
  rw [hread.accepts_iff, hread.accepts_iff, getMultisigAccount_chainWith,
    getMultisigAccount_chainWith] at hiff
  exact absurd (hiff.mpr rfl) nofun

end Decision
end SymbolBootstrap.ModificationAccount
