import Mathlib.Data.List.Perm.Basic
import SymbolBootstrap.AnnounceService
import SymbolBootstrap.KnownAccounts
import SymbolBootstrap.Library.Throwing

/-!
The cosigners of a multisig account: `promptAccounts` asks for their private keys until there
are enough or no more are wanted, and `announce` signs an aggregate with them. The first of
them that holds the currency is the signer.

An account that was entered is an object of its own, so it is told by its place in the list.
-/
namespace SymbolBootstrap.CosignerEntry

open Library.Throwing ConfigurationUtils NemesisBalances AnnounceService KnownAccounts

/-- What is entered in one round: a private key and, where it is asked for, whether there are
more. -/
structure Entry where
  privateKey : Option String
  more : Bool

/-- The variables of the loop. -/
structure Prompted where
  providedAccounts : List Account
  allowedAddresses : List Address
deriving DecidableEq, Repr

inductive Prompting
  | asking (prompted : Prompted)
  | returned (providedAccounts : List Account)
deriving DecidableEq, Repr

section Prompt

variable (sdk : SymbolSdk) (networkType : NetworkType) (minApproval : ℕ)

/-- The body of the loop. -/
def promptRound (prompted : Prompted) (entry : Entry) : Except String Prompting :=
  match given entry.privateKey with
  | none => return .asking prompted
  | some privateKey => do
      let account ← sdk.createFromPrivateKey privateKey networkType
      match prompted.allowedAddresses.find? (· == account.address) with
      | none => return .asking prompted
      | some expectedAddress =>
          let allowedAddresses := prompted.allowedAddresses.erase expectedAddress
          let providedAccounts := prompted.providedAccounts ++ [account]
          if allowedAddresses.isEmpty then return .returned providedAccounts
          else if providedAccounts.length = minApproval then return .returned providedAccounts
          else if entry.more then return .asking ⟨providedAccounts, allowedAddresses⟩
          else return .returned providedAccounts

/-- The loop, as far as the entries go. -/
def promptLoop (prompted : Prompted) : List Entry → Except String Prompting
  | [] => return .asking prompted
  | entry :: rest => do
      match ← promptRound sdk networkType minApproval prompted entry with
      | .asking prompted => promptLoop prompted rest
      | .returned providedAccounts => return .returned providedAccounts

def promptAccounts (expectedAddresses : List Address) (entries : List Entry) :
    Except String Prompting :=
  promptLoop sdk networkType minApproval ⟨[], expectedAddresses⟩ entries

end Prompt

inductive AggregateType
  | complete
  | bonded
deriving DecidableEq, Repr

/-- The provided fee, or the one of `setMaxFeeForAggregate`. -/
inductive MaxFee
  | provided (fee : ℕ)
  | forAggregate (minFeeMultiplier requiredCosignatures : ℕ)
deriving DecidableEq, Repr

structure SignedAggregate (Transaction : Type) where
  type : AggregateType
  innerTransactions : List (InnerTransaction Transaction)
  maxFee : MaxFee
  signer : Account
  cosignatures : List Account
deriving DecidableEq, Repr

inductive MultisigRun (Transaction : Type)
  | prompting (prompted : Prompted)
  | noCosigner
  | signed (aggregate : SignedAggregate Transaction)
deriving DecidableEq, Repr

section Announce

variable (sdk : SymbolSdk) (chain : Chain) (params : AnnounceParams) (minFeeMultiplier : ℕ)

def holdsCurrency (account : Account) : Bool :=
  (chain.getAccountInfo account.address).any fun accountInfo =>
    !isAccountEmpty accountInfo params.currencyMosaicId

/-- The first account with currency, with its place. -/
def getBestCosigner (cosigners : List Account) : Option (Account × ℕ) :=
  cosigners.zipIdx.find? fun cosigner => holdsCurrency chain params cosigner.1

/-- `cosigners.filter((a) => a !== signerAccount)`. -/
def otherThan (signerAccount : Account × ℕ) (cosigners : List Account) : List Account :=
  (cosigners.zipIdx.filter fun a => a.2 != signerAccount.2).map Prod.fst

variable {Transaction : Type}

def signAggregate (type : AggregateType) (signerAccount : Account × ℕ)
    (transactions : List (InnerTransaction Transaction)) (requiredCosignatures : ℕ)
    (cosigners : List Account) : SignedAggregate Transaction where
  type := type
  innerTransactions := transactions
  maxFee :=
    match params.providedMaxFee.filter (· ≠ 0) with
    | some fee => .provided fee
    | none => .forAggregate minFeeMultiplier requiredCosignatures
  signer := signerAccount.1
  cosignatures := otherThan signerAccount cosigners

/-- `announceAggregateComplete`, up to the signed aggregate. -/
def announceAggregateComplete (signer : Account × ℕ)
    (transactions : List (InnerTransaction Transaction)) (requiredCosignatures : ℕ)
    (cosigners : List Account) : SignedAggregate Transaction :=
  signAggregate params minFeeMultiplier .complete signer transactions requiredCosignatures cosigners

/-- `announceAggregateBonded`, up to the signed aggregate. -/
def announceAggregateBonded (signerAccount : Account × ℕ)
    (transactions : List (InnerTransaction Transaction)) (requiredCosignatures : ℕ)
    (cosigners : List Account) : SignedAggregate Transaction :=
  signAggregate params minFeeMultiplier .bonded signerAccount transactions requiredCosignatures
    cosigners

/-- What `announce` does where the announcer is a multisig account. -/
def announceMultisig (multisigAccountInfo : MultisigAccountInfo) (mainAccount : PublicAccount)
    (serviceProviderPublicAccount : Option PublicAccount)
    (transactions : List (InnerTransaction Transaction)) (entries : List Entry) :
    Except String (MultisigRun Transaction) := do
  match ← promptAccounts sdk params.networkType multisigAccountInfo.minApproval
      multisigAccountInfo.cosignatoryAddresses entries with
  | .asking prompted => return .prompting prompted
  | .returned cosigners =>
      match getBestCosigner chain params cosigners with
      | none => return .noCosigner
      | some bestCosigner =>
          if serviceProviderPublicAccount.isSome then
            let mainMultisigAccountInfo := getMultisigAccount chain mainAccount.address
            let requiredCosignatures := multisigAccountInfo.minApproval +
              (mainMultisigAccountInfo.map (·.minApproval)).getD 0
            return .signed (announceAggregateBonded params minFeeMultiplier bestCosigner
              transactions requiredCosignatures cosigners)
          else if cosigners.length ≥ multisigAccountInfo.minApproval then
            return .signed (announceAggregateComplete params minFeeMultiplier bestCosigner
              transactions (cosigners.length - 1) cosigners)
          else
            return .signed (announceAggregateBonded params minFeeMultiplier bestCosigner
              transactions multisigAccountInfo.minApproval cosigners)

/-- A node whose announcer is a multisig account. -/
def announceMultisigNode (nodeAccount : NodeAccount)
    (createTransactions : TransactionFactoryParams → Except String (List Transaction))
    (entries : List Entry) : Except String (Option (MultisigRun Transaction)) := do
  match ← announceNode sdk chain params nodeAccount createTransactions with
  | .announced transactions => do
      let mainAccount ← mainAccountOf sdk params nodeAccount
      let serviceProviderPublicAccount ← serviceProviderOf sdk params
      let announcerPublicAccount ← announcerOf sdk params nodeAccount
      match getMultisigAccount chain announcerPublicAccount.address with
      | some multisigAccountInfo =>
          return some (← announceMultisig sdk chain params minFeeMultiplier multisigAccountInfo
            mainAccount serviceProviderPublicAccount transactions entries)
      | none => return none
  | _ => return none

end Announce

/-- Accounts of some of the expected addresses, as many as are needed at most. -/
structure CosignersEntered (expectedAddresses : List Address) (minApproval : ℕ)
    (accounts : List Account) : Prop where
  distinct : (accounts.map fun account => account.address).Nodup
  among : ∀ account ∈ accounts, account.address ∈ expectedAddresses
  nonempty : 1 ≤ accounts.length
  length_le : accounts.length ≤ minApproval

/-- One of the accounts signs and each other one cosigns once. -/
structure SignedByAll (accounts : List Account) {Transaction : Type}
    (aggregate : SignedAggregate Transaction) : Prop where
  signer_mem : aggregate.signer ∈ accounts
  cosigned : (aggregate.signer :: aggregate.cosignatures).Perm accounts

/-- What holds while the loop asks: the addresses of the entered accounts and those that are
still allowed are the expected ones, and more accounts are needed. -/
structure Asking (expectedAddresses : List Address) (minApproval : ℕ) (prompted : Prompted) :
    Prop where
  perm : ((prompted.providedAccounts.map fun account => account.address) ++
    prompted.allowedAddresses).Perm expectedAddresses
  length_lt : prompted.providedAccounts.length < minApproval

section Loop

variable {sdk : SymbolSdk} {networkType : NetworkType} {minApproval : ℕ}
  {expectedAddresses : List Address}

/-- A round changes nothing, or enters an account of an address that is still allowed. -/
theorem promptRound_ok {prompted : Prompted} {entry : Entry} {result : Prompting}
    (h : promptRound sdk networkType minApproval prompted entry = .ok result) :
    result = .asking prompted ∨ ∃ account, account.address ∈ prompted.allowedAddresses ∧
      (result = .returned (prompted.providedAccounts ++ [account]) ∨
        ((prompted.providedAccounts ++ [account]).length ≠ minApproval ∧
          result = .asking ⟨prompted.providedAccounts ++ [account],
            prompted.allowedAddresses.erase account.address⟩)) := by
  rw [promptRound] at h
  cases hgiven : given entry.privateKey with
  | none =>
    rw [hgiven] at h
    exact .inl (Except.ok.inj h).symm
  | some privateKey =>
    rw [hgiven] at h
    obtain ⟨account, -, h⟩ := bind_ok.mp h
    cases hfind : prompted.allowedAddresses.find? (· == account.address) with
    | none =>
      rw [hfind] at h
      exact .inl (Except.ok.inj h).symm
    | some expectedAddress =>
      rw [hfind] at h
      have haddress : expectedAddress = account.address := by simpa using List.find?_some hfind
      have hmem := List.mem_of_find?_eq_some hfind
      subst haddress
      refine .inr ⟨account, hmem, ?_⟩
      simp only at h
      split_ifs at h with hempty hlength hmore
      · exact .inl (Except.ok.inj h).symm
      · exact .inl (Except.ok.inj h).symm
      · exact .inr ⟨hlength, (Except.ok.inj h).symm⟩
      · exact .inl (Except.ok.inj h).symm

/-- An account of an allowed address moves it to the entered ones. -/
theorem Asking.perm_enter {prompted : Prompted}
    (h : Asking expectedAddresses minApproval prompted) {account : Account}
    (hallowed : account.address ∈ prompted.allowedAddresses) :
    (((prompted.providedAccounts ++ [account]).map fun account => account.address) ++
      prompted.allowedAddresses.erase account.address).Perm expectedAddresses := by
  rw [List.map_append, List.append_assoc]
  exact ((List.perm_cons_erase hallowed).symm.append_left _).trans h.perm

theorem Asking.length_enter {prompted : Prompted}
    (h : Asking expectedAddresses minApproval prompted) (account : Account) :
    (prompted.providedAccounts ++ [account]).length ≤ minApproval := by
  rw [List.length_append, List.length_singleton]
  exact h.length_lt

theorem Asking.entered {prompted : Prompted} (hnodup : expectedAddresses.Nodup)
    (h : Asking expectedAddresses minApproval prompted) {account : Account}
    (hallowed : account.address ∈ prompted.allowedAddresses) :
    CosignersEntered expectedAddresses minApproval (prompted.providedAccounts ++ [account]) where
  distinct := (List.nodup_append.mp ((h.perm_enter hallowed).nodup_iff.mpr hnodup)).1
  among := by
    intro entered hentered
    refine (h.perm_enter hallowed).subset (List.mem_append_left _ ?_)
    exact List.mem_map.mpr ⟨entered, hentered, rfl⟩
  nonempty := by
    rw [List.length_append, List.length_singleton]
    omega
  length_le := h.length_enter account

/-- A round of a loop that asks goes on asking, or returns what was to be entered. -/
theorem Asking.round {prompted : Prompted} {entry : Entry} {result : Prompting}
    (hnodup : expectedAddresses.Nodup) (h : Asking expectedAddresses minApproval prompted)
    (hround : promptRound sdk networkType minApproval prompted entry = .ok result) :
    (∃ prompted', result = .asking prompted' ∧ Asking expectedAddresses minApproval prompted') ∨
      ∃ accounts, result = .returned accounts ∧
        CosignersEntered expectedAddresses minApproval accounts := by
  obtain rfl | ⟨account, hallowed, rfl | ⟨hlength, rfl⟩⟩ := promptRound_ok hround
  · exact .inl ⟨prompted, rfl, h⟩
  · exact .inr ⟨_, rfl, h.entered hnodup hallowed⟩
  · exact .inl ⟨_, rfl, h.perm_enter hallowed, Nat.lt_of_le_of_ne (h.length_enter account) hlength⟩

/-- Whatever is entered, the accounts that the loop returns are cosigners. -/
theorem Asking.loop {entries : List Entry} {prompted : Prompted} {accounts : List Account}
    (hnodup : expectedAddresses.Nodup) (h : Asking expectedAddresses minApproval prompted)
    (hreturn : promptLoop sdk networkType minApproval prompted entries =
      .ok (.returned accounts)) :
    CosignersEntered expectedAddresses minApproval accounts := by
  induction entries generalizing prompted with
  | nil => cases hreturn
  | cons entry rest ih =>
    obtain ⟨result, hround, hrest⟩ := bind_ok.mp hreturn
    obtain ⟨prompted', rfl, hasking⟩ | ⟨entered, rfl, hentered⟩ := h.round hnodup hround
    · exact ih hasking hrest
    · cases hrest
      exact hentered

theorem promptAccounts_entered {entries : List Entry} {accounts : List Account}
    (hnodup : expectedAddresses.Nodup) (hminApproval : 1 ≤ minApproval)
    (hreturn : promptAccounts sdk networkType minApproval expectedAddresses entries =
      .ok (.returned accounts)) :
    CosignersEntered expectedAddresses minApproval accounts :=
  Asking.loop hnodup ⟨.refl _, Nat.lt_of_lt_of_le Nat.zero_lt_one hminApproval⟩ hreturn

end Loop

section Sign

/-- Leaving out the entry of one place. -/
theorem filter_zipIdx_ne {α : Type} (items : List α) (i k : ℕ) :
    ((items.zipIdx k).filter fun item => item.2 != i + k).map Prod.fst = items.eraseIdx i := by
  induction items generalizing i k with
  | nil => rfl
  | cons item rest ih =>
    rw [List.zipIdx_cons]
    cases i with
    | zero =>
      have hrest : (rest.zipIdx (k + 1)).filter (fun item => item.2 != 0 + k) =
          rest.zipIdx (k + 1) := by
        refine List.filter_eq_self.mpr fun other hother => ?_
        have hle := List.le_snd_of_mem_zipIdx hother
        exact bne_iff_ne.mpr (by omega)
      rw [List.filter_cons_of_neg (by simp), hrest, List.zipIdx_map_fst, List.eraseIdx_zero]
      rfl
    | succ i =>
      have hplace : i + 1 + k = i + (k + 1) := by omega
      rw [List.filter_cons_of_pos (by simp), hplace, List.map_cons, ih, List.eraseIdx_cons_succ]

/-- The signer and the others are the accounts. -/
theorem cons_otherThan_perm {cosigners : List Account} {signerAccount : Account × ℕ}
    (h : signerAccount ∈ cosigners.zipIdx) :
    (signerAccount.1 :: otherThan signerAccount cosigners).Perm cosigners := by
  obtain ⟨account, place⟩ := signerAccount
  obtain ⟨hplace, hget⟩ := List.getElem?_eq_some_iff.mp (List.mem_zipIdx_iff_getElem?.mp h)
  have hothers : otherThan (account, place) cosigners = cosigners.eraseIdx place :=
    filter_zipIdx_ne cosigners place 0
  have hperm := List.getElem_cons_eraseIdx_perm hplace
  rw [hget] at hperm
  rwa [hothers]

variable {chain : Chain} {params : AnnounceParams}

theorem getBestCosigner_some {cosigners : List Account} {bestCosigner : Account × ℕ}
    (h : getBestCosigner chain params cosigners = some bestCosigner) :
    bestCosigner ∈ cosigners.zipIdx ∧ holdsCurrency chain params bestCosigner.1 = true := by
  rw [getBestCosigner] at h
  refine ⟨List.mem_of_find?_eq_some h, ?_⟩
  simpa using (List.find?_eq_some_iff_append.mp h).1

theorem getBestCosigner_none {cosigners : List Account} :
    getBestCosigner chain params cosigners = none ↔
      ∀ account ∈ cosigners, holdsCurrency chain params account = false := by
  rw [getBestCosigner, List.find?_eq_none]
  constructor
  · intro h account haccount
    obtain ⟨place, hplace⟩ := List.mem_iff_getElem?.mp haccount
    exact Bool.not_eq_true _ ▸ h (account, place) (List.mem_zipIdx_iff_getElem?.mpr hplace)
  · intro h cosigner hcosigner
    exact Bool.not_eq_true _ ▸ h cosigner.1 (List.fst_mem_of_mem_zipIdx hcosigner)

end Sign

section Announce

variable {Transaction : Type}

/-- What is announced with the accounts that were entered: an aggregate signed by all of them,
if one of them holds the currency. -/
structure AnnouncedWith (chain : Chain) (params : AnnounceParams)
    (multisigAccountInfo : MultisigAccountInfo)
    (serviceProviderPublicAccount : Option PublicAccount)
    (transactions : List (InnerTransaction Transaction)) (accounts : List Account)
    (run : MultisigRun Transaction) : Prop where
  signed : (∃ account ∈ accounts, holdsCurrency chain params account = true) →
    ∃ aggregate, run = .signed aggregate ∧ SignedByAll accounts aggregate ∧
      aggregate.innerTransactions = transactions ∧
      (aggregate.type = .complete ↔ serviceProviderPublicAccount = none ∧
        multisigAccountInfo.minApproval ≤ accounts.length)
  nothing : (∀ account ∈ accounts, holdsCurrency chain params account = false) →
    run = .noCosigner

variable {sdk : SymbolSdk} {chain : Chain} {params : AnnounceParams} {minFeeMultiplier : ℕ}
  {multisigAccountInfo : MultisigAccountInfo} {mainAccount : PublicAccount}
  {serviceProviderPublicAccount : Option PublicAccount}
  {transactions : List (InnerTransaction Transaction)} {entries : List Entry}
  {accounts : List Account}

theorem announcedWith_noCosigner
    (h : ∀ account ∈ accounts, holdsCurrency chain params account = false) :
    AnnouncedWith chain params multisigAccountInfo serviceProviderPublicAccount transactions
      accounts .noCosigner where
  signed := by
    rintro ⟨account, haccount, hcurrency⟩
    rw [h account haccount] at hcurrency
    cases hcurrency
  nothing _ := rfl

theorem announcedWith_signed {bestCosigner : Account × ℕ}
    (hbest : getBestCosigner chain params accounts = some bestCosigner) {type : AggregateType}
    (htype : type = .complete ↔ serviceProviderPublicAccount = none ∧
      multisigAccountInfo.minApproval ≤ accounts.length) (requiredCosignatures : ℕ) :
    AnnouncedWith chain params multisigAccountInfo serviceProviderPublicAccount transactions
      accounts (.signed (signAggregate params minFeeMultiplier type bestCosigner transactions
        requiredCosignatures accounts)) := by
  obtain ⟨hmem, hcurrency⟩ := getBestCosigner_some hbest
  have haccount := List.fst_mem_of_mem_zipIdx hmem
  refine ⟨fun _ => ⟨_, rfl, ⟨haccount, cons_otherThan_perm hmem⟩, rfl, htype⟩, fun hnone => ?_⟩
  rw [hnone _ haccount] at hcurrency
  cases hcurrency

/-- Where the accounts are returned, they sign the aggregate. -/
theorem announceMultisig_returned
    (hreturn : promptAccounts sdk params.networkType multisigAccountInfo.minApproval
      multisigAccountInfo.cosignatoryAddresses entries = .ok (.returned accounts)) :
    ∃ run, announceMultisig sdk chain params minFeeMultiplier multisigAccountInfo mainAccount
        serviceProviderPublicAccount transactions entries = .ok run ∧
      AnnouncedWith chain params multisigAccountInfo serviceProviderPublicAccount transactions
        accounts run := by
  rw [announceMultisig, hreturn]
  cases hbest : getBestCosigner chain params accounts with
  | none =>
    exact ⟨_, by simp only [bind, Except.bind, hbest]; rfl,
      announcedWith_noCosigner (getBestCosigner_none.mp hbest)⟩
  | some bestCosigner =>
    simp only [bind, Except.bind, hbest]
    cases serviceProviderPublicAccount with
    | some serviceProvider =>
      exact ⟨_, rfl, announcedWith_signed hbest (by simp) _⟩
    | none =>
      by_cases hcomplete : accounts.length ≥ multisigAccountInfo.minApproval
      · exact ⟨_, (if_neg Bool.false_ne_true).trans (if_pos hcomplete),
          announcedWith_signed hbest (by simpa using hcomplete) _⟩
      · exact ⟨_, (if_neg Bool.false_ne_true).trans (if_neg hcomplete),
          announcedWith_signed hbest (by simpa using hcomplete) _⟩

/-- An aggregate is signed by accounts that were returned. -/
theorem exists_returned {aggregate : SignedAggregate Transaction}
    (h : announceMultisig sdk chain params minFeeMultiplier multisigAccountInfo mainAccount
      serviceProviderPublicAccount transactions entries = .ok (.signed aggregate)) :
    ∃ accounts, promptAccounts sdk params.networkType multisigAccountInfo.minApproval
        multisigAccountInfo.cosignatoryAddresses entries = .ok (.returned accounts) ∧
      SignedByAll accounts aggregate := by
  obtain ⟨result, hprompt, hrest⟩ := bind_ok.mp h
  cases result with
  | asking prompted => cases hrest
  | returned accounts =>
    obtain ⟨run, hrun, hannounced⟩ := announceMultisig_returned hprompt
    cases hrun.symm.trans h
    refine ⟨accounts, hprompt, ?_⟩
    by_cases hcurrency : ∃ account ∈ accounts, holdsCurrency chain params account = true
    · obtain ⟨_, heq, hsigned, -⟩ := hannounced.signed hcurrency
      cases heq
      exact hsigned
    · have hnone : ∀ account ∈ accounts, holdsCurrency chain params account = false := by
        simpa using hcurrency
      cases hannounced.nothing hnone

/-- Every aggregate of a multisig node is signed by cosigners of its announcer. -/
theorem announceMultisigNode_signed {nodeAccount : NodeAccount}
    {createTransactions : TransactionFactoryParams → Except String (List Transaction)}
    {aggregate : SignedAggregate Transaction}
    (h : announceMultisigNode sdk chain params minFeeMultiplier nodeAccount createTransactions
      entries = .ok (some (.signed aggregate))) :
    ∃ announcer multisigAccountInfo accounts,
      announcerOf sdk params nodeAccount = .ok announcer ∧
      getMultisigAccount chain announcer.address = some multisigAccountInfo ∧
      CosignersEntered multisigAccountInfo.cosignatoryAddresses multisigAccountInfo.minApproval
        accounts ∧
      SignedByAll accounts aggregate := by
  obtain ⟨run, -, h⟩ := bind_ok.mp h
  cases run with
  | notValid _ => cases h
  | notEnoughCurrency _ => cases h
  | nothingToAnnounce => cases h
  | announced transactions =>
    obtain ⟨mainAccount, -, h⟩ := bind_ok.mp h
    obtain ⟨serviceProvider, -, h⟩ := bind_ok.mp h
    obtain ⟨announcer, hannouncer, h⟩ := bind_ok.mp h
    cases hinfo : getMultisigAccount chain announcer.address with
    | none =>
      rw [hinfo] at h
      cases h
    | some multisigAccountInfo =>
      rw [hinfo] at h
      obtain ⟨run, hrun, hpure⟩ := bind_ok.mp h
      cases hpure
      obtain ⟨accounts, hreturn, hsigned⟩ := exists_returned hrun
      obtain ⟨hfound, hmultisig⟩ := Option.filter_eq_some_iff.mp hinfo
      have hsound := chain.sound _ _ hfound
      have hminApproval : 1 ≤ multisigAccountInfo.minApproval := by
        have hthresholds := hmultisig
        simp only [MultisigAccountInfo.isMultisig, Bool.and_eq_true, bne_iff_ne] at hthresholds
        omega
      exact ⟨announcer, multisigAccountInfo, accounts, hannouncer, hinfo,
        promptAccounts_entered hsound.nodup hminApproval hreturn, hsigned⟩

end Announce

/-- The returned accounts are cosigners, as many as are needed at most, and where one of them
holds the currency they sign an aggregate, complete exactly when there are enough of them and
no service provider announces. -/
theorem cosigners_entered_and_sign {Transaction : Type} (sdk : SymbolSdk) (chain : Chain)
    (params : AnnounceParams) (minFeeMultiplier : ℕ) (multisigAccountInfo : MultisigAccountInfo)
    (mainAccount : PublicAccount) (serviceProviderPublicAccount : Option PublicAccount)
    (transactions : List (InnerTransaction Transaction)) (entries : List Entry)
    (hnodup : multisigAccountInfo.cosignatoryAddresses.Nodup)
    (hminApproval : 1 ≤ multisigAccountInfo.minApproval) {accounts : List Account}
    (hreturn : promptAccounts sdk params.networkType multisigAccountInfo.minApproval
      multisigAccountInfo.cosignatoryAddresses entries = .ok (.returned accounts)) :
    CosignersEntered multisigAccountInfo.cosignatoryAddresses multisigAccountInfo.minApproval
        accounts ∧
      ∃ run, announceMultisig sdk chain params minFeeMultiplier multisigAccountInfo mainAccount
          serviceProviderPublicAccount transactions entries = .ok run ∧
        AnnouncedWith chain params multisigAccountInfo serviceProviderPublicAccount transactions
          accounts run :=
  ⟨promptAccounts_entered hnodup hminApproval hreturn, announceMultisig_returned hreturn⟩

/-- A chain on which one account holds the currency. -/
def holderChain (holder : Option Address) : Chain where
  getAccountInfo address := if some address = holder then some ⟨[("5ECF396E439048D4", 1)]⟩ else none
  getMultisigAccountInfo _ := none
  sound _ _ h := nomatch h

def cosignersParams : AnnounceParams := ⟨152, none, "5ECF396E439048D4", 1, 0, none⟩

def twoOfThree : MultisigAccountInfo where
  minApproval := 2
  minRemoval := 1
  cosignatoryAddresses := [nemesisSigner.address, firstCurrency.address, secondCurrency.address]

/-- A key of another account, nothing, and two keys, the first of them twice. -/
def enteredKeys : List Entry :=
  [⟨some peerMain.privateKey, false⟩, ⟨none, false⟩, ⟨some firstCurrency.privateKey, true⟩,
    ⟨some firstCurrency.privateKey, false⟩, ⟨some secondCurrency.privateKey, false⟩]

theorem enteredKeys_returned : promptAccounts knownSdk cosignersParams.networkType
    twoOfThree.minApproval twoOfThree.cosignatoryAddresses enteredKeys =
      .ok (.returned [firstCurrency, secondCurrency]) := by
  decide +kernel

theorem cosigners_entered_and_sign_two :
    CosignersEntered twoOfThree.cosignatoryAddresses 2 [firstCurrency, secondCurrency] ∧
      ∃ run, announceMultisig knownSdk (holderChain (some secondCurrency.address)) cosignersParams
          100 twoOfThree peerMain.toPublicAccount none [.zeroAmount peerMain.toPublicAccount]
          enteredKeys = .ok run ∧
        @AnnouncedWith Unit (holderChain (some secondCurrency.address)) cosignersParams twoOfThree
          none [.zeroAmount peerMain.toPublicAccount] [firstCurrency, secondCurrency] run :=
  cosigners_entered_and_sign knownSdk _ cosignersParams 100 twoOfThree _ none _ enteredKeys
    (by decide) (by decide) enteredKeys_returned

/-- None of the cosigners holds the currency, so that nothing is signed. -/
theorem cosigners_without_currency :
    ¬ ∀ (sdk : SymbolSdk) (chain : Chain) (params : AnnounceParams) (minFeeMultiplier : ℕ)
      (multisigAccountInfo : MultisigAccountInfo) (mainAccount : PublicAccount)
      (transactions : List (InnerTransaction Unit)) (entries : List Entry),
      multisigAccountInfo.cosignatoryAddresses ≠ [] →
      multisigAccountInfo.cosignatoryAddresses.Nodup → 1 ≤ multisigAccountInfo.minApproval →
      ∀ accounts, promptAccounts sdk params.networkType multisigAccountInfo.minApproval
          multisigAccountInfo.cosignatoryAddresses entries = .ok (.returned accounts) →
        CosignersEntered multisigAccountInfo.cosignatoryAddresses
            multisigAccountInfo.minApproval accounts ∧
          ∃ aggregate, announceMultisig sdk chain params minFeeMultiplier multisigAccountInfo
              mainAccount none transactions entries = .ok (.signed aggregate) ∧
            SignedByAll accounts aggregate ∧
            (aggregate.type = .complete ↔ multisigAccountInfo.minApproval ≤ accounts.length) := by
  intro hclaim
  obtain ⟨-, aggregate, hsigned, -⟩ := hclaim knownSdk (holderChain none) cosignersParams 100
    twoOfThree peerMain.toPublicAccount [] enteredKeys (by decide) (by decide) (by decide) _
    enteredKeys_returned
  obtain ⟨run, hrun, hannounced⟩ := announceMultisig_returned enteredKeys_returned
  cases hrun.symm.trans hsigned
  cases hannounced.nothing fun _ _ => rfl

end SymbolBootstrap.CosignerEntry
