import SymbolBootstrap.AnnounceRuns

/-!
Who signs what is announced. The announcer of a node signs alone, or the entered cosigners of
it where it is a multisig account, and nothing acts for another account than the node's main
account and the service provider.
-/
namespace SymbolBootstrap.AnnounceSigners

open Library Library.Traces ConfigurationUtils NemesisBalances AnnounceService CosignerEntry
  BootstrapAccountResolver KnownAccounts AnnounceRuns

section Signers

variable {Transaction : Type}

/-- The account that signs a transaction and those that cosign it. -/
def signers : SignedTransaction Transaction → List Account
  | .simple transaction => [transaction.signer]
  | .aggregate aggregate => aggregate.signer :: aggregate.cosignatures
  | .lockFunds lock => [lock.signer]

def innerSigners : SignedTransaction Transaction → List PublicAccount
  | .aggregate aggregate => aggregate.innerTransactions.map InnerTransaction.signer
  | _ => []

/-- A transaction is signed by the announcer or, where that is a multisig account, by different
cosigners of it, and it acts for the main account and the service provider alone. -/
structure Authorised (chain : Chain) (mainAccount : PublicAccount)
    (serviceProvider : Option PublicAccount) (transaction : SignedTransaction Transaction) :
    Prop where
  signers : (∀ account ∈ signers transaction,
      account.address = (serviceProvider.getD mainAccount).address) ∨
    ∃ info, getMultisigAccount chain (serviceProvider.getD mainAccount).address = some info ∧
      ((signers transaction).map fun account => account.address).Nodup ∧
      ∀ account ∈ signers transaction, account.address ∈ info.cosignatoryAddresses
  inner : ∀ signer ∈ innerSigners transaction,
    signer = mainAccount ∨ serviceProvider = some signer

/-- The hash lock of an authorised aggregate is authorised. -/
theorem Authorised.lockFunds {chain : Chain} {mainAccount : PublicAccount}
    {serviceProvider : Option PublicAccount} {aggregate : SignedAggregate Transaction}
    (h : Authorised chain mainAccount serviceProvider (.aggregate aggregate)) (network : Network)
    (request : Request) : Authorised chain mainAccount serviceProvider
      (.lockFunds (lockFunds network request aggregate) : SignedTransaction Transaction) where
  signers := by
    have hsigner : aggregate.signer ∈ AnnounceSigners.signers (.aggregate aggregate) :=
      List.mem_cons_self
    rcases h.signers with hsame | ⟨info, hinfo, -, hamong⟩
    · left
      intro account haccount
      rw [List.mem_singleton.mp haccount]
      exact hsame _ hsigner
    · refine Or.inr ⟨info, hinfo, by simp [AnnounceSigners.signers], ?_⟩
      intro account haccount
      rw [List.mem_singleton.mp haccount]
      exact hamong _ hsigner
  inner := fun _ h => absurd h List.not_mem_nil

variable {sdk : SymbolSdk} {networkType : NetworkType}

/-- A resolved account has the address of the account that was asked for. -/
theorem Resolved.address (hsdk : sdk.Lawful) {account : Account} {known : ConfigAccount}
    (h : Resolved sdk networkType account known) {publicAccount : PublicAccount}
    (hpublic : sdk.createFromPublicKey known.publicKey networkType = .ok publicAccount) :
    account.address = publicAccount.address := by
  obtain ⟨⟨privateKey, hcreated⟩, hsame⟩ := h
  obtain ⟨hupper, hfound⟩ := hsdk.publicKey_of_privateKey _ _ _ hcreated
  obtain ⟨-, -, hcapital⟩ := hsdk.publicKey_eq _ _ _ hpublic
  rw [← hsame, hupper] at hcapital
  have heq := Except.ok.inj (hfound.symm.trans hcapital)
  have haddress := congrArg PublicAccount.address heq
  exact haddress

variable {chain : Chain} {params : AnnounceParams} {minFeeMultiplier : ℕ}
  {multisigAccountInfo : MultisigAccountInfo} {mainAccount : PublicAccount}
  {serviceProvider : Option PublicAccount} {transactions : List (InnerTransaction Transaction)}
  {entries : List Entry} {aggregate : SignedAggregate Transaction}

theorem announceMultisig_inner
    (h : announceMultisig sdk chain params minFeeMultiplier multisigAccountInfo mainAccount
      serviceProvider transactions entries = .ok (.signed aggregate)) :
    aggregate.innerTransactions = transactions := by
  obtain ⟨accounts, hreturn, -⟩ := exists_returned h
  obtain ⟨run, hrun, hannounced⟩ : ∃ run, announceMultisig sdk chain params minFeeMultiplier
      multisigAccountInfo mainAccount serviceProvider transactions entries = .ok run ∧
      AnnouncedWith chain params multisigAccountInfo serviceProvider transactions accounts run :=
    announceMultisig_returned hreturn
  cases hrun.symm.trans h
  by_cases hcurrency : ∃ account ∈ accounts, holdsCurrency chain params account = true
  · obtain ⟨_, heq, -, hinner, -⟩ := hannounced.signed hcurrency
    cases heq
    exact hinner
  · cases hannounced.nothing (by simpa using hcurrency)

/-- The aggregate of a multisig announcer is signed by cosigners that were entered. -/
theorem authorised_multisig
    (hinfo : getMultisigAccount chain (serviceProvider.getD mainAccount).address =
      some multisigAccountInfo)
    (hinner : ∀ transaction ∈ transactions,
      transaction.signer = mainAccount ∨ serviceProvider = some transaction.signer)
    (h : announceMultisig sdk chain params minFeeMultiplier multisigAccountInfo mainAccount
      serviceProvider transactions entries = .ok (.signed aggregate)) :
    Authorised chain mainAccount serviceProvider (.aggregate aggregate) where
  signers := by
    obtain ⟨accounts, hreturn, hsigned⟩ := exists_returned h
    obtain ⟨hfound, hmultisig⟩ := Option.filter_eq_some_iff.mp hinfo
    have hminApproval : 1 ≤ multisigAccountInfo.minApproval := by
      simp only [MultisigAccountInfo.isMultisig, Bool.and_eq_true, bne_iff_ne] at hmultisig
      omega
    have hentered := promptAccounts_entered (chain.sound _ _ hfound).nodup hminApproval hreturn
    refine Or.inr ⟨multisigAccountInfo, hinfo, ?_, ?_⟩
    · exact (hsigned.cosigned.map _).nodup_iff.mpr hentered.distinct
    · exact fun account haccount => hentered.among account (hsigned.cosigned.subset haccount)
  inner := by
    intro signer hsigner
    obtain ⟨transaction, htransaction, rfl⟩ := List.mem_map.mp hsigner
    exact hinner transaction (announceMultisig_inner h ▸ htransaction)

/-- Where one account signs alone, it has to be the announcer. -/
theorem authorised_alone {transaction : SignedTransaction Transaction} {account : Account}
    (hsigners : signers transaction = [account])
    (haddress : account.address = (serviceProvider.getD mainAccount).address)
    (hinner : ∀ signer ∈ innerSigners transaction,
      signer = mainAccount ∨ serviceProvider = some signer) :
    Authorised chain mainAccount serviceProvider transaction where
  signers := by
    left
    intro other hother
    rw [hsigners, List.mem_singleton] at hother
    rw [hother, haddress]
  inner := hinner

/-- The service provider can be read again by its public key. -/
theorem serviceProviderOf_some (hsdk : sdk.Lawful) {provider : PublicAccount}
    (h : serviceProviderOf sdk params = .ok (some provider)) :
    sdk.createFromPublicKey provider.publicKey params.networkType = .ok provider := by
  unfold serviceProviderOf at h
  split at h
  · obtain ⟨account, haccount, hpure⟩ := Throwing.bind_ok.mp h
    cases hpure
    rw [(hsdk.publicKey_eq _ _ _ haccount).1]
    exact haccount
  · cases h

/-- What is announced for a node is the main account's, with a transfer of the service
provider. -/
theorem announceNode_inner {nodeAccount : NodeAccount}
    {createTransactions : TransactionFactoryParams → Except String (List Transaction)}
    (hmain : mainAccountOf sdk params nodeAccount = .ok mainAccount)
    (hprovider : serviceProviderOf sdk params = .ok serviceProvider)
    (h : announceNode sdk chain params nodeAccount createTransactions =
      .ok (.announced transactions)) :
    ∀ transaction ∈ transactions,
      transaction.signer = mainAccount ∨ serviceProvider = some transaction.signer := by
  obtain ⟨main, hmain', h⟩ := Throwing.bind_ok.mp h
  cases hmain.symm.trans hmain'
  obtain ⟨provider, hprovider', h⟩ := Throwing.bind_ok.mp h
  cases hprovider.symm.trans hprovider'
  obtain ⟨announcer, -, h⟩ := Throwing.bind_ok.mp h
  split at h
  · cases h
  · split at h
    · cases h
    · obtain ⟨factoryParams, -, h⟩ := Throwing.bind_ok.mp h
      obtain ⟨created, -, h⟩ := Throwing.bind_ok.mp h
      split at h
      · cases h
      · cases h
        intro transaction htransaction
        rcases List.mem_append.mp htransaction with hcreated | hzero
        · obtain ⟨_, -, rfl⟩ := List.mem_map.mp hcreated
          exact Or.inl rfl
        · obtain ⟨account, haccount, rfl⟩ := List.mem_map.mp hzero
          exact Or.inr (Option.mem_toList.mp haccount)

end Signers

section Authorised

variable {Transaction : Type} {sdk : SymbolSdk} {world : World Transaction}
  {modification : Transaction → Option MultisigModification}
  {createTransactions : List (Event Transaction) → TransactionFactoryParams →
    Except String (List Transaction)}
  {network : Network} {request : Request} {P : SignedTransaction Transaction → Prop}

/-- Every question and announcement is about a transaction with `P`. -/
def Concerns (P : SignedTransaction Transaction → Prop) (history : List (Event Transaction)) :
    Prop :=
  ∀ event ∈ history, P event.transaction

theorem concerns_concat {history : List (Event Transaction)} {event : Event Transaction}
    (h : Concerns P history) (hevent : P event.transaction) : Concerns P (history ++ [event]) := by
  intro other hother
  rcases List.mem_append.mp hother with hin | hin
  · exact h other hin
  · rw [List.mem_singleton.mp hin]
    exact hevent

def KeepsTo {α : Type} (P : SignedTransaction Transaction → Prop)
    (m : Announcing Transaction α) : Prop :=
  Triple (Concerns P) (Concerns P) (Concerns P) m fun _ => Concerns P

theorem keepsTo_lift {α β : Type} {result : Except Stop α} {k : α → Announcing Transaction β}
    (h : ∀ a, result = .ok a → KeepsTo P (k a)) :
    KeepsTo P ((liftM result : Announcing Transaction α) >>= k) := by
  refine .bind (Q := fun a history => result = .ok a ∧ Concerns P history)
    (.lift (fun _ h => ⟨h, h⟩) fun _ _ h ha => ⟨ha, h⟩) fun a => ?_
  exact .at fun now hnow => (h a hnow.1).weaken (fun _ heq => heq ▸ hnow.2) fun _ _ h => h

theorem keepsTo_pure {α : Type} (a : α) : KeepsTo P (pure a : Announcing Transaction α) :=
  .pure fun _ h => ⟨h, h⟩

theorem keepsTo_history {α : Type} {k : List (Event Transaction) → Announcing Transaction α}
    (h : ∀ now, KeepsTo P (k now)) : KeepsTo P (history >>= k) :=
  .bind (Q := fun _ => Concerns P) (.history fun _ h => ⟨h, h⟩) h

theorem keepsTo_emit {event : Event Transaction} (h : P event.transaction) :
    KeepsTo P (emit event : Announcing Transaction Unit) :=
  .emit (fun _ h => h) fun _ hhistory => ⟨concerns_concat hhistory h, concerns_concat hhistory h⟩

theorem shouldAnnounce_keepsTo {transaction : SignedTransaction Transaction} (h : P transaction) :
    KeepsTo P (shouldAnnounce world request transaction) := by
  unfold shouldAnnounce
  split
  · exact keepsTo_pure true
  · exact keepsTo_history fun _ => .bind (keepsTo_emit h) fun _ => keepsTo_pure _

theorem announceSigned_keepsTo {transaction : SignedTransaction Transaction} (h : P transaction) :
    KeepsTo P (announceSigned world request transaction) := by
  refine .bind (shouldAnnounce_keepsTo h) fun response => ?_
  cases response with
  | false => exact keepsTo_pure ()
  | true => exact keepsTo_history fun _ => keepsTo_emit h

theorem announceLocked_keepsTo {aggregate : SignedAggregate Transaction}
    (hlock : P (.lockFunds (lockFunds network request aggregate))) (h : P (.aggregate aggregate)) :
    KeepsTo P (announceLocked world network request aggregate) := by
  refine .bind (shouldAnnounce_keepsTo hlock) fun response => ?_
  cases response with
  | false => exact keepsTo_pure ()
  | true =>
    refine .bind (shouldAnnounce_keepsTo h) fun response => ?_
    cases response with
    | false => exact keepsTo_pure ()
    | true =>
      refine keepsTo_history fun now => .bind (keepsTo_emit hlock) fun _ => ?_
      split
      · exact keepsTo_history fun _ => keepsTo_emit h
      · exact keepsTo_pure ()

theorem announceAggregate_keepsTo {aggregate : SignedAggregate Transaction}
    (hlock : P (.lockFunds (lockFunds network request aggregate))) (h : P (.aggregate aggregate)) :
    KeepsTo P (announceAggregate world network request aggregate) := by
  unfold announceAggregate
  cases aggregate.type with
  | complete => exact announceSigned_keepsTo h
  | bonded => exact announceLocked_keepsTo hlock h

variable (sdk world request) in
/-- The account resolver gives accounts that fit what it is asked for. -/
def ResolvesRight : Prop :=
  ∀ history known account, Fits sdk request.networkType known →
    world.resolveAccount history known = .ok account →
      Resolved sdk request.networkType account known

variable (sdk world) in
/-- A transaction that is authorised for a node. -/
def ForNode (params : AnnounceParams) (nodeAccount : NodeAccount)
    (transaction : SignedTransaction Transaction) : Prop :=
  ∃ mainAccount serviceProvider, mainAccountOf sdk params nodeAccount = .ok mainAccount ∧
    serviceProviderOf sdk params = .ok serviceProvider ∧
    ∃ history, Authorised (world.chain history) mainAccount serviceProvider transaction

variable {params : AnnounceParams} {nodeAccount : NodeAccount} {mainAccount : PublicAccount}
  {transactions : List (InnerTransaction Transaction)}

/-- A transaction of the signer alone, with its hash lock if it has one. -/
theorem announceAlone_keepsTo
    (hP : ∀ transaction, ForNode sdk world params nodeAccount transaction → P transaction)
    {serviceProvider : Option PublicAccount}
    (hmain : mainAccountOf sdk params nodeAccount = .ok mainAccount)
    (hprovider : serviceProviderOf sdk params = .ok serviceProvider) {account : Account}
    (haddress : account.address = (serviceProvider.getD mainAccount).address)
    (hinner : ∀ transaction ∈ transactions,
      transaction.signer = mainAccount ∨ serviceProvider = some transaction.signer)
    {aggregate : SignedAggregate Transaction} (hsigner : aggregate.signer = account)
    (hcosignatures : aggregate.cosignatures = [])
    (htransactions : aggregate.innerTransactions = transactions) :
    KeepsTo P (announceAggregate world network request aggregate) := by
  have hauthorised : Authorised (world.chain []) mainAccount serviceProvider
      (.aggregate aggregate) := by
    refine authorised_alone (by rw [signers, hsigner, hcosignatures]) haddress ?_
    intro signer hmem
    obtain ⟨transaction, htransaction, rfl⟩ := List.mem_map.mp hmem
    exact hinner transaction (htransactions ▸ htransaction)
  exact announceAggregate_keepsTo
    (hP _ ⟨mainAccount, serviceProvider, hmain, hprovider, [],
      hauthorised.lockFunds network request⟩)
    (hP _ ⟨mainAccount, serviceProvider, hmain, hprovider, [], hauthorised⟩)

theorem announceMain_keepsTo
    (hP : ∀ transaction, ForNode sdk world params nodeAccount transaction → P transaction)
    (hsdk : sdk.Lawful) (hright : ResolvesRight sdk world request)
    (hparams : params.networkType = request.networkType)
    (hfits : Fits sdk request.networkType nodeAccount.main)
    (hmain : mainAccountOf sdk params nodeAccount = .ok mainAccount)
    (hprovider : serviceProviderOf sdk params = .ok none)
    (hinner : ∀ transaction ∈ transactions,
      transaction.signer = mainAccount ∨ none = some transaction.signer)
    (now : List (Event Transaction)) (mainPrivateKey : Option String) :
    KeepsTo P (announceMain sdk world modification network request params now mainPrivateKey
      mainAccount nodeAccount.main transactions) := by
  refine keepsTo_lift fun signerAccount hsigner => ?_
  have haddress : signerAccount.address = mainAccount.address := by
    have hresolved : ∀ account, world.resolveAccount now nodeAccount.main = .ok account →
        account.address = mainAccount.address := by
      intro account haccount
      refine Resolved.address hsdk (hright now _ account hfits haccount) ?_
      rw [← hparams]
      exact hmain
    unfold resolveMainAccount at hsigner
    split at hsigner
    · obtain ⟨account, -, hrest⟩ := Throwing.bind_ok.mp hsigner
      split at hrest
      · rename_i hsame
        cases hrest
        exact hsame
      · exact hresolved _ hrest
    · exact hresolved _ hsigner
  split
  · split
    · exact announceAlone_keepsTo hP hmain hprovider haddress hinner rfl rfl rfl
    · refine announceSigned_keepsTo (hP _ ⟨mainAccount, none, hmain, hprovider, [], ?_⟩)
      exact authorised_alone rfl haddress fun _ h => absurd h List.not_mem_nil
  · exact announceAlone_keepsTo hP hmain hprovider haddress hinner rfl rfl rfl

theorem announceNodeAccount_keepsTo
    (hP : ∀ transaction, ForNode sdk world params nodeAccount transaction → P transaction)
    (hsdk : sdk.Lawful)
    (hright : ResolvesRight sdk world request)
    (hparams : params.networkType = request.networkType)
    (hfits : Fits sdk request.networkType nodeAccount.main) (mainPrivateKey : Option String) :
    KeepsTo P (announceNodeAccount sdk world modification createTransactions network request params
      mainPrivateKey nodeAccount) := by
  refine keepsTo_history fun now => keepsTo_lift fun run hrun => ?_
  cases run with
  | announced transactions =>
    refine keepsTo_lift fun mainAccount hmain => keepsTo_lift fun serviceProvider hprovider => ?_
    have hmain := ofSdk_ok.mp hmain
    have hprovider := ofSdk_ok.mp hprovider
    have hinner := announceNode_inner hmain hprovider (ofSdk_ok.mp hrun)
    simp only
    split
    · rename_i info hinfo
      refine keepsTo_lift fun multisigRun hmultisig => ?_
      cases multisigRun with
      | prompting prompted => exact .stop fun _ h => ⟨h, h⟩
      | noCosigner => exact keepsTo_pure ()
      | signed aggregate =>
        have hauthorised := authorised_multisig hinfo hinner (ofSdk_ok.mp hmultisig)
        exact announceAggregate_keepsTo
          (hP _ ⟨mainAccount, serviceProvider, hmain, hprovider, now,
            hauthorised.lockFunds network request⟩)
          (hP _ ⟨mainAccount, serviceProvider, hmain, hprovider, now, hauthorised⟩)
    · cases serviceProvider with
      | some provider =>
        refine keepsTo_lift fun account haccount => ?_
        have hresolved := hright now _ account fits_unknown haccount
        have hread := serviceProviderOf_some hsdk hprovider
        rw [hparams] at hread
        exact announceAlone_keepsTo hP hmain hprovider (Resolved.address hsdk hresolved hread)
          hinner rfl rfl rfl
      | none =>
        exact announceMain_keepsTo hP hsdk hright hparams hfits hmain hprovider hinner now
          mainPrivateKey
  | notValid account => exact keepsTo_pure ()
  | notEnoughCurrency account => exact keepsTo_pure ()
  | nothingToAnnounce => exact keepsTo_pure ()

variable {connect : Except String Network} {nodes : List NodeAccount}

/-- Nothing comes before the nodes but what can be read without an event. -/
theorem announce_keepsTo
    (hnode : ∀ network currencyMosaicId, connect = .ok network →
      network.currencyMosaicId = some currencyMosaicId → isOtherNetwork network request = false →
      ∀ nodeAccount ∈ nodes, ∀ mainPrivateKey, KeepsTo P (announceNodeAccount sdk world modification
        createTransactions network request (announceParams network request currencyMosaicId)
        mainPrivateKey nodeAccount)) :
    KeepsTo P (announce sdk world modification createTransactions request connect nodes) := by
  unfold announce
  split
  · exact keepsTo_pure ()
  · refine keepsTo_lift fun network hnetwork => ?_
    split
    · exact .stop fun _ h => ⟨h, h⟩
    · rename_i currencyMosaicId hmosaic
      split
      · exact .stop fun _ h => ⟨h, h⟩
      · rename_i hother
        refine .forEach (fun _ h => h) fun entry hentry => ?_
        exact hnode network currencyMosaicId (ofSdk_ok.mp hnetwork) hmosaic
          (Bool.not_eq_true _ ▸ hother) entry.1 (List.fst_mem_of_mem_zipIdx hentry) _

end Authorised

section Runs

variable {Transaction : Type} {sdk : SymbolSdk} {world : World Transaction}

/-- `BootstrapAccountResolver` asks for the keys that are not known. -/
def promptingResolver (sdk : SymbolSdk) (networkType : NetworkType)
    (entries : List (Event Transaction) → List String) (history : List (Event Transaction))
    (known : ConfigAccount) : Except Stop Account :=
  (resolveAccount sdk networkType (fun _ => known) (fun _ _ => entries history) 0 []).2

theorem promptingResolver_right (hsdk : sdk.Lawful) {request : Request}
    {entries : List (Event Transaction) → List String}
    (h : world.resolveAccount = promptingResolver sdk request.networkType entries) :
    ResolvesRight sdk world request := by
  intro history known account hfits haccount
  rw [h] at haccount
  have hkeeps := @resolveAccount_session sdk request.networkType (fun _ => known)
    (fun _ _ => entries history) hsdk 0
  exact (hkeeps.returned ⟨session_nil fun _ => hfits, trivial⟩ haccount).2

end Runs

/-- A node whose main account is turned into a multisig account. -/
def peerAccount : NodeAccount where
  name := "node-0"
  friendlyName := "node-0"
  roles := "Peer"
  main := unknownPeer
  transport := ⟨none, peerTransport.publicKey, peerTransport.address⟩
  remote := none
  vrf := none

/-- Everything is accepted and confirmed, and the main key is entered. -/
def acceptingWorld : World Unit where
  chain _ := holderChain (some peerMain.address)
  response _ _ := true
  confirms _ _ := true
  cosigners _ := []
  resolveAccount := promptingResolver knownSdk 152 fun _ => peerEntries

def peerNetwork : Network := ⟨some "ab", some "5ECF396E439048D4", 6, 100, 1, 0⟩

def peerRequest : Request := ⟨152, none, none, false, some "AB", [none]⟩

/-- One cosigner is added. -/
def oneAddition : Unit → Option MultisigModification := fun _ => some ⟨1, 1⟩

end SymbolBootstrap.AnnounceSigners
