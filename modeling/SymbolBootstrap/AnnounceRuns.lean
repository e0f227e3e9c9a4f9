import Mathlib.Algebra.GroupWithZero.Nat
import SymbolBootstrap.BootstrapAccountResolver
import SymbolBootstrap.CosignerEntry

/-!
`announce` for all nodes, up to what is handed to the network. A transaction is announced after
it was accepted, an aggregate bonded also after the hash lock that pays for it was confirmed.

The answers of the user, of the chain and of the account resolver depend on what has been asked
and announced before, so that they can be any. A node is left alone by what goes wrong while
another's transactions are announced; what is thrown ends the run.
-/
namespace SymbolBootstrap.AnnounceRuns

open Library.CaseMapping Library.Traces ConfigurationUtils NemesisBalances AnnounceService
  CosignerEntry BootstrapAccountResolver

section Data

variable (Transaction : Type)

/-- A transaction that is announced as it is. Where no fee was provided, the node's multiplier
sets it. -/
structure SignedSimple where
  transaction : Transaction
  minFeeMultiplier : Option ℕ
  signer : Account
deriving DecidableEq, Repr

/-- `LockFundsTransaction`, for the hash of an aggregate. -/
structure SignedLockFunds where
  amount : ℕ
  duration : ℕ
  signedTransaction : SignedAggregate Transaction
  minFeeMultiplier : Option ℕ
  signer : Account
deriving DecidableEq, Repr

inductive SignedTransaction
  | simple (transaction : SignedSimple Transaction)
  | aggregate (transaction : SignedAggregate Transaction)
  | lockFunds (transaction : SignedLockFunds Transaction)
deriving DecidableEq, Repr

inductive Event
  | asked (transaction : SignedTransaction Transaction) (response : Bool)
  | announced (transaction : SignedTransaction Transaction) (confirmed : Bool)
deriving DecidableEq, Repr

/-- What is read of a `MULTISIG_ACCOUNT_MODIFICATION`. -/
structure MultisigModification where
  addressAdditions : ℕ
  minApprovalDelta : ℤ

/-- Whoever is asked during a run. -/
structure World where
  chain : List (Event Transaction) → Chain
  response : List (Event Transaction) → SignedTransaction Transaction → Bool
  confirms : List (Event Transaction) → SignedTransaction Transaction → Bool
  cosigners : List (Event Transaction) → List Entry
  resolveAccount : List (Event Transaction) → ConfigAccount → Except Stop Account

/-- What is known of the network before it comes to the nodes. -/
structure Network where
  generationHash : Option String
  currencyMosaicId : Option String
  divisibility : ℕ
  minFeeMultiplier : ℕ
  latestFinalizedBlockEpoch : ℕ
  deadline : ℕ

/-- What is announced, and for which nodes of the preset: their `mainPrivateKey` is read. -/
structure Request where
  networkType : NetworkType
  serviceProviderPublicKey : Option String
  providedMaxFee : Option ℕ
  ready : Bool
  nemesisGenerationHashSeed : Option String
  nodes : List (Option String)

end Data

def Event.transaction {Transaction : Type} : Event Transaction → SignedTransaction Transaction
  | .asked transaction _ => transaction
  | .announced transaction _ => transaction

section Announce

variable {Transaction : Type} (sdk : SymbolSdk) (world : World Transaction)
  (modification : Transaction → Option MultisigModification)
  (createTransactions : List (Event Transaction) → TransactionFactoryParams →
    Except String (List Transaction))
  (network : Network) (request : Request)

abbrev Announcing (Transaction α : Type) := Traced (Event Transaction) Stop α

def shouldAnnounce (transaction : SignedTransaction Transaction) : Announcing Transaction Bool :=
  if request.ready then return true
  else do
    let history ← history
    let response := world.response history transaction
    emit (.asked transaction response)
    return response

/-- The end of `announceSimple` and of `announceAggregateComplete`. -/
def announceSigned (transaction : SignedTransaction Transaction) : Announcing Transaction Unit := do
  if ← shouldAnnounce world request transaction then
    let history ← history
    emit (.announced transaction (world.confirms history transaction))
  else return

/-- Without a provided fee the multiplier of the node is used. -/
def setMaxFee : Option ℕ :=
  match request.providedMaxFee.filter (· ≠ 0) with
  | some _ => none
  | none => some network.minFeeMultiplier

/-- `LockFundsTransaction.create`: ten of the currency for 5760 blocks. -/
def lockFunds (aggregate : SignedAggregate Transaction) : SignedLockFunds Transaction where
  amount := 10 * 10 ^ network.divisibility
  duration := 5760
  signedTransaction := aggregate
  minFeeMultiplier := setMaxFee network request
  signer := aggregate.signer

/-- The end of `announceAggregateBonded`. -/
def announceLocked (aggregate : SignedAggregate Transaction) : Announcing Transaction Unit := do
  let lock := SignedTransaction.lockFunds (lockFunds network request aggregate)
  if ← shouldAnnounce world request lock then
    if ← shouldAnnounce world request (.aggregate aggregate) then
      let history ← history
      let confirmed := world.confirms history lock
      emit (.announced lock confirmed)
      if confirmed then
        let history ← Library.Traces.history
        emit (.announced (.aggregate aggregate) (world.confirms history (.aggregate aggregate)))
      else return
    else return
  else return

def announceAggregate (aggregate : SignedAggregate Transaction) : Announcing Transaction Unit :=
  match aggregate.type with
  | .complete => announceSigned world request (.aggregate aggregate)
  | .bonded => announceLocked world network request aggregate

/-- What `announceNode` and `announceMultisig` are called with. -/
def announceParams (currencyMosaicId : String) : AnnounceParams where
  networkType := request.networkType
  serviceProviderPublicKey := request.serviceProviderPublicKey
  currencyMosaicId := currencyMosaicId
  latestFinalizedBlockEpoch := network.latestFinalizedBlockEpoch
  deadline := network.deadline
  providedMaxFee := request.providedMaxFee

def resolveMainAccount (history : List (Event Transaction)) (mainPrivateKey : Option String)
    (announcerPublicAccount : PublicAccount) (main : ConfigAccount) : Except Stop Account :=
  match given mainPrivateKey with
  | some presetMainPrivateKey => do
      let account ← ofSdk (sdk.createFromPrivateKey presetMainPrivateKey request.networkType)
      if account.address = announcerPublicAccount.address then return account
      else world.resolveAccount history main
  | none => world.resolveAccount history main

/-- The transactions of a service provider that is no multisig account. -/
def announceProvider (params : AnnounceParams) (history : List (Event Transaction))
    (mainAccount provider : PublicAccount) (transactions : List (InnerTransaction Transaction)) :
    Announcing Transaction Unit := do
  let signerAccount ← world.resolveAccount history ⟨none, provider.publicKey, provider.address⟩
  let mainMultisigAccountInfo := getMultisigAccount (world.chain history) mainAccount.address
  let requiredCosignatures := 1 + (mainMultisigAccountInfo.map (·.minApproval)).getD 0
  announceAggregate world network request (CosignerEntry.announceAggregateBonded params
    network.minFeeMultiplier (signerAccount, 0) transactions requiredCosignatures [])

/-- The transactions of a main account that is no multisig account. -/
def announceMain (params : AnnounceParams) (history : List (Event Transaction))
    (mainPrivateKey : Option String) (mainAccount : PublicAccount) (main : ConfigAccount)
    (transactions : List (InnerTransaction Transaction)) : Announcing Transaction Unit := do
  let signerAccount ← resolveMainAccount sdk world request history mainPrivateKey mainAccount main
  match transactions with
  | [.created transaction _] =>
      match modification transaction with
      | some multisigModificationTx =>
          let requiredCosignatures := multisigModificationTx.addressAdditions +
            multisigModificationTx.minApprovalDelta
          announceAggregate world network request (CosignerEntry.announceAggregateBonded params
            network.minFeeMultiplier (signerAccount, 0) transactions requiredCosignatures.toNat [])
      | none =>
          announceSigned world request
            (.simple ⟨transaction, setMaxFee network request, signerAccount⟩)
  | _ =>
      announceAggregate world network request (CosignerEntry.announceAggregateComplete params
        network.minFeeMultiplier (signerAccount, 0) transactions 0 [])

/-- The body of the loop over the nodes. -/
def announceNodeAccount (params : AnnounceParams) (mainPrivateKey : Option String)
    (nodeAccount : NodeAccount) : Announcing Transaction Unit := do
  let history ← history
  let chain := world.chain history
  match ← (ofSdk (announceNode sdk chain params nodeAccount (createTransactions history)) :
      Except Stop _) with
  | .announced transactions => do
      let mainAccount ← (ofSdk (mainAccountOf sdk params nodeAccount) : Except Stop _)
      let serviceProvider ← (ofSdk (serviceProviderOf sdk params) : Except Stop _)
      let announcer := serviceProvider.getD mainAccount
      match getMultisigAccount chain announcer.address with
      | some multisigAccountInfo =>
          match ← (ofSdk (announceMultisig sdk chain params network.minFeeMultiplier
              multisigAccountInfo mainAccount serviceProvider transactions
              (world.cosigners history)) : Except Stop _) with
          | .prompting _ => stop .waiting
          | .noCosigner => return
          | .signed aggregate => announceAggregate world network request aggregate
      | none =>
          match serviceProvider with
          | some provider =>
              announceProvider world network request params history mainAccount provider
                transactions
          | none =>
              announceMain sdk world modification network request params history mainPrivateKey
                mainAccount nodeAccount.main transactions
  | _ => return

/-- `generationHash?.toUpperCase() !== presetData.nemesisGenerationHashSeed?.toUpperCase()`. -/
def isOtherNetwork : Bool :=
  network.generationHash.map toUpperCase != request.nemesisGenerationHashSeed.map toUpperCase

/-- How an optional text is shown. -/
def shown (text : Option String) : String := text.getD "undefined"

def differs : String :=
  let expected := shown request.nemesisGenerationHashSeed
  let generationHash := shown network.generationHash
  s!"Expected generation hash is {expected} but got {generationHash}"

def announce (connect : Except String Network) (nodes : List NodeAccount) :
    Announcing Transaction Unit :=
  if request.nodes.isEmpty then return
  else do
    let network ← (ofSdk connect : Except Stop _)
    match network.currencyMosaicId with
    | none => stop (.failed "Mosaic Id must not be null!")
    | some currencyMosaicId =>
        if isOtherNetwork network request then
          stop (.failed s!"You are connecting to the wrong network. {differs network request}")
        else
          forEach nodes.zipIdx fun (nodeAccount, index) =>
            announceNodeAccount sdk world modification createTransactions network request
              (announceParams network request currencyMosaicId)
              request.nodes[index]?.join nodeAccount

end Announce

section Orderly

variable {Transaction : Type}

/-- What stands right before an announcement: the user's answers, or the hash lock of the
aggregate, which is confirmed. -/
def Follows (ready : Bool) (front : List (Event Transaction)) : SignedTransaction Transaction → Prop
  | .simple transaction => ready = true ∨ [.asked (.simple transaction) true] <:+ front
  | .lockFunds lock =>
      lock.signedTransaction.type = .bonded ∧ lock.signer = lock.signedTransaction.signer ∧
        (ready = true ∨ [.asked (.lockFunds lock) true,
          .asked (.aggregate lock.signedTransaction) true] <:+ front)
  | .aggregate aggregate =>
      match aggregate.type with
      | .complete => ready = true ∨ [.asked (.aggregate aggregate) true] <:+ front
      | .bonded => ∃ earlier lock, front = earlier ++ [.announced (.lockFunds lock) true] ∧
          lock.signedTransaction = aggregate

/-- The last event is a confirmed hash lock. -/
def Pending (history : List (Event Transaction)) (lock : SignedLockFunds Transaction) : Prop :=
  ∃ earlier, history = earlier ++ [.announced (.lockFunds lock) true]

/-- An announcement follows what it needs, and nothing comes between a confirmed hash lock and
the announcement of its aggregate. -/
def Allowed (ready : Bool) (front : List (Event Transaction)) (event : Event Transaction) : Prop :=
  (∀ transaction confirmed, event = .announced transaction confirmed →
    Follows ready front transaction) ∧
  ∀ lock, Pending front lock →
    ∃ confirmed, event = .announced (.aggregate lock.signedTransaction) confirmed

/-- Everything that happened was allowed, and no hash lock waits for its aggregate. -/
def Settled (ready : Bool) (history : List (Event Transaction)) : Prop :=
  Always (Allowed ready) history ∧ ∀ lock, ¬ Pending history lock

variable {ready : Bool} {history : List (Event Transaction)}

theorem settled_nil : Settled ready ([] : List (Event Transaction)) := by
  refine ⟨always_nil, ?_⟩
  rintro lock ⟨earlier, h⟩
  cases earlier <;> cases h

theorem pending_concat {event : Event Transaction} {lock : SignedLockFunds Transaction} :
    Pending (history ++ [event]) lock ↔ event = .announced (.lockFunds lock) true := by
  constructor
  · rintro ⟨earlier, h⟩
    exact List.singleton_injective (List.append_inj' h rfl).2
  · rintro rfl
    exact ⟨history, rfl⟩

theorem Settled.asked (h : Settled ready history) (transaction : SignedTransaction Transaction)
    (response : Bool) : Settled ready (history ++ [.asked transaction response]) := by
  refine ⟨always_concat.mpr ⟨h.1, ?_, fun lock hlock => absurd hlock (h.2 lock)⟩, ?_⟩
  · intro other confirmed hevent
    cases hevent
  · intro lock hlock
    cases pending_concat.mp hlock

theorem Settled.announced (h : Settled ready history)
    {transaction : SignedTransaction Transaction} (hfollows : Follows ready history transaction)
    (confirmed : Bool) :
    Always (Allowed ready) (history ++ [.announced transaction confirmed]) := by
  refine always_concat.mpr ⟨h.1, ?_, fun lock hlock => absurd hlock (h.2 lock)⟩
  rintro _ _ ⟨⟩
  exact hfollows

/-- What is no confirmed hash lock leaves nothing to wait for. -/
theorem settled_announced {transaction : SignedTransaction Transaction} {confirmed : Bool}
    (h : Always (Allowed ready) (history ++ [.announced transaction confirmed]))
    (hlock : confirmed = true → ∀ lock, transaction ≠ .lockFunds lock) :
    Settled ready (history ++ [.announced transaction confirmed]) := by
  refine ⟨h, ?_⟩
  intro lock hpending
  cases pending_concat.mp hpending
  exact hlock rfl lock rfl

/-- The aggregate of a confirmed hash lock. -/
theorem always_locked {lock : SignedLockFunds Transaction}
    (h : Always (Allowed ready) history) (hpending : Pending history lock)
    (htype : lock.signedTransaction.type = .bonded) (confirmed : Bool) :
    Always (Allowed ready)
      (history ++ [.announced (.aggregate lock.signedTransaction) confirmed]) := by
  obtain ⟨earlier, rfl⟩ := hpending
  refine always_concat.mpr ⟨h, ?_, ?_⟩
  · rintro _ _ ⟨⟩
    rw [Follows, htype]
    exact ⟨earlier, lock, rfl, rfl⟩
  · intro other hother
    cases pending_concat.mp hother
    exact ⟨confirmed, rfl⟩

end Orderly

section Announcements

variable {Transaction : Type} (sdk : SymbolSdk) (world : World Transaction)
  (modification : Transaction → Option MultisigModification)
  (createTransactions : List (Event Transaction) → TransactionFactoryParams →
    Except String (List Transaction))
  (network : Network) (request : Request)

/-- A run of `m` is orderly at every moment, and settled when it is over. -/
def Orderly (m : Announcing Transaction Unit) : Prop :=
  Triple (Always (Allowed request.ready)) (Settled request.ready) (Settled request.ready) m
    fun _ => Settled request.ready

/-- After some accepted questions, one more. -/
theorem shouldAnnounce_settled (asked : List (Event Transaction))
    (transaction : SignedTransaction Transaction) :
    Triple (Always (Allowed request.ready)) (Settled request.ready)
      (fun history => Settled request.ready history ∧
        (request.ready = true ∨ asked <:+ history))
      (shouldAnnounce world request transaction)
      (fun response history => Settled request.ready history ∧ (response = true →
        request.ready = true ∨ asked ++ [.asked transaction true] <:+ history)) := by
  unfold shouldAnnounce
  by_cases hready : request.ready = true
  · rw [if_pos hready]
    exact .pure fun history h => ⟨h.1.1, h.1, fun _ => Or.inl hready⟩
  · rw [if_neg hready]
    refine .bind (Q := fun _ history => Settled request.ready history ∧ asked <:+ history)
      (.history fun history h => ⟨h.1.1, h.1, h.2.resolve_left hready⟩) fun now => ?_
    refine .bind (Q := fun _ history => Settled request.ready history ∧
      (world.response now transaction = true → asked ++ [.asked transaction true] <:+ history))
      (.emit (fun _ h => h.1.1) ?_) ?_
    · rintro history ⟨hsettled, earlier, rfl⟩
      have hnext := hsettled.asked transaction (world.response now transaction)
      refine ⟨hnext.1, hnext, ?_⟩
      intro hresponse
      rw [hresponse]
      exact ⟨earlier, by rw [List.append_assoc]⟩
    · exact fun _ => .pure fun history h => ⟨h.1.1, h.1, fun hresponse => Or.inr (h.2 hresponse)⟩

theorem announceSigned_orderly {transaction : SignedTransaction Transaction}
    (hfollows : ∀ history, (request.ready = true ∨ [.asked transaction true] <:+ history) →
      Follows request.ready history transaction)
    (hlock : ∀ lock, transaction ≠ .lockFunds lock) :
    Orderly request (announceSigned world request transaction) := by
  refine .bind ((shouldAnnounce_settled world request [] transaction).weaken
    (fun history h => ⟨h, Or.inr List.nil_suffix⟩) fun _ _ h => h) fun response => ?_
  cases response with
  | false => exact .pure fun history h => ⟨h.1.1, h.1⟩
  | true =>
    refine .bind (Q := fun _ history => Settled request.ready history ∧
      Follows request.ready history transaction)
      (.history fun history h => ⟨h.1.1, h.1, hfollows history (h.2 rfl)⟩) fun now => ?_
    refine .emit (fun history h => h.1.1) ?_
    intro history h
    have hnext := h.1.announced h.2 (world.confirms now transaction)
    exact ⟨hnext, settled_announced hnext fun _ => hlock⟩

theorem announceLocked_orderly {aggregate : SignedAggregate Transaction}
    (htype : aggregate.type = .bonded) :
    Orderly request (announceLocked world network request aggregate) := by
  let lock := lockFunds network request aggregate
  refine .bind ((shouldAnnounce_settled world request [] (.lockFunds lock)).weaken
    (fun history h => ⟨h, Or.inr List.nil_suffix⟩) fun _ _ h => h) fun response => ?_
  cases response with
  | false => exact .pure fun history h => ⟨h.1.1, h.1⟩
  | true =>
    refine .bind ((shouldAnnounce_settled world request [.asked (.lockFunds lock) true]
      (.aggregate aggregate)).weaken (fun history h => ⟨h.1, h.2 rfl⟩) fun _ _ h => h)
      fun response => ?_
    cases response with
    | false => exact .pure fun history h => ⟨h.1.1, h.1⟩
    | true =>
      refine .bind (Q := fun _ history => Settled request.ready history ∧
        Follows request.ready history (.lockFunds lock))
        (.history fun history h => ⟨h.1.1, h.1, htype, rfl, h.2 rfl⟩) fun now => ?_
      simp only
      cases hconfirmed : world.confirms now (.lockFunds lock) with
      | false =>
        refine .bind (Q := fun _ => Settled request.ready) (.emit (fun history h => h.1.1) ?_)
          fun _ => .pure fun _ h => ⟨h.1, h⟩
        intro history h
        have hnext := h.1.announced h.2 false
        exact ⟨hnext, settled_announced hnext fun hfalse => absurd hfalse Bool.false_ne_true⟩
      | true =>
        refine .bind (Q := fun _ history => Always (Allowed request.ready) history ∧
          Pending history lock) (.emit (fun history h => h.1.1) ?_) fun _ => ?_
        · intro history h
          have hnext := h.1.announced h.2 true
          exact ⟨hnext, hnext, history, rfl⟩
        · refine .bind (Q := fun _ history => Always (Allowed request.ready) history ∧
            Pending history lock) (.history fun history h => ⟨h.1, h⟩) fun later => ?_
          refine .emit (fun history h => h.1) ?_
          intro history h
          have hnext := always_locked h.1 h.2 htype (world.confirms later (.aggregate aggregate))
          refine ⟨hnext, settled_announced hnext ?_⟩
          rintro - other ⟨⟩

theorem announceAggregate_orderly (aggregate : SignedAggregate Transaction) :
    Orderly request (announceAggregate world network request aggregate) := by
  unfold announceAggregate
  cases htype : aggregate.type with
  | complete =>
    refine announceSigned_orderly world request ?_ (by rintro lock ⟨⟩)
    intro history h
    rw [Follows, htype]
    exact h
  | bonded => exact announceLocked_orderly world network request htype

/-- What is asked of others without an event. -/
theorem orderly_lift {α : Type} (result : Except Stop α) {k : α → Announcing Transaction Unit}
    (h : ∀ a, Orderly request (k a)) :
    Orderly request ((liftM result : Announcing Transaction α) >>= k) := by
  exact .bind (Q := fun _ => Settled request.ready) (.lift (fun _ h => ⟨h.1, h⟩)
    fun _ _ h _ => h) h

theorem orderly_return : Orderly request (pure () : Announcing Transaction Unit) :=
  .pure fun _ h => ⟨h.1, h⟩

theorem orderly_stop (reason : Stop) :
    Orderly request (stop reason : Announcing Transaction Unit) :=
  .stop fun _ h => ⟨h.1, h⟩

theorem announceMain_orderly (params : AnnounceParams) (history : List (Event Transaction))
    (mainPrivateKey : Option String) (mainAccount : PublicAccount) (main : ConfigAccount)
    (transactions : List (InnerTransaction Transaction)) :
    Orderly request (announceMain sdk world modification network request params history
      mainPrivateKey mainAccount main transactions) := by
  refine orderly_lift request _ fun signerAccount => ?_
  split
  · split
    · exact announceAggregate_orderly world network request _
    · exact announceSigned_orderly world request (fun _ h => h) (by rintro lock ⟨⟩)
  · exact announceAggregate_orderly world network request _

theorem announceNodeAccount_orderly (params : AnnounceParams) (mainPrivateKey : Option String)
    (nodeAccount : NodeAccount) :
    Orderly request (announceNodeAccount sdk world modification createTransactions network request
      params mainPrivateKey nodeAccount) := by
  refine .bind (Q := fun _ => Settled request.ready) (.history fun history h => ⟨h.1, h⟩)
    fun now => ?_
  refine orderly_lift request _ fun run => ?_
  cases run with
  | announced transactions =>
    refine orderly_lift request _ fun mainAccount => ?_
    refine orderly_lift request _ fun serviceProvider => ?_
    simp only
    split
    · refine orderly_lift request _ fun multisigRun => ?_
      cases multisigRun with
      | prompting prompted => exact orderly_stop request _
      | noCosigner => exact orderly_return request
      | signed aggregate => exact announceAggregate_orderly world network request aggregate
    · split
      · exact orderly_lift request _ fun _ => announceAggregate_orderly world network request _
      · exact announceMain_orderly sdk world modification network request _ _ _ _ _ _
  | notValid account => exact orderly_return request
  | notEnoughCurrency account => exact orderly_return request
  | nothingToAnnounce => exact orderly_return request

theorem announce_orderly (connect : Except String Network) (nodes : List NodeAccount) :
    Orderly request
      (announce sdk world modification createTransactions request connect nodes) := by
  unfold announce
  split
  · exact orderly_return request
  · refine orderly_lift request _ fun network => ?_
    split
    · exact orderly_stop request _
    · split
      · exact orderly_stop request _
      · exact .forEach (fun history h => h.1) fun entry _ =>
          announceNodeAccount_orderly sdk world modification createTransactions network request
            _ _ entry.1

/-- In every run every announcement follows the answers that accept it, an aggregate bonded
follows its confirmed hash lock, and every confirmed hash lock is followed by its aggregate. -/
theorem announcements_in_order (connect : Except String Network) (nodes : List NodeAccount) :
    let run := announce sdk world modification createTransactions request connect nodes []
    Always (Allowed request.ready) run.1 ∧ ∀ lock, ¬ Pending run.1 lock :=
  (announce_orderly sdk world modification createTransactions request connect nodes).over
    settled_nil

end Announcements
end SymbolBootstrap.AnnounceRuns
