import SymbolBootstrap.NemesisBalances

/-!
AnnounceService.ts: the transactions of one node. A transaction factory is asked for
transactions, and these are announced as transactions of the node's main account. With a
service provider, the account that the factory is told about is the service provider.

The chain is what its REST gateway answers; an answer that fails is one that is missing.
The multisig accounts of a chain are sound, so no other chain can be built. How the
signing accounts are found and the transactions sent comes after this.
-/
namespace SymbolBootstrap.AnnounceService

open ConfigurationUtils NemesisBalances

/-- Addresses are in their plain form. -/
abbrev Address := String

structure MultisigAccountInfo where
  minApproval : ℕ
  minRemoval : ℕ
  cosignatoryAddresses : List Address
deriving DecidableEq, Repr

namespace MultisigAccountInfo

def isMultisig (info : MultisigAccountInfo) : Bool :=
  info.minRemoval != 0 && info.minApproval != 0

/-- What the network keeps up for every account that it knows as multisig or cosigner. -/
structure Sound (info : MultisigAccountInfo) : Prop where
  nodup : info.cosignatoryAddresses.Nodup
  minApproval_le : info.minApproval ≤ info.cosignatoryAddresses.length
  minRemoval_le : info.minRemoval ≤ info.cosignatoryAddresses.length
  thresholds : info.cosignatoryAddresses ≠ [] → 1 ≤ info.minApproval ∧ 1 ≤ info.minRemoval

end MultisigAccountInfo

/-- Amounts by mosaic id. -/
structure AccountInfo where
  mosaics : List (String × ℕ)
deriving DecidableEq, Repr

structure Chain where
  getAccountInfo : Address → Option AccountInfo
  getMultisigAccountInfo : Address → Option MultisigAccountInfo
  sound : ∀ address info, getMultisigAccountInfo address = some info → info.Sound

/-- `TransactionUtils.getMultisigAccount`. -/
def getMultisigAccount (chain : Chain) (accountAddress : Address) :
    Option MultisigAccountInfo :=
  (chain.getMultisigAccountInfo accountAddress).filter MultisigAccountInfo.isMultisig

structure TransactionFactoryParams where
  networkType : NetworkType
  nodeAccount : NodeAccount
  mainAccountInfo : Option AccountInfo
  latestFinalizedBlockEpoch : ℕ
  mainAccount : PublicAccount
  deadline : ℕ
  maxFee : ℕ
deriving DecidableEq, Repr

/-- What `announce` is called with or has asked the network for before it comes to the
nodes. -/
structure AnnounceParams where
  networkType : NetworkType
  serviceProviderPublicKey : Option String
  currencyMosaicId : String
  latestFinalizedBlockEpoch : ℕ
  deadline : ℕ
  providedMaxFee : Option ℕ
deriving DecidableEq, Repr

def isAccountEmpty (mainAccountInfo : AccountInfo) (currencyMosaicId : String) : Bool :=
  match mainAccountInfo.mosaics.find? (fun m => m.1 == currencyMosaicId) with
  | some mosaic => mosaic.2 < 1
  | none => true

/-- A transaction and the account that it is a transaction of, as `toAggregate` pairs them. -/
inductive InnerTransaction (Transaction : Type)
  | created (transaction : Transaction) (signer : PublicAccount)
  | zeroAmount (signer : PublicAccount)
deriving DecidableEq, Repr

def InnerTransaction.signer {Transaction : Type} : InnerTransaction Transaction → PublicAccount
  | .created _ signer => signer
  | .zeroAmount signer => signer

inductive NodeRun (Transaction : Type)
  | notValid (announcerPublicAccount : PublicAccount)
  | notEnoughCurrency (announcerPublicAccount : PublicAccount)
  | nothingToAnnounce
  | announced (transactions : List (InnerTransaction Transaction))
deriving DecidableEq, Repr

section Announce

variable (sdk : SymbolSdk) (chain : Chain) (params : AnnounceParams) (nodeAccount : NodeAccount)

def mainAccountOf : Except String PublicAccount :=
  sdk.createFromPublicKey nodeAccount.main.publicKey params.networkType

def serviceProviderOf : Except String (Option PublicAccount) :=
  match given params.serviceProviderPublicKey with
  | some publicKey => return some (← sdk.createFromPublicKey publicKey params.networkType)
  | none => return none

/-- The account that pays for the announcement. -/
def announcerOf : Except String PublicAccount := do
  let mainAccount ← mainAccountOf sdk params nodeAccount
  let serviceProviderPublicAccount ← serviceProviderOf sdk params
  return serviceProviderPublicAccount.getD mainAccount

/-- The parameters that a node's transactions are created with. -/
def factoryParams : Except String TransactionFactoryParams := do
  let mainAccount ← mainAccountOf sdk params nodeAccount
  let announcerPublicAccount ← announcerOf sdk params nodeAccount
  return { networkType := params.networkType
           nodeAccount := nodeAccount
           mainAccountInfo := chain.getAccountInfo mainAccount.address
           latestFinalizedBlockEpoch := params.latestFinalizedBlockEpoch
           mainAccount := announcerPublicAccount
           deadline := params.deadline
           maxFee := params.providedMaxFee.getD 0 }

variable {Transaction : Type}
  (createTransactions : TransactionFactoryParams → Except String (List Transaction))

/-- The body of the loop over the nodes. The main account is signer of whatever the
factory creates; a service provider adds a transfer of its own. -/
def announceNode : Except String (NodeRun Transaction) := do
  let mainAccount ← mainAccountOf sdk params nodeAccount
  let serviceProviderPublicAccount ← serviceProviderOf sdk params
  let announcerPublicAccount ← announcerOf sdk params nodeAccount
  match chain.getAccountInfo announcerPublicAccount.address with
  | none => return .notValid announcerPublicAccount
  | some announcerAccountInfo =>
      if isAccountEmpty announcerAccountInfo params.currencyMosaicId then
        return .notEnoughCurrency announcerPublicAccount
      else do
        let factoryParams ← factoryParams sdk chain params nodeAccount
        let transactions ← createTransactions factoryParams
        if transactions.isEmpty then return .nothingToAnnounce
        else
          return .announced
            (transactions.map (fun t => .created t mainAccount) ++
              serviceProviderPublicAccount.toList.map .zeroAmount)

end Announce
end SymbolBootstrap.AnnounceService
