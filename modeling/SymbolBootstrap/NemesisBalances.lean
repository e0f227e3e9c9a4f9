import Mathlib.Algebra.Ring.Int.Defs
import SymbolBootstrap.ConfigurationUtils

/-!
`AddressesService.processNemesisBalances`: the accounts that the nemesis block gives a
balance in each mosaic. Amounts are exact integers. `toYaml` stands for the dump that
the error texts carry; the objects of the lists are taken as values, so the entry whose
amount is overwritten last is one entry of the resulting list.
-/
namespace SymbolBootstrap.NemesisBalances

open CryptoUtils ConfigurationUtils

structure CurrencyDistribution where
  address : String
  amount : ℤ
deriving DecidableEq, Repr

/-- `accounts: number | string[]`. -/
inductive RequestedAccounts
  | count (number : ℤ)
  | publicKeys (keys : List String)
deriving DecidableEq, Repr

structure MosaicPreset where
  name : String
  supply : ℤ
  accounts : RequestedAccounts
  currencyDistributions : List CurrencyDistribution
deriving DecidableEq, Repr

structure NemesisPreset where
  mosaics : Option (List MosaicPreset)
  nemesisSignerPrivateKey : Option String
deriving DecidableEq, Repr

structure NodePreset where
  name : Option String
  friendlyName : Option String
  roles : Option String
  syncsource : Bool
  api : Bool
  voting : Bool
  harvesting : Bool
  nodeUseRemoteAccount : Bool
  excludeFromNemesis : Bool
  balances : List ℤ
  mainPrivateKey : Option String
  mainPublicKey : Option String
  transportPrivateKey : Option String
  transportPublicKey : Option String
  remotePrivateKey : Option String
  remotePublicKey : Option String
  vrfPrivateKey : Option String
  vrfPublicKey : Option String
deriving DecidableEq, Repr

/-- The fields of the preset that the addresses service reads or writes. -/
structure ConfigPreset where
  preset : String
  networkType : NetworkType
  privateKeySecurityMode : Option String
  nemesisSeedFolder : Option String
  nemesisGenerationHashSeed : Option String
  sinkAddress : Option String
  harvestNetworkFeeSinkAddressV1 : Option String
  harvestNetworkFeeSinkAddress : Option String
  mosaicRentalFeeSinkAddressV1 : Option String
  mosaicRentalFeeSinkAddress : Option String
  namespaceRentalFeeSinkAddressV1 : Option String
  namespaceRentalFeeSinkAddress : Option String
  networkIdentifier : Option String
  networkName : Option String
  nemesisSignerPublicKey : Option String
  currencyMosaicId : Option String
  harvestingMosaicId : Option String
  maxHarvesterBalance : ℤ
  nodeUseRemoteAccount : Bool
  nodes : List NodePreset
  nemesis : Option NemesisPreset
deriving DecidableEq, Repr

structure NodeAccount where
  name : String
  friendlyName : String
  roles : String
  main : ConfigAccount
  transport : ConfigAccount
  remote : Option ConfigAccount
  vrf : Option ConfigAccount
deriving DecidableEq, Repr

structure MosaicAccounts where
  id : String
  name : String
  accounts : List ConfigAccount
deriving DecidableEq, Repr

section

variable (toYaml : List CurrencyDistribution → String)

/-- The check that `sum` makes on each entry, with the entry's index. -/
def checkAmount (distribution : List CurrencyDistribution) (mosaicName : String)
    (d : CurrencyDistribution) (index : ℕ) : Except String ℤ :=
  if d.amount < 0 then
    throw (s!"Nemesis distribution balance cannot be less than 0. Mosaic {mosaicName}, " ++
      s!"distribution address: {d.address}, amount: {d.amount}, index {index}. " ++
      s!"\nDistributions are:\n{toYaml distribution}")
  else return d.amount

def sum (distribution : List CurrencyDistribution) (mosaicName : String) : Except String ℤ := do
  let amounts ← distribution.zipIdx.mapM fun (d, index) =>
    checkAmount toYaml distribution mosaicName d index
  return amounts.sum

end

/-- `getBalance`: what the preset fixes for a node in a mosaic, if anything. -/
def getBalance (presetData : ConfigPreset) (mosaicIndex nodeIndex : ℕ) : Option ℤ :=
  match presetData.nodes[nodeIndex]? with
  | none => none
  | some node =>
    match node.balances[mosaicIndex]? with
    | some balance => some balance
    | none => if node.excludeFromNemesis then some 0 else none

/-- Number.MAX_SAFE_INTEGER. -/
def maxSafeInteger : ℤ := 9007199254740991

/-- The mosaic to which `maxHarvesterBalance` applies: the only one, or the second. -/
def IsHarvestingMosaic (mosaicsLength mosaicIndex : ℕ) : Prop :=
  (mosaicsLength = 1 ∧ mosaicIndex = 0) ∨ (mosaicsLength > 1 ∧ mosaicIndex = 1)

instance (mosaicsLength mosaicIndex : ℕ) :
    Decidable (IsHarvestingMosaic mosaicsLength mosaicIndex) :=
  inferInstanceAs (Decidable (_ ∨ _))

def getMaxHarvesterBalance (presetData : ConfigPreset) (mosaicsLength mosaicIndex : ℕ) : ℤ :=
  if IsHarvestingMosaic mosaicsLength mosaicIndex then presetData.maxHarvesterBalance
  else maxSafeInteger

/-- The distributions of the mosaic and the balances fixed for nodes. -/
def providedDistributions (presetData : ConfigPreset) (nodes : List NodeAccount)
    (mosaicIndex : ℕ) (m : MosaicPreset) : List CurrencyDistribution :=
  m.currencyDistributions ++ nodes.zipIdx.filterMap fun (node, index) =>
    (getBalance presetData mosaicIndex index).map fun balance => ⟨node.main.address, balance⟩

/-- The nodes that take part in the split of what remains. -/
def nodeMainAccounts (presetData : ConfigPreset) (nodes : List NodeAccount)
    (mosaicIndex : ℕ) : List NodeAccount :=
  (nodes.zipIdx.filter fun (_, index) => getBalance presetData mosaicIndex index = none).map
    Prod.fst

/-- The entries of the split: an equal share for each account, and for each node that
share up to what a harvester may hold. -/
def generatedAccounts (accounts : List ConfigAccount) (nodes : List NodeAccount)
    (maxHarvesterBalance amountPerAccount : ℤ) : List CurrencyDistribution :=
  (accounts.map fun a => ⟨a.address, amountPerAccount⟩) ++
    nodes.map fun n => ⟨n.main.address, min maxHarvesterBalance amountPerAccount⟩

/-- The end of the loop body: the amount of the first entry is set, and the entries have
to add up to the supply. -/
def assignRemainder (toYaml : List CurrencyDistribution → String) (m : MosaicPreset)
    (amount : ℤ) : List CurrencyDistribution → Except String (List CurrencyDistribution)
  | [] => throw "Cannot set properties of undefined (setting 'amount')"
  | first :: rest => do
      let currencyDistributions := { first with amount } :: rest
      let supplied ← sum toYaml currencyDistributions m.name
      if m.supply ≠ supplied then
        throw (s!"Invalid nemgen total supplied value, expected {m.supply} but total is " ++
          s!"{supplied}. \nDistributions are:\n{toYaml currencyDistributions}")
      return currencyDistributions

/-- The body of the loop for one mosaic whose accounts are there: its new
`currencyDistributions`. Without dynamic accounts the quotient is not a number in the
source and no entry takes it. -/
def distributeMosaic (toYaml : List CurrencyDistribution → String) (presetData : ConfigPreset)
    (nodes : List NodeAccount) (mosaicsLength mosaicIndex : ℕ) (m : MosaicPreset)
    (accounts : List ConfigAccount) : Except String (List CurrencyDistribution) := do
  let provided := providedDistributions presetData nodes mosaicIndex m
  let dynamicNodes := nodeMainAccounts presetData nodes mosaicIndex
  let providedSupply ← sum toYaml provided m.name
  let remainingSupply := m.supply - providedSupply
  if remainingSupply < 0 then
    throw (s!"Mosaic {m.name}'s fixed distributed supply {providedSupply} is grater than " ++
      s!"mosaic total supply {m.supply}")
  let dynamicAccounts := accounts.length + dynamicNodes.length
  let amountPerAccount := remainingSupply / dynamicAccounts
  let maxHarvesterBalance := getMaxHarvesterBalance presetData mosaicsLength mosaicIndex
  let generated := generatedAccounts accounts dynamicNodes maxHarvesterBalance amountPerAccount
  let currencyDistributions := (generated ++ provided).filter fun d => d.amount > 0
  let generatedSupply ← sum toYaml (generated.drop 1) m.name
  assignRemainder toYaml m (m.supply - providedSupply - generatedSupply) currencyDistributions

/-- The number of accounts asked for. -/
def RequestedAccounts.length : RequestedAccounts → ℕ
  | .count number => number.toNat
  | .publicKeys keys => keys.length

/-- The request can be met: a number is the length of an array, a list holds public keys. -/
def RequestedAccounts.Creatable (sdk : SymbolSdk) (networkType : NetworkType) :
    RequestedAccounts → Prop
  | .count number => 0 ≤ number ∧ number < 4294967296
  | .publicKeys keys =>
      ∀ key ∈ keys, ∃ account, sdk.createFromPublicKey key networkType = .ok account

/-- `generateAddresses`, for the mosaic at an index. A number has to be a length that an
array can have. -/
def generateAddresses (sdk : SymbolSdk) (networkType : NetworkType) (mosaicIndex : ℕ) :
    RequestedAccounts → Gen (List ConfigAccount)
  | .count number =>
      if 0 ≤ number ∧ number < 4294967296 then
        (List.range number.toNat).mapM fun accountIndex => do
          let account ← generateNewAccount sdk networkType (.mosaic mosaicIndex accountIndex)
          return toConfigAccount (.account account)
      else throw "Invalid array length"
  | .publicKeys keys => keys.mapM fun key => do
      let account ← (sdk.createFromPublicKey key networkType : Except String PublicAccount)
      return toConfigAccount (.publicAccount account)

section

variable (sdk : SymbolSdk) (toYaml : List CurrencyDistribution → String)
  (presetData : ConfigPreset) (nodes : List NodeAccount) (nemesisSignerAddress : String)

/-- One turn of the loop: the accounts of the mosaic, and the mosaic with its entries. -/
def processMosaic (mosaicsLength mosaicIndex : ℕ) (m : MosaicPreset) :
    Gen (MosaicAccounts × MosaicPreset) := do
  let accounts ← generateAddresses sdk presetData.networkType mosaicIndex m.accounts
  let id := sdk.createMosaicId mosaicIndex nemesisSignerAddress
  let currencyDistributions ←
    (distributeMosaic toYaml presetData nodes mosaicsLength mosaicIndex m accounts :
      Except String (List CurrencyDistribution))
  return (⟨id, m.name, accounts⟩, { m with currencyDistributions })

/-- `processNemesisBalances`, with the mosaics of the preset as it leaves them. -/
def processNemesisBalances (nemesis : NemesisPreset) :
    Gen (List MosaicAccounts × List MosaicPreset) := do
  let _ ← (getPrivateKeySecurityMode presetData.privateKeySecurityMode :
    Except String PrivateKeySecurityMode)
  match nemesis.mosaics with
  | none => throw "Cannot read properties of undefined (reading 'forEach')"
  | some mosaics =>
    let processed ← mosaics.zipIdx.mapM fun (m, mosaicIndex) =>
      processMosaic sdk toYaml presetData nodes nemesisSignerAddress mosaics.length mosaicIndex m
    return processed.unzip

end

end SymbolBootstrap.NemesisBalances
