import SymbolBootstrap.NemesisBalances

/-!
`AddressesService.resolveAddresses`: the accounts of the nodes, the nemesis signer and the
mosaics, each resolved from the preset, the addresses of an earlier run, or at random. The
preset is passed on where the source changes it in place. `seedExists` says which bundled
presets have a seed folder, `prompt` what an account resolver answers for a known account
without private key: `DefaultAccountResolver` throws, `BootstrapAccountResolver` asks.
-/
namespace SymbolBootstrap.AddressesService

open Library.CaseMapping CryptoUtils ConfigurationUtils NemesisBalances

structure Addresses where
  version : ℕ
  networkType : NetworkType
  nemesisGenerationHashSeed : String
  sinkAddress : Option String
  nodes : List NodeAccount
  nemesisSigner : Option ConfigAccount
  mosaics : Option (List MosaicAccounts)
deriving DecidableEq, Repr

/-- The collaborators of the service. -/
structure Services where
  sdk : SymbolSdk
  toYaml : List CurrencyDistribution → String
  seedExists : String → Bool
  prompt : NetworkType → ConfigAccount → KeyName → Option String → Except String Account

/-- `YamlUtils.isYmlFile`. -/
def isYmlFile (text : String) : Bool :=
  endsWith (toLowerCase text) ".yml" || endsWith (toLowerCase text) ".yaml"

/-- `ConfigurationUtils.shouldCreateNemesis`. -/
def shouldCreateNemesis (seedExists : String → Bool) (presetData : ConfigPreset) : Bool :=
  presetData.nemesis.isSome && (given presetData.nemesisSeedFolder).isNone &&
    (isYmlFile presetData.preset || !seedExists presetData.preset)

/-- `ConfigurationUtils.resolveRoles`. -/
def resolveRoles (nodePreset : NodePreset) : String :=
  match given nodePreset.roles with
  | some roles => roles
  | none => ",".intercalate
      ((if nodePreset.syncsource then ["Peer"] else []) ++
        (if nodePreset.api then ["Api"] else []) ++
        (if nodePreset.voting then ["Voting"] else []))

/-- `Utils.getNetworkName`: 104 is `MAIN_NET`, 152 `TEST_NET`. -/
def getNetworkName (networkType : NetworkType) : Except String String :=
  if networkType = 104 then return "mainnet"
  else if networkType = 152 then return "testnet"
  else throw s!"Invalid Network Type {networkType}"

def resolveGenerateErrorMessage (keyName : KeyName) (mode : PrivateKeySecurityMode) :
    Option String :=
  let keyText := keyName.text
  let modeText := mode.text
  let encrypt := PrivateKeySecurityMode.encrypt.text
  let promptMain := PrivateKeySecurityMode.promptMain.text
  let promptMainTransport := PrivateKeySecurityMode.promptMainTransport.text
  let problem := s!"Account {keyText} cannot be generated when Private Key Security Mode is " ++
    s!"{modeText}. Account won't be stored anywhere!"
  let remedy := s!"or provider your {keyText} account with custom presets!"
  if keyName = .main ∧ (mode = .promptAll ∨ mode = .promptMainTransport ∨ mode = .promptMain) then
    some (problem ++ s!". Please use {encrypt}, " ++ remedy)
  else if keyName = .transport ∧ (mode = .promptAll ∨ mode = .promptMainTransport) then
    some (problem ++ s!". Please use {encrypt}, {promptMain}, " ++ remedy)
  else if mode = .promptAll then
    some (problem ++ s!" Please use {encrypt}, {promptMain}, {promptMainTransport}, " ++ remedy)
  else none

def addressOf : SdkAccount → String
  | .account account => account.address
  | .publicAccount account => account.address

section

variable (services : Services) (networkType : NetworkType)

/-- `resolveAccount` of both account resolvers. -/
def accountResolver (account : Option ConfigAccount) (keyName : KeyName)
    (nodeName generateErrorMessage : Option String) (purpose : Purpose) : Gen Account :=
  match account with
  | none =>
    match generateErrorMessage with
    | some message => throw message
    | none => generateNewAccount services.sdk networkType purpose
  | some account =>
    match given account.privateKey with
    | some privateKey => (services.sdk.createFromPrivateKey privateKey networkType :
        Except String Account)
    | none => (services.prompt networkType account keyName nodeName : Except String Account)

/-- `toAccount` of a stored or provided account, its keys in upper case. -/
def toUpperAccount (account : Option ConfigAccount) : Except String (Option SdkAccount) :=
  toAccount services.sdk networkType (account.map fun a => toUpperCase a.publicKey)
    (account.bind fun a => a.privateKey.map toUpperCase)

/-- The account that `resolveAccount` keeps of a stored and a provided one, if any. -/
def keepAccount : Option SdkAccount → Option SdkAccount → Option ConfigAccount
  | some oldAccount, some newAccount =>
      let newConfig := toConfigAccount newAccount
      if addressOf oldAccount = addressOf newAccount then
        some { newConfig with
          privateKey := newConfig.privateKey.or (toConfigAccount oldAccount).privateKey }
      else some newConfig
  | some oldAccount, none => some (toConfigAccount oldAccount)
  | none, some newAccount => some (toConfigAccount newAccount)
  | none, none => none

def resolveAccount (mode : PrivateKeySecurityMode) (keyName : KeyName)
    (nodeName : Option String) (oldStoredAccount newProvidedAccount : Option ConfigAccount)
    (purpose : Purpose) : Gen ConfigAccount := do
  let oldAccount ← (toUpperAccount services networkType oldStoredAccount :
    Except String (Option SdkAccount))
  let newAccount ← (toUpperAccount services networkType newProvidedAccount :
    Except String (Option SdkAccount))
  match keepAccount oldAccount newAccount with
  | some account => return account
  | none =>
    let account ← accountResolver services networkType (newProvidedAccount.or oldStoredAccount)
      keyName nodeName (resolveGenerateErrorMessage keyName mode) purpose
    return toConfigAccount (.account account)

/-- One account of a node: `resolveAccount` with the keys that the preset provides. -/
def resolveNodeAccount (mode : PrivateKeySecurityMode) (keyName : KeyName) (index : ℕ)
    (nodePreset : NodePreset) (oldStoredAccount : Option ConfigAccount)
    (publicKey privateKey : Option String) : Gen ConfigAccount := do
  let provided ← (toConfigAccountFomKeys services.sdk networkType publicKey privateKey :
    Except String (Option ConfigAccount))
  resolveAccount services networkType mode keyName nodePreset.name oldStoredAccount provided
    (.node index keyName)

end

/-- An account that only some nodes have. -/
def resolveWhen (condition : Bool) (resolve : Gen ConfigAccount) : Gen (Option ConfigAccount) :=
  if condition then some <$> resolve else pure none

/-- Whether a node has a remote account of its own. -/
def hasRemote (presetData : ConfigPreset) (nodePreset : NodePreset) : Bool :=
  (nodePreset.nodeUseRemoteAccount || presetData.nodeUseRemoteAccount) &&
    (nodePreset.harvesting || nodePreset.voting)

section

variable (services : Services)

def resolveNodeAccounts (oldNodeAccount : Option NodeAccount) (presetData : ConfigPreset)
    (index : ℕ) (nodePreset : NodePreset) : Gen NodeAccount := do
  let networkType := presetData.networkType
  let mode ← (getPrivateKeySecurityMode presetData.privateKeySecurityMode :
    Except String PrivateKeySecurityMode)
  let main ← resolveNodeAccount services networkType mode .main index nodePreset
    (oldNodeAccount.map NodeAccount.main) nodePreset.mainPublicKey nodePreset.mainPrivateKey
  let transport ← resolveNodeAccount services networkType mode .transport index nodePreset
    (oldNodeAccount.map NodeAccount.transport) nodePreset.transportPublicKey
    nodePreset.transportPrivateKey
  let remote ← resolveWhen (hasRemote presetData nodePreset)
    (resolveNodeAccount services networkType mode .remote index nodePreset
      (oldNodeAccount.bind NodeAccount.remote) nodePreset.remotePublicKey
      nodePreset.remotePrivateKey)
  let vrf ← resolveWhen nodePreset.harvesting
    (resolveNodeAccount services networkType mode .vrf index nodePreset
      (oldNodeAccount.bind NodeAccount.vrf) nodePreset.vrfPublicKey nodePreset.vrfPrivateKey)
  return {
    name := (given nodePreset.name).getD s!"node-{index}"
    friendlyName := (given nodePreset.friendlyName).getD
      (String.ofList (main.publicKey.toList.take 7))
    roles := resolveRoles nodePreset
    main, transport, remote, vrf }

def resolveNodesAccounts (oldAddresses : Option Addresses) (presetData : ConfigPreset) :
    Gen (List NodeAccount) :=
  presetData.nodes.zipIdx.mapM fun (node, index) =>
    resolveNodeAccounts services (oldAddresses.bind fun old => old.nodes[index]?) presetData
      index node

/-- `resolveSyncAddress`: the address, and the sink address that may have been made for it. -/
def resolveSyncAddress (networkType : NetworkType) (sinkAddress providedAddress : Option String) :
    Gen (String × Option String) :=
  match given providedAddress with
  | some rawAddress => do
      let address ← (services.sdk.createFromRawAddress rawAddress : Except String String)
      return (address, sinkAddress)
  | none =>
    match given sinkAddress with
    | some address => return (address, some address)
    | none => do
        let account ← generateNewAccount services.sdk networkType .sink
        return (account.address, some account.address)

/-- The preset with its sink addresses, those of the first version too. -/
def withSinkAddresses (presetData : ConfigPreset) (harvest mosaicRental namespaceRental : String) :
    ConfigPreset :=
  { presetData with
    harvestNetworkFeeSinkAddress := some harvest
    mosaicRentalFeeSinkAddress := some mosaicRental
    namespaceRentalFeeSinkAddress := some namespaceRental
    harvestNetworkFeeSinkAddressV1 :=
      some ((given presetData.harvestNetworkFeeSinkAddressV1).getD harvest)
    mosaicRentalFeeSinkAddressV1 :=
      some ((given presetData.mosaicRentalFeeSinkAddressV1).getD mosaicRental)
    namespaceRentalFeeSinkAddressV1 :=
      some ((given presetData.namespaceRentalFeeSinkAddressV1).getD namespaceRental) }

/-- The sink addresses of the preset and of the addresses. -/
def resolveSinkAddresses (oldAddresses : Option Addresses) (presetData : ConfigPreset) :
    Gen (ConfigPreset × Option String) := do
  let networkType := presetData.networkType
  let sinkAddress := (given presetData.sinkAddress).or (oldAddresses.bind Addresses.sinkAddress)
  let (harvest, sinkAddress) ← resolveSyncAddress services networkType sinkAddress
    presetData.harvestNetworkFeeSinkAddress
  let (mosaicRental, sinkAddress) ← resolveSyncAddress services networkType sinkAddress
    presetData.mosaicRentalFeeSinkAddress
  let (namespaceRental, sinkAddress) ← resolveSyncAddress services networkType sinkAddress
    presetData.namespaceRentalFeeSinkAddress
  return (withSinkAddresses presetData harvest mosaicRental namespaceRental, sinkAddress)

/-- The private key that `resolveNemesisAccount` starts from. -/
def resolveSignerPrivateKey (presetData : ConfigPreset) (nemesis : NemesisPreset)
    (oldSigner : Option ConfigAccount) : Gen String :=
  match (given nemesis.nemesisSignerPrivateKey).or
      (given (oldSigner.bind ConfigAccount.privateKey)) with
  | some privateKey => return privateKey
  | none => do
      let account ← generateNewAccount services.sdk presetData.networkType .nemesisSigner
      return account.privateKey

def resolveNemesisAccount (presetData : ConfigPreset) (nemesis : NemesisPreset)
    (oldAddresses : Option Addresses) : Gen ConfigAccount := do
  let oldSigner := oldAddresses.bind Addresses.nemesisSigner
  let signerPrivateKey ← resolveSignerPrivateKey services presetData nemesis oldSigner
  let signerPublicKey := (given presetData.nemesisSignerPublicKey).or
    (oldSigner.map ConfigAccount.publicKey)
  let nemesisSigner ← (toConfigAccountFomKeys services.sdk presetData.networkType signerPublicKey
    (some signerPrivateKey) : Except String (Option ConfigAccount))
  match nemesisSigner with
  | none => throw "Nemesis Signer should be resolved!"
  | some nemesisSigner =>
    if (given nemesisSigner.privateKey).isNone then
      throw "Nemesis Signer Private Key should be resolved!"
    return nemesisSigner

/-- The mosaic ids of the preset, from the nemesis signer's address where they are not given. -/
def resolveMosaicIds (presetData : ConfigPreset) (nemesisSignerAddress : String) :
    Except String ConfigPreset := do
  let currencyMosaicId := (given presetData.currencyMosaicId).getD
    (services.sdk.createMosaicId 0 nemesisSignerAddress)
  match given presetData.harvestingMosaicId, presetData.nemesis with
  | some _, _ => return { presetData with currencyMosaicId := some currencyMosaicId }
  | none, none => throw "nemesis must be defined!"
  | none, some nemesis =>
    let harvestingMosaicId :=
      if (nemesis.mosaics.getD []).length > 1 then
        services.sdk.createMosaicId 1 nemesisSignerAddress
      else currencyMosaicId
    return { presetData with
      currencyMosaicId := some currencyMosaicId
      harvestingMosaicId := some harvestingMosaicId }

/-- The mosaic accounts: those of the earlier run, or new ones. -/
def resolveMosaics (oldAddresses : Option Addresses) (oldPresetData : Option ConfigPreset)
    (presetData : ConfigPreset) (nodes : List NodeAccount) (nemesis : NemesisPreset)
    (nemesisSignerAddress : String) : Gen (Option (List MosaicAccounts) × ConfigPreset) :=
  match oldAddresses, oldPresetData with
  | some _, none => throw "oldPresetData must be defined when upgrading!"
  | some oldAddresses, some oldPresetData =>
    return (oldAddresses.mosaics, { presetData with nemesis := oldPresetData.nemesis })
  | none, _ => do
    let (mosaics, processed) ← processNemesisBalances services.sdk services.toYaml presetData
      nodes nemesisSignerAddress nemesis
    return (some mosaics,
      { presetData with nemesis := some { nemesis with mosaics := some processed } })

/-- `presetData.nemesisGenerationHashSeed || oldAddresses?.nemesisGenerationHashSeed || ...`. -/
def resolveHashSeed (oldAddresses : Option Addresses) (presetData : ConfigPreset) : Gen String :=
  match (given presetData.nemesisGenerationHashSeed).or
      (given (oldAddresses.map Addresses.nemesisGenerationHashSeed)) with
  | some seed => return seed
  | none => randomHash services.sdk

/-- `getNetworkIdentifier` gives the network's name as well. -/
def withNetwork (presetData : ConfigPreset) (networkName seed : String) : ConfigPreset :=
  { presetData with
    networkIdentifier := some networkName
    networkName := some networkName
    nemesisGenerationHashSeed := some seed }

/-- The first part of `resolveAddresses`, up to the accounts of the nodes. -/
def resolveNetwork (oldAddresses : Option Addresses) (presetData : ConfigPreset) :
    Gen (Addresses × ConfigPreset) := do
  let networkType := presetData.networkType
  let seed ← resolveHashSeed services oldAddresses presetData
  let (presetData, sinkAddress) ← resolveSinkAddresses services oldAddresses presetData
  let networkName ← (getNetworkName networkType : Except String String)
  let presetData := withNetwork presetData networkName seed
  let nodes ← resolveNodesAccounts services oldAddresses presetData
  return ({
    version := 2, networkType, nemesisGenerationHashSeed := seed, sinkAddress, nodes
    nemesisSigner := none, mosaics := none }, presetData)

/-- The ids of the mosaics, once the public key of the nemesis signer is there. -/
def resolveSignerAddress (presetData : ConfigPreset) : Except String (String × ConfigPreset) := do
  let nemesisSignerAddress ← services.sdk.createAddressFromPublicKey
    presetData.nemesisSignerPublicKey presetData.networkType
  let presetData ← resolveMosaicIds services presetData nemesisSignerAddress
  return (nemesisSignerAddress, presetData)

/-- The rest of `resolveAddresses` when a nemesis block is created. -/
def resolveNemesis (oldAddresses : Option Addresses) (oldPresetData : Option ConfigPreset)
    (addresses : Addresses) (presetData : ConfigPreset) (nemesis : NemesisPreset) :
    Gen (Addresses × ConfigPreset) := do
  let nemesisSigner ← resolveNemesisAccount services presetData nemesis oldAddresses
  let nemesis := { nemesis with nemesisSignerPrivateKey := nemesisSigner.privateKey }
  let presetData := { presetData with
    nemesisSignerPublicKey := some nemesisSigner.publicKey
    nemesis := some nemesis }
  let (nemesisSignerAddress, presetData) ← (resolveSignerAddress services presetData :
    Except String (String × ConfigPreset))
  let (mosaics, presetData) ← resolveMosaics services oldAddresses oldPresetData presetData
    addresses.nodes nemesis nemesisSignerAddress
  return ({ addresses with nemesisSigner := some nemesisSigner, mosaics }, presetData)

/-- `resolveAddresses`: the addresses, and the preset as the source leaves it. -/
def resolveAddresses (oldAddresses : Option Addresses) (oldPresetData : Option ConfigPreset)
    (presetData : ConfigPreset) : Gen (Addresses × ConfigPreset) := do
  let (addresses, presetData) ← resolveNetwork services oldAddresses presetData
  match shouldCreateNemesis services.seedExists presetData, presetData.nemesis with
  | true, some nemesis =>
    resolveNemesis services oldAddresses oldPresetData addresses presetData nemesis
  | _, _ =>
    let (_, presetData) ← (resolveSignerAddress services presetData :
      Except String (String × ConfigPreset))
    return (addresses, presetData)

end

end SymbolBootstrap.AddressesService
