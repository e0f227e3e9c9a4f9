import SymbolBootstrap.AddressesService

/-!
The addresses as the document that is written to addresses.yml, and what each private key
security mode leaves of them. The only names in this document that a blacklist matches are
`main` and `transport`.
-/
namespace SymbolBootstrap.AddressesDocuments

open Library.Documents CryptoUtils ConfigurationUtils NemesisBalances AddressesService

/-- A field that is there when it has a value. -/
def optionalField (name : String) (value : Option Value) : Fields :=
  (value.map fun v => (name, v)).toList

def accountDocument (a : ConfigAccount) : Value :=
  .object (optionalField "privateKey" (a.privateKey.map .str) ++
    [("publicKey", .str a.publicKey), ("address", .str a.address)])

def nodeDocument (n : NodeAccount) : Value :=
  .object ([("name", .str n.name), ("friendlyName", .str n.friendlyName), ("roles", .str n.roles),
    ("main", accountDocument n.main), ("transport", accountDocument n.transport)] ++
    optionalField "remote" (n.remote.map accountDocument) ++
    optionalField "vrf" (n.vrf.map accountDocument))

def mosaicDocument (m : MosaicAccounts) : Value :=
  .object [("id", .str m.id), ("name", .str m.name),
    ("accounts", .array (m.accounts.map accountDocument) [])]

def addressesDocument (a : Addresses) : Value :=
  .object ([("version", .number a.version), ("networkType", .number a.networkType),
    ("nemesisGenerationHashSeed", .str a.nemesisGenerationHashSeed)] ++
    optionalField "sinkAddress" (a.sinkAddress.map .str) ++
    [("nodes", .array (a.nodes.map nodeDocument) [])] ++
    optionalField "nemesisSigner" (a.nemesisSigner.map accountDocument) ++
    optionalField "mosaics" (a.mosaics.map fun ms => .array (ms.map mosaicDocument) []))

/-- Whether a mode leaves the private key of a node's account in the stored addresses. -/
def storesNodeKey (mode : PrivateKeySecurityMode) (keyName : KeyName) : Bool :=
  match mode, keyName with
  | .encrypt, _ => true
  | .promptMain, .main => false
  | .promptMain, _ => true
  | .promptMainTransport, .main => false
  | .promptMainTransport, .transport => false
  | .promptMainTransport, _ => true
  | .promptAll, _ => false

/-- Whether a mode leaves the other private keys in the stored addresses. -/
def storesKeys (mode : PrivateKeySecurityMode) : Bool := mode ≠ .promptAll

def stored (stores : Bool) (a : ConfigAccount) : ConfigAccount :=
  if stores then a else { a with privateKey := none }

def storedNode (mode : PrivateKeySecurityMode) (n : NodeAccount) : NodeAccount :=
  { n with
    main := stored (storesNodeKey mode .main) n.main
    transport := stored (storesNodeKey mode .transport) n.transport
    remote := n.remote.map (stored (storesNodeKey mode .remote))
    vrf := n.vrf.map (stored (storesNodeKey mode .vrf)) }

def storedMosaic (mode : PrivateKeySecurityMode) (m : MosaicAccounts) : MosaicAccounts :=
  { m with accounts := m.accounts.map (stored (storesKeys mode)) }

/-- The addresses as they are stored in a mode. -/
def storedAddresses (mode : PrivateKeySecurityMode) (a : Addresses) : Addresses :=
  { a with
    nodes := a.nodes.map (storedNode mode)
    nemesisSigner := a.nemesisSigner.map (stored (storesKeys mode))
    mosaics := a.mosaics.map (List.map (storedMosaic mode)) }

/-- The blacklist that applies below a field. -/
def blacklistBelow (names : List String) (name : String) : List String :=
  if isBlacklisted names name then [] else names

/-- Below a name that no blacklist matches, the blacklist stays. -/
theorem blacklistBelow_eq (mode : PrivateKeySecurityMode) {name : String}
    (hname : name ∈ ["nodes", "nemesisSigner", "mosaics", "accounts"]) :
    blacklistBelow (blacklistNames mode) name = blacklistNames mode := by
  simp only [List.mem_cons, List.not_mem_nil, or_false] at hname
  rcases hname with rfl | rfl | rfl | rfl <;> cases mode <;> decide

theorem storesKeys_eq (mode : PrivateKeySecurityMode) :
    (!isBlacklisted (blacklistNames mode) "privateKey") = storesKeys mode := by
  cases mode <;> decide

/-- The name of an account in the document of a node. -/
def fieldName : KeyName → String
  | .main => "main"
  | .transport => "transport"
  | .remote => "remote"
  | .vrf => "vrf"

theorem storesNodeKey_eq (mode : PrivateKeySecurityMode) (keyName : KeyName) :
    (!isBlacklisted (blacklistBelow (blacklistNames mode) (fieldName keyName)) "privateKey") =
      storesNodeKey mode keyName := by
  cases mode <;> cases keyName <;> decide

/-- A field whose name is not that of a private key stays. -/
theorem removePrivateKeysFields_cons {names : List String} {name : String} {value : Value}
    {rest : Fields} (h : isEncryptableKey name = false) :
    removePrivateKeysFields names ((name, value) :: rest) =
      (name, removePrivateKeys (blacklistBelow names name) value) ::
        removePrivateKeysFields names rest :=
  removePrivateKeysFields_cons_kept (isEncryptableKeyField_of_name h value) rest

theorem removePrivateKeysFields_optionalField {names : List String} {name : String}
    {value : Option Value} (h : isEncryptableKey name = false) :
    removePrivateKeysFields names (optionalField name value) =
      optionalField name (value.map (removePrivateKeys (blacklistBelow names name))) := by
  cases value with
  | none => rfl
  | some value => exact removePrivateKeysFields_cons h

theorem removePrivateKeys_accountDocument (names : List String) (a : ConfigAccount) :
    removePrivateKeys names (accountDocument a) =
      accountDocument (stored (!isBlacklisted names "privateKey") a) := by
  have hpublic : ∀ names', removePrivateKeysFields names'
      [("publicKey", .str a.publicKey), ("address", .str a.address)] =
      [("publicKey", .str a.publicKey), ("address", .str a.address)] := by
    intro names'
    rw [removePrivateKeysFields_cons (by decide), removePrivateKeysFields_cons (by decide)]
    rfl
  have hprivate : isEncryptableKey "privateKey" = true := by decide
  unfold accountDocument
  rw [removePrivateKeys, removePrivateKeysFields_append, hpublic]
  cases hkey : a.privateKey with
  | none => cases isBlacklisted names "privateKey" <;> simp [stored, hkey, optionalField,
      removePrivateKeysFields]
  | some key => cases hnames : isBlacklisted names "privateKey" <;> simp [stored, hkey,
      optionalField, removePrivateKeysFields, removePrivateKeys, isEncryptableKeyField, hnames,
      hprivate]

theorem removePrivateKeys_nodeDocument (mode : PrivateKeySecurityMode) (n : NodeAccount) :
    removePrivateKeys (blacklistNames mode) (nodeDocument n) =
      nodeDocument (storedNode mode n) := by
  have hmain := storesNodeKey_eq mode .main
  have htransport := storesNodeKey_eq mode .transport
  have hremote := storesNodeKey_eq mode .remote
  have hvrf := storesNodeKey_eq mode .vrf
  simp only [fieldName] at hmain htransport hremote hvrf
  unfold nodeDocument
  rw [removePrivateKeys, removePrivateKeysFields_append, removePrivateKeysFields_append,
    removePrivateKeysFields_cons (by decide), removePrivateKeysFields_cons (by decide),
    removePrivateKeysFields_cons (by decide), removePrivateKeysFields_cons (by decide),
    removePrivateKeysFields_cons (by decide),
    removePrivateKeysFields_optionalField (by decide),
    removePrivateKeysFields_optionalField (by decide)]
  simp only [removePrivateKeys, removePrivateKeysFields, removePrivateKeys_accountDocument,
    Option.map_map, Function.comp_def, hmain, htransport, hremote, hvrf, storedNode]

theorem removePrivateKeys_accounts (mode : PrivateKeySecurityMode)
    (accounts : List ConfigAccount) :
    removePrivateKeys (blacklistNames mode) (.array (accounts.map accountDocument) []) =
      .array ((accounts.map (stored (storesKeys mode))).map accountDocument) [] := by
  rw [removePrivateKeys, removePrivateKeysItems_eq_map]
  simp only [List.map_map, Function.comp_def, removePrivateKeys_accountDocument, storesKeys_eq]

theorem removePrivateKeys_mosaicDocument (mode : PrivateKeySecurityMode) (m : MosaicAccounts) :
    removePrivateKeys (blacklistNames mode) (mosaicDocument m) =
      mosaicDocument (storedMosaic mode m) := by
  unfold mosaicDocument
  rw [removePrivateKeys, removePrivateKeysFields_cons (by decide),
    removePrivateKeysFields_cons (by decide), removePrivateKeysFields_cons (by decide)]
  have haccounts : blacklistBelow (blacklistNames mode) "accounts" = blacklistNames mode :=
    blacklistBelow_eq mode (by decide)
  rw [haccounts, removePrivateKeys_accounts]
  simp only [removePrivateKeys, removePrivateKeysFields, storedMosaic]

/-- What `removePrivateKeysAccordingToSecurityMode` leaves of the addresses. -/
theorem removePrivateKeys_addressesDocument (mode : PrivateKeySecurityMode) (a : Addresses) :
    removePrivateKeysAccordingToSecurityMode (addressesDocument a) mode =
      addressesDocument (storedAddresses mode a) := by
  unfold removePrivateKeysAccordingToSecurityMode addressesDocument
  simp only [removePrivateKeys, removePrivateKeysFields_append]
  rw [removePrivateKeysFields_cons (by decide), removePrivateKeysFields_cons (by decide),
    removePrivateKeysFields_cons (by decide), removePrivateKeysFields_cons (by decide),
    removePrivateKeysFields_optionalField (by decide),
    removePrivateKeysFields_optionalField (by decide),
    removePrivateKeysFields_optionalField (by decide)]
  have hnodes : blacklistBelow (blacklistNames mode) "nodes" = blacklistNames mode :=
    blacklistBelow_eq mode (by decide)
  have hsigner : blacklistBelow (blacklistNames mode) "nemesisSigner" = blacklistNames mode :=
    blacklistBelow_eq mode (by decide)
  have hmosaics : blacklistBelow (blacklistNames mode) "mosaics" = blacklistNames mode :=
    blacklistBelow_eq mode (by decide)
  rw [hnodes, hsigner, hmosaics]
  simp only [removePrivateKeys, removePrivateKeysFields, Option.map_map, Function.comp_def,
    Value.number, removePrivateKeysItems_eq_map, List.map_map, removePrivateKeys_nodeDocument,
    removePrivateKeys_accountDocument, removePrivateKeys_mosaicDocument, storesKeys_eq,
    storedAddresses]

section Preset

def textField (name : String) (text : Option String) : Fields :=
  optionalField name (text.map .str)

def balanceDocument (balance : ℤ) : Value := .number balance

def nodePresetDocument (n : NodePreset) : Value :=
  .object (textField "name" n.name ++ textField "friendlyName" n.friendlyName ++
    textField "roles" n.roles ++
    [("syncsource", .bool n.syncsource), ("api", .bool n.api), ("voting", .bool n.voting),
      ("harvesting", .bool n.harvesting),
      ("nodeUseRemoteAccount", .bool n.nodeUseRemoteAccount),
      ("excludeFromNemesis", .bool n.excludeFromNemesis),
      ("balances", .array (n.balances.map balanceDocument) [])] ++
    textField "mainPrivateKey" n.mainPrivateKey ++ textField "mainPublicKey" n.mainPublicKey ++
    textField "transportPrivateKey" n.transportPrivateKey ++
    textField "transportPublicKey" n.transportPublicKey ++
    textField "remotePrivateKey" n.remotePrivateKey ++
    textField "remotePublicKey" n.remotePublicKey ++
    textField "vrfPrivateKey" n.vrfPrivateKey ++ textField "vrfPublicKey" n.vrfPublicKey)

def requestedDocument : RequestedAccounts → Value
  | .count number => .number number
  | .publicKeys keys => .array (keys.map .str) []

def distributionDocument (d : CurrencyDistribution) : Value :=
  .object [("address", .str d.address), ("amount", .number d.amount)]

def mosaicPresetDocument (m : MosaicPreset) : Value :=
  .object [("name", .str m.name), ("supply", .number m.supply),
    ("accounts", requestedDocument m.accounts),
    ("currencyDistributions", .array (m.currencyDistributions.map distributionDocument) [])]

def nemesisDocument (n : NemesisPreset) : Value :=
  .object (optionalField "mosaics"
      (n.mosaics.map fun ms => .array (ms.map mosaicPresetDocument) []) ++
    textField "nemesisSignerPrivateKey" n.nemesisSignerPrivateKey)

def presetDocument (p : ConfigPreset) : Value :=
  .object ([("preset", .str p.preset), ("networkType", .number p.networkType)] ++
    textField "privateKeySecurityMode" p.privateKeySecurityMode ++
    textField "nemesisSeedFolder" p.nemesisSeedFolder ++
    textField "nemesisGenerationHashSeed" p.nemesisGenerationHashSeed ++
    textField "sinkAddress" p.sinkAddress ++
    textField "harvestNetworkFeeSinkAddressV1" p.harvestNetworkFeeSinkAddressV1 ++
    textField "harvestNetworkFeeSinkAddress" p.harvestNetworkFeeSinkAddress ++
    textField "mosaicRentalFeeSinkAddressV1" p.mosaicRentalFeeSinkAddressV1 ++
    textField "mosaicRentalFeeSinkAddress" p.mosaicRentalFeeSinkAddress ++
    textField "namespaceRentalFeeSinkAddressV1" p.namespaceRentalFeeSinkAddressV1 ++
    textField "namespaceRentalFeeSinkAddress" p.namespaceRentalFeeSinkAddress ++
    textField "networkIdentifier" p.networkIdentifier ++
    textField "networkName" p.networkName ++
    textField "nemesisSignerPublicKey" p.nemesisSignerPublicKey ++
    textField "currencyMosaicId" p.currencyMosaicId ++
    textField "harvestingMosaicId" p.harvestingMosaicId ++
    [("maxHarvesterBalance", .number p.maxHarvesterBalance),
      ("nodeUseRemoteAccount", .bool p.nodeUseRemoteAccount),
      ("nodes", .array (p.nodes.map nodePresetDocument) [])] ++
    optionalField "nemesis" (p.nemesis.map nemesisDocument))

def storedNodePreset (n : NodePreset) : NodePreset :=
  { n with
    mainPrivateKey := none
    transportPrivateKey := none
    remotePrivateKey := none
    vrfPrivateKey := none }

/-- The preset as it is stored: no private key of it is. -/
def storedPreset (p : ConfigPreset) : ConfigPreset :=
  { p with
    nodes := p.nodes.map storedNodePreset
    nemesis := p.nemesis.map fun n => { n with nemesisSignerPrivateKey := none } }

theorem removePrivateKeysFields_textField {name : String} {text : Option String}
    (h : isEncryptableKey name = false) :
    removePrivateKeysFields [] (textField name text) = textField name text := by
  rw [textField, removePrivateKeysFields_optionalField h, Option.map_map]
  rfl

theorem removePrivateKeysFields_privateField {name : String} {text : Option String}
    (h : isEncryptableKey name = true) :
    removePrivateKeysFields [] (textField name text) = [] := by
  cases text with
  | none => rfl
  | some text =>
    have hfield : (isBlacklisted [] name && isEncryptableKeyField (.str text) name) = true := h
    show removePrivateKeysFields [] [(name, .str text)] = []
    rw [removePrivateKeysFields, hfield, if_pos rfl, removePrivateKeysFields]

theorem removePrivateKeysFields_optionalField_nil {name : String} {value : Option Value}
    (h : isEncryptableKey name = false) :
    removePrivateKeysFields [] (optionalField name value) =
      optionalField name (value.map (removePrivateKeys [])) := by
  rw [removePrivateKeysFields_optionalField h]
  rfl

theorem removePrivateKeysFields_nil_cons {name : String} {value : Value} {rest : Fields}
    (h : isEncryptableKey name = false) :
    removePrivateKeysFields [] ((name, value) :: rest) =
      (name, removePrivateKeys [] value) :: removePrivateKeysFields [] rest :=
  removePrivateKeysFields_cons h

theorem removePrivateKeysFields_nil (names : List String) :
    removePrivateKeysFields names [] = [] := rfl

theorem removePrivateKeys_str (names : List String) (text : String) :
    removePrivateKeys names (.str text) = .str text := rfl

theorem removePrivateKeys_bool (names : List String) (value : Bool) :
    removePrivateKeys names (.bool value) = .bool value := rfl

theorem removePrivateKeys_number (names : List String) (value : ℚ) :
    removePrivateKeys names (.number value) = .number value := rfl

theorem removePrivateKeys_object (names : List String) (fields : Fields) :
    removePrivateKeys names (.object fields) =
      .object (removePrivateKeysFields names fields) := rfl

/-- An array of documents without private keys stays as it is. -/
theorem removePrivateKeys_map {α : Type} {document stripped : α → Value}
    (h : ∀ x, removePrivateKeys [] (document x) = stripped x) (xs : List α) :
    removePrivateKeys [] (.array (xs.map document) []) = .array (xs.map stripped) [] := by
  rw [removePrivateKeys, removePrivateKeysItems_eq_map, List.map_map]
  simp only [Function.comp_def, h]

theorem removePrivateKeys_nodePresetDocument (n : NodePreset) :
    removePrivateKeys [] (nodePresetDocument n) = nodePresetDocument (storedNodePreset n) := by
  have hbalances : removePrivateKeys [] (.array (n.balances.map balanceDocument) []) =
      .array (n.balances.map balanceDocument) [] := removePrivateKeys_map (fun _ => rfl) _
  unfold nodePresetDocument
  simp (disch := decide +kernel) only [removePrivateKeys_object, removePrivateKeysFields_append,
    removePrivateKeysFields_textField, removePrivateKeysFields_privateField,
    removePrivateKeysFields_nil_cons, removePrivateKeysFields_nil, removePrivateKeys_bool,
    hbalances]
  rfl

theorem removePrivateKeys_mosaicPresetDocument (m : MosaicPreset) :
    removePrivateKeys [] (mosaicPresetDocument m) = mosaicPresetDocument m := by
  have hdistribution : ∀ d, removePrivateKeys [] (distributionDocument d) =
      distributionDocument d := by
    intro d
    unfold distributionDocument
    simp (disch := decide +kernel) only [removePrivateKeys_object, removePrivateKeysFields_nil_cons,
      removePrivateKeysFields_nil, removePrivateKeys_str, removePrivateKeys_number]
  have hrequested : removePrivateKeys [] (requestedDocument m.accounts) =
      requestedDocument m.accounts := by
    cases m.accounts with
    | count number => rfl
    | publicKeys keys => exact removePrivateKeys_map (fun _ => rfl) keys
  have hdistributions := removePrivateKeys_map hdistribution m.currencyDistributions
  unfold mosaicPresetDocument
  simp (disch := decide +kernel) only [removePrivateKeys_object, removePrivateKeysFields_nil_cons,
    removePrivateKeysFields_nil, removePrivateKeys_str, removePrivateKeys_number, hrequested,
    hdistributions]

theorem removePrivateKeys_nemesisDocument (n : NemesisPreset) :
    removePrivateKeys [] (nemesisDocument n) =
      nemesisDocument { n with nemesisSignerPrivateKey := none } := by
  unfold nemesisDocument
  rw [removePrivateKeys_object, removePrivateKeysFields_append,
    removePrivateKeysFields_optionalField_nil (by decide),
    removePrivateKeysFields_privateField (by decide)]
  simp only [Option.map_map, Function.comp_def,
    removePrivateKeys_map removePrivateKeys_mosaicPresetDocument]
  rfl

/-- What `removePrivateKeys` leaves of the preset. -/
theorem removePrivateKeys_presetDocument (p : ConfigPreset) :
    removePrivateKeys [] (presetDocument p) = presetDocument (storedPreset p) := by
  have hnodes := removePrivateKeys_map removePrivateKeys_nodePresetDocument p.nodes
  have hnemesis : p.nemesis.map (fun n => removePrivateKeys [] (nemesisDocument n)) =
      (storedPreset p).nemesis.map nemesisDocument := by
    simp only [removePrivateKeys_nemesisDocument, storedPreset, Option.map_map,
      Function.comp_def]
  unfold presetDocument
  simp (disch := decide +kernel) only [removePrivateKeys_object, removePrivateKeysFields_append,
    removePrivateKeysFields_textField, removePrivateKeysFields_nil_cons,
    removePrivateKeysFields_nil, removePrivateKeysFields_optionalField_nil,
    removePrivateKeys_str, removePrivateKeys_bool, removePrivateKeys_number, hnodes,
    Option.map_map, Function.comp_def, hnemesis]
  simp only [storedPreset, List.map_map, Function.comp_def]

end Preset

end SymbolBootstrap.AddressesDocuments
