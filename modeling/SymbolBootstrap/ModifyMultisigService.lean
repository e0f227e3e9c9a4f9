import SymbolBootstrap.Library.Throwing
import SymbolBootstrap.AnnounceService

/-!
ModifyMultisigService.ts: reading the parameters of a multisig modification, checking
them against the multisig account as it is, and creating the transaction. Addresses are
in their plain form, in which the source compares them. What symbol-sdk does with an
address text is a parameter, and so are the answers given to prompts.
-/
namespace SymbolBootstrap.ModifyMultisigService

open Library.Throwing ConfigurationUtils AnnounceService

structure MultisigAccountModificationTransaction where
  deadline : ℕ
  minApprovalDelta : ℤ
  minRemovalDelta : ℤ
  addressAdditions : List Address
  addressDeletions : List Address
  networkType : NetworkType
  maxFee : ℕ
deriving DecidableEq, Repr

section Validation

variable (addressAdditions addressDeletions : Option (List Address))
  (minRemovalDelta minApprovalDelta : Option ℤ)
  (currentMultisigInfo : Option MultisigAccountInfo)

def newMinApproval : ℤ :=
  match currentMultisigInfo with
  | some info => info.minApproval + minApprovalDelta.getD 0
  | none => minApprovalDelta.getD 0

def newMinRemoval : ℤ :=
  match currentMultisigInfo with
  | some info => info.minRemoval + minRemovalDelta.getD 0
  | none => minRemovalDelta.getD 0

def numberOfAddedCosigners : ℤ :=
  (addressAdditions.getD []).length - (addressDeletions.getD []).length

def newCosignatoryNumber : ℤ :=
  match currentMultisigInfo with
  | some info =>
      info.cosignatoryAddresses.length + numberOfAddedCosigners addressAdditions addressDeletions
  | none => numberOfAddedCosigners addressAdditions addressDeletions

def isCosignatory (address : Address) : Bool :=
  match currentMultisigInfo with
  | some info => info.cosignatoryAddresses.any (fun ca => ca == address)
  | none => false

def checkAddition (addressToAdd : Address) : Except String Unit :=
  if isCosignatory currentMultisigInfo addressToAdd then
    throw ("Cannot add cosignatory! " ++ addressToAdd ++ " is already a cosignatory!")
  else return ()

def checkDeletion (addressToRemove : Address) : Except String Unit :=
  if !isCosignatory currentMultisigInfo addressToRemove then
    throw ("Cannot remove cosignatory! " ++ addressToRemove ++ " is not an actual cosignatory!")
  else return ()

def validateParams : Except String Unit := do
  let newMinApproval := newMinApproval minApprovalDelta currentMultisigInfo
  let newMinRemoval := newMinRemoval minRemovalDelta currentMultisigInfo
  let newCosignatoryNumber :=
    newCosignatoryNumber addressAdditions addressDeletions currentMultisigInfo
  (addressAdditions.getD []).forM (checkAddition currentMultisigInfo)
  (addressDeletions.getD []).forM (checkDeletion currentMultisigInfo)
  if newCosignatoryNumber < newMinApproval then
    throw ("There are " ++ toString (newMinApproval - newCosignatoryNumber) ++
      " more required cosignatories than available cosignatories for min. approval. " ++
      "Please add cosignatories or reduce the min. approval delta.")
  if newCosignatoryNumber < newMinRemoval then
    throw ("There are " ++ toString (newMinRemoval - newCosignatoryNumber) ++
      "  more required cosignatories than available cosignatories for min removal. " ++
      "Please add cosignatories or reduce the min. removal delta.")
  if newCosignatoryNumber > 0 ∧ (newMinApproval = 0 ∨ newMinRemoval = 0) then
    throw ("Minimum approval and/or minimum removal cannot be set to 0 while there are " ++
      toString newCosignatoryNumber ++ " cosignatories in your list.")

end Validation

section Parameters

/-- What is used of symbol-sdk to read an address. -/
structure AddressSdk where
  isValidRawAddress : String → Bool
  createFromRawAddress : String → Address
  networkType : Address → NetworkType

/-- The answers to `prompt`, by the name and the message of the question. -/
structure Prompts where
  text : String → String → String
  number : String → String → ℤ

/-- The parameters that `createTransactions` reads. -/
structure ModifyMultisigParams where
  minRemovalDelta : Option ℤ
  minApprovalDelta : Option ℤ
  addressAdditions : Option String
  addressDeletions : Option String
deriving DecidableEq, Repr

/-- The characters that `trim` removes. -/
def isTrimmed (c : Char) : Bool :=
  c == ' ' || (9 ≤ c.toNat && c.toNat ≤ 13) || c.toNat == 0xA0 || c.toNat == 0x1680 ||
    (0x2000 ≤ c.toNat && c.toNat ≤ 0x200A) || c.toNat == 0x2028 || c.toNat == 0x2029 ||
    c.toNat == 0x202F || c.toNat == 0x205F || c.toNat == 0x3000 || c.toNat == 0xFEFF

def trim (text : String) : String :=
  String.ofList (((text.toList.dropWhile isTrimmed).reverse.dropWhile isTrimmed).reverse)

def split (text : String) (separator : Char) : List String :=
  (text.toList.splitOn separator).map String.ofList

variable (sdk : AddressSdk) (prompts : Prompts) (networkType : NetworkType)

def toAddress (addressString : String) : Except String Address :=
  if !sdk.isValidRawAddress addressString then
    throw ("Address " ++ addressString ++ " is not valid!")
  else
    let address := sdk.createFromRawAddress addressString
    if sdk.networkType address ≠ networkType then
      throw ("Address " ++ addressString ++ " invalid network type. Expected " ++
        toString networkType ++ " but got " ++ toString (sdk.networkType address))
    else return address

def toAddresses (addresses : List String) : Except String (List Address) :=
  addresses.mapM (fun addressString => toAddress sdk networkType (trim addressString))

def resolveCosigners (name message : String) (cosigners : Option String) :
    Except String (List Address) :=
  let resolution := cosigners.getD (prompts.text name message)
  if resolution = "" then return []
  else toAddresses sdk networkType (split resolution ',')

def resolveAddressAdditions (cosigners : Option String) : Except String (List Address) :=
  resolveCosigners sdk prompts networkType "addressAdditions"
    "Enter the cosignatory addresses to add (separated by a comma) <Press enter to skip>:"
    cosigners

def resolveAddressDeletions (cosigners : Option String) : Except String (List Address) :=
  resolveCosigners sdk prompts networkType "addressDeletions"
    "Enter the cosignatory addresses to remove (separated by a comma) <Press enter to skip>:"
    cosigners

def resolveDelta (name message : String) (delta : Option ℤ) : ℤ :=
  delta.getD (prompts.number name message)

def resolveMinRemovalDelta (delta : Option ℤ) : ℤ :=
  resolveDelta prompts "minRemovalDelta" "Minimum removal delta:" delta

def resolveMinApprovalDelta (delta : Option ℤ) : ℤ :=
  resolveDelta prompts "minApprovalDelta" "Minimum approval delta:" delta

/-- The multisig account that the modification is checked against is that of the
parameters' main account. -/
def createTransactions (chain : Chain) (params : ModifyMultisigParams)
    (factoryParams : TransactionFactoryParams) :
    Except String (List MultisigAccountModificationTransaction) := do
  let networkType := factoryParams.networkType
  let addressAdditions ← resolveAddressAdditions sdk prompts networkType params.addressAdditions
  let addressDeletions ← resolveAddressDeletions sdk prompts networkType params.addressDeletions
  let minApprovalDelta := resolveMinApprovalDelta prompts params.minApprovalDelta
  let minRemovalDelta := resolveMinRemovalDelta prompts params.minRemovalDelta
  let multisigInfo := getMultisigAccount chain factoryParams.mainAccount.address
  validateParams (some addressAdditions) (some addressDeletions) (some minRemovalDelta)
    (some minApprovalDelta) multisigInfo
  return [⟨factoryParams.deadline, minApprovalDelta, minRemovalDelta, addressAdditions,
    addressDeletions, networkType, factoryParams.maxFee⟩]

end Parameters
end SymbolBootstrap.ModifyMultisigService
