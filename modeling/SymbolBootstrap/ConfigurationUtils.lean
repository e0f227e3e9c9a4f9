import SymbolBootstrap.CryptoUtils

/-!
Accounts as the addresses service handles them. The account functions of symbol-sdk are
a parameter; drawing a random account is recorded, with what it was drawn for, so that
one can say later which accounts exist nowhere else.
-/
namespace SymbolBootstrap.ConfigurationUtils

open Library.CaseMapping

/-- `NetworkType`: the number that the enumeration of symbol-sdk stands for. -/
abbrev NetworkType := ℕ

/-- `Account` and `PublicAccount` of symbol-sdk, with the address in its plain form. -/
structure PublicAccount where
  publicKey : String
  address : String
deriving DecidableEq, Repr

structure Account extends PublicAccount where
  privateKey : String
deriving DecidableEq, Repr

inductive SdkAccount
  | account (account : Account)
  | publicAccount (account : PublicAccount)
deriving DecidableEq, Repr

/-- What is used of symbol-sdk. `generateNewAccount n` is the account that the `n`-th
draw gives, `randomHash n` the text of 32 random bytes. -/
structure SymbolSdk where
  createFromPrivateKey : String → NetworkType → Except String Account
  createFromPublicKey : String → NetworkType → Except String PublicAccount
  generateNewAccount : ℕ → NetworkType → Account
  randomHash : ℕ → String
  createFromRawAddress : String → Except String String
  createAddressFromPublicKey : Option String → NetworkType → Except String String
  createMosaicId : ℕ → String → String

/-- How the keys of symbol-sdk behave: hexadecimal digits are read in either case and
written in upper case, and an account is determined by its private key. -/
structure SymbolSdk.Lawful (sdk : SymbolSdk) : Prop where
  privateKey_upper : ∀ key networkType account,
    sdk.createFromPrivateKey key networkType = .ok account →
      account.privateKey = toUpperCase key ∧
        sdk.createFromPrivateKey (toUpperCase key) networkType = .ok account
  privateKey_ne : ∀ key networkType account,
    sdk.createFromPrivateKey key networkType = .ok account → account.privateKey ≠ ""
  publicKey_of_privateKey : ∀ key networkType account,
    sdk.createFromPrivateKey key networkType = .ok account →
      toUpperCase account.publicKey = account.publicKey ∧
        sdk.createFromPublicKey account.publicKey networkType = .ok account.toPublicAccount
  publicKey_eq : ∀ key networkType account,
    sdk.createFromPublicKey key networkType = .ok account →
      account.publicKey = key ∧ key ≠ "" ∧
        sdk.createFromPublicKey (toUpperCase key) networkType =
          .ok { account with publicKey := toUpperCase key }
  generated : ∀ n networkType,
    sdk.createFromPrivateKey (sdk.generateNewAccount n networkType).privateKey networkType =
      .ok (sdk.generateNewAccount n networkType)
  address_ne : ∀ n networkType, (sdk.generateNewAccount n networkType).address ≠ ""
  randomHash_ne : ∀ n, sdk.randomHash n ≠ ""

inductive KeyName
  | main
  | transport
  | remote
  | vrf
deriving DecidableEq, Repr

def KeyName.text : KeyName → String
  | .main => "Main"
  | .transport => "Transport"
  | .remote => "Remote"
  | .vrf => "VRF"

/-- What a random account is drawn for. -/
inductive Purpose
  | node (index : ℕ) (keyName : KeyName)
  | nemesisSigner
  | mosaic (mosaicIndex accountIndex : ℕ)
  | sink
deriving DecidableEq, Repr

structure Draws where
  next : ℕ
  generated : List (Purpose × Account)
deriving DecidableEq, Repr

/-- Code that can draw random accounts and can throw. -/
abbrev Gen := StateT Draws (Except String)

section

variable (sdk : SymbolSdk) (networkType : NetworkType)

def generateNewAccount (purpose : Purpose) : Gen Account := fun draws =>
  let account := sdk.generateNewAccount draws.next networkType
  .ok (account, ⟨draws.next + 1, draws.generated ++ [(purpose, account)]⟩)

/-- `Convert.uint8ToHex(Crypto.randomBytes(32))`. -/
def randomHash : Gen String := fun draws =>
  .ok (sdk.randomHash draws.next, { draws with next := draws.next + 1 })

end

/-- The text itself when a test such as `if (text)` takes it. -/
def given (text : Option String) : Option String := text.filter (· ≠ "")

structure ConfigAccount where
  privateKey : Option String
  publicKey : String
  address : String
deriving DecidableEq, Repr

def toConfigAccount : SdkAccount → ConfigAccount
  | .account account => ⟨some account.privateKey, account.publicKey, account.address⟩
  | .publicAccount account => ⟨none, account.publicKey, account.address⟩

section

variable (sdk : SymbolSdk) (networkType : NetworkType)

def toAccount (publicKey privateKey : Option String) : Except String (Option SdkAccount) :=
  match given privateKey, given publicKey with
  | some privateKey, none => do
      let account ← sdk.createFromPrivateKey privateKey networkType
      return some (.account account)
  | some privateKey, some publicKey => do
      let account ← sdk.createFromPrivateKey privateKey networkType
      if toUpperCase account.publicKey ≠ toUpperCase publicKey then
        throw "Invalid provided public key/private key!"
      return some (.account account)
  | none, some publicKey => do
      let account ← sdk.createFromPublicKey publicKey networkType
      return some (.publicAccount account)
  | none, none => return none

def toConfigAccountFomKeys (publicKey privateKey : Option String) :
    Except String (Option ConfigAccount) := do
  let account ← toAccount sdk networkType publicKey privateKey
  return account.map toConfigAccount

end

end SymbolBootstrap.ConfigurationUtils
