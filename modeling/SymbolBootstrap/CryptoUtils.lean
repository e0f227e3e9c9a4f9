import SymbolBootstrap.Library.CaseMapping
import SymbolBootstrap.Library.Documents

/-!
`CryptoUtils`: the names of the fields that hold private keys, `encrypt` and `decrypt`, and
`removePrivateKeys` with the names under which the keys go for each private key security
mode. A function that takes no name of a field is given the empty one.
-/
namespace SymbolBootstrap.CryptoUtils

open Library.CaseMapping Library.Documents

inductive PrivateKeySecurityMode
  | encrypt
  | promptMain
  | promptMainTransport
  | promptAll
deriving DecidableEq, Repr

/-- The texts of the enumeration. -/
def PrivateKeySecurityMode.text : PrivateKeySecurityMode → String
  | .encrypt => "ENCRYPT"
  | .promptMain => "PROMPT_MAIN"
  | .promptMainTransport => "PROMPT_MAIN_TRANSPORT"
  | .promptAll => "PROMPT_ALL"

def securityModes : List PrivateKeySecurityMode :=
  [.encrypt, .promptMain, .promptMainTransport, .promptAll]

/-- `ENCRYPTABLE_KEYS`. -/
def encryptableKeys : List String := ["privateKey", "restSSLKeyBase64", "privateFileContent"]

def isEncryptableKey [LowerCase] (fieldName : String) : Bool :=
  fieldName ≠ "" && encryptableKeys.any fun key =>
    endsWith (LowerCase.toLowerCase fieldName) (LowerCase.toLowerCase key)

def isEncryptableKeyField [LowerCase] : Value → String → Bool
  | .str _, fieldName => isEncryptableKey fieldName
  | _, _ => false

theorem isEncryptableKeyField_of_name [LowerCase] {name : String}
    (h : isEncryptableKey name = false) (value : Value) :
    isEncryptableKeyField value name = false := by
  cases value with
  | str text => exact h
  | _ => rfl

/-- The SDK's `Crypto`. Encryption is salted at random: its calls are numbered. -/
structure Crypto where
  encrypt : ℕ → String → String → String
  decrypt : String → String → Except String String

/-- `ENCRYPT_PREFIX`. -/
def encryptPrefix : String := "ENCRYPTED:"

/-- `text.startsWith(ENCRYPT_PREFIX)`. -/
def isEncrypted (text : String) : Bool := encryptPrefix.toList.isPrefixOf text.toList

/-- `text.substring(ENCRYPT_PREFIX.length)`. -/
def encryptedPart (text : String) : String :=
  String.ofList (text.toList.drop encryptPrefix.toList.length)

section

variable (crypto : Crypto) (password : String)

mutual

/-- `encrypt`, with the number of calls to `Crypto.encrypt` before and after. -/
def encrypt (fieldName : String) (calls : ℕ) : Value → Value × ℕ
  | .scalar value => (.scalar value, calls)
  | .str text =>
      if text ≠ "" ∧ isEncryptableKey fieldName = true then
        (.str (encryptPrefix ++ crypto.encrypt calls text password), calls + 1)
      else (.str text, calls)
  | .date _ => (.object [], calls)
  | .binary bytes => (.object (byteFields bytes), calls)
  | .array items _ =>
      let result := encryptItems calls items
      (.array result.1 [], result.2)
  | .object fields =>
      let result := encryptFields calls fields
      (.object result.1, result.2)

def encryptItems (calls : ℕ) : List Value → List Value × ℕ
  | [] => ([], calls)
  | item :: rest =>
      let result := encrypt "" calls item
      let others := encryptItems result.2 rest
      (result.1 :: others.1, others.2)

def encryptFields (calls : ℕ) : Fields → Fields × ℕ
  | [] => ([], calls)
  | (name, value) :: rest =>
      let result := encrypt name calls value
      let others := encryptFields result.2 rest
      ((name, result.1) :: others.1, others.2)

end

def decryptText (text : String) : Except String Value :=
  match crypto.decrypt (encryptedPart text) password with
  | .error _ => throw "Value could not be decrypted!"
  | .ok decryptedValue =>
    if decryptedValue = "" then throw "Value could not be decrypted!"
    else return .str decryptedValue

mutual

def decrypt (fieldName : String) : Value → Except String Value
  | .scalar value => return .scalar value
  | .str text =>
      if text ≠ "" ∧ isEncryptableKey fieldName = true ∧ isEncrypted text = true then
        decryptText crypto password text
      else return .str text
  | .date _ => return .object []
  | .binary bytes => return .object (byteFields bytes)
  | .array items _ => do
      let items ← decryptItems items
      return .array items []
  | .object fields => do
      let fields ← decryptFields fields
      return .object fields

def decryptItems : List Value → Except String (List Value)
  | [] => return []
  | item :: rest => do
      let item ← decrypt "" item
      let rest ← decryptItems rest
      return item :: rest

def decryptFields : Fields → Except String Fields
  | [] => return []
  | (name, value) :: rest => do
      let value ← decrypt name value
      let rest ← decryptFields rest
      return (name, value) :: rest

end

end

mutual

/-- `encryptedCount`. The entries of a binary are numbers, and a date has none. -/
def encryptedCount (fieldName : String) : Value → ℕ
  | .scalar _ => 0
  | .str text =>
      if text ≠ "" ∧ isEncryptableKey fieldName = true ∧ isEncrypted text = true then 1 else 0
  | .date _ => 0
  | .binary _ => 0
  | .array items _ => encryptedCountItems items
  | .object fields => encryptedCountFields fields

def encryptedCountItems : List Value → ℕ
  | [] => 0
  | item :: rest => encryptedCount "" item + encryptedCountItems rest

def encryptedCountFields : Fields → ℕ
  | [] => 0
  | (name, value) :: rest => encryptedCount name value + encryptedCountFields rest

end

/-- The blacklist that `removePrivateKeysAccordingToSecurityMode` uses for a mode. -/
def blacklistNames : PrivateKeySecurityMode → List String
  | .promptMain => ["main", "voting"]
  | .promptMainTransport => ["main", "transport", "voting"]
  | .promptAll => []
  | .encrypt => ["voting"]

section

variable [LowerCase]

/-- `find` gives the name that it found, and the empty name is falsy. -/
def isBlacklisted (blacklistNames : List String) (name : String) : Bool :=
  blacklistNames.isEmpty ||
    (blacklistNames.find? fun blacklistName =>
      contains (LowerCase.toLowerCase name) (LowerCase.toLowerCase blacklistName)).getD "" ≠ ""

mutual

/-- `removePrivateKeys`: a date loses what it holds, since it has no fields of its own, and
of a binary the object of its bytes is left. -/
def removePrivateKeys (blacklistNames : List String) : Value → Value
  | .scalar value => .scalar value
  | .str text => .str text
  | .date _ => .object []
  | .binary bytes => .object (byteFields bytes)
  | .array items _ => .array (removePrivateKeysItems blacklistNames items) []
  | .object fields => .object (removePrivateKeysFields blacklistNames fields)

def removePrivateKeysItems (blacklistNames : List String) : List Value → List Value
  | [] => []
  | item :: rest =>
      removePrivateKeys blacklistNames item :: removePrivateKeysItems blacklistNames rest

def removePrivateKeysFields (blacklistNames : List String) : Fields → Fields
  | [] => []
  | (name, value) :: rest =>
      if isBlacklisted blacklistNames name && isEncryptableKeyField value name then
        removePrivateKeysFields blacklistNames rest
      else
        (name, removePrivateKeys (if isBlacklisted blacklistNames name then [] else blacklistNames)
          value) :: removePrivateKeysFields blacklistNames rest

end

def removePrivateKeysAccordingToSecurityMode (value : Value)
    (securityMode : PrivateKeySecurityMode) : Value :=
  removePrivateKeys (blacklistNames securityMode) value

end

/-- `getPrivateKeySecurityMode`; undefined and the empty text stand for `ENCRYPT`. -/
def getPrivateKeySecurityMode (value : Option String) : Except String PrivateKeySecurityMode :=
  let text := value.getD ""
  if text = "" then .ok .encrypt
  else
    match securityModes.find? fun mode => toLowerCase mode.text = toLowerCase text with
    | some mode => .ok mode
    | none =>
      let modes := ", ".intercalate (securityModes.map PrivateKeySecurityMode.text)
      .error s!"{text} is not a valid Security Mode. Please use one of {modes}"

theorem removePrivateKeysItems_eq_map (names : List String) (items : List Value) :
    removePrivateKeysItems names items = items.map (removePrivateKeys names) := by
  induction items with
  | nil => rfl
  | cons item rest ih => rw [removePrivateKeysItems, ih, List.map_cons]

theorem removePrivateKeysFields_append (names : List String) (front back : Fields) :
    removePrivateKeysFields names (front ++ back) =
      removePrivateKeysFields names front ++ removePrivateKeysFields names back := by
  induction front with
  | nil => rfl
  | cons field rest ih =>
    obtain ⟨name, value⟩ := field
    simp only [List.cons_append, removePrivateKeysFields, ih]
    split <;> rfl

/-- A field that is not a private key stays, with what is below it stripped. -/
theorem removePrivateKeysFields_cons_kept {names : List String} {name : String}
    {value : Value} (h : isEncryptableKeyField value name = false) (rest : Fields) :
    removePrivateKeysFields names ((name, value) :: rest) =
      (name, removePrivateKeys (if isBlacklisted names name then [] else names) value) ::
        removePrivateKeysFields names rest := by
  rw [removePrivateKeysFields, h, Bool.and_false, if_neg (by decide)]

/-- The bytes of a binary are no private keys. -/
theorem removePrivateKeys_byteFields (names : List String) (bytes : List UInt8) :
    removePrivateKeys names (.object (byteFields bytes)) = .object (byteFields bytes) := by
  have hfields : removePrivateKeysFields names (byteFields bytes) = byteFields bytes := by
    refine byteFields_induction
      (motive := fun fields => removePrivateKeysFields names fields = fields) rfl ?_ bytes
    intro name value rest ih
    rw [removePrivateKeysFields_cons_kept rfl, ih]
    rfl
  rw [removePrivateKeys, hfields]

end SymbolBootstrap.CryptoUtils
