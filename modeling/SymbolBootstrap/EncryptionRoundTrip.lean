import SymbolBootstrap.CryptoUtils

/-!
What `decrypt` makes of an encrypted document. Both functions rebuild arrays and objects, and
take a date or a binary for an object: the document comes back when it holds neither.
-/
namespace SymbolBootstrap.EncryptionRoundTrip

open Library.Documents CryptoUtils

mutual

/-- A document as `map` and `_.mapValues` rebuild it. -/
def rebuilt : Value → Value
  | .scalar value => .scalar value
  | .str text => .str text
  | .date _ => .object []
  | .binary bytes => .object (byteFields bytes)
  | .array items _ => .array (rebuiltItems items) []
  | .object fields => .object (rebuiltFields fields)

def rebuiltItems : List Value → List Value
  | [] => []
  | item :: rest => rebuilt item :: rebuiltItems rest

def rebuiltFields : Fields → Fields
  | [] => []
  | (name, value) :: rest => (name, rebuilt value) :: rebuiltFields rest

end

mutual

/-- A document of scalars, strings, objects and arrays with nothing but items. -/
def isPlain : Value → Bool
  | .scalar _ => true
  | .str _ => true
  | .date _ => false
  | .binary _ => false
  | .array items named => isPlainItems items && named.isEmpty
  | .object fields => isPlainFields fields

def isPlainItems : List Value → Bool
  | [] => true
  | item :: rest => isPlain item && isPlainItems rest

def isPlainFields : Fields → Bool
  | [] => true
  | (_, value) :: rest => isPlain value && isPlainFields rest

end

mutual

theorem rebuilt_eq_iff : ∀ value, rebuilt value = value ↔ isPlain value = true
  | .scalar _ => by simp [rebuilt, isPlain]
  | .str _ => by simp [rebuilt, isPlain]
  | .date _ => by simp [rebuilt, isPlain]
  | .binary _ => by simp [rebuilt, isPlain]
  | .array items named => by
    have hitems := rebuiltItems_eq_iff items
    rw [rebuilt, isPlain, Value.array.injEq, hitems, Bool.and_eq_true, List.isEmpty_iff,
      eq_comm (a := named)]
  | .object fields => by
    rw [rebuilt, isPlain, Value.object.injEq, rebuiltFields_eq_iff fields]

theorem rebuiltItems_eq_iff : ∀ items, rebuiltItems items = items ↔ isPlainItems items = true
  | [] => by simp [rebuiltItems, isPlainItems]
  | item :: rest => by
    rw [rebuiltItems, isPlainItems, List.cons.injEq, rebuilt_eq_iff item,
      rebuiltItems_eq_iff rest, Bool.and_eq_true]

theorem rebuiltFields_eq_iff : ∀ fields,
    rebuiltFields fields = fields ↔ isPlainFields fields = true
  | [] => by simp [rebuiltFields, isPlainFields]
  | (name, value) :: rest => by
    rw [rebuiltFields, isPlainFields, List.cons.injEq, Prod.mk.injEq, rebuilt_eq_iff value,
      rebuiltFields_eq_iff rest, Bool.and_eq_true]
    simp only [true_and]

end

section

variable {crypto : Crypto} {password : String}

theorem isEncrypted_append (text : String) : isEncrypted (encryptPrefix ++ text) = true := by
  rw [isEncrypted, String.toList_append, List.isPrefixOf_iff_prefix]
  exact List.prefix_append _ _

theorem append_ne_empty (text : String) : encryptPrefix ++ text ≠ "" := by
  intro hempty
  have hlist := congrArg String.toList hempty
  rw [String.toList_append, String.toList_empty, List.append_eq_nil_iff] at hlist
  exact absurd hlist.1 (by decide)

theorem encryptedPart_append (text : String) : encryptedPart (encryptPrefix ++ text) = text := by
  rw [encryptedPart, String.toList_append, List.drop_left, String.ofList_toList]

/-- The bytes of a binary are no strings. -/
theorem decrypt_byteFields (bytes : List UInt8) :
    decryptFields crypto password (byteFields bytes) = .ok (byteFields bytes) := by
  refine byteFields_induction
    (motive := fun fields => decryptFields crypto password fields = .ok fields) rfl ?_ bytes
  intro name value rest ih
  rw [decryptFields, ih]
  rfl

/-- A text is encrypted with the prefix that `decrypt` looks for, or left to itself. -/
theorem decrypt_encrypt_text (hinverse : ∀ call text, text ≠ "" →
    crypto.decrypt (crypto.encrypt call text password) password = .ok text)
    (fieldName : String) (calls : ℕ) (text : String) :
    decrypt crypto password fieldName (encrypt crypto password fieldName calls (.str text)).1 =
      .ok (.str text) := by
  by_cases h : text ≠ "" ∧ isEncryptableKey fieldName = true
  · obtain ⟨htext, hkey⟩ := h
    rw [encrypt, if_pos ⟨htext, hkey⟩, decrypt,
      if_pos ⟨append_ne_empty _, hkey, isEncrypted_append _⟩, decryptText, encryptedPart_append,
      hinverse calls text htext]
    simp only [if_neg htext]
    rfl
  · rw [encrypt, if_neg h, decrypt, if_neg (fun hall => h ⟨hall.1, hall.2.1⟩)]
    rfl

mutual

/-- Whatever the salts, decryption gives the document as it is rebuilt. -/
theorem decrypt_encrypt_rebuilt (hinverse : ∀ call text, text ≠ "" →
    crypto.decrypt (crypto.encrypt call text password) password = .ok text)
    (fieldName : String) (calls : ℕ) : ∀ value,
    decrypt crypto password fieldName (encrypt crypto password fieldName calls value).1 =
      .ok (rebuilt value)
  | .scalar _ => rfl
  | .str text => decrypt_encrypt_text hinverse fieldName calls text
  | .date _ => rfl
  | .binary bytes => by
    rw [encrypt, decrypt, decrypt_byteFields, rebuilt]
    rfl
  | .array items _ => by
    rw [encrypt, decrypt, decryptItems_encryptItems hinverse calls items, rebuilt]
    rfl
  | .object fields => by
    rw [encrypt, decrypt, decryptFields_encryptFields hinverse calls fields, rebuilt]
    rfl

theorem decryptItems_encryptItems (hinverse : ∀ call text, text ≠ "" →
    crypto.decrypt (crypto.encrypt call text password) password = .ok text)
    (calls : ℕ) : ∀ items,
    decryptItems crypto password (encryptItems crypto password calls items).1 =
      .ok (rebuiltItems items)
  | [] => rfl
  | item :: rest => by
    rw [encryptItems, decryptItems, decrypt_encrypt_rebuilt hinverse "" calls item,
      decryptItems_encryptItems hinverse _ rest, rebuiltItems]
    rfl

theorem decryptFields_encryptFields (hinverse : ∀ call text, text ≠ "" →
    crypto.decrypt (crypto.encrypt call text password) password = .ok text)
    (calls : ℕ) : ∀ fields,
    decryptFields crypto password (encryptFields crypto password calls fields).1 =
      .ok (rebuiltFields fields)
  | [] => rfl
  | (name, value) :: rest => by
    rw [encryptFields, decryptFields, decrypt_encrypt_rebuilt hinverse name calls value,
      decryptFields_encryptFields hinverse _ rest, rebuiltFields]
    rfl

end

/-- Decryption undoes encryption exactly for the documents that hold no date and no binary. -/
theorem decrypt_undoes_encrypt_exactly (hinverse : ∀ call text, text ≠ "" →
    crypto.decrypt (crypto.encrypt call text password) password = .ok text)
    (calls : ℕ) (value : Value) :
    decrypt crypto password "" (encrypt crypto password "" calls value).1 = .ok value ↔
      isPlain value = true := by
  rw [decrypt_encrypt_rebuilt hinverse, Except.ok.injEq, rebuilt_eq_iff]

end

/-- A stand-in for the SDK: the text after the password, which a wrong password does not open. -/
def lockedCrypto : Crypto where
  encrypt _ text password := password ++ text
  decrypt text password :=
    if password.toList.isPrefixOf text.toList then
      .ok (String.ofList (text.toList.drop password.toList.length))
    else .error "Malformed UTF-8 data"

theorem lockedCrypto_inverse (password : String) (call : ℕ) (text : String) (_ : text ≠ "") :
    lockedCrypto.decrypt (lockedCrypto.encrypt call text password) password = .ok text := by
  have hlocked : password.toList.isPrefixOf (password.toList ++ text.toList) = true :=
    List.isPrefixOf_iff_prefix.mpr (List.prefix_append _ _)
  simp only [lockedCrypto, String.toList_append, if_pos hlocked, List.drop_left,
    String.ofList_toList]

theorem decrypt_undoes_encrypt_exactly_locked :
    decrypt lockedCrypto "1234" ""
        (encrypt lockedCrypto "1234" "" 0
          (.object [("name", .str "api-node"), ("mainPrivateKey", .str "ab12")])).1 =
      .ok (.object [("name", .str "api-node"), ("mainPrivateKey", .str "ab12")]) :=
  (decrypt_undoes_encrypt_exactly (lockedCrypto_inverse "1234") 0 _).mpr rfl

/-- A date comes back as an empty object. -/
theorem decrypt_loses_date :
    decrypt lockedCrypto "1234" ""
        (encrypt lockedCrypto "1234" "" 0 (.object [("createdAt", .date 1640995200000)])).1 ≠
      .ok (.object [("createdAt", .date 1640995200000)]) := by
  intro h
  cases h

end SymbolBootstrap.EncryptionRoundTrip
