import Mathlib.Algebra.GroupWithZero.Nat
import SymbolBootstrap.EncryptionRoundTrip
import SymbolBootstrap.Library.Throwing

/-!
`YamlUtils.loadYaml`, and how loading with a password and without one agree. The function
that counts encrypted texts and the one that decrypts them visit the same leaves; the one
that decrypts also rebuilds everything else, and does not give a date or a binary back.
-/
namespace SymbolBootstrap.YamlUtils

open Library.Documents CryptoUtils EncryptionRoundTrip

/-- `string | false | undefined`. -/
inductive Password
  | text (password : String)
  | off
  | undefined
deriving DecidableEq

/-- `password.length`, in code units. -/
def codeUnits (text : String) : ℕ :=
  (text.toList.map fun c => if c.toNat < 65536 then 1 else 2).sum

def passwordMinSize : ℕ := 4

def validatePassword (password : String) : Except String String :=
  if codeUnits password < passwordMinSize then
    throw ("Password is too short. It should have at least " ++ toString passwordMinSize ++
      " characters!")
  else return password

section Load

variable (crypto : Crypto) (loadFileAsText : String → Except String String)
  (fromYaml : String → Except String Value)

/-- The branch of a password that is given. -/
def loadWithPassword (fileLocation password : String) (object : Value) : Except String Value := do
  let _ ← validatePassword password
  match decrypt crypto password "" object with
  | .ok decrypted => return decrypted
  | .error _ =>
      throw ("Cannot decrypt file " ++ fileLocation ++ ". Have you used the right password?")

def seemsEncrypted (fileLocation : String) : String :=
  "File " ++ fileLocation ++ " seems to be encrypted but no password has been provided. " ++
    "Have you entered the right password?"

def loadYaml (fileLocation : String) (password : Password) : Except String Value := do
  let object ← fromYaml (← loadFileAsText fileLocation)
  match password with
  | .off => return object
  | .undefined =>
      if encryptedCount "" object > 0 then throw (seemsEncrypted fileLocation) else return object
  | .text password =>
      if password ≠ "" then loadWithPassword crypto fileLocation password object
      else if encryptedCount "" object > 0 then throw (seemsEncrypted fileLocation)
      else return object

end Load

/-- A text that is encrypted, under the name of an encryptable key, is somewhere in a value. -/
inductive HoldsEncrypted : String → Value → Prop
  | text {fieldName text : String} (hkey : isEncryptableKey fieldName = true)
      (hencrypted : isEncrypted text = true) : HoldsEncrypted fieldName (.str text)
  | item {fieldName : String} {items : List Value} {named : Fields} {item : Value}
      (hitem : item ∈ items) (h : HoldsEncrypted "" item) :
      HoldsEncrypted fieldName (.array items named)
  | field {fieldName name : String} {fields : Fields} {value : Value}
      (hfield : (name, value) ∈ fields) (h : HoldsEncrypted name value) :
      HoldsEncrypted fieldName (.object fields)

section Count

theorem isEncrypted_ne_empty {text : String} (h : isEncrypted text = true) : text ≠ "" := by
  rintro rfl
  exact absurd h (by decide)

mutual

theorem holdsEncrypted_of_count : ∀ (fieldName : String) (value : Value),
    0 < encryptedCount fieldName value → HoldsEncrypted fieldName value
  | _, .scalar _, h => absurd h (Nat.lt_irrefl 0)
  | fieldName, .str text, h => by
    rw [encryptedCount] at h
    by_cases hall : text ≠ "" ∧ isEncryptableKey fieldName = true ∧ isEncrypted text = true
    · exact .text hall.2.1 hall.2.2
    · rw [if_neg hall] at h
      exact absurd h (Nat.lt_irrefl 0)
  | _, .date _, h => absurd h (Nat.lt_irrefl 0)
  | _, .binary _, h => absurd h (Nat.lt_irrefl 0)
  | _, .array items _, h => by
    obtain ⟨item, hitem, hholds⟩ := holdsEncrypted_of_countItems items h
    exact .item hitem hholds
  | _, .object fields, h => by
    obtain ⟨name, value, hfield, hholds⟩ := holdsEncrypted_of_countFields fields h
    exact .field hfield hholds

theorem holdsEncrypted_of_countItems : ∀ items : List Value, 0 < encryptedCountItems items →
    ∃ item ∈ items, HoldsEncrypted "" item
  | [], h => absurd h (Nat.lt_irrefl 0)
  | item :: rest, h => by
    rw [encryptedCountItems] at h
    by_cases hitem : 0 < encryptedCount "" item
    · exact ⟨item, List.mem_cons_self, holdsEncrypted_of_count "" item hitem⟩
    · obtain ⟨other, hother, hholds⟩ := holdsEncrypted_of_countItems rest (by omega)
      exact ⟨other, List.mem_cons_of_mem item hother, hholds⟩

theorem holdsEncrypted_of_countFields : ∀ fields : Fields, 0 < encryptedCountFields fields →
    ∃ name value, (name, value) ∈ fields ∧ HoldsEncrypted name value
  | [], h => absurd h (Nat.lt_irrefl 0)
  | (name, value) :: rest, h => by
    rw [encryptedCountFields] at h
    by_cases hvalue : 0 < encryptedCount name value
    · exact ⟨name, value, List.mem_cons_self, holdsEncrypted_of_count name value hvalue⟩
    · obtain ⟨name', value', hother, hholds⟩ := holdsEncrypted_of_countFields rest (by omega)
      exact ⟨name', value', List.mem_cons_of_mem _ hother, hholds⟩

end

theorem encryptedCountItems_pos {items : List Value} {item : Value} (hitem : item ∈ items)
    (h : 0 < encryptedCount "" item) : 0 < encryptedCountItems items := by
  induction items with
  | nil => exact absurd hitem List.not_mem_nil
  | cons first rest ih =>
    rw [encryptedCountItems]
    rcases List.mem_cons.mp hitem with rfl | hin
    · omega
    · have hrest := ih hin
      omega

theorem encryptedCountFields_pos {fields : Fields} {name : String} {value : Value}
    (hfield : (name, value) ∈ fields) (h : 0 < encryptedCount name value) :
    0 < encryptedCountFields fields := by
  induction fields with
  | nil => exact absurd hfield List.not_mem_nil
  | cons first rest ih =>
    obtain ⟨name', value'⟩ := first
    rw [encryptedCountFields]
    rcases List.mem_cons.mp hfield with heq | hin
    · cases heq
      omega
    · have hrest := ih hin
      omega

/-- The count is positive exactly for the values that hold an encrypted text. -/
theorem encryptedCount_pos_iff {fieldName : String} {value : Value} :
    0 < encryptedCount fieldName value ↔ HoldsEncrypted fieldName value := by
  constructor
  · exact holdsEncrypted_of_count fieldName value
  · intro h
    induction h with
    | text hkey hencrypted =>
      rw [encryptedCount, if_pos ⟨isEncrypted_ne_empty hencrypted, hkey, hencrypted⟩]
      exact Nat.one_pos
    | item hitem _ ih => exact encryptedCountItems_pos hitem ih
    | field hfield _ ih => exact encryptedCountFields_pos hfield ih

end Count

section Decrypt

variable {crypto : Crypto} {password : String}

mutual

/-- Without encrypted texts `decrypt` is the rebuilding alone. -/
theorem decrypt_of_count_zero : ∀ (fieldName : String) (value : Value),
    encryptedCount fieldName value = 0 →
    decrypt crypto password fieldName value = .ok (rebuilt value)
  | _, .scalar _, _ => rfl
  | fieldName, .str text, h => by
    rw [encryptedCount] at h
    by_cases hall : text ≠ "" ∧ isEncryptableKey fieldName = true ∧ isEncrypted text = true
    · rw [if_pos hall] at h
      cases h
    · rw [decrypt, if_neg hall]
      rfl
  | _, .date _, _ => rfl
  | _, .binary _, _ => rfl
  | _, .array items _, h => by
    rw [decrypt, decryptItems_of_count_zero items h]
    rfl
  | _, .object fields, h => by
    rw [decrypt, decryptFields_of_count_zero fields h]
    rfl

theorem decryptItems_of_count_zero : ∀ items : List Value, encryptedCountItems items = 0 →
    decryptItems crypto password items = .ok (rebuiltItems items)
  | [], _ => rfl
  | item :: rest, h => by
    rw [encryptedCountItems] at h
    rw [decryptItems, decrypt_of_count_zero "" item (by omega),
      decryptItems_of_count_zero rest (by omega)]
    rfl

theorem decryptFields_of_count_zero : ∀ fields : Fields, encryptedCountFields fields = 0 →
    decryptFields crypto password fields = .ok (rebuiltFields fields)
  | [], _ => rfl
  | (name, value) :: rest, h => by
    rw [encryptedCountFields] at h
    rw [decryptFields, decrypt_of_count_zero name value (by omega),
      decryptFields_of_count_zero rest (by omega)]
    rfl

end

section Attempts

variable (crypto password)

mutual

/-- How often `decrypt` calls `Crypto.decrypt`, up to the call that throws. -/
def decryptCalls (fieldName : String) : Value → ℕ
  | .scalar _ => 0
  | .str text =>
      if text ≠ "" ∧ isEncryptableKey fieldName = true ∧ isEncrypted text = true then 1 else 0
  | .date _ => 0
  | .binary _ => 0
  | .array items _ => decryptCallsItems items
  | .object fields => decryptCallsFields fields

def decryptCallsItems : List Value → ℕ
  | [] => 0
  | item :: rest =>
      match decrypt crypto password "" item with
      | .error _ => decryptCalls "" item
      | .ok _ => decryptCalls "" item + decryptCallsItems rest

def decryptCallsFields : Fields → ℕ
  | [] => 0
  | (name, value) :: rest =>
      match decrypt crypto password name value with
      | .error _ => decryptCalls name value
      | .ok _ => decryptCalls name value + decryptCallsFields rest

end

end Attempts

/-- A part that throws has an encrypted text. -/
theorem count_pos_of_error {fieldName error : String} {value : Value}
    (h : decrypt crypto password fieldName value = .error error) :
    0 < encryptedCount fieldName value := by
  refine Nat.pos_of_ne_zero fun hcount => ?_
  rw [decrypt_of_count_zero fieldName value hcount] at h
  cases h

mutual

theorem decryptCalls_eq_zero_iff : ∀ (fieldName : String) (value : Value),
    decryptCalls crypto password fieldName value = 0 ↔ encryptedCount fieldName value = 0
  | _, .scalar _ => Iff.rfl
  | _, .str _ => by rw [decryptCalls, encryptedCount]
  | _, .date _ => Iff.rfl
  | _, .binary _ => Iff.rfl
  | _, .array items _ => by
    rw [decryptCalls, encryptedCount]
    exact decryptCallsItems_eq_zero_iff items
  | _, .object fields => by
    rw [decryptCalls, encryptedCount]
    exact decryptCallsFields_eq_zero_iff fields

theorem decryptCallsItems_eq_zero_iff : ∀ items : List Value,
    decryptCallsItems crypto password items = 0 ↔ encryptedCountItems items = 0
  | [] => Iff.rfl
  | item :: rest => by
    have hitem := decryptCalls_eq_zero_iff "" item
    have hrest := decryptCallsItems_eq_zero_iff rest
    rw [decryptCallsItems, encryptedCountItems]
    cases hrun : decrypt crypto password "" item with
    | error error =>
      have hcount := count_pos_of_error hrun
      simp only
      omega
    | ok item' =>
      simp only
      omega

theorem decryptCallsFields_eq_zero_iff : ∀ fields : Fields,
    decryptCallsFields crypto password fields = 0 ↔ encryptedCountFields fields = 0
  | [] => Iff.rfl
  | (name, value) :: rest => by
    have hvalue := decryptCalls_eq_zero_iff name value
    have hrest := decryptCallsFields_eq_zero_iff rest
    rw [decryptCallsFields, encryptedCountFields]
    cases hrun : decrypt crypto password name value with
    | error error =>
      have hcount := count_pos_of_error hrun
      simp only
      omega
    | ok value' =>
      simp only
      omega

end

section Same

/-- A text is longer than the part that was encrypted. -/
theorem encryptedPart_length_lt {text : String} (h : isEncrypted text = true) :
    (encryptedPart text).length < text.length := by
  obtain ⟨rest, hrest⟩ := List.isPrefixOf_iff_prefix.mp h
  rw [encryptedPart, ← String.length_toList, ← String.length_toList, String.toList_ofList,
    List.length_drop, ← hrest, List.length_append]
  have hprefix : 0 < encryptPrefix.toList.length := by decide
  omega

theorem decryptText_ne (hshorter : ∀ encrypted text,
    crypto.decrypt encrypted password = .ok text → text.length ≤ encrypted.length)
    {text : String} (h : isEncrypted text = true) :
    decryptText crypto password text ≠ .ok (.str text) := by
  intro hsame
  rw [decryptText] at hsame
  split at hsame
  · cases hsame
  · rename_i decryptedValue hdecrypted
    split at hsame
    · cases hsame
    · cases hsame
      have hle := hshorter _ _ hdecrypted
      have hlt := encryptedPart_length_lt h
      omega

mutual

/-- A value that `decrypt` gives back has no encrypted text. -/
theorem count_zero_of_same (hshorter : ∀ encrypted text,
    crypto.decrypt encrypted password = .ok text → text.length ≤ encrypted.length) :
    ∀ (fieldName : String) (value : Value),
    decrypt crypto password fieldName value = .ok value → encryptedCount fieldName value = 0
  | _, .scalar _, _ => rfl
  | fieldName, .str text, h => by
    rw [encryptedCount]
    by_cases hall : text ≠ "" ∧ isEncryptableKey fieldName = true ∧ isEncrypted text = true
    · rw [decrypt, if_pos hall] at h
      exact absurd h (decryptText_ne hshorter hall.2.2)
    · rw [if_neg hall]
  | _, .date _, _ => rfl
  | _, .binary _, _ => rfl
  | _, .array items _, h => by
    obtain ⟨items', hitems, hpure⟩ := Library.Throwing.bind_ok.mp h
    cases hpure
    exact countItems_zero_of_same hshorter items hitems
  | _, .object fields, h => by
    obtain ⟨fields', hfields, hpure⟩ := Library.Throwing.bind_ok.mp h
    cases hpure
    exact countFields_zero_of_same hshorter fields hfields

theorem countItems_zero_of_same (hshorter : ∀ encrypted text,
    crypto.decrypt encrypted password = .ok text → text.length ≤ encrypted.length) :
    ∀ items : List Value,
    decryptItems crypto password items = .ok items → encryptedCountItems items = 0
  | [], _ => rfl
  | item :: rest, h => by
    obtain ⟨item', hitem, hmore⟩ := Library.Throwing.bind_ok.mp h
    obtain ⟨rest', hrest, hpure⟩ := Library.Throwing.bind_ok.mp hmore
    cases hpure
    rw [encryptedCountItems, count_zero_of_same hshorter "" item hitem,
      countItems_zero_of_same hshorter rest hrest]

theorem countFields_zero_of_same (hshorter : ∀ encrypted text,
    crypto.decrypt encrypted password = .ok text → text.length ≤ encrypted.length) :
    ∀ fields : Fields,
    decryptFields crypto password fields = .ok fields → encryptedCountFields fields = 0
  | [], _ => rfl
  | (name, value) :: rest, h => by
    obtain ⟨value', hvalue, hmore⟩ := Library.Throwing.bind_ok.mp h
    obtain ⟨rest', hrest, hpure⟩ := Library.Throwing.bind_ok.mp hmore
    cases hpure
    rw [encryptedCountFields, count_zero_of_same hshorter name value hvalue,
      countFields_zero_of_same hshorter rest hrest]

end

/-- What `decrypt` gives back as it was is a plain value without encrypted texts. -/
theorem decrypt_same_iff (hshorter : ∀ encrypted text,
    crypto.decrypt encrypted password = .ok text → text.length ≤ encrypted.length)
    {fieldName : String} {value : Value} :
    decrypt crypto password fieldName value = .ok value ↔
      encryptedCount fieldName value = 0 ∧ isPlain value = true := by
  constructor
  · intro h
    have hcount := count_zero_of_same hshorter fieldName value h
    rw [decrypt_of_count_zero fieldName value hcount, Except.ok.injEq, rebuilt_eq_iff] at h
    exact ⟨hcount, h⟩
  · rintro ⟨hcount, hplain⟩
    rw [decrypt_of_count_zero fieldName value hcount, rebuilt_eq_iff value |>.mpr hplain]

end Same

end Decrypt

section Agreement

variable {crypto : Crypto} {loadFileAsText : String → Except String String}
  {fromYaml : String → Except String Value} {fileLocation text : String} {value : Value}

variable (hfile : loadFileAsText fileLocation = .ok text) (hyaml : fromYaml text = .ok value)
include hfile hyaml

theorem loadYaml_undefined : loadYaml crypto loadFileAsText fromYaml fileLocation .undefined =
    if encryptedCount "" value > 0 then .error (seemsEncrypted fileLocation) else .ok value := by
  rw [loadYaml, hfile]
  show (fromYaml text >>= _) = _
  rw [hyaml]
  rfl

theorem loadYaml_text {password : String} (hvalid : validatePassword password = .ok password) :
    loadYaml crypto loadFileAsText fromYaml fileLocation (.text password) = .ok value ↔
      decrypt crypto password "" value = .ok value := by
  have hgiven : password ≠ "" := by
    rintro rfl
    cases hvalid
  rw [loadYaml, hfile]
  show (fromYaml text >>= _) = _ ↔ _
  rw [hyaml]
  show (if password ≠ "" then loadWithPassword crypto fileLocation password value else _) = _ ↔ _
  rw [if_pos hgiven, loadWithPassword, hvalid]
  cases hdecrypt : decrypt crypto password "" value with
  | error error => exact ⟨fun h => (nomatch h), fun h => (nomatch h)⟩
  | ok decrypted => exact Iff.rfl

end Agreement

/-- Loading a value with a password and without one agree. -/
structure LoadsAgree (crypto : Crypto) (value : Value) : Prop where
  kept : encryptedCount "" value = 0 → ∀ password, decrypt crypto password "" value = .ok value
  attempted : ∀ password, 0 < encryptedCount "" value ↔ 0 < decryptCalls crypto password "" value
  rejected : ∀ {loadFileAsText : String → Except String String}
    {fromYaml : String → Except String Value} {fileLocation text password : String},
    loadFileAsText fileLocation = .ok text → fromYaml text = .ok value →
    validatePassword password = .ok password →
    (loadYaml crypto loadFileAsText fromYaml fileLocation .undefined =
        .error (seemsEncrypted fileLocation) ↔
      loadYaml crypto loadFileAsText fromYaml fileLocation (.text password) ≠ .ok value)

/-- The two ways to load agree exactly on the values without dates and binaries and on those
that hold an encrypted text. -/
theorem loads_agree_exactly {crypto : Crypto}
    (hshorter : ∀ password encrypted text, crypto.decrypt encrypted password = .ok text →
      text.length ≤ encrypted.length) (value : Value) :
    LoadsAgree crypto value ↔ isPlain value = true ∨ HoldsEncrypted "" value := by
  constructor
  · intro h
    by_cases hcount : 0 < encryptedCount "" value
    · exact Or.inr (encryptedCount_pos_iff.mp hcount)
    · have hsame := h.kept (Nat.eq_zero_of_not_pos hcount) ""
      exact Or.inl ((decrypt_same_iff (hshorter "")).mp hsame).2
  · intro h
    have hplain : encryptedCount "" value = 0 → isPlain value = true := by
      intro hcount
      refine h.resolve_right fun hholds => ?_
      have hpos := encryptedCount_pos_iff.mpr hholds
      omega
    refine ⟨fun hcount password => ?_, fun password => ?_, fun hfile hyaml hvalid => ?_⟩
    · exact (decrypt_same_iff (hshorter password)).mpr ⟨hcount, hplain hcount⟩
    · have hcalls : decryptCalls crypto password "" value = 0 ↔ encryptedCount "" value = 0 :=
        decryptCalls_eq_zero_iff "" value
      omega
    · rw [loadYaml_undefined hfile hyaml, Ne, loadYaml_text hfile hyaml hvalid,
        decrypt_same_iff (hshorter _)]
      by_cases hcount : 0 < encryptedCount "" value
      · rw [if_pos hcount]
        exact iff_of_true rfl fun hsame => absurd hsame.1 (Nat.ne_of_gt hcount)
      · have hzero := Nat.eq_zero_of_not_pos hcount
        rw [if_neg hcount]
        exact iff_of_false (fun herror => nomatch herror) fun hnot =>
          hnot ⟨hzero, hplain hzero⟩

theorem lockedCrypto_shorter (password encrypted text : String)
    (h : lockedCrypto.decrypt encrypted password = .ok text) :
    text.length ≤ encrypted.length := by
  simp only [lockedCrypto] at h
  split at h
  · cases h
    rw [← String.length_toList, ← String.length_toList, String.toList_ofList, List.length_drop]
    exact Nat.sub_le _ _
  · cases h

theorem loads_agree_exactly_locked :
    LoadsAgree lockedCrypto (.object [("node", .object [("name", .str "api-node"),
      ("mainPrivateKey", .str "ENCRYPTED:1234ab12")])]) := by
  refine (loads_agree_exactly lockedCrypto_shorter _).mpr (Or.inr ?_)
  refine .field List.mem_cons_self (.field (List.mem_cons_of_mem _ List.mem_cons_self) ?_)
  exact .text (by decide) (by decide)

/-- With a password a timestamp is lost, and without one the file is not rejected. -/
theorem loads_disagree : ¬ ∀ value, LoadsAgree lockedCrypto value := by
  intro h
  have hdate := (h (.object [("createdAt", .date 1640995200000)])).kept rfl "1234"
  cases hdate

end SymbolBootstrap.YamlUtils
