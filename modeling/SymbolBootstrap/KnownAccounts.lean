import SymbolBootstrap.ConfigurationUtils

/-!
An instance of the account functions: the test network accounts of
test/addresses/addresses-new.yml, looked up by their keys. The random draws give them in
their order, and the last one again when there is no other.
-/
namespace SymbolBootstrap.KnownAccounts

open Library.CaseMapping ConfigurationUtils

def nemesisSigner : Account where
  privateKey := "80FDECC5300F1659DBA45695C71FC1172F9B427233DB02253E9CDCB659A41354"
  publicKey := "19DA2207393FF1A51DB81CAC66AE03AC39040666041C6F4EA94B98DC91951694"
  address := "TDW35WHR3CMLFG4SOZVSQBFC66M4MIZO2ZWPYKA"

def peerMain : Account where
  privateKey := "C2DC46D78C33C7198DC45015DD6130F8F0EE4AC721BB3987D5C5A98E2B5B7C69"
  publicKey := "69AAAE762B27A45F316DBBA9E148DA05D3A92492C7D3ADB4E0CB0DF765AE7875"
  address := "TBQMUNVKOKE74C5UGXH4ZY5TRPQL5JLTM4FOV4A"

def peerTransport : Account where
  privateKey := "E085189BA6085CA73E3B154F9246016349863D88A2008B5BC4A869F7B521DB99"
  publicKey := "9BC3FABAB705D1B846FC36C4C16305CD23B5B4D7218B43D050F7F69DDBE93F1F"
  address := "TCTSJJFCSR2OCN2YP6AN4J4FVGBPU7EL4WWIJFY"

def firstCurrency : Account where
  privateKey := "DF3404AB07808E80D39BFF415238E2CEE82EF0133CC2D83C0B23E021F9FBCF3A"
  publicKey := "FC675A90A29FF714A974D11D367959287F55E1DCD7BC910B00C382C6EF7295E6"
  address := "TBLYQPXAPMEEGXY7WNXDKM2N5H7HUWQEW3MBP7A"

def secondCurrency : Account where
  privateKey := "45C918461E0C9D7E60036394F1264AB080902CDC2BA208B19C8B97848D5ADB74"
  publicKey := "6D36091CB5BF396F1ADC0CB8EABC074E2D4E8A12B9A3DF0589D6D5F535223ABA"
  address := "TATY57EUR4RTQVRCFZYTLUR4NRVEKH6V35IS3GQ"

def knownAccounts : List Account :=
  [nemesisSigner, peerMain, peerTransport, firstCurrency, secondCurrency]

def knownSdk : SymbolSdk where
  createFromPrivateKey key _ :=
    match knownAccounts.find? fun account => account.privateKey = toUpperCase key with
    | some account => .ok account
    | none => .error "unknown private key"
  createFromPublicKey key _ :=
    match knownAccounts.find? fun account => account.publicKey = toUpperCase key with
    | some account => .ok ⟨key, account.address⟩
    | none => .error "Not a valid public key"
  generateNewAccount n _ := (knownAccounts[n]?).getD secondCurrency
  randomHash _ := "4290C1703B8D6344A1023B5BC0662BFF7496B2AF566CDCEA6571E6FBE07C1675"
  createFromRawAddress rawAddress :=
    match knownAccounts.find? fun account => account.address = rawAddress with
    | some account => .ok account.address
    | none => .error "unknown address"
  createAddressFromPublicKey key _ :=
    match knownAccounts.find? fun account => some account.publicKey = key with
    | some account => .ok account.address
    | none => .error "unknown public key"
  createMosaicId nonce _ := if nonce = 0 then "5ECF396E439048D4" else "4B3722A611D8710A"

theorem knownAccounts_upper : ∀ account ∈ knownAccounts,
    toUpperCase account.privateKey = account.privateKey ∧
      toUpperCase account.publicKey = account.publicKey := by
  decide +kernel

theorem knownAccounts_nonempty : ∀ account ∈ knownAccounts,
    account.privateKey ≠ "" ∧ account.publicKey ≠ "" ∧ account.address ≠ "" := by
  decide +kernel

theorem find_publicKey : ∀ account ∈ knownAccounts,
    (knownAccounts.find? fun other => other.publicKey = account.publicKey) = some account := by
  decide +kernel

theorem find_privateKey : ∀ account ∈ knownAccounts,
    (knownAccounts.find? fun other => other.privateKey = account.privateKey) =
      some account := by
  decide +kernel

theorem createFromPrivateKey_ok {key : String} {networkType : NetworkType} {account : Account} :
    knownSdk.createFromPrivateKey key networkType = .ok account ↔
      account ∈ knownAccounts ∧ account.privateKey = toUpperCase key := by
  simp only [knownSdk]
  cases hfind : knownAccounts.find? fun account => account.privateKey = toUpperCase key with
  | none =>
    constructor
    · intro h
      cases h
    · rintro ⟨hmem, hkey⟩
      exact absurd (decide_eq_true hkey) (List.find?_eq_none.mp hfind account hmem)
  | some found =>
    have hfound : found.privateKey = toUpperCase key := by
      simpa using List.find?_some hfind
    constructor
    · intro h
      cases h
      exact ⟨List.mem_of_find?_eq_some hfind, hfound⟩
    · rintro ⟨hmem, hkey⟩
      rw [← hkey, find_privateKey account hmem] at hfind
      rw [Option.some.inj hfind]

theorem createFromPublicKey_ok {key : String} {networkType : NetworkType}
    {account : PublicAccount} :
    knownSdk.createFromPublicKey key networkType = .ok account ↔
      ∃ known ∈ knownAccounts, known.publicKey = toUpperCase key ∧
        account = ⟨key, known.address⟩ := by
  simp only [knownSdk]
  cases hfind : knownAccounts.find? fun account => account.publicKey = toUpperCase key with
  | none =>
    constructor
    · intro h
      cases h
    · rintro ⟨known, hmem, hkey, -⟩
      exact absurd (decide_eq_true hkey) (List.find?_eq_none.mp hfind known hmem)
  | some found =>
    have hfound : found.publicKey = toUpperCase key := by
      simpa using List.find?_some hfind
    constructor
    · intro h
      cases h
      exact ⟨found, List.mem_of_find?_eq_some hfind, hfound, rfl⟩
    · rintro ⟨known, hmem, hkey, rfl⟩
      rw [← hkey, find_publicKey known hmem] at hfind
      rw [Option.some.inj hfind]

theorem generateNewAccount_mem (n : ℕ) (networkType : NetworkType) :
    knownSdk.generateNewAccount n networkType ∈ knownAccounts := by
  show (knownAccounts[n]?).getD secondCurrency ∈ knownAccounts
  cases hget : knownAccounts[n]? with
  | none => exact List.mem_of_getElem? (i := 4) rfl
  | some account => exact List.mem_of_getElem? hget

/-- The account functions of the instance behave as those of symbol-sdk are expected to. -/
theorem knownSdk_lawful : knownSdk.Lawful where
  privateKey_upper key networkType account h := by
    obtain ⟨hmem, hkey⟩ := createFromPrivateKey_ok.mp h
    refine ⟨hkey, createFromPrivateKey_ok.mpr ⟨hmem, ?_⟩⟩
    rw [toUpperCase_toUpperCase, hkey]
  privateKey_ne key networkType account h :=
    (knownAccounts_nonempty account (createFromPrivateKey_ok.mp h).1).1
  publicKey_of_privateKey key networkType account h := by
    have hmem := (createFromPrivateKey_ok.mp h).1
    have hupper := (knownAccounts_upper account hmem).2
    exact ⟨hupper, createFromPublicKey_ok.mpr ⟨account, hmem, hupper.symm, rfl⟩⟩
  publicKey_eq key networkType account h := by
    obtain ⟨known, hmem, hkey, rfl⟩ := createFromPublicKey_ok.mp h
    refine ⟨rfl, ?_, createFromPublicKey_ok.mpr ⟨known, hmem, ?_, rfl⟩⟩
    · rintro rfl
      exact (knownAccounts_nonempty known hmem).2.1 hkey
    · rw [toUpperCase_toUpperCase, hkey]
  generated n networkType := by
    have hmem := generateNewAccount_mem n networkType
    exact createFromPrivateKey_ok.mpr ⟨hmem, (knownAccounts_upper _ hmem).1.symm⟩
  address_ne n networkType := (knownAccounts_nonempty _ (generateNewAccount_mem n networkType)).2.2
  randomHash_ne _ := by
    show "4290C1703B8D6344A1023B5BC0662BFF7496B2AF566CDCEA6571E6FBE07C1675" ≠ ""
    decide

end SymbolBootstrap.KnownAccounts
