import SymbolBootstrap.AddressesDocuments
import SymbolBootstrap.Library.Throwing

/-!
One account of a node, resolved for the first time and again from what was stored. What a
first run gives is genuine: its keys belong together and are in the form in which
symbol-sdk writes them. A later run that is given a genuine account keeps it.
-/
namespace SymbolBootstrap.AccountResolution

open Library.CaseMapping Library.Throwing CryptoUtils ConfigurationUtils NemesisBalances
  AddressesService AddressesDocuments

/-- The keys and the address of an account belong together and are in normal form. -/
structure Genuine (sdk : SymbolSdk) (networkType : NetworkType) (a : ConfigAccount) : Prop where
  publicKey_upper : toUpperCase a.publicKey = a.publicKey
  publicKey_ne : a.publicKey ≠ ""
  created : sdk.createFromPublicKey a.publicKey networkType = .ok ⟨a.publicKey, a.address⟩
  privateKey : ∀ key, a.privateKey = some key → key ≠ "" ∧ toUpperCase key = key ∧
    sdk.createFromPrivateKey key networkType = .ok ⟨⟨a.publicKey, a.address⟩, key⟩

theorem given_eq_some {text : Option String} {value : String} :
    given text = some value ↔ text = some value ∧ value ≠ "" := by
  simp [given, Option.filter_eq_some_iff]

theorem given_none : given none = none := rfl

theorem given_some {value : String} (h : value ≠ "") : given (some value) = some value :=
  given_eq_some.mpr ⟨rfl, h⟩

theorem addressOf_eq (account : SdkAccount) :
    addressOf account = (toConfigAccount account).address := by
  cases account <;> rfl

section

variable {sdk : SymbolSdk} {networkType : NetworkType}

theorem genuine_of_privateKey (hsdk : sdk.Lawful) {key : String} {account : Account}
    (h : sdk.createFromPrivateKey key networkType = .ok account) :
    Genuine sdk networkType (toConfigAccount (.account account)) := by
  obtain ⟨hkey, hagain⟩ := hsdk.privateKey_upper key networkType account h
  obtain ⟨hupper, hcreated⟩ := hsdk.publicKey_of_privateKey key networkType account h
  refine ⟨hupper, (hsdk.publicKey_eq _ networkType _ hcreated).2.1, hcreated, ?_⟩
  intro privateKey hprivate
  cases hprivate
  rw [← hkey] at hagain
  refine ⟨hsdk.privateKey_ne key networkType account h, ?_, hagain⟩
  rw [hkey, toUpperCase_toUpperCase]

theorem genuine_of_publicKey (hsdk : sdk.Lawful) {key : String} {account : PublicAccount}
    (h : sdk.createFromPublicKey key networkType = .ok account) :
    Genuine sdk networkType ⟨none, toUpperCase key, account.address⟩ := by
  obtain ⟨-, -, hcreated⟩ := hsdk.publicKey_eq key networkType account h
  refine ⟨toUpperCase_toUpperCase key, (hsdk.publicKey_eq _ networkType _ hcreated).2.1,
    hcreated, ?_⟩
  intro privateKey hprivate
  cases hprivate

theorem Genuine.stored {a : ConfigAccount} (h : Genuine sdk networkType a) (stores : Bool) :
    Genuine sdk networkType (stored stores a) := by
  cases stores with
  | true => exact h
  | false =>
    refine ⟨h.publicKey_upper, h.publicKey_ne, h.created, ?_⟩
    intro key hkey
    cases hkey

/-- The three ways in which the preset provides an account. -/
theorem toConfigAccountFomKeys_cases {publicKey privateKey : Option String}
    {provided : Option ConfigAccount}
    (h : toConfigAccountFomKeys sdk networkType publicKey privateKey = .ok provided) :
    (∃ key account, given privateKey = some key ∧
      sdk.createFromPrivateKey key networkType = .ok account ∧
      provided = some (toConfigAccount (.account account)) ∧
      ∀ text, given publicKey = some text →
        toUpperCase account.publicKey = toUpperCase text) ∨
    (∃ key account, given privateKey = none ∧ given publicKey = some key ∧
      sdk.createFromPublicKey key networkType = .ok account ∧
      provided = some (toConfigAccount (.publicAccount account))) ∨
    (given privateKey = none ∧ given publicKey = none ∧ provided = none) := by
  obtain ⟨account, haccount, hpure⟩ := bind_ok.mp h
  cases hpure
  unfold toAccount at haccount
  cases hprivate : given privateKey with
  | some key =>
    cases hpublic : given publicKey with
    | none =>
      simp only [hprivate, hpublic] at haccount
      obtain ⟨created, hcreated, hpure⟩ := bind_ok.mp haccount
      cases hpure
      refine Or.inl ⟨key, created, rfl, hcreated, rfl, ?_⟩
      intro text htext
      cases htext
    | some text =>
      simp only [hprivate, hpublic] at haccount
      obtain ⟨created, hcreated, hcheck⟩ := bind_ok.mp haccount
      obtain ⟨hsame, hpure⟩ := check_ok.mp hcheck
      cases hpure
      refine Or.inl ⟨key, created, rfl, hcreated, rfl, ?_⟩
      intro text' htext
      cases htext
      exact not_not.mp hsame
  | none =>
    cases hpublic : given publicKey with
    | none =>
      simp only [hprivate, hpublic] at haccount
      cases haccount
      exact Or.inr (Or.inr ⟨rfl, rfl, rfl⟩)
    | some text =>
      simp only [hprivate, hpublic] at haccount
      obtain ⟨created, hcreated, hpure⟩ := bind_ok.mp haccount
      cases hpure
      exact Or.inr (Or.inl ⟨text, created, rfl, rfl, hcreated, rfl⟩)

end

section

variable {services : Services} {networkType : NetworkType}

theorem toUpperAccount_none : toUpperAccount services networkType none = .ok none := rfl

/-- A genuine account is read back as it is. -/
theorem toUpperAccount_genuine {a : ConfigAccount} (h : Genuine services.sdk networkType a) :
    ∃ account, toUpperAccount services networkType (some a) = .ok (some account) ∧
      toConfigAccount account = a := by
  obtain ⟨privateKey, publicKey, address⟩ := a
  have hpublic : given (some (toUpperCase publicKey)) = some publicKey := by
    rw [h.publicKey_upper]
    exact given_some h.publicKey_ne
  cases privateKey with
  | none =>
    refine ⟨.publicAccount ⟨publicKey, address⟩, ?_, rfl⟩
    show toAccount services.sdk networkType (some (toUpperCase publicKey)) none = _
    simp only [toAccount, hpublic, given_none]
    exact bind_ok.mpr ⟨_, h.created, rfl⟩
  | some key =>
    obtain ⟨hne, hupper, hcreated⟩ := h.privateKey key rfl
    refine ⟨.account ⟨⟨publicKey, address⟩, key⟩, ?_, rfl⟩
    have hprivate : given (some (toUpperCase key)) = some key := by
      rw [hupper]
      exact given_some hne
    show toAccount services.sdk networkType (some (toUpperCase publicKey))
      (some (toUpperCase key)) = _
    simp only [toAccount, hpublic, hprivate]
    exact bind_ok.mpr ⟨_, hcreated, check_ok.mpr ⟨not_not.mpr rfl, rfl⟩⟩

/-- A public key that the preset provides is read as the same account in upper case. -/
theorem toUpperAccount_publicKey (hsdk : services.sdk.Lawful) {key : String}
    {account : PublicAccount}
    (h : services.sdk.createFromPublicKey key networkType = .ok account) :
    toUpperAccount services networkType (some (toConfigAccount (.publicAccount account))) =
      .ok (some (.publicAccount ⟨toUpperCase key, account.address⟩)) := by
  obtain ⟨hkey, -, hcreated⟩ := hsdk.publicKey_eq key networkType account h
  have hne := (hsdk.publicKey_eq _ networkType _ hcreated).2.1
  have hgiven : given (some (toUpperCase key)) = some (toUpperCase key) := given_some hne
  show toAccount services.sdk networkType (some (toUpperCase account.publicKey)) none = _
  rw [hkey]
  simp only [toAccount, hgiven, given_none]
  exact bind_ok.mpr ⟨_, hcreated, rfl⟩

section Resolve

variable {mode : PrivateKeySecurityMode} {keyName : KeyName} {index : ℕ}
  {nodePreset : NodePreset} {old : Option ConfigAccount} {publicKey privateKey : Option String}
  {a : ConfigAccount} {draws draws' : Draws}

/-- A run that resolves an account: what is read, and what follows from it. -/
theorem resolveNodeAccount_run
    (h : resolveNodeAccount services networkType mode keyName index nodePreset old publicKey
      privateKey draws = .ok (a, draws')) :
    ∃ provided oldAccount newAccount,
      toConfigAccountFomKeys services.sdk networkType publicKey privateKey = .ok provided ∧
      toUpperAccount services networkType old = .ok oldAccount ∧
      toUpperAccount services networkType provided = .ok newAccount ∧
      (keepAccount oldAccount newAccount = some a ∧ draws' = draws ∨
        keepAccount oldAccount newAccount = none ∧
        ∃ account : Account, a = toConfigAccount (.account account) ∧
          accountResolver services networkType (provided.or old) keyName nodePreset.name
            (resolveGenerateErrorMessage keyName mode) (.node index keyName) draws =
              .ok (account, draws')) := by
  obtain ⟨provided, draws₁, hprovided, hresolve⟩ := run_bind_ok.mp h
  obtain ⟨hprovided, h₁⟩ := run_lift_ok.mp hprovided
  obtain ⟨oldAccount, draws₂, hold, hnext⟩ := run_bind_ok.mp hresolve
  obtain ⟨hold, h₂⟩ := run_lift_ok.mp hold
  obtain ⟨newAccount, draws₃, hnew, hlast⟩ := run_bind_ok.mp hnext
  obtain ⟨hnew, h₃⟩ := run_lift_ok.mp hnew
  have hdraws : draws₃ = draws := h₃.trans (h₂.trans h₁)
  refine ⟨provided, oldAccount, newAccount, hprovided, hold, hnew, ?_⟩
  rw [hdraws] at hlast
  cases hkeep : keepAccount oldAccount newAccount with
  | some kept =>
    simp only [hkeep] at hlast
    obtain ⟨rfl, rfl⟩ := Prod.mk.inj (run_pure_ok.mp hlast)
    exact Or.inl ⟨rfl, rfl⟩
  | none =>
    simp only [hkeep] at hlast
    obtain ⟨account, after, haccount, hpure⟩ := run_bind_ok.mp hlast
    obtain ⟨rfl, rfl⟩ := Prod.mk.inj (run_pure_ok.mp hpure)
    exact Or.inr ⟨rfl, account, rfl, haccount⟩

/-- A resolver draws an account only for want of any other and where no message forbids it. -/
theorem accountResolver_draws {account : Option ConfigAccount} {nodeName message : Option String}
    {purpose : Purpose} {result : Account}
    (h : accountResolver services networkType account keyName nodeName message purpose draws =
      .ok (result, draws')) :
    draws' = draws ∨ account = none ∧ message = none ∧
      generateNewAccount services.sdk networkType purpose draws = .ok (result, draws') := by
  cases account with
  | none =>
    cases message with
    | some message => exact absurd h run_throw_ok
    | none => exact Or.inr ⟨rfl, rfl, h⟩
  | some account =>
    left
    cases hkey : given account.privateKey with
    | some key =>
      simp only [accountResolver, hkey] at h
      exact (run_lift_ok.mp h).2
    | none =>
      simp only [accountResolver, hkey] at h
      exact (run_lift_ok.mp h).2

/-- An account is drawn only when the mode allows it, and it is then the one returned. -/
theorem resolveNodeAccount_draws
    (h : resolveNodeAccount services networkType mode keyName index nodePreset old publicKey
      privateKey draws = .ok (a, draws')) :
    draws' = draws ∨
      resolveGenerateErrorMessage keyName mode = none ∧
      ∃ account : Account, a = toConfigAccount (.account account) ∧
        draws'.generated = draws.generated ++ [(.node index keyName, account)] := by
  obtain ⟨provided, oldAccount, newAccount, -, -, -, ⟨-, hdraws⟩ | ⟨-, account, ha, hrun⟩⟩ :=
    resolveNodeAccount_run h
  · exact Or.inl hdraws
  · rcases accountResolver_draws hrun with hdraws | ⟨-, hmessage, hgenerate⟩
    · exact Or.inl hdraws
    · right
      refine ⟨hmessage, account, ha, ?_⟩
      cases hgenerate
      rfl

/-- What a first run gives is genuine and agrees with a public key that the preset has. -/
theorem resolveNodeAccount_first (hsdk : services.sdk.Lawful)
    (h : resolveNodeAccount services networkType mode keyName index nodePreset none publicKey
      privateKey draws = .ok (a, draws')) :
    Genuine services.sdk networkType a ∧
      ∀ text, given publicKey = some text → toUpperCase text = a.publicKey := by
  obtain ⟨provided, oldAccount, newAccount, hprovided, hold, hnew, hresult⟩ :=
    resolveNodeAccount_run h
  rw [toUpperAccount_none] at hold
  obtain rfl : none = oldAccount := Except.ok.inj hold
  rcases toConfigAccountFomKeys_cases hprovided with
    ⟨key, account, -, hcreated, rfl, hsame⟩ | ⟨key, account, -, hpublic, hcreated, rfl⟩ |
      ⟨-, hpublic, rfl⟩
  · have hgenuine := genuine_of_privateKey hsdk hcreated
    obtain ⟨read, hread, hconfig⟩ := toUpperAccount_genuine hgenuine
    obtain rfl : some read = newAccount := Except.ok.inj (hread.symm.trans hnew)
    obtain ⟨hkeep, -⟩ | ⟨hkeep, -⟩ := hresult
    · obtain rfl : toConfigAccount read = a := Option.some.inj hkeep
      rw [hconfig]
      refine ⟨hgenuine, ?_⟩
      intro text htext
      rw [← hsame text htext, (hsdk.publicKey_of_privateKey _ _ _ hcreated).1]
      rfl
    · cases hkeep
  · rw [toUpperAccount_publicKey hsdk hcreated] at hnew
    obtain rfl := Except.ok.inj hnew
    obtain ⟨hkeep, -⟩ | ⟨hkeep, -⟩ := hresult
    · obtain rfl : ⟨none, toUpperCase key, account.address⟩ = a := Option.some.inj hkeep
      refine ⟨genuine_of_publicKey hsdk hcreated, ?_⟩
      intro text htext
      rw [hpublic] at htext
      cases htext
      rfl
    · cases hkeep
  · rw [toUpperAccount_none] at hnew
    obtain rfl : none = newAccount := Except.ok.inj hnew
    obtain ⟨hkeep, -⟩ | ⟨-, account, rfl, hrun⟩ := hresult
    · cases hkeep
    · refine ⟨?_, ?_⟩
      · -- with no account to ask for the resolver can only draw one
        cases hmessage : resolveGenerateErrorMessage keyName mode with
        | some message =>
          rw [hmessage] at hrun
          exact absurd hrun run_throw_ok
        | none =>
          rw [hmessage] at hrun
          cases hrun
          exact genuine_of_privateKey hsdk (hsdk.generated _ networkType)
      · intro text htext
        rw [hpublic] at htext
        cases htext

/-- A stored genuine account is kept by a later run to which the preset gives no private key,
provided the public key it gives, if any, can be read. -/
theorem resolveNodeAccount_again (hsdk : services.sdk.Lawful)
    (ha : Genuine services.sdk networkType a)
    (hagree : ∀ text, given publicKey = some text → toUpperCase text = a.publicKey)
    (hread : ∀ text, given publicKey = some text →
      ∃ account, services.sdk.createFromPublicKey text networkType = .ok account) :
    resolveNodeAccount services networkType mode keyName index nodePreset (some a) publicKey
      none draws = .ok (a, draws) := by
  obtain ⟨oldAccount, hold, hconfig⟩ := toUpperAccount_genuine ha
  cases hpublic : given publicKey with
  | none =>
    have hprovided : toConfigAccountFomKeys services.sdk networkType publicKey none =
        .ok none := by
      simp [toConfigAccountFomKeys, toAccount, hpublic, given_none]
      rfl
    refine run_bind_ok.mpr ⟨none, draws, run_lift_ok.mpr ⟨hprovided, rfl⟩, ?_⟩
    refine run_bind_ok.mpr ⟨some oldAccount, draws, run_lift_ok.mpr ⟨hold, rfl⟩, ?_⟩
    refine run_bind_ok.mpr ⟨none, draws, run_lift_ok.mpr ⟨toUpperAccount_none, rfl⟩, ?_⟩
    rw [keepAccount, run_pure_ok, hconfig]
  | some text =>
    obtain ⟨account, hcreated⟩ := hread text hpublic
    have hprovided : toConfigAccountFomKeys services.sdk networkType publicKey none =
        .ok (some (toConfigAccount (.publicAccount account))) := by
      simp only [toConfigAccountFomKeys, toAccount, hpublic, given_none]
      exact bind_ok.mpr ⟨_, bind_ok.mpr ⟨_, hcreated, rfl⟩, rfl⟩
    -- the address that the preset's public key gives is the stored one
    have hupper := (hsdk.publicKey_eq text networkType account hcreated).2.2
    rw [hagree text hpublic, ha.created] at hupper
    have haddress : a.address = account.address :=
      congrArg PublicAccount.address (Except.ok.inj hupper)
    refine run_bind_ok.mpr ⟨_, draws, run_lift_ok.mpr ⟨hprovided, rfl⟩, ?_⟩
    refine run_bind_ok.mpr ⟨some oldAccount, draws, run_lift_ok.mpr ⟨hold, rfl⟩, ?_⟩
    refine run_bind_ok.mpr ⟨_, draws, run_lift_ok.mpr
      ⟨toUpperAccount_publicKey hsdk hcreated, rfl⟩, ?_⟩
    have hsame : addressOf oldAccount =
        addressOf (.publicAccount ⟨toUpperCase text, account.address⟩) := by
      rw [addressOf_eq, hconfig, haddress]
      rfl
    have hkeep : keepAccount (some oldAccount)
        (some (.publicAccount ⟨toUpperCase text, account.address⟩)) = some a := by
      simp only [keepAccount]
      rw [if_pos hsame, hconfig, hagree text hpublic]
      simp only [toConfigAccount, Option.none_or, ← haddress]
    simp only [hkeep]
    rw [run_pure_ok]

/-- A run that gives no private key succeeds only when the public key can be read. -/
theorem resolveNodeAccount_reads
    (h : resolveNodeAccount services networkType mode keyName index nodePreset old publicKey
      none draws = .ok (a, draws')) {text : String} (htext : given publicKey = some text) :
    ∃ account, services.sdk.createFromPublicKey text networkType = .ok account := by
  obtain ⟨provided, oldAccount, newAccount, hprovided, -⟩ := resolveNodeAccount_run h
  rcases toConfigAccountFomKeys_cases hprovided with
    ⟨key, account, hnone, -⟩ | ⟨key, account, -, hpublic, hcreated, -⟩ | ⟨-, hpublic, -⟩
  · cases hnone
  · rw [hpublic] at htext
    cases htext
    exact ⟨account, hcreated⟩
  · rw [hpublic] at htext
    cases htext

end Resolve

end

end SymbolBootstrap.AccountResolution
