import SymbolBootstrap.AccountResolution
import SymbolBootstrap.KnownAccounts
import SymbolBootstrap.Library.Throwing
import SymbolBootstrap.Library.Traces

/-!
`BootstrapAccountResolver`: an account whose private key is not known is asked for until the
right key is entered, and the key is kept in the account object that was passed. Services pass
the same objects again and again, so account objects are told by a number here, and a key that
was entered is found in what has happened so far.
-/
namespace SymbolBootstrap.BootstrapAccountResolver

open Library Library.CaseMapping Library.Traces ConfigurationUtils AccountResolution KnownAccounts

/-- One prompt: the account object it is for, and the key if it was the right one. -/
structure Prompt where
  object : ℕ
  accepted : Option String
deriving DecidableEq, Repr

/-- Why no account is returned. -/
inductive Stop
  | failed (message : String)
  | waiting
deriving DecidableEq, Repr

/-- `account.privateKey = privateKey`. -/
def store (accounts : ℕ → ConfigAccount) (prompt : Prompt) : ℕ → ConfigAccount :=
  match prompt.accepted with
  | some privateKey =>
      Function.update accounts prompt.object
        { accounts prompt.object with privateKey := some privateKey }
  | none => accounts

/-- The account objects after some prompts. -/
def accountsAfter (accounts : ℕ → ConfigAccount) (history : List Prompt) : ℕ → ConfigAccount :=
  history.foldl store accounts

section

variable (sdk : SymbolSdk) (networkType : NetworkType)

def ofSdk {α : Type} (result : Except String α) : Except Stop α := result.mapError .failed

/-- The account of an entered key if it is the one that is asked for. -/
def enteredAccount (account : ConfigAccount) (value : String) :
    Except String (Option (Account × String)) :=
  if value = "" then return none
  else do
    let privateKey := toUpperCase value
    let enteredAccount ← sdk.createFromPrivateKey privateKey networkType
    if toUpperCase enteredAccount.publicKey ≠ toUpperCase account.publicKey then return none
    else return some (enteredAccount, privateKey)

/-- The loop, for what is going to be entered. -/
def promptLoop (object : ℕ) (account : ConfigAccount) :
    List String → Traced Prompt Stop Account
  | [] => stop .waiting
  | value :: rest => do
      match ← (ofSdk (enteredAccount sdk networkType account value) : Except Stop _) with
      | some (enteredAccount, privateKey) => do
          emit ⟨object, some privateKey⟩
          return enteredAccount
      | none => do
          emit ⟨object, none⟩
          promptLoop object account rest

/-- `resolveAccount` of a known account. What is going to be entered depends on the account and
on what has happened. -/
def resolveAccount (accounts : ℕ → ConfigAccount) (entries : List Prompt → ℕ → List String)
    (object : ℕ) : Traced Prompt Stop Account := do
  let history ← history
  let account := accountsAfter accounts history object
  match given account.privateKey with
  | some privateKey => (ofSdk (sdk.createFromPrivateKey privateKey networkType) : Except Stop _)
  | none => do
      let _ ← (ofSdk (sdk.createFromPublicKey account.publicKey networkType) : Except Stop _)
      promptLoop sdk networkType object account (entries history object)

/-- Requests for account objects, one after the other. -/
def resolveAccounts (accounts : ℕ → ConfigAccount) (entries : List Prompt → ℕ → List String) :
    List ℕ → Traced Prompt Stop (List Account)
  | [] => return []
  | object :: rest => do
      let account ← resolveAccount sdk networkType accounts entries object
      let others ← resolveAccounts accounts entries rest
      return account :: others

/-- The keys of two accounts are those of one account. -/
def SameKey (account : Account) (known : ConfigAccount) : Prop :=
  toUpperCase account.publicKey = toUpperCase known.publicKey

/-- An account of its private key, with the public key that is asked for. -/
def Resolved (account : Account) (known : ConfigAccount) : Prop :=
  (∃ privateKey, sdk.createFromPrivateKey privateKey networkType = .ok account) ∧
    SameKey account known

/-- A private key that is known is the one of the public key. -/
def Fits (known : ConfigAccount) : Prop :=
  ∀ privateKey, given known.privateKey = some privateKey →
    ∃ account, sdk.createFromPrivateKey privateKey networkType = .ok account ∧
      SameKey account known

/-- The private key is entered at some time, and nothing before that cannot be read. -/
def Answers (known : ConfigAccount) (values : List String) : Prop :=
  ∃ front value back account, values = front ++ value :: back ∧ value ≠ "" ∧
    sdk.createFromPrivateKey (toUpperCase value) networkType = .ok account ∧
    SameKey account known ∧
    ∀ other ∈ front, other = "" ∨
      ∃ account, sdk.createFromPrivateKey (toUpperCase other) networkType = .ok account

end

theorem fits_unknown {sdk : SymbolSdk} {networkType : NetworkType} {publicKey address : String} :
    Fits sdk networkType ⟨none, publicKey, address⟩ := by
  intro privateKey hprivateKey
  cases hprivateKey

section Store

variable (accounts : ℕ → ConfigAccount) (history : List Prompt)

theorem accountsAfter_concat (prompt : Prompt) :
    accountsAfter accounts (history ++ [prompt]) = store (accountsAfter accounts history) prompt :=
  List.foldl_append

theorem store_other {prompt : Prompt} {object : ℕ}
    (h : prompt.object ≠ object ∨ prompt.accepted = none) :
    store accounts prompt object = accounts object := by
  unfold store
  cases haccepted : prompt.accepted with
  | none => rfl
  | some privateKey =>
    have hne := h.resolve_right (by rw [haccepted]; exact Option.some_ne_none _)
    exact Function.update_of_ne hne.symm _ _

theorem store_accepted (object : ℕ) (privateKey : String) :
    store accounts ⟨object, some privateKey⟩ object =
      { accounts object with privateKey := some privateKey } :=
  Function.update_self _ _ _

/-- A prompt leaves every account its public key. -/
theorem store_publicKey (prompt : Prompt) (object : ℕ) :
    (store accounts prompt object).publicKey = (accounts object).publicKey := by
  by_cases h : prompt.object ≠ object ∨ prompt.accepted = none
  · rw [store_other accounts h]
  · obtain ⟨hobject, haccepted⟩ := not_or.mp h
    obtain ⟨privateKey, hprivateKey⟩ := Option.ne_none_iff_exists'.mp haccepted
    have hprompt : prompt = ⟨object, some privateKey⟩ := by
      rw [← not_not.mp hobject, ← hprivateKey]
    rw [hprompt, store_accepted]

theorem accountsAfter_publicKey (object : ℕ) :
    (accountsAfter accounts history object).publicKey = (accounts object).publicKey := by
  induction history using List.reverseRecOn with
  | nil => rfl
  | append_singleton history prompt ih =>
    rw [accountsAfter_concat, store_publicKey, ih]

end Store

section Session

variable {sdk : SymbolSdk} {networkType : NetworkType} {accounts : ℕ → ConfigAccount}
  {entries : List Prompt → ℕ → List String}

variable (sdk networkType accounts) in
/-- What holds at every moment: known private keys fit, an account is asked for only while its
private key is not known, and once it was entered it is known. -/
structure Session (history : List Prompt) : Prop where
  fits : ∀ object, Fits sdk networkType (accountsAfter accounts history object)
  once : history.Pairwise fun earlier later =>
    earlier.accepted.isSome → later.object ≠ earlier.object
  unknown : ∀ prompt ∈ history, given (accounts prompt.object).privateKey = none
  known : ∀ prompt ∈ history, prompt.accepted.isSome →
    (given (accountsAfter accounts history prompt.object).privateKey).isSome
  kept : ∀ object, (given (accounts object).privateKey).isSome →
    (given (accountsAfter accounts history object).privateKey).isSome

theorem session_nil (hfits : ∀ object, Fits sdk networkType (accounts object)) :
    Session sdk networkType accounts [] where
  fits := hfits
  once := List.Pairwise.nil
  unknown := fun _ h => absurd h List.not_mem_nil
  known := fun _ h => absurd h List.not_mem_nil
  kept := fun _ h => h

theorem ofSdk_ok {α : Type} {result : Except String α} {a : α} :
    ofSdk result = .ok a ↔ result = .ok a := by
  cases result with
  | error message =>
    constructor
    · intro h
      cases h
    · intro h
      cases h
  | ok value =>
    constructor
    · intro h
      cases h
      rfl
    · rintro ⟨⟩
      rfl

theorem enteredAccount_some {known : ConfigAccount} {value privateKey : String}
    {account : Account}
    (h : enteredAccount sdk networkType known value = .ok (some (account, privateKey))) :
    privateKey = toUpperCase value ∧
      sdk.createFromPrivateKey privateKey networkType = .ok account ∧ SameKey account known := by
  unfold enteredAccount at h
  split at h
  · cases h
  · obtain ⟨entered, hentered, hrest⟩ := Throwing.bind_ok.mp h
    split at hrest
    · cases hrest
    · rename_i hsame
      cases hrest
      exact ⟨rfl, hentered, not_not.mp hsame⟩

/-- One more prompt, for an account whose private key is not known. -/
theorem Session.prompt {history : List Prompt} (h : Session sdk networkType accounts history)
    {object : ℕ} (hobject : given (accountsAfter accounts history object).privateKey = none)
    {accepted : Option String}
    (haccepted : ∀ privateKey, accepted = some privateKey → privateKey ≠ "" ∧
      ∃ account, sdk.createFromPrivateKey privateKey networkType = .ok account ∧
        SameKey account (accounts object)) :
    Session sdk networkType accounts (history ++ [⟨object, accepted⟩]) := by
  have hgiven : ∀ privateKey, accepted = some privateKey →
      given (some privateKey) = some privateKey := by
    intro privateKey hprivateKey
    exact given_some (haccepted privateKey hprivateKey).1
  have hsome : ∀ other, (given (accountsAfter accounts history other).privateKey).isSome →
      (given (accountsAfter accounts (history ++ [⟨object, accepted⟩])
        other).privateKey).isSome := by
    intro other hknown
    rw [accountsAfter_concat, store_other]
    · exact hknown
    · left
      rintro rfl
      rw [hobject] at hknown
      cases hknown
  refine ⟨?_, ?_, ?_, ?_, ?_⟩
  · intro other privateKey hprivateKey
    rw [accountsAfter_concat] at hprivateKey
    cases accepted with
    | none =>
      rw [store_other _ (Or.inr rfl)] at hprivateKey
      rw [accountsAfter_concat, store_other _ (Or.inr rfl)]
      exact h.fits other privateKey hprivateKey
    | some entered =>
      by_cases hsame : object = other
      · subst hsame
        obtain ⟨-, account, hcreated, hkey⟩ := haccepted entered rfl
        rw [store_accepted, hgiven entered rfl] at hprivateKey
        cases hprivateKey
        refine ⟨account, hcreated, ?_⟩
        rw [SameKey, accountsAfter_publicKey]
        exact hkey
      · rw [store_other _ (Or.inl hsame)] at hprivateKey
        rw [accountsAfter_concat, store_other _ (Or.inl hsame)]
        exact h.fits other privateKey hprivateKey
  · rw [List.pairwise_append]
    refine ⟨h.once, List.pairwise_singleton _ _, ?_⟩
    intro earlier hearlier later hlater hknown hsame
    rw [List.mem_singleton.mp hlater] at hsame
    have := h.known earlier hearlier hknown
    rw [← hsame, hobject] at this
    cases this
  · intro prompt hprompt
    rcases List.mem_append.mp hprompt with hin | hin
    · exact h.unknown prompt hin
    · rw [List.mem_singleton.mp hin]
      by_contra hne
      have := h.kept object (Option.isSome_iff_ne_none.mpr hne)
      rw [hobject] at this
      cases this
  · intro prompt hprompt hknown
    rcases List.mem_append.mp hprompt with hin | hin
    · exact hsome prompt.object (h.known prompt hin hknown)
    · rw [List.mem_singleton.mp hin] at hknown ⊢
      obtain ⟨entered, hentered⟩ := Option.isSome_iff_exists.mp hknown
      have hsome : accepted = some entered := hentered
      subst hsome
      rw [accountsAfter_concat, store_accepted, hgiven entered rfl]
      rfl
  · intro other hknown
    exact hsome other (h.kept other hknown)

variable (sdk networkType accounts) in
/-- The session is kept, and what is returned has `Q`. -/
def Keeps {α : Type} (m : Traced Prompt Stop α) (P : List Prompt → Prop) (Q : α → Prop) : Prop :=
  Triple (Session sdk networkType accounts) (Session sdk networkType accounts)
    (fun history => Session sdk networkType accounts history ∧ P history) m
    (fun a history => Session sdk networkType accounts history ∧ Q a)

/-- The loop keeps the session and returns the account that is asked for. -/
theorem promptLoop_session (hsdk : sdk.Lawful) (object : ℕ) (values : List String)
    {known : ConfigAccount} (hknown : known.publicKey = (accounts object).publicKey) :
    Keeps sdk networkType accounts (promptLoop sdk networkType object known values)
      (fun history => given (accountsAfter accounts history object).privateKey = none)
      (fun account => Resolved sdk networkType account (accounts object)) := by
  induction values with
  | nil => exact .stop fun _ h => ⟨h.1, h.1⟩
  | cons value rest ih =>
    refine .bind (Q := fun entered history => (Session sdk networkType accounts history ∧
      given (accountsAfter accounts history object).privateKey = none) ∧
        enteredAccount sdk networkType known value = .ok entered)
      (.lift (fun _ h => ⟨h.1, h.1⟩) fun history entered h hentered =>
        ⟨h, ofSdk_ok.mp hentered⟩) ?_
    rintro (_ | ⟨account, privateKey⟩)
    · refine .bind (Q := fun _ history => Session sdk networkType accounts history ∧
        given (accountsAfter accounts history object).privateKey = none)
        (.emit (fun _ h => h.1.1) ?_) fun _ => ih
      intro history h
      have hnext : Session sdk networkType accounts (history ++ [⟨object, none⟩]) :=
        h.1.1.prompt h.1.2 (by simp)
      refine ⟨hnext, hnext, ?_⟩
      rw [accountsAfter_concat, store_other _ (Or.inr rfl)]
      exact h.1.2
    · refine .bind (Q := fun _ history => Session sdk networkType accounts history ∧
        Resolved sdk networkType account (accounts object)) (.emit (fun _ h => h.1.1) ?_) ?_
      · rintro history ⟨⟨hsession, hunknown⟩, hentered⟩
        obtain ⟨rfl, hcreated, hkey⟩ := enteredAccount_some hentered
        have hsame : SameKey account (accounts object) := by
          rw [SameKey, ← hknown]
          exact hkey
        have hnext : Session sdk networkType accounts
            (history ++ [⟨object, some (toUpperCase value)⟩]) := by
          refine hsession.prompt hunknown ?_
          rintro _ ⟨⟩
          have hupper := (hsdk.privateKey_upper _ _ _ hcreated).1
          rw [toUpperCase_toUpperCase] at hupper
          exact ⟨hupper ▸ hsdk.privateKey_ne _ _ _ hcreated, account, hcreated, hsame⟩
        exact ⟨hnext, hnext, ⟨_, hcreated⟩, hsame⟩
      · exact fun _ => .pure fun _ h => ⟨h.1, h⟩

theorem resolveAccount_session (hsdk : sdk.Lawful) (object : ℕ) :
    Keeps sdk networkType accounts (resolveAccount sdk networkType accounts entries object)
      (fun _ => True) (fun account => Resolved sdk networkType account (accounts object)) := by
  refine .bind (Q := fun now history => Session sdk networkType accounts history ∧ now = history)
    (.history fun _ h => ⟨h.1, h.1, rfl⟩) fun now => ?_
  refine .at ?_
  rintro _ ⟨hsession, rfl⟩
  simp only
  cases hkey : given (accountsAfter accounts now object).privateKey with
  | some privateKey =>
    refine .lift ?_ ?_
    · rintro _ rfl
      exact ⟨hsession, hsession⟩
    · rintro _ account rfl hcreated
      obtain ⟨account', hcreated', hsame⟩ := hsession.fits object privateKey hkey
      cases (ofSdk_ok.mp hcreated).symm.trans hcreated'
      rw [SameKey, accountsAfter_publicKey] at hsame
      exact ⟨hsession, ⟨_, hcreated'⟩, hsame⟩
  | none =>
    refine .bind (Q := fun _ history => Session sdk networkType accounts history ∧
      given (accountsAfter accounts history object).privateKey = none) (.lift ?_ ?_) ?_
    · rintro _ rfl
      exact ⟨hsession, hsession⟩
    · rintro _ _ rfl -
      exact ⟨hsession, hkey⟩
    · intro _
      exact promptLoop_session hsdk object _ (accountsAfter_publicKey accounts now object)

theorem resolveAccounts_session (hsdk : sdk.Lawful) (objects : List ℕ) :
    Keeps sdk networkType accounts (resolveAccounts sdk networkType accounts entries objects)
      (fun _ => True) (List.Forall₂ (fun object account =>
        Resolved sdk networkType account (accounts object)) objects) := by
  induction objects with
  | nil => exact .pure fun _ h => ⟨h.1, h.1, .nil⟩
  | cons object rest ih =>
    refine .bind (resolveAccount_session hsdk object) fun account => ?_
    refine .at fun now hnow => ?_
    refine .bind (ih.weaken (fun _ h => h ▸ ⟨hnow.1, trivial⟩) fun _ _ h => h) fun result => ?_
    exact .pure fun _ h => ⟨h.1, h.1, .cons hnow.2 h.2⟩

end Session

section Returns

variable {sdk : SymbolSdk} {networkType : NetworkType} {accounts : ℕ → ConfigAccount}
  {entries : List Prompt → ℕ → List String}

theorem enteredAccount_of_created {known : ConfigAccount} {value : String} {account : Account}
    (hne : value ≠ "")
    (hcreated : sdk.createFromPrivateKey (toUpperCase value) networkType = .ok account) :
    enteredAccount sdk networkType known value =
      .ok (if toUpperCase account.publicKey ≠ toUpperCase known.publicKey then none
        else some (account, toUpperCase value)) := by
  rw [enteredAccount, if_neg hne]
  change (sdk.createFromPrivateKey (toUpperCase value) networkType >>= _) = _
  rw [hcreated]
  change (if toUpperCase account.publicKey ≠ toUpperCase known.publicKey then _ else _) = _
  split <;> rfl

/-- The loop ends once the key has been entered. -/
theorem promptLoop_returns (object : ℕ) {known : ConfigAccount} {values : List String}
    (h : Answers sdk networkType known values) (history : List Prompt) :
    ∃ account, (promptLoop sdk networkType object known values history).2 = .ok account := by
  obtain ⟨front, value, back, account, rfl, hne, hcreated, hsame, hfront⟩ := h
  induction front generalizing history with
  | nil =>
    have hentered : ofSdk (enteredAccount sdk networkType known value) =
        .ok (some (account, toUpperCase value)) := by
      rw [enteredAccount_of_created hne hcreated]
      exact congrArg (fun entered => ofSdk (.ok entered)) (if_neg (not_not.mpr hsame))
    refine ⟨account, ?_⟩
    rw [List.nil_append, promptLoop, run_bind_lift hentered]
    rfl
  | cons other rest ih =>
    obtain ⟨result, hresult⟩ := ih (history ++ [⟨object, none⟩])
      fun value hvalue => hfront value (List.mem_cons_of_mem _ hvalue)
    rw [List.cons_append, promptLoop]
    have hentered : ∃ entered, enteredAccount sdk networkType known other = .ok entered := by
      rcases hfront other List.mem_cons_self with rfl | ⟨account', hcreated'⟩
      · exact ⟨none, rfl⟩
      · by_cases hempty : other = ""
        · exact ⟨none, by rw [hempty]; rfl⟩
        · exact ⟨_, enteredAccount_of_created hempty hcreated'⟩
    obtain ⟨entered, hentered⟩ := hentered
    rw [run_bind_lift (ofSdk_ok.mpr hentered)]
    cases entered with
    | some entered => exact ⟨entered.1, rfl⟩
    | none => exact ⟨result, hresult⟩

variable (sdk networkType accounts entries) in
/-- The user knows the private keys of these accounts. -/
structure Answered (objects : List ℕ) : Prop where
  readable : ∀ object ∈ objects, ∃ account,
    sdk.createFromPublicKey (accounts object).publicKey networkType = .ok account
  answers : ∀ history, ∀ object ∈ objects,
    Answers sdk networkType (accounts object) (entries history object)

theorem resolveAccount_returns {object : ℕ} {objects : List ℕ}
    (h : Answered sdk networkType accounts entries objects) (hobject : object ∈ objects)
    {now : List Prompt} (hsession : Session sdk networkType accounts now) :
    ∃ account, (resolveAccount sdk networkType accounts entries object now).2 = .ok account := by
  rw [resolveAccount, run_bind_history]
  cases hkey : given (accountsAfter accounts now object).privateKey with
  | some privateKey =>
    obtain ⟨account, hcreated, -⟩ := hsession.fits object privateKey hkey
    exact ⟨account, ofSdk_ok.mpr hcreated⟩
  | none =>
    obtain ⟨account, hcreated⟩ := h.readable object hobject
    rw [← accountsAfter_publicKey accounts now] at hcreated
    simp only
    rw [run_bind_lift (ofSdk_ok.mpr hcreated)]
    apply promptLoop_returns
    obtain ⟨front, value, back, account, hvalues, hne, hcreated, hsame, hfront⟩ :=
      h.answers now object hobject
    refine ⟨front, value, back, account, hvalues, hne, hcreated, ?_, hfront⟩
    rw [SameKey, accountsAfter_publicKey]
    exact hsame

theorem resolveAccounts_returns (hsdk : sdk.Lawful) {objects : List ℕ}
    (h : Answered sdk networkType accounts entries objects)
    {now : List Prompt} (hsession : Session sdk networkType accounts now) :
    ∃ result, (resolveAccounts sdk networkType accounts entries objects now).2 = .ok result := by
  induction objects generalizing now with
  | nil => exact ⟨[], rfl⟩
  | cons object rest ih =>
    obtain ⟨account, haccount⟩ := resolveAccount_returns h List.mem_cons_self hsession
    have hnext := (@resolveAccount_session sdk networkType accounts entries hsdk object now
      ⟨hsession, trivial⟩).2
    rw [haccount] at hnext
    have hrest : Answered sdk networkType accounts entries rest :=
      ⟨fun other hother => h.readable other (List.mem_cons_of_mem object hother),
        fun history other hother => h.answers history other (List.mem_cons_of_mem object hother)⟩
    obtain ⟨others, hothers⟩ := ih hrest hnext.1
    refine ⟨account :: others, ?_⟩
    rw [resolveAccounts, run_bind_ok (Prod.ext rfl haccount)]
    simp only
    rw [run_bind_ok (Prod.ext rfl hothers)]
    rfl

end Returns

/-- One account without a private key. -/
def unknownPeer : ConfigAccount := ⟨none, peerMain.publicKey, peerMain.address⟩

/-- Nothing is entered at first, then the key of another account, then the right one. -/
def peerEntries : List String := ["", nemesisSigner.privateKey, peerMain.privateKey]

end SymbolBootstrap.BootstrapAccountResolver
