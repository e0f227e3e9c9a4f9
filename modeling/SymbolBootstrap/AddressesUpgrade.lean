import SymbolBootstrap.NodeResolution
import SymbolBootstrap.KnownAccounts
import SymbolBootstrap.NemesisSound

/-!
Running `resolveAddresses` again on what an earlier run stored. Everything public is found
again; what decides is whether the nemesis signer's private key was stored, since the
signer is resolved from its private key and a drawn one does not fit its public key.
-/
namespace SymbolBootstrap.AddressesUpgrade

open Library.CaseMapping Library.Throwing CryptoUtils ConfigurationUtils NemesisBalances
  AddressesService AddressesDocuments AccountResolution NodeResolution

section

variable {services : Services} {presetData : ConfigPreset} {draws draws' : Draws}

theorem given_isSome_iff {text : Option String} :
    (given text).isSome = true ↔ ∃ value, text = some value ∧ value ≠ "" := by
  rw [Option.isSome_iff_exists]
  simp only [given_eq_some]

section Sinks

variable {networkType : NetworkType} {sinkAddress sinkAddress' providedAddress : Option String}
  {address : String}

/-- A sink address that is there stays; one that is asked for is there afterwards. -/
theorem resolveSyncAddress_first (hsdk : services.sdk.Lawful)
    (h : resolveSyncAddress services networkType sinkAddress providedAddress draws =
      .ok ((address, sinkAddress'), draws')) :
    ((given sinkAddress).isSome = true → sinkAddress' = sinkAddress) ∧
    (given providedAddress = none → (given sinkAddress').isSome = true) ∧
    ∀ rawAddress, given providedAddress = some rawAddress →
      ∃ plain, services.sdk.createFromRawAddress rawAddress = .ok plain := by
  cases hprovided : given providedAddress with
  | some rawAddress =>
    simp only [resolveSyncAddress, hprovided, run_bind_ok, run_lift_ok, run_pure_ok] at h
    obtain ⟨plain, _, ⟨hplain, rfl⟩, hresult⟩ := h
    cases hresult
    refine ⟨fun _ => rfl, ?_, ?_⟩
    · intro hnone
      cases hnone
    · intro rawAddress' hraw
      cases hraw
      exact ⟨_, hplain⟩
  | none =>
    cases hsink : given sinkAddress with
    | some stored =>
      simp only [resolveSyncAddress, hprovided, hsink, run_pure_ok] at h
      cases h
      obtain ⟨rfl, hne⟩ := given_eq_some.mp hsink
      refine ⟨fun _ => rfl, fun _ => given_isSome_iff.mpr ⟨_, rfl, hne⟩, ?_⟩
      intro rawAddress hraw
      cases hraw
    | none =>
      simp only [resolveSyncAddress, hprovided, hsink] at h
      obtain ⟨account, draws₁, haccount, hpure⟩ := run_bind_ok.mp h
      cases haccount
      cases run_pure_ok.mp hpure
      refine ⟨?_, fun _ => given_isSome_iff.mpr ⟨_, rfl, hsdk.address_ne _ _⟩, ?_⟩
      · intro hsome
        cases hsome
      · intro rawAddress hraw
        cases hraw

theorem resolveSyncAddress_again
    (hsink : given providedAddress = none → (given sinkAddress).isSome = true)
    (hraw : ∀ rawAddress, given providedAddress = some rawAddress →
      ∃ plain, services.sdk.createFromRawAddress rawAddress = .ok plain) :
    ∃ address, resolveSyncAddress services networkType sinkAddress providedAddress draws =
      .ok ((address, sinkAddress), draws) := by
  cases hprovided : given providedAddress with
  | some rawAddress =>
    obtain ⟨plain, hplain⟩ := hraw rawAddress hprovided
    refine ⟨plain, ?_⟩
    simp only [resolveSyncAddress, hprovided]
    exact run_bind_ok.mpr ⟨plain, draws, run_lift_ok.mpr ⟨hplain, rfl⟩, rfl⟩
  | none =>
    obtain ⟨stored, rfl, hne⟩ := given_isSome_iff.mp (hsink hprovided)
    refine ⟨stored, ?_⟩
    simp only [resolveSyncAddress, hprovided, given_some hne]
    rfl

end Sinks

/-- The three fee sink addresses of the preset. -/
def feeSinks (presetData : ConfigPreset) : List (Option String) :=
  [presetData.harvestNetworkFeeSinkAddress, presetData.mosaicRentalFeeSinkAddress,
    presetData.namespaceRentalFeeSinkAddress]

theorem resolveSinkAddresses_run {old : Option Addresses} {result : ConfigPreset × Option String} :
    resolveSinkAddresses services old presetData draws = .ok (result, draws') ↔
      ∃ harvest sink₁ draws₁ mosaicRental sink₂ draws₂ namespaceRental sink₃,
        resolveSyncAddress services presetData.networkType
          ((given presetData.sinkAddress).or (old.bind Addresses.sinkAddress))
          presetData.harvestNetworkFeeSinkAddress draws = .ok ((harvest, sink₁), draws₁) ∧
        resolveSyncAddress services presetData.networkType sink₁
          presetData.mosaicRentalFeeSinkAddress draws₁ = .ok ((mosaicRental, sink₂), draws₂) ∧
        resolveSyncAddress services presetData.networkType sink₂
          presetData.namespaceRentalFeeSinkAddress draws₂ =
            .ok ((namespaceRental, sink₃), draws') ∧
        result = (withSinkAddresses presetData harvest mosaicRental namespaceRental, sink₃) := by
  simp only [resolveSinkAddresses, run_bind_ok, run_pure_ok, Prod.mk.injEq, Prod.exists]
  constructor
  · rintro ⟨harvest, sink₁, draws₁, h₁, mosaicRental, sink₂, draws₂, h₂, namespaceRental, sink₃,
      draws₃, h₃, rfl, rfl⟩
    exact ⟨harvest, sink₁, draws₁, mosaicRental, sink₂, draws₂, namespaceRental, sink₃, h₁, h₂,
      h₃, rfl⟩
  · rintro ⟨harvest, sink₁, draws₁, mosaicRental, sink₂, draws₂, namespaceRental, sink₃, h₁, h₂,
      h₃, rfl⟩
    exact ⟨harvest, sink₁, draws₁, h₁, mosaicRental, sink₂, draws₂, h₂, namespaceRental, sink₃,
      draws', h₃, rfl, rfl⟩

/-- What a first run leaves: a sink address where one was asked for, the preset's own if it
has one, and the given addresses were read. -/
theorem resolveSinkAddresses_first (hsdk : services.sdk.Lawful) {sinkAddress : Option String}
    {presetData' : ConfigPreset}
    (h : resolveSinkAddresses services none presetData draws =
      .ok ((presetData', sinkAddress), draws')) :
    (∃ harvest mosaicRental namespaceRental,
      presetData' = withSinkAddresses presetData harvest mosaicRental namespaceRental) ∧
    (∀ value, given presetData.sinkAddress = some value → sinkAddress = some value) ∧
    ∀ provided ∈ feeSinks presetData,
      (given provided = none → (given sinkAddress).isSome = true) ∧
      ∀ rawAddress, given provided = some rawAddress →
        ∃ plain, services.sdk.createFromRawAddress rawAddress = .ok plain := by
  obtain ⟨harvest, sink₁, draws₁, mosaicRental, sink₂, draws₂, namespaceRental, sink₃, h₁, h₂, h₃,
    hresult⟩ := resolveSinkAddresses_run.mp h
  obtain ⟨rfl, rfl⟩ := Prod.mk.inj hresult
  obtain ⟨hkeep₁, hthere₁, hraw₁⟩ := resolveSyncAddress_first hsdk h₁
  obtain ⟨hkeep₂, hthere₂, hraw₂⟩ := resolveSyncAddress_first hsdk h₂
  obtain ⟨hkeep₃, hthere₃, hraw₃⟩ := resolveSyncAddress_first hsdk h₃
  have hlater₂ : (given sink₁).isSome = true → sinkAddress = sink₁ := by
    intro hsome
    have hsame := hkeep₂ hsome
    rw [← hsame] at hsome ⊢
    exact hkeep₃ hsome
  refine ⟨⟨harvest, mosaicRental, namespaceRental, rfl⟩, ?_, ?_⟩
  · intro value hvalue
    have hstart : (given presetData.sinkAddress).or ((none : Option Addresses).bind
        Addresses.sinkAddress) = some value := by
      rw [hvalue]
      rfl
    have hsome : (given (some value)).isSome = true :=
      given_isSome_iff.mpr ⟨value, rfl, (given_eq_some.mp hvalue).2⟩
    rw [hstart] at hkeep₁
    have hsame := hkeep₁ hsome
    rw [← hsame] at hsome
    rw [hlater₂ hsome, hsame]
  · intro provided hprovided
    simp only [feeSinks, List.mem_cons, List.not_mem_nil, or_false] at hprovided
    rcases hprovided with rfl | rfl | rfl
    · refine ⟨?_, hraw₁⟩
      intro hnone
      have hsome := hthere₁ hnone
      rw [hlater₂ hsome]
      exact hsome
    · refine ⟨?_, hraw₂⟩
      intro hnone
      have hsome := hthere₂ hnone
      rw [hkeep₃ hsome]
      exact hsome
    · exact ⟨hthere₃, hraw₃⟩

variable (draws) in
theorem resolveSinkAddresses_again {old : Addresses} {sinkAddress : Option String}
    (hstart : (given presetData.sinkAddress).or old.sinkAddress = sinkAddress)
    (hsinks : ∀ provided ∈ feeSinks presetData,
      (given provided = none → (given sinkAddress).isSome = true) ∧
      ∀ rawAddress, given provided = some rawAddress →
        ∃ plain, services.sdk.createFromRawAddress rawAddress = .ok plain) :
    ∃ harvest mosaicRental namespaceRental,
      resolveSinkAddresses services (some old) presetData draws =
        .ok ((withSinkAddresses presetData harvest mosaicRental namespaceRental, sinkAddress),
          draws) := by
  have hall : ∀ provided ∈ feeSinks presetData, ∃ address,
      resolveSyncAddress services presetData.networkType sinkAddress provided draws =
        .ok ((address, sinkAddress), draws) := by
    intro provided hprovided
    exact resolveSyncAddress_again (hsinks provided hprovided).1 (hsinks provided hprovided).2
  obtain ⟨harvest, h₁⟩ := hall _ List.mem_cons_self
  obtain ⟨mosaicRental, h₂⟩ := hall _ (List.mem_cons_of_mem _ List.mem_cons_self)
  obtain ⟨namespaceRental, h₃⟩ :=
    hall _ (List.mem_cons_of_mem _ (List.mem_cons_of_mem _ List.mem_cons_self))
  refine ⟨harvest, mosaicRental, namespaceRental, resolveSinkAddresses_run.mpr ⟨harvest,
    sinkAddress, draws, mosaicRental, sinkAddress, draws, namespaceRental, sinkAddress, ?_, h₂, h₃,
    rfl⟩⟩
  show resolveSyncAddress _ _ ((given presetData.sinkAddress).or old.sinkAddress) _ _ = _
  rw [hstart]
  exact h₁

theorem resolveHashSeed_first (hsdk : services.sdk.Lawful) {seed : String}
    (h : resolveHashSeed services none presetData draws = .ok (seed, draws')) :
    seed ≠ "" ∧
      ∀ value, given presetData.nemesisGenerationHashSeed = some value → value = seed := by
  cases hseed : given presetData.nemesisGenerationHashSeed with
  | some value =>
    simp only [resolveHashSeed, hseed, Option.some_or, run_pure_ok] at h
    cases h
    refine ⟨(given_eq_some.mp hseed).2, ?_⟩
    intro value' hvalue
    exact (Option.some.inj hvalue).symm
  | none =>
    simp only [resolveHashSeed, hseed] at h
    cases h
    refine ⟨hsdk.randomHash_ne _, ?_⟩
    intro value hvalue
    cases hvalue

theorem resolveHashSeed_again {old : Addresses} (hne : old.nemesisGenerationHashSeed ≠ "")
    (hsame : ∀ value, given presetData.nemesisGenerationHashSeed = some value →
      value = old.nemesisGenerationHashSeed) :
    resolveHashSeed services (some old) presetData draws =
      .ok (old.nemesisGenerationHashSeed, draws) := by
  cases hseed : given presetData.nemesisGenerationHashSeed with
  | some value =>
    simp only [resolveHashSeed, hseed, Option.some_or]
    rw [hsame value hseed]
    rfl
  | none =>
    simp only [resolveHashSeed, hseed, Option.none_or, Option.map_some, given_some hne]
    rfl

theorem resolveNetwork_run {old : Option Addresses} {result : Addresses × ConfigPreset} :
    resolveNetwork services old presetData draws = .ok (result, draws') ↔
      ∃ seed draws₁ presetSinks sinkAddress draws₂ networkName nodes,
        resolveHashSeed services old presetData draws = .ok (seed, draws₁) ∧
        resolveSinkAddresses services old presetData draws₁ =
          .ok ((presetSinks, sinkAddress), draws₂) ∧
        getNetworkName presetData.networkType = .ok networkName ∧
        resolveNodesAccounts services old (withNetwork presetSinks networkName seed) draws₂ =
          .ok (nodes, draws') ∧
        result = ({
          version := 2, networkType := presetData.networkType
          nemesisGenerationHashSeed := seed, sinkAddress, nodes
          nemesisSigner := none, mosaics := none }, withNetwork presetSinks networkName seed) := by
  simp only [resolveNetwork, run_bind_ok, run_lift_ok, run_pure_ok, Prod.mk.injEq, Prod.exists]
  constructor
  · rintro ⟨seed, draws₁, hseed, presetSinks, sinkAddress, draws₂, hsinks, networkName, _,
      ⟨hname, rfl⟩, nodes, draws₃, hnodes, rfl, rfl⟩
    exact ⟨seed, draws₁, presetSinks, sinkAddress, _, networkName, nodes, hseed, hsinks, hname,
      hnodes, rfl⟩
  · rintro ⟨seed, draws₁, presetSinks, sinkAddress, draws₂, networkName, nodes, hseed, hsinks,
      hname, hnodes, rfl⟩
    exact ⟨seed, draws₁, hseed, presetSinks, sinkAddress, draws₂, hsinks, networkName, draws₂,
      ⟨hname, rfl⟩, nodes, draws', hnodes, rfl, rfl⟩

variable (services presetData) in
/-- Addresses whose network part is what a first run makes of the preset. -/
structure SettledNetwork (a : Addresses) : Prop where
  version : a.version = 2
  networkType : a.networkType = presetData.networkType
  networkName : ∃ networkName, getNetworkName presetData.networkType = .ok networkName
  seed_ne : a.nemesisGenerationHashSeed ≠ ""
  seed : ∀ value, given presetData.nemesisGenerationHashSeed = some value →
    value = a.nemesisGenerationHashSeed
  sinkAddress : ∀ value, given presetData.sinkAddress = some value → a.sinkAddress = some value
  feeSinks : ∀ provided ∈ feeSinks presetData,
    (given provided = none → (given a.sinkAddress).isSome = true) ∧
    ∀ rawAddress, given provided = some rawAddress →
      ∃ plain, services.sdk.createFromRawAddress rawAddress = .ok plain
  nodes : List.Forall₂ (fun entry node => Settled services presetData entry.2 entry.1 node)
    presetData.nodes.zipIdx a.nodes

variable (presetData) in
/-- The preset as the network part of the run leaves it. -/
def IsNetworkPreset (presetData' : ConfigPreset) : Prop :=
  ∃ harvest mosaicRental namespaceRental networkName seed, presetData' =
    withNetwork (withSinkAddresses presetData harvest mosaicRental namespaceRental) networkName seed

theorem resolveNetwork_first (hsdk : services.sdk.Lawful) {a : Addresses}
    {presetData' : ConfigPreset}
    (h : resolveNetwork services none presetData draws = .ok ((a, presetData'), draws')) :
    SettledNetwork services presetData a ∧ IsNetworkPreset presetData presetData' := by
  obtain ⟨seed, draws₁, presetSinks, sinkAddress, draws₂, networkName, nodes, hseed, hsinks, hname,
    hnodes, hresult⟩ := resolveNetwork_run.mp h
  obtain ⟨rfl, rfl⟩ := Prod.mk.inj hresult
  obtain ⟨hseedne, hseed⟩ := resolveHashSeed_first hsdk hseed
  obtain ⟨⟨harvest, mosaicRental, namespaceRental, rfl⟩, hsink, hfee⟩ :=
    resolveSinkAddresses_first hsdk hsinks
  have hnodes := resolveNodesAccounts_first hsdk hnodes
  refine ⟨⟨rfl, rfl, ⟨networkName, hname⟩, hseedne, hseed, hsink, hfee, ?_⟩,
    harvest, mosaicRental, namespaceRental, networkName, seed, rfl⟩
  exact hnodes.imp fun _ _ hsettled => hsettled.congr ⟨rfl, rfl, rfl⟩

/-- What is stored of a settled network is settled for the stored preset. -/
theorem SettledNetwork.stored {a : Addresses} (h : SettledNetwork services presetData a)
    (mode : PrivateKeySecurityMode) :
    SettledNetwork services (storedPreset presetData) (storedAddresses mode a) where
  version := h.version
  networkType := h.networkType
  networkName := h.networkName
  seed_ne := h.seed_ne
  seed := h.seed
  sinkAddress := h.sinkAddress
  feeSinks := h.feeSinks
  nodes := by
    show List.Forall₂ _ (presetData.nodes.map storedNodePreset).zipIdx
      (a.nodes.map (storedNode mode))
    rw [List.zipIdx_map, List.forall₂_map_left_iff, List.forall₂_map_right_iff]
    exact h.nodes.imp fun _ _ hsettled => hsettled.stored mode

/-- The nemesis part of the addresses does not matter to it. -/
theorem SettledNetwork.withNemesis {a : Addresses} (h : SettledNetwork services presetData a)
    (signer : Option ConfigAccount) (mosaics : Option (List MosaicAccounts)) :
    SettledNetwork services presetData { a with nemesisSigner := signer, mosaics } :=
  ⟨h.version, h.networkType, h.networkName, h.seed_ne, h.seed, h.sinkAddress, h.feeSinks, h.nodes⟩

/-- A settled network is given back, when the preset holds no private key and its public keys
can be read. -/
theorem resolveNetwork_again (hsdk : services.sdk.Lawful) {a : Addresses}
    (ha : SettledNetwork services presetData a)
    (hread : ∀ nodePreset ∈ presetData.nodes, NodeReadable services presetData nodePreset)
    (hstored : presetData.nodes = presetData.nodes.map storedNodePreset) :
    ∃ presetData', IsNetworkPreset presetData presetData' ∧
      resolveNetwork services (some a) presetData draws =
        .ok (({ a with nemesisSigner := none, mosaics := none }, presetData'), draws) := by
  obtain ⟨networkName, hname⟩ := ha.networkName
  have hstart : (given presetData.sinkAddress).or a.sinkAddress = a.sinkAddress := by
    cases hsink : given presetData.sinkAddress with
    | none => rfl
    | some value => rw [ha.sinkAddress value hsink, Option.some_or]
  obtain ⟨harvest, mosaicRental, namespaceRental, hsinks⟩ :=
    resolveSinkAddresses_again draws hstart ha.feeSinks
  refine ⟨_, ⟨harvest, mosaicRental, namespaceRental, networkName, a.nemesisGenerationHashSeed,
    rfl⟩, resolveNetwork_run.mpr ⟨a.nemesisGenerationHashSeed, draws, _, a.sinkAddress, draws,
    networkName, a.nodes, resolveHashSeed_again ha.seed_ne ha.seed, hsinks, hname, ?_, ?_⟩⟩
  · apply resolveNodesAccounts_again hsdk
    · exact ha.nodes.imp fun _ _ hsettled => hsettled.congr ⟨rfl, rfl, rfl⟩
    · intro nodePreset hmem
      exact (hread nodePreset hmem).congr ⟨rfl, rfl, rfl⟩
    · exact hstored
  · obtain ⟨version, networkType, seed, sinkAddress, nodes, signer, mosaics⟩ := a
    have hversion := ha.version
    have htype := ha.networkType
    simp only at hversion htype
    rw [hversion, htype]

section Signer

variable {nemesis : NemesisPreset} {old : Option Addresses} {signer : ConfigAccount}

/-- The signer is the account of the private key that was resolved, and a public key that is
known for it is that account's. -/
theorem resolveNemesisAccount_run
    (h : resolveNemesisAccount services presetData nemesis old draws = .ok (signer, draws')) :
    ∃ key account,
      resolveSignerPrivateKey services presetData nemesis (old.bind Addresses.nemesisSigner)
        draws = .ok (key, draws') ∧
      services.sdk.createFromPrivateKey key presetData.networkType = .ok account ∧
      signer = toConfigAccount (.account account) ∧
      ∀ text, given ((given presetData.nemesisSignerPublicKey).or
          ((old.bind Addresses.nemesisSigner).map ConfigAccount.publicKey)) = some text →
        toUpperCase account.publicKey = toUpperCase text := by
  obtain ⟨key, draws₁, hkey, hrest⟩ := run_bind_ok.mp h
  obtain ⟨resolved, draws₂, hlift, hlast⟩ := run_bind_ok.mp hrest
  obtain ⟨hresolved, hdraws⟩ := run_lift_ok.mp hlift
  simp only at hresolved hdraws
  subst hdraws
  cases resolved with
  | none => exact absurd hlast run_throw_ok
  | some resolved =>
    simp only at hlast
    rcases toConfigAccountFomKeys_cases hresolved with
      ⟨key', account, hgiven, hcreated, hsome, hsame⟩ | ⟨text, account, -, -, -, hsome⟩ |
        ⟨-, -, hnone⟩
    · obtain ⟨hkey', -⟩ := given_eq_some.mp hgiven
      cases hkey'
      cases hsome
      have hpure := (run_check_ok.mp hlast).2
      cases hpure
      exact ⟨key, account, hkey, hcreated, rfl, hsame⟩
    · -- an account made from a public key alone has no private key
      cases hsome
      exact absurd rfl (run_check_ok.mp hlast).1
    · cases hnone

/-- A signer that is stored with its private key is resolved from it. -/
theorem resolveNemesisAccount_again {a : Addresses}
    (hsigner : a.nemesisSigner = some signer) {key : String}
    (hkey : signer.privateKey = some key)
    (hgenuine : Genuine services.sdk presetData.networkType signer)
    (hagrees : Agrees presetData.nemesisSignerPublicKey signer)
    (hnone : nemesis.nemesisSignerPrivateKey = none) :
    resolveNemesisAccount services presetData nemesis (some a) draws = .ok (signer, draws) := by
  obtain ⟨hne, -, hcreated⟩ := hgenuine.privateKey key hkey
  have hprivate : resolveSignerPrivateKey services presetData nemesis (some signer) draws =
      .ok (key, draws) := by
    simp only [resolveSignerPrivateKey, hnone, given_none, Option.bind_some, hkey,
      given_some hne, Option.none_or]
    rfl
  -- the public key that goes with it is the preset's or the stored one
  have hsame : ∀ text, given ((given presetData.nemesisSignerPublicKey).or
      (some signer.publicKey)) = some text →
      toUpperCase signer.publicKey = toUpperCase text := by
    intro text htext
    rw [hgenuine.publicKey_upper]
    cases hpublic : given presetData.nemesisSignerPublicKey with
    | none =>
      rw [hpublic] at htext
      obtain ⟨hpublicKey, -⟩ := given_eq_some.mp htext
      cases hpublicKey
      exact hgenuine.publicKey_upper.symm
    | some text' =>
      rw [hpublic] at htext
      obtain ⟨hpublicKey, -⟩ := given_eq_some.mp htext
      cases hpublicKey
      exact (hagrees text hpublic).symm
  have hconfig : toConfigAccount (.account ⟨⟨signer.publicKey, signer.address⟩, key⟩) = signer := by
    obtain ⟨privateKey, publicKey, address⟩ := signer
    simp only at hkey
    rw [hkey]
    rfl
  have hresolved : toConfigAccountFomKeys services.sdk presetData.networkType
      ((given presetData.nemesisSignerPublicKey).or (some signer.publicKey)) (some key) =
        .ok (some signer) := by
    simp only [toConfigAccountFomKeys, toAccount, given_some hne]
    cases htext : given ((given presetData.nemesisSignerPublicKey).or
        (some signer.publicKey)) with
    | none => exact bind_ok.mpr ⟨_, bind_ok.mpr ⟨_, hcreated, rfl⟩, by rw [← hconfig]; rfl⟩
    | some text =>
      refine bind_ok.mpr ⟨_, bind_ok.mpr ⟨_, hcreated, check_ok.mpr ⟨?_, rfl⟩⟩, ?_⟩
      · exact not_not.mpr (hsame text htext)
      · rw [← hconfig]
        rfl
  refine run_bind_ok.mpr ⟨key, draws, ?_, run_bind_ok.mpr ⟨some signer, draws,
    run_lift_ok.mpr ⟨?_, rfl⟩, run_check_ok.mpr ⟨?_, rfl⟩⟩⟩
  · show resolveSignerPrivateKey services presetData nemesis a.nemesisSigner draws = _
    rw [hsigner]
    exact hprivate
  · show toConfigAccountFomKeys _ _ (Option.or _ (a.nemesisSigner.map _)) _ = _
    rw [hsigner]
    exact hresolved
  · rw [hkey, given_some hne]
    simp

variable (presetData nemesis) in
/-- Without its private key a signer is never found again: a drawn key does not fit. -/
theorem resolveNemesisAccount_lost (hsdk : services.sdk.Lawful) {a : Addresses}
    (hsigner : a.nemesisSigner = some signer) (hlost : signer.privateKey = none)
    (hgenuine : Genuine services.sdk presetData.networkType signer)
    (hagrees : Agrees presetData.nemesisSignerPublicKey signer)
    (hnone : nemesis.nemesisSignerPrivateKey = none)
    (hfresh : ∀ n, draws.next ≤ n →
      (services.sdk.generateNewAccount n presetData.networkType).publicKey ≠ signer.publicKey)
    {resolved : ConfigAccount} :
    resolveNemesisAccount services presetData nemesis (some a) draws ≠
      .ok (resolved, draws') := by
  intro h
  obtain ⟨key, account, hkey, hcreated, -, hsame⟩ := resolveNemesisAccount_run h
  simp only [Option.bind_some, hsigner, Option.map_some] at hkey hsame
  simp only [resolveSignerPrivateKey, hnone, given_none, Option.bind_some, hlost,
    Option.none_or] at hkey
  cases hkey
  rw [hsdk.generated] at hcreated
  cases hcreated
  have hgenerated := hsdk.publicKey_of_privateKey _ _ _
    (hsdk.generated draws.next presetData.networkType)
  have hpublic : toUpperCase
      (services.sdk.generateNewAccount draws.next presetData.networkType).publicKey =
        signer.publicKey := by
    cases hpreset : given presetData.nemesisSignerPublicKey with
    | none =>
      have htext : given (some signer.publicKey) = some signer.publicKey :=
        given_some hgenuine.publicKey_ne
      rw [hsame signer.publicKey (by rw [hpreset, Option.none_or, htext]),
        hgenuine.publicKey_upper]
    | some text =>
      have hne := (given_eq_some.mp hpreset).2
      rw [hsame text (by rw [hpreset, Option.some_or, given_some hne]), hagrees text hpreset]
  rw [hgenerated.1] at hpublic
  exact hfresh draws.next le_rfl hpublic

end Signer

section Nemesis

variable {nemesis : NemesisPreset} {old : Option Addresses} {oldPresetData : Option ConfigPreset}
  {a a' : Addresses} {presetData' : ConfigPreset}

/-- The preset once its nemesis signer is known. -/
def withSigner (presetData : ConfigPreset) (nemesis : NemesisPreset) (signer : ConfigAccount) :
    ConfigPreset :=
  { presetData with
    nemesisSignerPublicKey := some signer.publicKey
    nemesis := some { nemesis with nemesisSignerPrivateKey := signer.privateKey } }

theorem resolveNemesis_run :
    resolveNemesis services old oldPresetData a presetData nemesis draws =
        .ok ((a', presetData'), draws') ↔
      ∃ signer draws₁ address presetIds mosaics,
        resolveNemesisAccount services presetData nemesis old draws = .ok (signer, draws₁) ∧
        resolveSignerAddress services (withSigner presetData nemesis signer) =
          .ok (address, presetIds) ∧
        resolveMosaics services old oldPresetData presetIds a.nodes
          { nemesis with nemesisSignerPrivateKey := signer.privateKey } address draws₁ =
            .ok ((mosaics, presetData'), draws') ∧
        a' = { a with nemesisSigner := some signer, mosaics } := by
  simp only [resolveNemesis, withSigner, run_bind_ok, run_lift_ok, run_pure_ok, Prod.mk.injEq,
    Prod.exists]
  constructor
  · rintro ⟨signer, draws₁, hsigner, address, presetIds, _, ⟨haddress, rfl⟩, mosaics, presetLast,
      draws₂, hmosaics, ⟨rfl, rfl⟩, rfl⟩
    exact ⟨signer, _, address, presetIds, mosaics, hsigner, haddress, hmosaics, rfl⟩
  · rintro ⟨signer, draws₁, address, presetIds, mosaics, hsigner, haddress, hmosaics, rfl⟩
    exact ⟨signer, draws₁, hsigner, address, presetIds, draws₁, ⟨haddress, rfl⟩, mosaics,
      presetData', draws', hmosaics, ⟨rfl, rfl⟩, rfl⟩

/-- Where there is a nemesis, only the signer's address can fail. -/
theorem resolveSignerAddress_ok (hnemesis : presetData.nemesis.isSome = true) :
    (∃ result, resolveSignerAddress services presetData = .ok result) ↔
      ∃ address, services.sdk.createAddressFromPublicKey presetData.nemesisSignerPublicKey
        presetData.networkType = .ok address := by
  constructor
  · rintro ⟨result, h⟩
    obtain ⟨address, haddress, -⟩ := bind_ok.mp h
    exact ⟨address, haddress⟩
  · rintro ⟨address, haddress⟩
    have hids : ∃ presetIds, resolveMosaicIds services presetData address = .ok presetIds := by
      obtain ⟨nemesis, hsome⟩ := Option.isSome_iff_exists.mp hnemesis
      unfold resolveMosaicIds
      cases given presetData.harvestingMosaicId with
      | some id => exact ⟨_, rfl⟩
      | none =>
        rw [hsome]
        exact ⟨_, rfl⟩
    obtain ⟨presetIds, hids⟩ := hids
    exact ⟨_, bind_ok.mpr ⟨address, haddress, bind_ok.mpr ⟨presetIds, hids, rfl⟩⟩⟩

theorem resolveNetwork_preset
    (h : resolveNetwork services old presetData draws = .ok ((a, presetData'), draws')) :
    IsNetworkPreset presetData presetData' := by
  obtain ⟨seed, draws₁, presetSinks, sinkAddress, draws₂, networkName, nodes, -, hsinks, -, -,
    hresult⟩ := resolveNetwork_run.mp h
  obtain ⟨harvest, sink₁, draws₃, mosaicRental, sink₂, draws₄, namespaceRental, sink₃, -, -, -,
    hsinksResult⟩ := resolveSinkAddresses_run.mp hsinks
  obtain ⟨rfl, -⟩ := Prod.mk.inj hsinksResult
  obtain ⟨-, rfl⟩ := Prod.mk.inj hresult
  exact ⟨harvest, mosaicRental, namespaceRental, networkName, seed, rfl⟩

theorem nemesis_of_creates (hcreates : shouldCreateNemesis services.seedExists presetData = true) :
    ∃ nemesis, presetData.nemesis = some nemesis := by
  unfold shouldCreateNemesis at hcreates
  simp only [Bool.and_eq_true] at hcreates
  exact Option.isSome_iff_exists.mp hcreates.1.1

/-- What a run reads of a preset without private keys could be read. -/
theorem resolveNetwork_reads
    (h : resolveNetwork services old presetData draws = .ok ((a, presetData'), draws'))
    (hstored : presetData.nodes = presetData.nodes.map storedNodePreset) :
    ∀ nodePreset ∈ presetData.nodes, NodeReadable services presetData nodePreset := by
  obtain ⟨seed, draws₁, presetSinks, sinkAddress, draws₂, networkName, nodes, -, hsinks, -,
    hnodes, -⟩ := resolveNetwork_run.mp h
  obtain ⟨harvest, sink₁, draws₃, mosaicRental, sink₂, draws₄, namespaceRental, sink₃, -, -, -,
    hsinksResult⟩ := resolveSinkAddresses_run.mp hsinks
  obtain ⟨rfl, -⟩ := Prod.mk.inj hsinksResult
  intro nodePreset hmem
  exact (resolveNodesAccounts_reads hnodes hstored nodePreset hmem).congr ⟨rfl, rfl, rfl⟩

/-- The run of a preset that creates a nemesis block. -/
theorem resolveAddresses_creating (hnemesis : presetData.nemesis = some nemesis)
    (hcreates : shouldCreateNemesis services.seedExists presetData = true) :
    resolveAddresses services old oldPresetData presetData draws =
        .ok ((a', presetData'), draws') ↔
      ∃ a₁ presetData₁ draws₁,
        resolveNetwork services old presetData draws = .ok ((a₁, presetData₁), draws₁) ∧
        resolveNemesis services old oldPresetData a₁ presetData₁ nemesis draws₁ =
          .ok ((a', presetData'), draws') := by
  -- the network part of the run does not touch what decides on the nemesis block
  have hsame : ∀ presetData₁, IsNetworkPreset presetData presetData₁ →
      presetData₁.nemesis = some nemesis ∧
      shouldCreateNemesis services.seedExists presetData₁ = true := by
    rintro presetData₁ ⟨harvest, mosaicRental, namespaceRental, networkName, seed, rfl⟩
    exact ⟨hnemesis, hcreates⟩
  unfold resolveAddresses
  simp only [run_bind_ok, Prod.exists]
  constructor
  · rintro ⟨a₁, presetData₁, draws₁, hnetwork, hrest⟩
    obtain ⟨hnemesis₁, hcreates₁⟩ := hsame presetData₁ (resolveNetwork_preset hnetwork)
    rw [hcreates₁, hnemesis₁] at hrest
    exact ⟨a₁, presetData₁, draws₁, hnetwork, hrest⟩
  · rintro ⟨a₁, presetData₁, draws₁, hnetwork, hrest⟩
    obtain ⟨hnemesis₁, hcreates₁⟩ := hsame presetData₁ (resolveNetwork_preset hnetwork)
    refine ⟨a₁, presetData₁, draws₁, hnetwork, ?_⟩
    rw [hcreates₁, hnemesis₁]
    exact hrest

/-- What a first run makes of the nemesis: a genuine signer with its private key. -/
theorem resolveNemesis_first (hsdk : services.sdk.Lawful)
    (h : resolveNemesis services none none a presetData nemesis draws =
      .ok ((a', presetData'), draws')) :
    ∃ signer key mosaics, a' = { a with nemesisSigner := some signer, mosaics } ∧
      signer.privateKey = some key ∧
      Genuine services.sdk presetData.networkType signer ∧
      Agrees presetData.nemesisSignerPublicKey signer ∧
      ∃ address, services.sdk.createAddressFromPublicKey (some signer.publicKey)
        presetData.networkType = .ok address := by
  obtain ⟨signer, draws₁, address, presetIds, mosaics, hsigner, haddress, -, rfl⟩ :=
    resolveNemesis_run.mp h
  obtain ⟨key, account, -, hcreated, rfl, hsame⟩ := resolveNemesisAccount_run hsigner
  refine ⟨_, account.privateKey, mosaics, rfl, rfl, genuine_of_privateKey hsdk hcreated, ?_,
    (resolveSignerAddress_ok rfl).mp ⟨_, haddress⟩⟩
  intro text htext
  have hne := (given_eq_some.mp htext).2
  rw [← hsame text (by rw [htext, Option.some_or, given_some hne])]
  exact (hsdk.publicKey_of_privateKey _ _ _ hcreated).1

variable (presetData nemesis a draws) in
/-- A later run gives the nemesis part back when the signer's private key was stored. -/
theorem resolveNemesis_again (oldPreset : ConfigPreset) {signer : ConfigAccount} {key : String}
    {oldAddresses : Addresses} (hsigner : oldAddresses.nemesisSigner = some signer)
    (hkey : signer.privateKey = some key)
    (hgenuine : Genuine services.sdk presetData.networkType signer)
    (hagrees : Agrees presetData.nemesisSignerPublicKey signer)
    (haddress : ∃ address, services.sdk.createAddressFromPublicKey (some signer.publicKey)
      presetData.networkType = .ok address)
    (hnone : nemesis.nemesisSignerPrivateKey = none) :
    ∃ presetLast, resolveNemesis services (some oldAddresses) (some oldPreset) a presetData
      nemesis draws =
        .ok (({ a with nemesisSigner := some signer, mosaics := oldAddresses.mosaics },
          presetLast), draws) := by
  have hids : ∃ result, resolveSignerAddress services (withSigner presetData nemesis signer) =
      .ok result := (resolveSignerAddress_ok rfl).mpr haddress
  obtain ⟨⟨address, presetIds⟩, hids⟩ := hids
  refine ⟨{ presetIds with nemesis := oldPreset.nemesis }, resolveNemesis_run.mpr ⟨signer, draws,
    address, presetIds, oldAddresses.mosaics, ?_, hids, rfl, rfl⟩⟩
  exact resolveNemesisAccount_again hsigner hkey hgenuine hagrees hnone

end Nemesis

end

/-- The public keys and addresses of the accounts, the hash seed and the sink address. -/
structure Identity where
  nodes : List (List (Option (String × String)))
  nemesisSigner : Option (String × String)
  mosaics : Option (List (List (String × String)))
  nemesisGenerationHashSeed : String
  sinkAddress : Option String
deriving DecidableEq

def publicPart (a : ConfigAccount) : String × String := (a.publicKey, a.address)

def identity (a : Addresses) : Identity where
  nodes := a.nodes.map fun n => [some (publicPart n.main), some (publicPart n.transport),
    n.remote.map publicPart, n.vrf.map publicPart]
  nemesisSigner := a.nemesisSigner.map publicPart
  mosaics := a.mosaics.map (List.map fun m => m.accounts.map publicPart)
  nemesisGenerationHashSeed := a.nemesisGenerationHashSeed
  sinkAddress := a.sinkAddress

theorem publicPart_stored (stores : Bool) (a : ConfigAccount) :
    publicPart (stored stores a) = publicPart a := by
  cases stores <;> rfl

/-- Storing addresses loses nothing of their identity. -/
theorem identity_stored (mode : PrivateKeySecurityMode) (a : Addresses) :
    identity (storedAddresses mode a) = identity a := by
  simp only [identity, storedAddresses, storedNode, storedMosaic, List.map_map, Option.map_map,
    Function.comp_def, publicPart_stored]

/-- A second run on the stored addresses, the stored preset of the first run and the preset
without its private keys succeeds and finds every public key and address again, exactly when
the mode stores the signer's private key and the node public keys of the preset can be read. -/
theorem upgrade_keeps_identity_exactly {services : Services} {presetData firstPreset : ConfigPreset}
    {first : Addresses} {draws draws' upgradeDraws : Draws} {mode : PrivateKeySecurityMode}
    (hsdk : services.sdk.Lawful)
    (hcreates : shouldCreateNemesis services.seedExists presetData = true)
    (hfirst : resolveAddresses services none none presetData draws =
      .ok ((first, firstPreset), draws'))
    (hfresh : ∀ n, upgradeDraws.next ≤ n → ∀ signer, first.nemesisSigner = some signer →
      (services.sdk.generateNewAccount n presetData.networkType).publicKey ≠ signer.publicKey) :
    (∃ second secondPreset draws'',
      resolveAddresses services (some (storedAddresses mode first))
        (some (storedPreset firstPreset)) (storedPreset presetData) upgradeDraws =
          .ok ((second, secondPreset), draws'') ∧
      identity second = identity first) ↔
    mode ≠ .promptAll ∧
      ∀ nodePreset ∈ presetData.nodes, NodeReadable services presetData nodePreset := by
  obtain ⟨nemesis, hnemesis⟩ := nemesis_of_creates hcreates
  obtain ⟨a₁, presetData₁, draws₁, hnetwork, hrest⟩ :=
    (resolveAddresses_creating hnemesis hcreates).mp hfirst
  obtain ⟨hsettled, harvest, mosaicRental, namespaceRental, networkName, seed, rfl⟩ :=
    resolveNetwork_first hsdk hnetwork
  obtain ⟨signer, key, mosaics, rfl, hkey, hgenuine, hagrees, haddress⟩ :=
    resolveNemesis_first hsdk hrest
  have hcreates₂ : shouldCreateNemesis services.seedExists (storedPreset presetData) = true := by
    unfold shouldCreateNemesis storedPreset at *
    rw [Option.isSome_map]
    exact hcreates
  have hnemesis₂ : (storedPreset presetData).nemesis =
      some { nemesis with nemesisSignerPrivateKey := none } := by
    rw [storedPreset, hnemesis, Option.map_some]
  have hfix : (storedPreset presetData).nodes =
      (storedPreset presetData).nodes.map storedNodePreset := by
    simp only [storedPreset, List.map_map]
    rfl
  have hstored := (hsettled.withNemesis (some signer) mosaics).stored mode
  -- a readable stored preset gives the network part back without drawing anything
  have hagain : (∀ nodePreset ∈ presetData.nodes, NodeReadable services presetData nodePreset) →
      ∃ presetData₂, IsNetworkPreset (storedPreset presetData) presetData₂ ∧
        resolveNetwork services
          (some (storedAddresses mode { a₁ with nemesisSigner := some signer, mosaics }))
          (storedPreset presetData) upgradeDraws =
            .ok (({ storedAddresses mode { a₁ with nemesisSigner := some signer, mosaics } with
              nemesisSigner := none, mosaics := none }, presetData₂), upgradeDraws) := by
    intro hread
    apply resolveNetwork_again hsdk hstored _ hfix
    intro nodePreset hmem
    obtain ⟨original, horiginal, rfl⟩ := List.mem_map.mp hmem
    have horiginal := hread original horiginal
    exact ⟨horiginal.main, horiginal.transport, horiginal.remote, horiginal.vrf⟩
  constructor
  · rintro ⟨second, secondPreset, draws'', hsecond, -⟩
    obtain ⟨a₂, presetData₂, draws₂, hnetwork₂, hrest₂⟩ :=
      (resolveAddresses_creating hnemesis₂ hcreates₂).mp hsecond
    have hread : ∀ nodePreset ∈ presetData.nodes,
        NodeReadable services presetData nodePreset := by
      intro nodePreset hmem
      have hreads := resolveNetwork_reads hnetwork₂ hfix (storedNodePreset nodePreset)
        (List.mem_map.mpr ⟨nodePreset, hmem, rfl⟩)
      exact ⟨hreads.main, hreads.transport, hreads.remote, hreads.vrf⟩
    refine ⟨?_, hread⟩
    rintro rfl
    obtain ⟨presetData₃, ⟨harvest₃, mosaicRental₃, namespaceRental₃, networkName₃, seed₃, rfl⟩,
      hnetwork₃⟩ := hagain hread
    obtain ⟨hresult, hdraws⟩ := Prod.mk.inj (Except.ok.inj (hnetwork₂.symm.trans hnetwork₃))
    obtain ⟨-, rfl⟩ := Prod.mk.inj hresult
    subst hdraws
    obtain ⟨resolved, draws₃, address, presetIds, mosaics₂, hsigner, -⟩ :=
      resolveNemesis_run.mp hrest₂
    refine absurd hsigner (resolveNemesisAccount_lost
      (withNetwork (withSinkAddresses (storedPreset presetData) harvest₃ mosaicRental₃
        namespaceRental₃) networkName₃ seed₃)
      { nemesis with nemesisSignerPrivateKey := none } hsdk rfl rfl (hgenuine.stored false)
      (hagrees.stored false) rfl ?_)
    intro n hn
    exact hfresh n hn signer rfl
  · rintro ⟨hmode, hread⟩
    obtain ⟨presetData₂, ⟨harvest₂, mosaicRental₂, namespaceRental₂, networkName₂, seed₂, rfl⟩,
      hnetwork₂⟩ := hagain hread
    have hkept : (storedAddresses mode
        { a₁ with nemesisSigner := some signer, mosaics }).nemesisSigner = some signer := by
      have hstores : storesKeys mode = true := by simpa [storesKeys] using hmode
      show some (stored (storesKeys mode) signer) = some signer
      rw [hstores]
      rfl
    obtain ⟨presetLast, hrest₂⟩ := resolveNemesis_again
      (withNetwork (withSinkAddresses (storedPreset presetData) harvest₂ mosaicRental₂
        namespaceRental₂) networkName₂ seed₂) upgradeDraws
      { nemesis with nemesisSignerPrivateKey := none }
      { storedAddresses mode { a₁ with nemesisSigner := some signer, mosaics } with
        nemesisSigner := none, mosaics := none }
      (storedPreset firstPreset) hkept hkey hgenuine hagrees haddress rfl
    refine ⟨_, presetLast, upgradeDraws, (resolveAddresses_creating hnemesis₂ hcreates₂).mpr
      ⟨_, _, upgradeDraws, hnetwork₂, hrest₂⟩, ?_⟩
    rw [← identity_stored mode { a₁ with nemesisSigner := some signer, mosaics }]
    unfold identity
    rw [hkept]

/-- The known accounts, no bundled seed and `DefaultAccountResolver`. -/
def knownServices : Services where
  sdk := KnownAccounts.knownSdk
  toYaml _ := ""
  seedExists _ := false
  prompt _ _ _ _ := .error "Private key not provided"

theorem generateNewAccount_ne_nemesisSigner {n : ℕ} (h : 1 ≤ n) (networkType : NetworkType) :
    (knownServices.sdk.generateNewAccount n networkType).publicKey ≠
      KnownAccounts.nemesisSigner.publicKey := by
  have hothers : ∀ account ∈ KnownAccounts.knownAccounts.tail,
      account.publicKey ≠ KnownAccounts.nemesisSigner.publicKey := by
    decide +kernel
  obtain ⟨k, rfl⟩ : ∃ k, n = k + 1 := ⟨n - 1, by omega⟩
  show ((KnownAccounts.knownAccounts.tail[k]?).getD KnownAccounts.secondCurrency).publicKey ≠ _
  cases hget : KnownAccounts.knownAccounts.tail[k]? with
  | none => decide +kernel
  | some account => exact hothers account (List.mem_of_getElem? hget)

/-- A new network whose nemesis signer is given. -/
def newNetwork : ConfigPreset :=
  { NemesisSound.smallPreset with
    nemesis := some ⟨some [NemesisSound.currency 1000 (.count 1) 100],
      some KnownAccounts.nemesisSigner.privateKey⟩ }

theorem upgrade_keeps_identity_small :
    ∃ first firstPreset draws',
      resolveAddresses knownServices none none newNetwork ⟨0, []⟩ =
        .ok ((first, firstPreset), draws') ∧
      ((∃ second secondPreset draws'',
        resolveAddresses knownServices (some (storedAddresses .encrypt first))
          (some (storedPreset firstPreset)) (storedPreset newNetwork) ⟨7, []⟩ =
            .ok ((second, secondPreset), draws'') ∧
        identity second = identity first) ↔
      PrivateKeySecurityMode.encrypt ≠ .promptAll ∧
        ∀ nodePreset ∈ newNetwork.nodes, NodeReadable knownServices newNetwork nodePreset) := by
  obtain ⟨first, firstPreset, draws', hrun, hpublic⟩ : ∃ first firstPreset draws',
      resolveAddresses knownServices none none newNetwork ⟨0, []⟩ =
        .ok ((first, firstPreset), draws') ∧
      first.nemesisSigner.map ConfigAccount.publicKey =
        some KnownAccounts.nemesisSigner.publicKey := ⟨_, _, _, rfl, rfl⟩
  refine ⟨first, firstPreset, draws', hrun,
    upgrade_keeps_identity_exactly KnownAccounts.knownSdk_lawful rfl hrun ?_⟩
  intro n hn signer hsigner
  rw [hsigner, Option.map_some, Option.some.injEq] at hpublic
  rw [hpublic]
  exact generateNewAccount_ne_nemesisSigner (Nat.one_le_of_lt hn) _

/-- A new network of a node with its own keys, in the mode that stores no private key. -/
def promptNetwork : ConfigPreset :=
  { NemesisSound.smallPreset with
    privateKeySecurityMode := some "PROMPT_ALL"
    nemesisGenerationHashSeed := some (KnownAccounts.knownSdk.randomHash 0)
    sinkAddress := some KnownAccounts.secondCurrency.address
    nodes := [{ NemesisSound.harvestingNode with
      harvesting := false
      mainPrivateKey := some KnownAccounts.peerMain.privateKey
      transportPrivateKey := some KnownAccounts.peerTransport.privateKey }]
    nemesis := some ⟨some [NemesisSound.currency 1000 (.publicKeys
      [KnownAccounts.firstCurrency.publicKey]) 100], none⟩ }

def promptAddresses : Addresses where
  version := 2
  networkType := 152
  nemesisGenerationHashSeed := KnownAccounts.knownSdk.randomHash 0
  sinkAddress := some KnownAccounts.secondCurrency.address
  nodes := [{ NemesisSound.smallNode with
    main := toConfigAccount (.account KnownAccounts.peerMain)
    transport := toConfigAccount (.account KnownAccounts.peerTransport) }]
  nemesisSigner := some (toConfigAccount (.account KnownAccounts.nemesisSigner))
  mosaics := some [⟨"5ECF396E439048D4", "currency",
    [toConfigAccount (.publicAccount KnownAccounts.firstCurrency.toPublicAccount)]⟩]

theorem promptNetwork_run : ∃ firstPreset,
    resolveAddresses knownServices none none promptNetwork ⟨0, []⟩ =
      .ok ((promptAddresses, firstPreset),
        ⟨1, [(.nemesisSigner, KnownAccounts.nemesisSigner)]⟩) := by
  have hrun : (resolveAddresses knownServices none none promptNetwork ⟨0, []⟩).map
      (fun result => (result.1.1, result.2)) =
        .ok (promptAddresses, ⟨1, [(.nemesisSigner, KnownAccounts.nemesisSigner)]⟩) := by
    decide +kernel
  obtain ⟨⟨⟨first, firstPreset⟩, draws'⟩, hrun, hresult⟩ := map_ok.mp hrun
  obtain ⟨rfl, rfl⟩ := Prod.mk.inj hresult
  exact ⟨firstPreset, hrun⟩

/-- Without the stored private key a new one is drawn for the nemesis signer. -/
theorem upgrade_loses_nemesisSigner :
    ∃ first firstPreset draws',
      resolveAddresses knownServices none none promptNetwork ⟨0, []⟩ =
        .ok ((first, firstPreset), draws') ∧
      resolveAddresses knownServices (some (storedAddresses .promptAll first))
        (some (storedPreset firstPreset)) (storedPreset promptNetwork) draws' =
          .error "Invalid provided public key/private key!" := by
  obtain ⟨firstPreset, hfirst⟩ := promptNetwork_run
  exact ⟨_, firstPreset, _, hfirst, rfl⟩

end SymbolBootstrap.AddressesUpgrade
