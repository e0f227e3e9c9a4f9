import SymbolBootstrap.AccountResolution

/-!
The accounts of the nodes, resolved for the first time and again. A settled node is what a
first run makes of a node preset; storing it and resolving it again gives it back.
-/
namespace SymbolBootstrap.NodeResolution

open Library.CaseMapping Library.Throwing CryptoUtils ConfigurationUtils NemesisBalances
  AddressesService AddressesDocuments AccountResolution

/-- A public key of the preset, if it gives one, is the account's. -/
def Agrees (publicKey : Option String) (a : ConfigAccount) : Prop :=
  ∀ text, given publicKey = some text → toUpperCase text = a.publicKey

/-- A public key of the preset, if it gives one, can be read. -/
def Readable (services : Services) (presetData : ConfigPreset) (publicKey : Option String) :
    Prop :=
  ∀ text, given publicKey = some text →
    ∃ account, services.sdk.createFromPublicKey text presetData.networkType = .ok account

theorem resolveWhen_ok {condition : Bool} {resolve : Gen ConfigAccount} {draws draws' : Draws}
    {result : Option ConfigAccount} :
    resolveWhen condition resolve draws = .ok (result, draws') ↔
      condition = true ∧ (∃ a, result = some a ∧ resolve draws = .ok (a, draws')) ∨
      condition = false ∧ result = none ∧ draws' = draws := by
  cases condition with
  | false =>
    show (pure none : Gen (Option ConfigAccount)) draws = _ ↔ _
    rw [run_pure_ok, Prod.mk.injEq]
    simp
  | true =>
    show (some <$> resolve : Gen (Option ConfigAccount)) draws = _ ↔ _
    rw [← bind_pure_comp, run_bind_ok]
    constructor
    · rintro ⟨a, draws₁, hresolve, hpure⟩
      cases hpure
      exact Or.inl ⟨rfl, a, rfl, hresolve⟩
    · rintro (⟨-, a, rfl, hresolve⟩ | ⟨hfalse, -⟩)
      · exact ⟨a, draws', hresolve, rfl⟩
      · cases hfalse

section

variable {services : Services} {presetData : ConfigPreset} {index : ℕ}
  {nodePreset : NodePreset} {old : Option NodeAccount} {node : NodeAccount}
  {draws draws' : Draws}

/-- The runs that make up the accounts of a node. -/
theorem resolveNodeAccounts_run :
    resolveNodeAccounts services old presetData index nodePreset draws = .ok (node, draws') ↔
      ∃ mode main draws₁ transport draws₂ remote draws₃ vrf,
        getPrivateKeySecurityMode presetData.privateKeySecurityMode = .ok mode ∧
        resolveNodeAccount services presetData.networkType mode .main index nodePreset
          (old.map NodeAccount.main) nodePreset.mainPublicKey nodePreset.mainPrivateKey draws =
            .ok (main, draws₁) ∧
        resolveNodeAccount services presetData.networkType mode .transport index nodePreset
          (old.map NodeAccount.transport) nodePreset.transportPublicKey
          nodePreset.transportPrivateKey draws₁ = .ok (transport, draws₂) ∧
        (hasRemote presetData nodePreset = true ∧ (∃ a, remote = some a ∧
            resolveNodeAccount services presetData.networkType mode .remote index nodePreset
              (old.bind NodeAccount.remote) nodePreset.remotePublicKey
              nodePreset.remotePrivateKey draws₂ = .ok (a, draws₃)) ∨
          hasRemote presetData nodePreset = false ∧ remote = none ∧ draws₃ = draws₂) ∧
        (nodePreset.harvesting = true ∧ (∃ a, vrf = some a ∧
            resolveNodeAccount services presetData.networkType mode .vrf index nodePreset
              (old.bind NodeAccount.vrf) nodePreset.vrfPublicKey nodePreset.vrfPrivateKey
              draws₃ = .ok (a, draws')) ∨
          nodePreset.harvesting = false ∧ vrf = none ∧ draws' = draws₃) ∧
        node = {
          name := (given nodePreset.name).getD s!"node-{index}"
          friendlyName := (given nodePreset.friendlyName).getD
            (String.ofList (main.publicKey.toList.take 7))
          roles := resolveRoles nodePreset
          main, transport, remote, vrf } := by
  simp only [resolveNodeAccounts, resolveWhen_ok, run_bind_ok, run_lift_ok, run_pure_ok,
    Prod.mk.injEq]
  constructor
  · rintro ⟨mode, _, ⟨hmode, rfl⟩, main, draws₁, hmain, transport, draws₂, htransport, remote,
      draws₃, hremote, vrf, draws₄, hvrf, rfl, rfl⟩
    exact ⟨mode, main, draws₁, transport, draws₂, remote, draws₃, vrf, hmode, hmain, htransport,
      hremote, hvrf, rfl⟩
  · rintro ⟨mode, main, draws₁, transport, draws₂, remote, draws₃, vrf, hmode, hmain, htransport,
      hremote, hvrf, rfl⟩
    exact ⟨mode, draws, ⟨hmode, rfl⟩, main, draws₁, hmain, transport, draws₂, htransport, remote,
      draws₃, hremote, vrf, draws', hvrf, rfl, rfl⟩

variable (services presetData index nodePreset node) in
/-- A node is what the first run makes of its preset. -/
structure Settled : Prop where
  mode : ∃ mode, getPrivateKeySecurityMode presetData.privateKeySecurityMode = .ok mode
  main : Genuine services.sdk presetData.networkType node.main
  main_agrees : Agrees nodePreset.mainPublicKey node.main
  transport : Genuine services.sdk presetData.networkType node.transport
  transport_agrees : Agrees nodePreset.transportPublicKey node.transport
  remote : ∀ a, node.remote = some a →
    Genuine services.sdk presetData.networkType a ∧ Agrees nodePreset.remotePublicKey a
  remote_isSome : node.remote.isSome = hasRemote presetData nodePreset
  vrf : ∀ a, node.vrf = some a →
    Genuine services.sdk presetData.networkType a ∧ Agrees nodePreset.vrfPublicKey a
  vrf_isSome : node.vrf.isSome = nodePreset.harvesting
  name : node.name = (given nodePreset.name).getD s!"node-{index}"
  friendlyName : node.friendlyName = (given nodePreset.friendlyName).getD
    (String.ofList (node.main.publicKey.toList.take 7))
  roles : node.roles = resolveRoles nodePreset

variable (services presetData nodePreset) in
/-- The public keys that the preset gives to the accounts that the node has can be read. -/
structure NodeReadable : Prop where
  main : Readable services presetData nodePreset.mainPublicKey
  transport : Readable services presetData nodePreset.transportPublicKey
  remote : hasRemote presetData nodePreset = true →
    Readable services presetData nodePreset.remotePublicKey
  vrf : nodePreset.harvesting = true → Readable services presetData nodePreset.vrfPublicKey

theorem resolveNodeAccounts_first (hsdk : services.sdk.Lawful)
    (h : resolveNodeAccounts services none presetData index nodePreset draws =
      .ok (node, draws')) : Settled services presetData index nodePreset node := by
  obtain ⟨mode, main, draws₁, transport, draws₂, remote, draws₃, vrf, hmode, hmain, htransport,
    hremote, hvrf, rfl⟩ := resolveNodeAccounts_run.mp h
  obtain ⟨hmain, hmainAgrees⟩ := resolveNodeAccount_first hsdk hmain
  obtain ⟨htransport, htransportAgrees⟩ := resolveNodeAccount_first hsdk htransport
  have hremoteSettled : (∀ a, remote = some a → Genuine services.sdk presetData.networkType a ∧
      Agrees nodePreset.remotePublicKey a) ∧
      remote.isSome = hasRemote presetData nodePreset := by
    obtain ⟨hhas, a, rfl, hrun⟩ | ⟨hhas, rfl, -⟩ := hremote
    · refine ⟨?_, by rw [hhas]; rfl⟩
      intro a' ha'
      cases ha'
      exact resolveNodeAccount_first hsdk hrun
    · refine ⟨?_, by rw [hhas]; rfl⟩
      intro a ha
      cases ha
  have hvrfSettled : (∀ a, vrf = some a → Genuine services.sdk presetData.networkType a ∧
      Agrees nodePreset.vrfPublicKey a) ∧ vrf.isSome = nodePreset.harvesting := by
    obtain ⟨hhas, a, rfl, hrun⟩ | ⟨hhas, rfl, -⟩ := hvrf
    · refine ⟨?_, by rw [hhas]; rfl⟩
      intro a' ha'
      cases ha'
      exact resolveNodeAccount_first hsdk hrun
    · refine ⟨?_, by rw [hhas]; rfl⟩
      intro a ha
      cases ha
  exact ⟨⟨mode, hmode⟩, hmain, hmainAgrees, htransport, htransportAgrees, hremoteSettled.1,
    hremoteSettled.2, hvrfSettled.1, hvrfSettled.2, rfl, rfl, rfl⟩

theorem stored_publicKey (stores : Bool) (a : ConfigAccount) :
    (stored stores a).publicKey = a.publicKey := by
  cases stores <;> rfl

theorem Agrees.stored {publicKey : Option String} {a : ConfigAccount} (h : Agrees publicKey a)
    (stores : Bool) : Agrees publicKey (stored stores a) := by
  intro text htext
  rw [stored_publicKey]
  exact h text htext

/-- A settled node stays settled when node and preset are stored. -/
theorem Settled.stored (h : Settled services presetData index nodePreset node)
    (mode : PrivateKeySecurityMode) :
    Settled services (storedPreset presetData) index (storedNodePreset nodePreset)
      (storedNode mode node) where
  mode := h.mode
  main := h.main.stored _
  main_agrees := h.main_agrees.stored _
  transport := h.transport.stored _
  transport_agrees := h.transport_agrees.stored _
  remote := by
    intro a ha
    obtain ⟨b, hb, rfl⟩ := Option.map_eq_some_iff.mp ha
    exact ⟨(h.remote b hb).1.stored _, (h.remote b hb).2.stored _⟩
  remote_isSome := by
    rw [storedNode, Option.isSome_map]
    exact h.remote_isSome
  vrf := by
    intro a ha
    obtain ⟨b, hb, rfl⟩ := Option.map_eq_some_iff.mp ha
    exact ⟨(h.vrf b hb).1.stored _, (h.vrf b hb).2.stored _⟩
  vrf_isSome := by
    rw [storedNode, Option.isSome_map]
    exact h.vrf_isSome
  name := h.name
  friendlyName := by
    rw [storedNode, stored_publicKey]
    exact h.friendlyName
  roles := h.roles

variable (draws) in
/-- A settled node is given back when the preset holds no private key and its public keys can
be read. -/
theorem resolveNodeAccounts_again (hsdk : services.sdk.Lawful)
    (hnode : Settled services presetData index (storedNodePreset nodePreset) node)
    (hread : NodeReadable services presetData (storedNodePreset nodePreset)) :
    resolveNodeAccounts services (some node) presetData index (storedNodePreset nodePreset)
      draws = .ok (node, draws) := by
  obtain ⟨mode, hmode⟩ := hnode.mode
  refine resolveNodeAccounts_run.mpr ⟨mode, node.main, draws, node.transport, draws, node.remote,
    draws, node.vrf, hmode, ?_, ?_, ?_, ?_, ?_⟩
  · exact resolveNodeAccount_again hsdk hnode.main hnode.main_agrees hread.main
  · exact resolveNodeAccount_again hsdk hnode.transport hnode.transport_agrees hread.transport
  · have hsome := hnode.remote_isSome
    cases hremote : node.remote with
    | none =>
      rw [hremote] at hsome
      exact Or.inr ⟨hsome.symm, rfl, rfl⟩
    | some a =>
      rw [hremote] at hsome
      obtain ⟨hgenuine, hagrees⟩ := hnode.remote a hremote
      refine Or.inl ⟨hsome.symm, a, rfl, ?_⟩
      show resolveNodeAccount _ _ _ _ _ _ node.remote _ _ _ = _
      rw [hremote]
      exact resolveNodeAccount_again hsdk hgenuine hagrees (hread.remote hsome.symm)
  · have hsome := hnode.vrf_isSome
    cases hvrf : node.vrf with
    | none =>
      rw [hvrf] at hsome
      exact Or.inr ⟨hsome.symm, rfl, rfl⟩
    | some a =>
      rw [hvrf] at hsome
      obtain ⟨hgenuine, hagrees⟩ := hnode.vrf a hvrf
      refine Or.inl ⟨hsome.symm, a, rfl, ?_⟩
      show resolveNodeAccount _ _ _ _ _ _ node.vrf _ _ _ = _
      rw [hvrf]
      exact resolveNodeAccount_again hsdk hgenuine hagrees (hread.vrf hsome.symm)
  · obtain ⟨name, friendlyName, roles, main, transport, remote, vrf⟩ := node
    have hname := hnode.name
    have hfriendlyName := hnode.friendlyName
    have hroles := hnode.roles
    simp only at hname hfriendlyName hroles
    rw [← hname, ← hfriendlyName, ← hroles]

/-- A node is resolved from a preset without private keys only when the public keys can be
read. -/
theorem resolveNodeAccounts_reads
    (h : resolveNodeAccounts services old presetData index (storedNodePreset nodePreset) draws =
      .ok (node, draws')) : NodeReadable services presetData (storedNodePreset nodePreset) := by
  obtain ⟨mode, main, draws₁, transport, draws₂, remote, draws₃, vrf, -, hmain, htransport,
    hremote, hvrf, -⟩ := resolveNodeAccounts_run.mp h
  refine ⟨?_, ?_, ?_, ?_⟩
  · intro text htext
    exact resolveNodeAccount_reads hmain htext
  · intro text htext
    exact resolveNodeAccount_reads htransport htext
  · intro hhas text htext
    obtain ⟨-, a, -, hrun⟩ | ⟨hhas', -⟩ := hremote
    · exact resolveNodeAccount_reads hrun htext
    · rw [hhas] at hhas'
      cases hhas'
  · intro hhas text htext
    obtain ⟨-, a, -, hrun⟩ | ⟨hhas', -⟩ := hvrf
    · exact resolveNodeAccount_reads hrun htext
    · rw [hhas] at hhas'
      cases hhas'

/-- Two presets resolve a node alike. -/
def SameSettings (presetData presetData' : ConfigPreset) : Prop :=
  presetData.networkType = presetData'.networkType ∧
    presetData.privateKeySecurityMode = presetData'.privateKeySecurityMode ∧
    presetData.nodeUseRemoteAccount = presetData'.nodeUseRemoteAccount

theorem SameSettings.hasRemote {presetData' : ConfigPreset}
    (hsame : SameSettings presetData presetData') :
    hasRemote presetData nodePreset = hasRemote presetData' nodePreset := by
  unfold AddressesService.hasRemote
  rw [hsame.2.2]

theorem Settled.congr {presetData' : ConfigPreset}
    (h : Settled services presetData index nodePreset node)
    (hsame : SameSettings presetData presetData') :
    Settled services presetData' index nodePreset node where
  mode := hsame.2.1 ▸ h.mode
  main := hsame.1 ▸ h.main
  main_agrees := h.main_agrees
  transport := hsame.1 ▸ h.transport
  transport_agrees := h.transport_agrees
  remote := hsame.1 ▸ h.remote
  remote_isSome := hsame.hasRemote ▸ h.remote_isSome
  vrf := hsame.1 ▸ h.vrf
  vrf_isSome := h.vrf_isSome
  name := h.name
  friendlyName := h.friendlyName
  roles := h.roles

theorem NodeReadable.congr {presetData' : ConfigPreset}
    (h : NodeReadable services presetData nodePreset)
    (hsame : SameSettings presetData presetData') :
    NodeReadable services presetData' nodePreset where
  main text htext := hsame.1 ▸ h.main text htext
  transport text htext := hsame.1 ▸ h.transport text htext
  remote hhas text htext := hsame.1 ▸ h.remote (hsame.hasRemote ▸ hhas) text htext
  vrf hhas text htext := hsame.1 ▸ h.vrf hhas text htext

end

section Nodes

variable {services : Services} {presetData : ConfigPreset} {nodes : List NodeAccount}
  {draws draws' : Draws}

theorem resolveNodesAccounts_first (hsdk : services.sdk.Lawful)
    (h : resolveNodesAccounts services none presetData draws = .ok (nodes, draws')) :
    List.Forall₂ (fun entry node => Settled services presetData entry.2 entry.1 node)
      presetData.nodes.zipIdx nodes := by
  refine (run_mapM_forall₂ h).imp ?_
  rintro ⟨nodePreset, index⟩ node ⟨before, after, hrun⟩
  exact resolveNodeAccounts_first hsdk hrun

/-- Stored nodes are given back to the stored preset. -/
theorem resolveNodesAccounts_again (hsdk : services.sdk.Lawful) {old : Addresses}
    (hnodes : List.Forall₂ (fun entry node => Settled services presetData entry.2 entry.1 node)
      presetData.nodes.zipIdx old.nodes)
    (hread : ∀ nodePreset ∈ presetData.nodes, NodeReadable services presetData nodePreset)
    (hstored : presetData.nodes = presetData.nodes.map storedNodePreset) :
    resolveNodesAccounts services (some old) presetData draws = .ok (old.nodes, draws) := by
  apply run_mapM_eq
  apply forall₂_zipIdx_of_getElem (by simpa using hnodes.length_eq)
  intro index nodePreset node hpreset hnode
  obtain ⟨node', hnode', hsettled⟩ := forall₂_zipIdx_getElem hnodes hpreset
  rw [hnode] at hnode'
  cases hnode'
  have hmem : nodePreset ∈ presetData.nodes := List.mem_of_getElem? hpreset
  have hreadable := hread nodePreset hmem
  -- a preset of the stored list is its own stored form
  have hfix : storedNodePreset nodePreset = nodePreset := by
    rw [hstored, List.getElem?_map] at hpreset
    obtain ⟨original, -, rfl⟩ := Option.map_eq_some_iff.mp hpreset
    rfl
  rw [← hfix] at hsettled hreadable
  have hagain := resolveNodeAccounts_again draws hsdk hsettled hreadable
  rw [hfix] at hagain
  simp only [Option.bind_some, hnode]
  exact hagain

/-- Nodes are resolved from a preset without private keys only when its public keys can be
read. -/
theorem resolveNodesAccounts_reads {old : Option Addresses}
    (h : resolveNodesAccounts services old presetData draws = .ok (nodes, draws'))
    (hstored : presetData.nodes = presetData.nodes.map storedNodePreset) :
    ∀ nodePreset ∈ presetData.nodes, NodeReadable services presetData nodePreset := by
  intro nodePreset hmem
  obtain ⟨index, hindex⟩ := List.mem_iff_getElem?.mp hmem
  obtain ⟨node, -, before, after, hrun⟩ := forall₂_zipIdx_getElem (run_mapM_forall₂ h) hindex
  have hfix : storedNodePreset nodePreset = nodePreset := by
    rw [hstored, List.getElem?_map] at hindex
    obtain ⟨original, -, rfl⟩ := Option.map_eq_some_iff.mp hindex
    rfl
  rw [← hfix] at hrun ⊢
  exact resolveNodeAccounts_reads hrun

end Nodes

end SymbolBootstrap.NodeResolution
