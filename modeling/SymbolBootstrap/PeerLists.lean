import Mathlib.Data.List.Dedup
import Mathlib.Data.List.Pairwise
import SymbolBootstrap.AddressesService
import SymbolBootstrap.Library.Distinct
import SymbolBootstrap.Library.Throwing

/-!
The peers written for each node. Public keys are compared as texts, when the known peers are
made distinct and when a node is left out of its own lists, so two texts of one key in
different cases count as two peers. The peers are made distinct before they are chosen by
their roles, so the first entry of a key decides for the others.
-/
namespace SymbolBootstrap.PeerLists

open Library.CaseMapping Library.Distinct Library.Throwing ConfigurationUtils NemesisBalances
  AddressesService

structure Endpoint where
  host : String
  port : ℕ
deriving DecidableEq

structure PeerMetadata where
  name : String
  roles : String
deriving DecidableEq

structure PeerInfo where
  publicKey : String
  endpoint : Endpoint
  metadata : PeerMetadata
deriving DecidableEq

/-- A node as the statistics service knows it. -/
structure NodeInfo where
  isAvailable : Option Bool
  publicKey : Option String
  host : Option String
  port : Option ℕ
  friendlyName : Option String
  roles : Option ℕ

/-- What `getPeerInfos` reads of the preset. -/
structure StatisticsPreset where
  statisticsServiceUrl : Option String
  knownPeers : List PeerInfo

/-- A node of the preset with its host. -/
structure NodePeerPreset extends NodePreset where
  host : Option String

/-- The nodes of the preset and their addresses, one for each of them at least. -/
structure LocalNetwork where
  nodes : List NodePeerPreset
  accounts : List NodeAccount
  nodes_le : nodes.length ≤ accounts.length

structure P2PFile where
  info : String
  knownPeers : List PeerInfo
deriving DecidableEq

structure NodePeerFiles where
  peersP2P : P2PFile
  peersApi : P2PFile
deriving DecidableEq

/-- `RemoteNodeService.getNodeRoles`, of the bits of a peer, an API and a voting node. -/
def getNodeRoles (role : ℕ) : String :=
  ",".intercalate
    ((if 1 &&& role ≠ 0 then ["Peer"] else []) ++ (if 2 &&& role ≠ 0 then ["Api"] else []) ++
      (if 4 &&& role ≠ 0 then ["Voting"] else []))

def toPeerInfo (n : NodeInfo) : Option PeerInfo := do
  guard (n.isAvailable = some true)
  let publicKey ← given n.publicKey
  let port ← n.port.filter (· ≠ 0)
  let friendlyName ← given n.friendlyName
  let roles ← n.roles.filter (· ≠ 0)
  return ⟨publicKey, ⟨n.host.getD "", port⟩, ⟨friendlyName, getNodeRoles roles⟩⟩

/-- `getNodes` is what the statistics service answers, or its error, which is only logged. -/
def getPeerInfos (presetData : StatisticsPreset) (offline : Bool)
    (getNodes : Except String (List NodeInfo)) : List PeerInfo :=
  presetData.knownPeers ++
    if (given presetData.statisticsServiceUrl).isSome && !offline then
      match getNodes with
      | .ok nodes => nodes.filterMap toPeerInfo
      | .error _ => []
    else []

def localPeer (accounts : List NodeAccount) (entry : NodePeerPreset × ℕ) :
    Except String PeerInfo :=
  match accounts[entry.2]? with
  | none => throw "Cannot read properties of undefined (reading 'main')"
  | some node => return {
      publicKey := node.main.publicKey
      endpoint := ⟨entry.1.host.getD "", 7900⟩
      metadata := ⟨entry.1.friendlyName.getD "", resolveRoles entry.1.toNodePreset⟩ }

def hasRole (role : String) (peer : PeerInfo) : Bool := contains peer.metadata.roles role

def isPeer (peer : PeerInfo) : Bool := hasRole "Peer" peer

def isApi (peer : PeerInfo) : Bool := hasRole "Api" peer

/-- `sampleSize` is what `_.sampleSize` chooses. -/
def generateP2PFile (sampleSize : List PeerInfo → ℕ → List PeerInfo) (knownPeers : List PeerInfo)
    (listLimit : ℕ) (info : String) : P2PFile where
  info := info
  knownPeers :=
    if knownPeers.length > listLimit then sampleSize knownPeers listLimit else knownPeers

/-- The limits of the lists. -/
structure PeerLimits where
  peersP2PListLimit : ℕ
  peersApiListLimit : ℕ

def generateNodeConfiguration (sampleSize : List PeerInfo → ℕ → List PeerInfo)
    (limits : PeerLimits) (knownPeers : List PeerInfo) (account : NodeAccount) : NodePeerFiles where
  peersP2P := generateP2PFile sampleSize
    (knownPeers.filter fun peer => isPeer peer && peer.publicKey != account.main.publicKey)
    limits.peersP2PListLimit "this file contains a list of peers"
  peersApi := generateP2PFile sampleSize
    (knownPeers.filter fun peer => isApi peer && peer.publicKey != account.main.publicKey)
    limits.peersApiListLimit "this file contains a list of api peers"

/-- The files of each account. -/
def generateNodes (sampleSize : List PeerInfo → ℕ → List PeerInfo) (limits : PeerLimits)
    (externalPeers : List PeerInfo) (nodes : List NodePeerPreset) (accounts : List NodeAccount) :
    Except String (List NodePeerFiles) := do
  let localPeers ← nodes.zipIdx.mapM (localPeer accounts)
  let allPeers := uniqBy PeerInfo.publicKey (externalPeers ++ localPeers)
  return accounts.map (generateNodeConfiguration sampleSize limits allPeers)

/-- A part of the requested size. -/
def Samples (sampleSize : List PeerInfo → ℕ → List PeerInfo) : Prop :=
  ∀ peers n, n ≤ peers.length →
    (sampleSize peers n).Subperm peers ∧ (sampleSize peers n).length = n

/-- Two texts of one key. -/
def sameKey (key key' : String) : Prop := toUpperCase key = toUpperCase key'

instance (key key' : String) : Decidable (sameKey key key') :=
  inferInstanceAs (Decidable (toUpperCase key = toUpperCase key'))

/-- The known peers that a list is for: those with the role, but the node itself. -/
def eligible (role own : String) (known : List PeerInfo) : List PeerInfo :=
  known.filter fun peer => hasRole role peer && !decide (sameKey peer.publicKey own)

/-- How many there are, each key counted once. -/
def eligibleCount (role own : String) (known : List PeerInfo) : ℕ :=
  ((eligible role own known).map fun peer => toUpperCase peer.publicKey).dedup.length

/-- What a list of peers is to be. -/
structure IsPeerList (role own : String) (limit : ℕ) (known written : List PeerInfo) : Prop where
  subset : written ⊆ known
  not_own : ∀ peer ∈ written, ¬ sameKey peer.publicKey own
  once : written.Pairwise fun peer peer' => ¬ sameKey peer.publicKey peer'.publicKey
  roles : ∀ peer ∈ written, hasRole role peer = true
  size : written.length ≤ limit
  complete : eligibleCount role own known ≤ limit → ∀ peer ∈ eligible role own known,
    ∃ other ∈ written, sameKey other.publicKey peer.publicKey

/-- A known peer with the role that is the first entry of the text of its key. -/
structure IsFirst (role : String) (known : List PeerInfo) (peer : PeerInfo) : Prop where
  found : known.find? (fun other => other.publicKey = peer.publicKey) = some peer
  role : hasRole role peer = true

/-- As far as the limit has room for them, the first entries have no other text of the node's
key, and but for the node's no two texts of one key. Every eligible key has a text whose first
entry has the role. -/
structure Unambiguous (role own : String) (limit : ℕ) (known : List PeerInfo) : Prop where
  own_text : limit = 0 ∨ ∀ peer, IsFirst role known peer →
    sameKey peer.publicKey own → peer.publicKey = own
  texts : limit ≤ 1 ∨ ∀ peer peer', IsFirst role known peer → IsFirst role known peer' →
    peer.publicKey ≠ own → peer'.publicKey ≠ own →
    sameKey peer.publicKey peer'.publicKey → peer.publicKey = peer'.publicKey
  first : eligibleCount role own known ≤ limit → ∀ peer ∈ eligible role own known,
    ∃ other, IsFirst role known other ∧ sameKey other.publicKey peer.publicKey

/-- The peers a list is made from. -/
def selected (role own : String) (known : List PeerInfo) : List PeerInfo :=
  (uniqBy PeerInfo.publicKey known).filter fun peer => hasRole role peer && peer.publicKey != own

/-- What can be written for a list made from some peers: all of them when the limit has room
for them, and otherwise as many of them as it says. -/
def CanBeWritten (limit : ℕ) (peers written : List PeerInfo) : Prop :=
  (peers.length ≤ limit ∧ written = peers) ∨
    (limit < peers.length ∧ written.Subperm peers ∧ written.length = limit)

section Lists

variable {role own : String} {limit : ℕ} {known written : List PeerInfo}

theorem sameKey_symm {key key' : String} (h : sameKey key key') : sameKey key' key := Eq.symm h

theorem mem_eligible {peer : PeerInfo} : peer ∈ eligible role own known ↔
    peer ∈ known ∧ hasRole role peer = true ∧ ¬ sameKey peer.publicKey own := by
  simp [eligible]

theorem mem_selected {peer : PeerInfo} : peer ∈ selected role own known ↔
    IsFirst role known peer ∧ peer.publicKey ≠ own := by
  rw [selected, List.mem_filter, mem_uniqBy, Bool.and_eq_true, bne_iff_ne]
  constructor
  · rintro ⟨hfound, hrole, hown⟩
    exact ⟨⟨hfound, hrole⟩, hown⟩
  · rintro ⟨hfirst, hown⟩
    exact ⟨hfirst.found, hfirst.role, hown⟩

theorem known_of_selected {peer : PeerInfo} (h : peer ∈ selected role own known) :
    peer ∈ known := List.mem_of_find?_eq_some (mem_selected.mp h).1.found

theorem role_of_selected {peer : PeerInfo} (h : peer ∈ selected role own known) :
    hasRole role peer = true := (mem_selected.mp h).1.role

/-- The texts of the keys of the selected peers are distinct. -/
theorem selected_texts (role own : String) (known : List PeerInfo) :
    (selected role own known).Pairwise fun peer peer' => peer.publicKey ≠ peer'.publicKey :=
  List.pairwise_map.mp ((uniqBy_nodup PeerInfo.publicKey known).sublist
    (List.filter_sublist.map PeerInfo.publicKey))

theorem Unambiguous.own_selected (h : Unambiguous role own limit known) :
    limit = 0 ∨ ∀ peer ∈ selected role own known, ¬ sameKey peer.publicKey own := by
  refine h.own_text.imp_right fun hown peer hpeer hsame => ?_
  obtain ⟨hfirst, hdifferent⟩ := mem_selected.mp hpeer
  exact hdifferent (hown peer hfirst hsame)

theorem Unambiguous.selected_pairwise (h : Unambiguous role own limit known) :
    limit ≤ 1 ∨ (selected role own known).Pairwise fun peer peer' =>
      ¬ sameKey peer.publicKey peer'.publicKey := by
  refine h.texts.imp_right fun htexts => ?_
  refine (selected_texts role own known).imp_of_mem fun hpeer hpeer' hdifferent hsame => ?_
  obtain ⟨hfirst, hown⟩ := mem_selected.mp hpeer
  obtain ⟨hfirst', hown'⟩ := mem_selected.mp hpeer'
  exact hdifferent (htexts _ _ hfirst hfirst' hown hown' hsame)

theorem Unambiguous.exists_selected (h : Unambiguous role own limit known)
    (hcount : eligibleCount role own known ≤ limit) {peer : PeerInfo}
    (hpeer : peer ∈ eligible role own known) :
    ∃ other ∈ selected role own known, sameKey other.publicKey peer.publicKey := by
  obtain ⟨other, hfirst, hsame⟩ := h.first hcount peer hpeer
  refine ⟨other, mem_selected.mpr ⟨hfirst, ?_⟩, hsame⟩
  rintro rfl
  exact (mem_eligible.mp hpeer).2.2 (sameKey_symm hsame)

theorem CanBeWritten.subset {peers : List PeerInfo} (h : CanBeWritten limit peers written) :
    written ⊆ peers := by
  rcases h with ⟨-, rfl⟩ | ⟨-, hsubperm, -⟩
  · exact List.Subset.refl _
  · exact hsubperm.subset

theorem CanBeWritten.length_le {peers : List PeerInfo} (h : CanBeWritten limit peers written) :
    written.length ≤ limit := by
  rcases h with ⟨hle, rfl⟩ | ⟨-, -, hlength⟩
  · exact hle
  · exact hlength.le

/-- Any few of the peers can be among those that are written. -/
theorem exists_canBeWritten {part peers : List PeerInfo} (h : part.Sublist peers)
    (hpart : part.length ≤ limit) : ∃ written, CanBeWritten limit peers written ∧
      part.Sublist written := by
  rcases Nat.lt_or_ge limit peers.length with hlt | hle
  · obtain ⟨written, hsub, hsubperm, hlength⟩ := exists_of_length h hpart hlt.le
    exact ⟨written, .inr ⟨hlt, hsubperm, hlength⟩, hsub⟩
  · exact ⟨peers, .inl ⟨hle, rfl⟩, h⟩

instance : Std.Symm fun peer peer' : PeerInfo => ¬ sameKey peer.publicKey peer'.publicKey where
  symm _ _ h hsame := h (sameKey_symm hsame)

/-- The keys of peers that are eligible are among the eligible ones. -/
theorem length_le_eligibleCount {peers : List PeerInfo} (h : peers ⊆ eligible role own known)
    (hdistinct : peers.Pairwise fun peer peer' => ¬ sameKey peer.publicKey peer'.publicKey) :
    peers.length ≤ eligibleCount role own known := by
  have hnodup : (peers.map fun peer => toUpperCase peer.publicKey).Nodup :=
    List.pairwise_map.mpr hdistinct
  have hsubset : (peers.map fun peer => toUpperCase peer.publicKey) ⊆
      ((eligible role own known).map fun peer => toUpperCase peer.publicKey).dedup := by
    intro key hkey
    obtain ⟨peer, hpeer, rfl⟩ := List.mem_map.mp hkey
    exact List.mem_dedup.mpr (List.mem_map_of_mem (h hpeer))
  have hlength := (hnodup.subperm hsubset).length_le
  rwa [List.length_map] at hlength

theorem selected_subset_eligible
    (h : ∀ peer ∈ selected role own known, ¬ sameKey peer.publicKey own) :
    selected role own known ⊆ eligible role own known :=
  fun peer hpeer => mem_eligible.mpr
    ⟨known_of_selected hpeer, role_of_selected hpeer, h peer hpeer⟩

/-- A list that is cut still has every eligible key when there are no more than its limit:
then there is one such key at most. -/
theorem complete_of_cut (h : Unambiguous role own limit known)
    (hlt : limit < (selected role own known).length)
    (hwritten : written.Subperm (selected role own known)) (hlength : written.length = limit)
    (hcount : eligibleCount role own known ≤ limit) {peer : PeerInfo}
    (hpeer : peer ∈ eligible role own known) :
    ∃ other ∈ written, sameKey other.publicKey peer.publicKey := by
  have hpos : 0 < eligibleCount role own known := by
    refine List.length_pos_of_mem (a := toUpperCase peer.publicKey) ?_
    exact List.mem_dedup.mpr (List.mem_map_of_mem hpeer)
  have hself := h.own_selected.resolve_left (by omega)
  rcases h.selected_pairwise with hone | hdistinct
  · -- with room for one peer the one that is written has the only eligible key
    obtain ⟨other, rfl⟩ := List.length_eq_one_iff.mp (show written.length = 1 by omega)
    refine ⟨other, List.mem_singleton.mpr rfl, ?_⟩
    have hother := selected_subset_eligible hself (hwritten.subset List.mem_cons_self)
    by_contra hdifferent
    have hpair : [other, peer].Pairwise fun peer peer' =>
        ¬ sameKey peer.publicKey peer'.publicKey :=
      List.pairwise_pair.mpr hdifferent
    have hle := length_le_eligibleCount (List.cons_subset.mpr ⟨hother, List.cons_subset.mpr
      ⟨hpeer, List.nil_subset _⟩⟩) hpair
    rw [List.length_cons, List.length_singleton] at hle
    omega
  · have hle := length_le_eligibleCount (selected_subset_eligible hself) hdistinct
    omega

theorem isPeerList_of_unambiguous (h : Unambiguous role own limit known)
    (hwritten : CanBeWritten limit (selected role own known) written) :
    IsPeerList role own limit known written where
  subset := fun peer hpeer => known_of_selected (hwritten.subset hpeer)
  not_own := by
    intro peer hpeer
    rcases h.own_selected with hzero | hown
    · have hlength := hwritten.length_le
      have hpos := List.length_pos_of_mem hpeer
      omega
    · exact hown peer (hwritten.subset hpeer)
  once := by
    rcases h.selected_pairwise with hone | hdistinct
    · have hlength := hwritten.length_le
      match written with
      | [] => exact .nil
      | [_] => exact List.pairwise_singleton _ _
      | _ :: _ :: _ =>
        rw [List.length_cons, List.length_cons] at hlength
        omega
    · rcases hwritten with ⟨-, rfl⟩ | ⟨-, ⟨part, hperm, hsub⟩, -⟩
      · exact hdistinct
      · exact (hperm.pairwise_iff fun h hsame => h (sameKey_symm hsame)).mp (hdistinct.sublist hsub)
  roles := fun peer hpeer => role_of_selected (hwritten.subset hpeer)
  size := hwritten.length_le
  complete := by
    intro hcount peer hpeer
    rcases hwritten with ⟨-, rfl⟩ | ⟨hlt, hsubperm, hlength⟩
    · exact h.exists_selected hcount hpeer
    · exact complete_of_cut h hlt hsubperm hlength hcount hpeer

/-- What is written is always a peer list exactly when the known peers are unambiguous. -/
theorem isPeerList_iff :
    (∀ written, CanBeWritten limit (selected role own known) written →
      IsPeerList role own limit known written) ↔ Unambiguous role own limit known := by
  refine ⟨fun h => ⟨?_, ?_, ?_⟩, fun h written => isPeerList_of_unambiguous h⟩
  · refine (Nat.eq_zero_or_pos limit).imp_right fun hpos peer hfirst hsame => ?_
    by_contra hdifferent
    obtain ⟨written, hwritten, hpart⟩ := exists_canBeWritten (List.singleton_sublist.mpr
      (mem_selected.mpr ⟨hfirst, hdifferent⟩)) (Nat.succ_le_of_lt hpos)
    exact (h written hwritten).not_own peer (hpart.subset List.mem_cons_self) hsame
  · refine (Nat.lt_or_ge 1 limit).symm.imp_right fun htwo => ?_
    have hdistinct : (selected role own known).Pairwise fun peer peer' =>
        ¬ sameKey peer.publicKey peer'.publicKey := by
      rw [List.pairwise_iff_forall_sublist]
      intro peer peer' hpair
      obtain ⟨written, hwritten, hpart⟩ := exists_canBeWritten hpair htwo
      exact List.pairwise_iff_forall_sublist.mp (h written hwritten).once hpart
    intro peer peer' hfirst hfirst' hown hown' hsame
    by_contra hdifferent
    have hne : peer ≠ peer' := fun heq => hdifferent (heq ▸ rfl)
    exact hdistinct.forall (mem_selected.mpr ⟨hfirst, hown⟩)
      (mem_selected.mpr ⟨hfirst', hown'⟩) hne hsame
  · intro hcount peer hpeer
    obtain ⟨written, hwritten, -⟩ := exists_canBeWritten
      (List.nil_sublist (selected role own known)) (Nat.zero_le limit)
    obtain ⟨other, hother, hsame⟩ := (h written hwritten).complete hcount peer hpeer
    exact ⟨other, (mem_selected.mp (hwritten.subset hother)).1, hsame⟩

end Lists

section Files

variable {limits : PeerLimits} {externalPeers : List PeerInfo}

/-- The peers of the preset itself, with the keys of their addresses. -/
def LocalNetwork.peers (network : LocalNetwork) : List PeerInfo :=
  List.zipWith (fun (n : NodePeerPreset) (node : NodeAccount) =>
    ⟨node.main.publicKey, ⟨n.host.getD "", 7900⟩,
      ⟨n.friendlyName.getD "", resolveRoles n.toNodePreset⟩⟩) network.nodes network.accounts

/-- Where every node has addresses its peer is known. -/
theorem LocalNetwork.mapM_localPeer (network : LocalNetwork) :
    network.nodes.zipIdx.mapM (localPeer network.accounts) = .ok network.peers := by
  have hle := network.nodes_le
  have hlength : network.nodes.length = network.peers.length := by
    rw [LocalNetwork.peers, List.length_zipWith]
    omega
  refine mapM_ok.mpr (forall₂_zipIdx_of_getElem hlength ?_)
  intro index n peer hn hpeer
  rw [LocalNetwork.peers, List.getElem?_zipWith_eq_some] at hpeer
  obtain ⟨n', node, hn', hnode, rfl⟩ := hpeer
  rw [hn] at hn'
  cases hn'
  rw [localPeer, hnode]
  rfl

/-- What holds of every account and its files holds of those made of the known peers. -/
theorem generateNodes_forall {sampleSize : List PeerInfo → ℕ → List PeerInfo}
    {limits : PeerLimits} {externalPeers : List PeerInfo} {network : LocalNetwork}
    {R : NodeAccount → NodePeerFiles → Prop} :
    (∃ files, generateNodes sampleSize limits externalPeers network.nodes network.accounts =
      .ok files ∧ List.Forall₂ R network.accounts files) ↔
    ∀ account ∈ network.accounts, R account (generateNodeConfiguration sampleSize limits
      (uniqBy PeerInfo.publicKey (externalPeers ++ network.peers)) account) := by
  have hfiles : generateNodes sampleSize limits externalPeers network.nodes network.accounts =
      .ok (network.accounts.map (generateNodeConfiguration sampleSize limits
        (uniqBy PeerInfo.publicKey (externalPeers ++ network.peers)))) := by
    rw [generateNodes, network.mapM_localPeer]
    rfl
  simp only [hfiles, Except.ok.injEq, exists_eq_left', List.forall₂_map_right_iff,
    List.forall₂_same]

theorem canBeWritten_of_samples {sampleSize : List PeerInfo → ℕ → List PeerInfo}
    (h : Samples sampleSize) (peers : List PeerInfo) (limit : ℕ) (info : String) :
    CanBeWritten limit peers (generateP2PFile sampleSize peers limit info).knownPeers := by
  rw [generateP2PFile]
  rcases Nat.lt_or_ge limit peers.length with hlt | hle
  · obtain ⟨hsubperm, hlength⟩ := h peers limit hlt.le
    simp only [gt_iff_lt, hlt, if_true]
    exact .inr ⟨hlt, hsubperm, hlength⟩
  · simp only [gt_iff_lt, not_lt.mpr hle, if_false]
    exact .inl ⟨hle, rfl⟩

/-- Everything that can be written is written for some choice of the samples. -/
theorem exists_samples {limit : ℕ} {peers written : List PeerInfo}
    (h : CanBeWritten limit peers written) (info : String) :
    ∃ sampleSize, Samples sampleSize ∧
      (generateP2PFile sampleSize peers limit info).knownPeers = written := by
  refine ⟨fun items n => if items = peers ∧ n = limit ∧ limit < peers.length then written
    else items.take n, ?_, ?_⟩
  · intro items n hn
    by_cases htest : items = peers ∧ n = limit ∧ limit < peers.length
    · obtain ⟨rfl, rfl, hlt⟩ := htest
      rcases h with ⟨hle, -⟩ | ⟨-, hsubperm, hlength⟩
      · omega
      · simp only [hlt, and_self, if_true]
        exact ⟨hsubperm, hlength⟩
    · simp only [htest, if_false]
      exact ⟨(List.take_sublist n items).subperm, List.length_take_of_le hn⟩
  · rw [generateP2PFile]
    rcases h with ⟨hle, rfl⟩ | ⟨hlt, -, -⟩
    · simp only [gt_iff_lt, not_lt.mpr hle, if_false]
    · simp only [gt_iff_lt, hlt, and_self, if_true]

/-- One list is a peer list for every choice of the samples exactly when the known peers are
unambiguous for it. -/
theorem isPeerList_sampled_iff {role own : String} {limit : ℕ} {known : List PeerInfo}
    {info : String} :
    (∀ sampleSize, Samples sampleSize → IsPeerList role own limit known
      (generateP2PFile sampleSize (selected role own known) limit info).knownPeers) ↔
    Unambiguous role own limit known := by
  constructor
  · intro h
    refine isPeerList_iff.mp fun written hwritten => ?_
    obtain ⟨sampleSize, hsamples, hsample⟩ := exists_samples hwritten info
    exact hsample ▸ h sampleSize hsamples
  · intro h sampleSize hsamples
    exact isPeerList_of_unambiguous h (canBeWritten_of_samples hsamples _ limit info)

/-- The external peers and the nodes of the preset. -/
def allKnown (presetData : StatisticsPreset) (offline : Bool)
    (getNodes : Except String (List NodeInfo)) (network : LocalNetwork) : List PeerInfo :=
  getPeerInfos presetData offline getNodes ++ network.peers

/-- Every list that is written is a peer list exactly when the known peers are unambiguous for
it, whatever the samples are. -/
theorem peer_lists_iff (limits : PeerLimits) (presetData : StatisticsPreset) (offline : Bool)
    (getNodes : Except String (List NodeInfo)) (network : LocalNetwork) :
    (∀ sampleSize, Samples sampleSize → ∃ files,
      generateNodes sampleSize limits (getPeerInfos presetData offline getNodes) network.nodes
        network.accounts = .ok files ∧
      List.Forall₂ (fun (account : NodeAccount) (file : NodePeerFiles) =>
        IsPeerList "Peer" account.main.publicKey limits.peersP2PListLimit
          (allKnown presetData offline getNodes network) file.peersP2P.knownPeers ∧
        IsPeerList "Api" account.main.publicKey limits.peersApiListLimit
          (allKnown presetData offline getNodes network) file.peersApi.knownPeers)
        network.accounts files) ↔
    ∀ account ∈ network.accounts,
      Unambiguous "Peer" account.main.publicKey limits.peersP2PListLimit
        (allKnown presetData offline getNodes network) ∧
      Unambiguous "Api" account.main.publicKey limits.peersApiListLimit
        (allKnown presetData offline getNodes network) := by
  simp only [generateNodes_forall]
  constructor
  · intro h account haccount
    exact ⟨isPeerList_sampled_iff.mp fun sampleSize hsamples =>
        (h sampleSize hsamples account haccount).1,
      isPeerList_sampled_iff.mp fun sampleSize hsamples =>
        (h sampleSize hsamples account haccount).2⟩
  · intro h sampleSize hsamples account haccount
    obtain ⟨hpeer, hapi⟩ := h account haccount
    exact ⟨isPeerList_sampled_iff.mpr hpeer sampleSize hsamples,
      isPeerList_sampled_iff.mpr hapi sampleSize hsamples⟩

def peerNode : NodePeerPreset where
  name := some "node-0"
  friendlyName := none
  roles := none
  syncsource := true
  api := false
  voting := false
  harvesting := false
  nodeUseRemoteAccount := false
  excludeFromNemesis := false
  balances := []
  mainPrivateKey := none
  mainPublicKey := none
  transportPrivateKey := none
  transportPublicKey := none
  remotePrivateKey := none
  remotePublicKey := none
  vrfPrivateKey := none
  vrfPublicKey := none
  host := some "node-0"

def peerAccount : NodeAccount where
  name := "node-0"
  friendlyName := "node-0"
  roles := "Peer"
  main := ⟨none, "AB", ""⟩
  transport := ⟨none, "CD", ""⟩
  remote := none
  vrf := none

def peerNetwork : LocalNetwork := ⟨[peerNode], [peerAccount], le_rfl⟩

/-- The node itself, with its key in lower case. -/
def lowerCasePeer : PeerInfo := ⟨"ab", ⟨"node-0", 7900⟩, ⟨"node-0", "Peer"⟩⟩

/-- A node whose key is known in lower case is among its own peers. -/
theorem peer_lists_own_key :
    ¬ ∀ (limits : PeerLimits) (presetData : StatisticsPreset) (offline : Bool)
      (getNodes : Except String (List NodeInfo)) (network : LocalNetwork) sampleSize,
      Samples sampleSize → ∃ files,
        generateNodes sampleSize limits (getPeerInfos presetData offline getNodes) network.nodes
          network.accounts = .ok files ∧
        List.Forall₂ (fun (account : NodeAccount) (file : NodePeerFiles) =>
          IsPeerList "Peer" account.main.publicKey limits.peersP2PListLimit
            (allKnown presetData offline getNodes network) file.peersP2P.knownPeers ∧
          IsPeerList "Api" account.main.publicKey limits.peersApiListLimit
            (allKnown presetData offline getNodes network) file.peersApi.knownPeers)
          network.accounts files := by
  intro hclaim
  obtain ⟨files, hfiles, hall⟩ := hclaim ⟨10, 10⟩ ⟨none, [lowerCasePeer]⟩ true (.ok []) peerNetwork
    (fun peers n => peers.take n)
    fun peers n hn => ⟨(List.take_sublist n peers).subperm, List.length_take_of_le hn⟩
  have hwritten : generateNodes (fun peers n => peers.take n) ⟨10, 10⟩ [lowerCasePeer] [peerNode]
      [peerAccount] = .ok [⟨⟨"this file contains a list of peers", [lowerCasePeer]⟩,
        ⟨"this file contains a list of api peers", []⟩⟩] := by
    decide
  have hwritten := Except.ok.inj (hfiles.symm.trans hwritten)
  rw [hwritten] at hall
  obtain ⟨hpeers, -⟩ := (List.forall₂_cons.mp hall).1
  exact hpeers.not_own lowerCasePeer List.mem_cons_self (by unfold sameKey; decide)

end Files

end SymbolBootstrap.PeerLists
