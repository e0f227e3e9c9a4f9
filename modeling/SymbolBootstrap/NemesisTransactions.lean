import SymbolBootstrap.AddressesService
import SymbolBootstrap.VotingFileSizes
import SymbolBootstrap.VotingUtils
import SymbolBootstrap.Library.Distinct
import SymbolBootstrap.Library.Throwing
import SymbolBootstrap.Library.Writing

/-!
The transactions of the nemesis block, as `ConfigService.generateNemesisConfig` stores them: a
file for each link of a node and for each provided transaction. All voting files of a node are
stored under one name, so only one of them is left.
-/
namespace SymbolBootstrap.NemesisTransactions

open Library.Distinct Library.Throwing Library.Writing ConfigurationUtils NemesisBalances
  LinkService VotingUtils VotingFileSizes

structure NemesisNode extends NodeAccount where
  voting : Option (List VotingKeyFile)

/-- A transaction as it is signed. -/
structure NemesisTransaction where
  deadline : String
  link : Transaction
  networkType : NetworkType
  maxFee : ℕ

/-- What the service uses of the SDK, and its account resolver. -/
structure NemesisSdk where
  resolveAccount : NetworkType → ConfigAccount → KeyName → String → String → String →
    Except String Account
  sign : Account → NemesisTransaction → String → Except String String
  createFromPayload : String → Except String Unit
  hexToUint8 : String → Except String (List UInt8)
  createTransactionHash : String → List UInt8 → Except String String

/-- `nemesis.transactions`, as `Object.entries` lists it. -/
structure ProvidedTransactions where
  entries : List (String × String)
  keys_nodup : (entries.map Prod.fst).Nodup

structure NemesisBlockPreset where
  transactions : Option ProvidedTransactions

/-- What the service reads of the preset. -/
structure NemesisPresetData where
  networkType : NetworkType
  nemesisGenerationHashSeed : String
  nodes : List NodePreset
  nemesis : Option NemesisBlockPreset

/-- A file of the transactions directory with its bytes. -/
abbrev TransactionFile := String × List UInt8

section Store

variable (sdk : NemesisSdk) (presetData : NemesisPresetData)

def storeTransaction (name payload : String) : Except String TransactionFile := do
  sdk.createFromPayload payload
  return (s!"{name}.bin", ← sdk.hexToUint8 payload)

/-- The account that signs the links of a node. -/
def resolveMain (node : NemesisNode) (operationDescription : String) : Except String Account :=
  sdk.resolveAccount presetData.networkType node.main .main node.name operationDescription
    "Should not generate!"

def signLink (account : Account) (link : Transaction) : Except String String :=
  sdk.sign account ⟨"1", link, presetData.networkType, 0⟩ presetData.nemesisGenerationHashSeed

def createVrfTransaction (node : NemesisNode) : Except String TransactionFile :=
  match node.vrf with
  | none => throw "VRF keys should have been generated!!"
  | some vrf => do
      let account ← resolveMain sdk presetData node "creating the vrf key link transactions"
      let payload ← signLink sdk presetData account (.vrf ⟨vrf.publicKey⟩ .link)
      storeTransaction sdk s!"vrf_{node.name}" payload

def createAccountKeyLinkTransaction (node : NemesisNode) : Except String TransactionFile :=
  match node.remote with
  | none => throw "Remote keys should have been generated!!"
  | some remote => do
      let account ← resolveMain sdk presetData node "creating the account link transactions"
      let payload ← signLink sdk presetData account (.remote ⟨remote.publicKey⟩ .link)
      storeTransaction sdk s!"remote_{node.name}" payload

def createVotingKeyTransactions (node : NemesisNode) : Except String (List TransactionFile) := do
  let votingFiles := node.voting.getD []
  let account ← resolveMain sdk presetData node "creating the voting key link transactions"
  votingFiles.mapM fun votingFile => do
    let payload ← signLink sdk presetData account (.voting votingFile.toVotingKeyAccount .link)
    storeTransaction sdk s!"voting_{node.name}" payload

def transactionHash (payload : String) : Except String String := do
  sdk.createTransactionHash payload (← sdk.hexToUint8 presetData.nemesisGenerationHashSeed)

/-- The provided transactions but those with a hash that was there before. -/
def withoutDuplicates (transactionHashes : List String) :
    List (String × String) → Except String (List (String × String))
  | [] => return []
  | (key, payload) :: rest => do
      let hash ← transactionHash sdk presetData payload
      if transactionHashes.contains hash then withoutDuplicates transactionHashes rest
      else return (key, payload) :: (← withoutDuplicates (transactionHashes ++ [hash]) rest)

def storeProvided (transactions : Option ProvidedTransactions) :
    Except String (List TransactionFile) :=
  match transactions with
  | none => return []
  | some transactions => do
      let kept ← withoutDuplicates sdk presetData [] transactions.entries
      kept.mapM fun entry => storeTransaction sdk entry.1 entry.2

/-- The nodes whose links are in the nemesis block. -/
def nemesisNodes (nodes : Option (List NemesisNode)) : List NemesisNode :=
  ((nodes.getD []).zipIdx.filter fun entry =>
    !(presetData.nodes[entry.2]?.any fun nodePreset => nodePreset.excludeFromNemesis)).map Prod.fst

/-- The files of the transactions directory. Each list is written after the one before it, and
the files of one list at the same time. -/
def generateNemesisConfig (nodes : Option (List NemesisNode)) :
    Except String (List (List TransactionFile)) :=
  match presetData.nemesis with
  | none => throw "nemesis must not be defined!"
  | some nemesis => do
      let nodes := nemesisNodes presetData nodes
      let vrfFiles ← (nodes.filter fun n => n.vrf.isSome).mapM (createVrfTransaction sdk presetData)
      let remoteFiles ← (nodes.filter fun n => n.remote.isSome).mapM
        (createAccountKeyLinkTransaction sdk presetData)
      let votingFiles ← nodes.mapM (createVotingKeyTransactions sdk presetData)
      let providedFiles ← storeProvided sdk presetData nemesis.transactions
      return [vrfFiles, remoteFiles, votingFiles.flatten, providedFiles]

end Store

/-- What is stored: a link of a node or a provided transaction. -/
inductive StoredTransaction
  | link (node : NemesisNode) (transaction : Transaction)
  | provided (key payload : String)

/-- The text before the name of the node. -/
def linkStart : Transaction → String
  | .vrf _ _ => "vrf_"
  | .remote _ _ => "remote_"
  | .voting _ _ => "voting_"

def operationDescription : Transaction → String
  | .vrf _ _ => "creating the vrf key link transactions"
  | .remote _ _ => "creating the account link transactions"
  | .voting _ _ => "creating the voting key link transactions"

def StoredTransaction.name : StoredTransaction → String
  | .link node transaction => linkStart transaction ++ node.name
  | .provided key _ => key

def StoredTransaction.payload (sdk : NemesisSdk) (presetData : NemesisPresetData) :
    StoredTransaction → Except String String
  | .link node transaction => do
      let account ← resolveMain sdk presetData node (operationDescription transaction)
      signLink sdk presetData account transaction
  | .provided _ payload => return payload

def StoredTransaction.content (sdk : NemesisSdk) (presetData : NemesisPresetData)
    (stored : StoredTransaction) : Except String (List UInt8) := do
  sdk.hexToUint8 (← stored.payload sdk presetData)

def vrfLink (node : NemesisNode) : Option StoredTransaction :=
  node.vrf.map fun vrf => .link node (.vrf ⟨vrf.publicKey⟩ .link)

def remoteLink (node : NemesisNode) : Option StoredTransaction :=
  node.remote.map fun remote => .link node (.remote ⟨remote.publicKey⟩ .link)

def votingLinks (node : NemesisNode) : List StoredTransaction :=
  (node.voting.getD []).map fun votingFile =>
    .link node (.voting votingFile.toVotingKeyAccount .link)

/-- Every link of some nodes. -/
def links (nodes : List NemesisNode) : List StoredTransaction :=
  nodes.filterMap vrfLink ++ nodes.filterMap remoteLink ++ nodes.flatMap votingLinks

def providedEntries (presetData : NemesisPresetData) : List (String × String) :=
  match presetData.nemesis with
  | some ⟨some transactions⟩ => transactions.entries
  | _ => []

/-- The provided transactions with distinct hashes. -/
def provided (sdk : NemesisSdk) (presetData : NemesisPresetData) : List StoredTransaction :=
  (uniqBy (fun entry => transactionHash sdk presetData entry.2) (providedEntries presetData)).map
    fun entry => .provided entry.1 entry.2

/-- Each of the transactions has a file of its own, whatever the directory held before and in
whichever order the files of one list are written, and no two of the files have one name. -/
def NoneLost (sdk : NemesisSdk) (presetData : NemesisPresetData)
    (transactions : List StoredTransaction) (files : List (List TransactionFile)) : Prop :=
  (files.flatten.map Prod.fst).Nodup ∧
    ∃ contents, transactions.mapM (StoredTransaction.content sdk presetData) = .ok contents ∧
      ∀ before after, WrittenInTurn files before after → OneFileEach after contents

section Files

variable {sdk : NemesisSdk} {presetData : NemesisPresetData}

/-- The file that a transaction is stored in. -/
def StoredIn (sdk : NemesisSdk) (presetData : NemesisPresetData) (stored : StoredTransaction)
    (file : TransactionFile) : Prop :=
  file.1 = s!"{stored.name}.bin" ∧ stored.content sdk presetData = .ok file.2

theorem storeTransaction_ok {name payload : String} {file : TransactionFile}
    (h : storeTransaction sdk name payload = .ok file) :
    file.1 = s!"{name}.bin" ∧ sdk.hexToUint8 payload = .ok file.2 := by
  obtain ⟨-, -, hbytes⟩ := bind_ok.mp h
  obtain ⟨bytes, hhex, hpure⟩ := bind_ok.mp hbytes
  cases hpure
  exact ⟨rfl, hhex⟩

/-- A link that is signed and stored. -/
theorem storedIn_link {node : NemesisNode} {link : Transaction} {account : Account}
    {payload : String} {file : TransactionFile}
    (haccount : resolveMain sdk presetData node (operationDescription link) = .ok account)
    (hpayload : signLink sdk presetData account link = .ok payload)
    (hfile : storeTransaction sdk (linkStart link ++ node.name) payload = .ok file) :
    StoredIn sdk presetData (.link node link) file := by
  obtain ⟨hname, hhex⟩ := storeTransaction_ok hfile
  refine ⟨hname, bind_ok.mpr ⟨payload, ?_, hhex⟩⟩
  exact bind_ok.mpr ⟨account, haccount, hpayload⟩

theorem createVrfTransaction_ok {node : NemesisNode} {file : TransactionFile}
    (h : createVrfTransaction sdk presetData node = .ok file) :
    ∃ stored, vrfLink node = some stored ∧ StoredIn sdk presetData stored file := by
  rw [createVrfTransaction] at h
  cases hvrf : node.vrf with
  | none =>
    rw [hvrf] at h
    cases h
  | some vrf =>
    rw [hvrf] at h
    obtain ⟨account, haccount, hrest⟩ := bind_ok.mp h
    obtain ⟨payload, hpayload, hfile⟩ := bind_ok.mp hrest
    exact ⟨_, by rw [vrfLink, hvrf]; rfl, storedIn_link haccount hpayload hfile⟩

theorem createAccountKeyLinkTransaction_ok {node : NemesisNode} {file : TransactionFile}
    (h : createAccountKeyLinkTransaction sdk presetData node = .ok file) :
    ∃ stored, remoteLink node = some stored ∧ StoredIn sdk presetData stored file := by
  rw [createAccountKeyLinkTransaction] at h
  cases hremote : node.remote with
  | none =>
    rw [hremote] at h
    cases h
  | some remote =>
    rw [hremote] at h
    obtain ⟨account, haccount, hrest⟩ := bind_ok.mp h
    obtain ⟨payload, hpayload, hfile⟩ := bind_ok.mp hrest
    exact ⟨_, by rw [remoteLink, hremote]; rfl, storedIn_link haccount hpayload hfile⟩

theorem createVotingKeyTransactions_ok {node : NemesisNode} {files : List TransactionFile}
    (h : createVotingKeyTransactions sdk presetData node = .ok files) :
    List.Forall₂ (StoredIn sdk presetData) (votingLinks node) files := by
  obtain ⟨account, haccount, hfiles⟩ := bind_ok.mp h
  rw [votingLinks, List.forall₂_map_left_iff]
  refine (mapM_ok.mp hfiles).imp fun votingFile file hfile => ?_
  obtain ⟨payload, hpayload, hstore⟩ := bind_ok.mp hfile
  exact storedIn_link haccount hpayload hstore

/-- The files of the nodes that have a link. -/
theorem storedIn_filterMap (link : NemesisNode → Option StoredTransaction)
    {has : NemesisNode → Bool} {create : NemesisNode → Except String TransactionFile}
    (hhas : ∀ node, has node = (link node).isSome)
    (hcreate : ∀ node file, create node = .ok file →
      ∃ stored, link node = some stored ∧ StoredIn sdk presetData stored file)
    {nodes : List NemesisNode} {files : List TransactionFile}
    (h : (nodes.filter has).mapM create = .ok files) :
    List.Forall₂ (StoredIn sdk presetData) (nodes.filterMap link) files := by
  have hall := mapM_ok.mp h
  clear h
  induction nodes generalizing files with
  | nil =>
    cases hall
    exact .nil
  | cons node rest ih =>
    cases hlink : link node with
    | none =>
      rw [List.filter_cons_of_neg (by rw [hhas, hlink]; exact Bool.false_ne_true)] at hall
      rw [List.filterMap_cons_none hlink]
      exact ih hall
    | some stored =>
      rw [List.filter_cons_of_pos (by rw [hhas, hlink]; rfl)] at hall
      rw [List.filterMap_cons_some hlink]
      obtain ⟨file, files', hfile, hrest, rfl⟩ := List.forall₂_cons_left_iff.mp hall
      obtain ⟨stored', hstored', hstored⟩ := hcreate node file hfile
      rw [hlink] at hstored'
      cases hstored'
      exact .cons hstored (ih hrest)

theorem storedIn_flatMap {nodes : List NemesisNode} {files : List (List TransactionFile)}
    (h : nodes.mapM (createVotingKeyTransactions sdk presetData) = .ok files) :
    List.Forall₂ (StoredIn sdk presetData) (nodes.flatMap votingLinks) files.flatten := by
  have hall := mapM_ok.mp h
  clear h
  induction hall with
  | nil => exact .nil
  | cons hfiles _ ih =>
    rw [List.flatMap_cons, List.flatten_cons]
    exact List.rel_append (createVotingKeyTransactions_ok hfiles) ih

/-- The loop over the provided transactions keeps the first one of each hash that is new. -/
theorem withoutDuplicates_ok {transactionHashes : List String}
    {entries kept : List (String × String)}
    (h : withoutDuplicates sdk presetData transactionHashes entries = .ok kept) :
    kept = (uniqBy (fun entry => transactionHash sdk presetData entry.2) entries).filter
      fun entry => transactionHash sdk presetData entry.2 ∉ transactionHashes.map .ok := by
  induction entries generalizing transactionHashes kept with
  | nil =>
    cases h
    rfl
  | cons entry rest ih =>
    obtain ⟨hash, hhash, hrest⟩ := bind_ok.mp h
    rw [uniqBy]
    by_cases hknown : hash ∈ transactionHashes
    · rw [if_pos (List.contains_iff_mem.mpr hknown)] at hrest
      rw [List.filter_cons_of_neg, List.filter_filter, ih hrest]
      · refine List.filter_congr fun other _ => ?_
        have hdistinct : transactionHash sdk presetData other.2 ∉ transactionHashes.map .ok →
            transactionHash sdk presetData other.2 ≠ transactionHash sdk presetData entry.2 := by
          intro hother heq
          rw [heq, hhash] at hother
          exact hother (List.mem_map_of_mem hknown)
        simpa using hdistinct
      · rw [hhash]
        simpa using hknown
    · rw [if_neg (mt List.contains_iff_mem.mp hknown)] at hrest
      obtain ⟨kept', hkept', hpure⟩ := bind_ok.mp hrest
      cases hpure
      rw [List.filter_cons_of_pos, List.filter_filter, ih hkept']
      · refine congrArg _ (List.filter_congr fun other _ => ?_)
        rw [hhash]
        simp [Bool.and_comm]
      · rw [hhash]
        simpa using hknown

theorem storeProvided_ok {nemesis : NemesisBlockPreset} {files : List TransactionFile}
    (hnemesis : presetData.nemesis = some nemesis)
    (h : storeProvided sdk presetData nemesis.transactions = .ok files) :
    List.Forall₂ (StoredIn sdk presetData) (provided sdk presetData) files := by
  obtain ⟨transactions⟩ := nemesis
  cases transactions with
  | none =>
    cases h
    rw [provided, providedEntries, hnemesis]
    exact .nil
  | some transactions =>
    obtain ⟨kept, hkept, hfiles⟩ := bind_ok.mp h
    have hunique : provided sdk presetData = kept.map fun entry => .provided entry.1 entry.2 := by
      rw [provided, providedEntries, hnemesis, withoutDuplicates_ok hkept]
      exact congrArg _ (List.filter_eq_self.mpr fun _ _ => rfl).symm
    rw [hunique, List.forall₂_map_left_iff]
    refine (mapM_ok.mp hfiles).imp fun entry file hfile => ?_
    obtain ⟨hname, hhex⟩ := storeTransaction_ok hfile
    exact ⟨hname, hhex⟩

/-- Each link of a node of the nemesis block and each distinct provided transaction is stored. -/
theorem generateNemesisConfig_ok {nodes : Option (List NemesisNode)}
    {files : List (List TransactionFile)}
    (h : generateNemesisConfig sdk presetData nodes = .ok files) :
    List.Forall₂ (StoredIn sdk presetData)
      (links (nemesisNodes presetData nodes) ++ provided sdk presetData) files.flatten := by
  rw [generateNemesisConfig] at h
  cases hnemesis : presetData.nemesis with
  | none =>
    rw [hnemesis] at h
    cases h
  | some nemesis =>
    rw [hnemesis] at h
    obtain ⟨vrfFiles, hvrf, h⟩ := bind_ok.mp h
    obtain ⟨remoteFiles, hremote, h⟩ := bind_ok.mp h
    obtain ⟨votingFiles, hvoting, h⟩ := bind_ok.mp h
    obtain ⟨providedFiles, hprovided, h⟩ := bind_ok.mp h
    cases h
    have hvrfs := storedIn_filterMap vrfLink (fun node => (Option.isSome_map ..).symm)
      (fun _ _ => createVrfTransaction_ok) hvrf
    have hremotes := storedIn_filterMap remoteLink
      (fun node => (Option.isSome_map ..).symm) (fun _ _ => createAccountKeyLinkTransaction_ok)
      hremote
    have hall := List.rel_append (List.rel_append (List.rel_append hvrfs hremotes)
      (storedIn_flatMap hvoting)) (storeProvided_ok hnemesis hprovided)
    simpa [links] using hall

end Files

section Names

theorem append_right_injective (start : String) : Function.Injective fun name => start ++ name := by
  intro name name' h
  have htexts := congrArg String.toList h
  rw [String.toList_append, String.toList_append] at htexts
  exact String.toList_injective (List.append_cancel_left htexts)

theorem append_left_injective (ending : String) :
    Function.Injective fun name => name ++ ending := by
  intro name name' h
  have htexts := congrArg String.toList h
  rw [String.toList_append, String.toList_append] at htexts
  exact String.toList_injective (List.append_cancel_right htexts)

variable {nodes : List NemesisNode}

theorem names_sublist {link : NemesisNode → Option StoredTransaction} {start : String}
    (h : ∀ node stored, link node = some stored → stored.name = start ++ node.name) :
    ((nodes.filterMap link).map StoredTransaction.name).Sublist
      (nodes.map fun node => start ++ node.name) := by
  induction nodes with
  | nil => exact .slnil
  | cons node rest ih =>
    cases hlink : link node with
    | none =>
      rw [List.filterMap_cons_none hlink]
      exact ih.cons _
    | some stored =>
      rw [List.filterMap_cons_some hlink, List.map_cons, List.map_cons, h node stored hlink]
      exact ih.cons_cons _

theorem vrfLink_name {node : NemesisNode} {stored : StoredTransaction}
    (h : vrfLink node = some stored) : stored.name = "vrf_" ++ node.name := by
  obtain ⟨vrf, -, rfl⟩ := Option.map_eq_some_iff.mp h
  rfl

theorem remoteLink_name {node : NemesisNode} {stored : StoredTransaction}
    (h : remoteLink node = some stored) : stored.name = "remote_" ++ node.name := by
  obtain ⟨remote, -, rfl⟩ := Option.map_eq_some_iff.mp h
  rfl

theorem votingLinks_names (node : NemesisNode) : (votingLinks node).map StoredTransaction.name =
    List.replicate (node.voting.getD []).length ("voting_" ++ node.name) := by
  rw [votingLinks, List.map_map]
  change (node.voting.getD []).map (fun _ => "voting_" ++ node.name) = _
  exact List.map_const'

theorem eq_of_mem_voting_names {node : NemesisNode} {name : String}
    (h : name ∈ (votingLinks node).map StoredTransaction.name) : name = "voting_" ++ node.name := by
  rw [votingLinks_names] at h
  exact List.eq_of_mem_replicate h

/-- Two starts that differ early make different names. -/
theorem start_ne {start start' : String} (h : start.toList.take 2 ≠ start'.toList.take 2)
    (hlength : 2 ≤ start.toList.length) (hlength' : 2 ≤ start'.toList.length)
    (name name' : String) : start ++ name ≠ start' ++ name' := by
  intro heq
  have htexts := congrArg (fun text => text.toList.take 2) heq
  simp only [String.toList_append] at htexts
  rw [List.take_append_of_le_length hlength, List.take_append_of_le_length hlength'] at htexts
  exact h htexts

/-- A name of one of the three lists has its start. -/
theorem mem_names_of_sublist {start name : String} {names : List String}
    (h : names.Sublist (nodes.map fun node => start ++ node.name)) (hname : name ∈ names) :
    ∃ rest, name = start ++ rest := by
  obtain ⟨node, -, rfl⟩ := List.mem_map.mp (h.subset hname)
  exact ⟨node.name, rfl⟩

theorem mem_voting_names {name : String}
    (h : name ∈ (nodes.flatMap votingLinks).map StoredTransaction.name) :
    ∃ rest, name = "voting_" ++ rest := by
  rw [List.map_flatMap] at h
  obtain ⟨node, -, hname⟩ := List.mem_flatMap.mp h
  exact ⟨node.name, eq_of_mem_voting_names hname⟩

/-- Only the names of voting files can coincide. -/
theorem links_names_nodup (hnames : (nodes.map fun node => node.name).Nodup) :
    ((links nodes).map StoredTransaction.name).Nodup ↔
      ∀ node ∈ nodes, (node.voting.getD []).length ≤ 1 := by
  have hstarts : ∀ start : String, (nodes.map fun node => start ++ node.name).Nodup := by
    intro start
    have hmap := hnames.map (append_right_injective start)
    rwa [List.map_map] at hmap
  have hvrf := @names_sublist nodes _ _ fun _ _ => vrfLink_name
  have hremote := @names_sublist nodes _ _ fun _ _ => remoteLink_name
  rw [links, List.map_append, List.map_append, List.nodup_append, List.nodup_append]
  constructor
  · rintro ⟨-, hvoting, -⟩ node hnode
    rw [List.map_flatMap, List.nodup_flatMap] at hvoting
    have hnode := hvoting.1 node hnode
    rwa [votingLinks_names, List.nodup_replicate] at hnode
  · intro hone
    refine ⟨⟨(hstarts _).sublist hvrf, (hstarts _).sublist hremote, ?_⟩, ?_, ?_⟩
    · intro name hname name' hname'
      obtain ⟨rest, rfl⟩ := mem_names_of_sublist hvrf hname
      obtain ⟨rest', rfl⟩ := mem_names_of_sublist hremote hname'
      exact start_ne (by decide) (by decide) (by decide) rest rest'
    · rw [List.map_flatMap, List.nodup_flatMap]
      constructor
      · intro node hnode
        rw [votingLinks_names, List.nodup_replicate]
        exact hone node hnode
      · have hdistinct := List.pairwise_map.mp (hstarts "voting_")
        refine hdistinct.imp fun hne name hname hname' => hne ?_
        exact (eq_of_mem_voting_names hname).symm.trans (eq_of_mem_voting_names hname')
    · intro name hname name' hname'
      obtain ⟨rest', rfl⟩ := mem_voting_names hname'
      rcases List.mem_append.mp hname with hname | hname
      · obtain ⟨rest, rfl⟩ := mem_names_of_sublist hvrf hname
        exact start_ne (by decide) (by decide) (by decide) rest rest'
      · obtain ⟨rest, rfl⟩ := mem_names_of_sublist hremote hname
        exact start_ne (by decide) (by decide) (by decide) rest rest'

end Names

/-- The names of all that is stored, given that no provided key is the name of a link. -/
theorem stored_names_nodup (sdk : NemesisSdk) (presetData : NemesisPresetData)
    {nodes : List NemesisNode} (hnames : (nodes.map fun node => node.name).Nodup)
    (hkeys : ∀ entry ∈ providedEntries presetData, ∀ link ∈ links nodes, link.name ≠ entry.1) :
    ((links nodes ++ provided sdk presetData).map StoredTransaction.name).Nodup ↔
      ∀ node ∈ nodes, (node.voting.getD []).length ≤ 1 := by
  have hentries : ((providedEntries presetData).map Prod.fst).Nodup := by
    rw [providedEntries]
    split
    next transactions _ => exact transactions.keys_nodup
    next => exact .nil
  have hprovided : (provided sdk presetData).map StoredTransaction.name =
      (uniqBy (fun entry => transactionHash sdk presetData entry.2)
        (providedEntries presetData)).map Prod.fst := by
    rw [provided, List.map_map]
    rfl
  rw [List.map_append, List.nodup_append, links_names_nodup hnames, hprovided]
  refine ⟨fun h => h.1, fun hone => ⟨hone, hentries.sublist ((uniqBy_sublist _ _).map _), ?_⟩⟩
  intro name hname key hkey
  obtain ⟨link, hlink, rfl⟩ := List.mem_map.mp hname
  obtain ⟨entry, hentry, rfl⟩ := List.mem_map.mp hkey
  exact hkeys entry ((uniqBy_sublist _ _).subset hentry) link hlink

/-- No nemesis transaction is lost exactly when no node has more than one voting file. -/
theorem nemesis_transactions_kept_iff (sdk : NemesisSdk) (presetData : NemesisPresetData)
    (nodes : Option (List NemesisNode))
    (hnames : ((nemesisNodes presetData nodes).map fun node => node.name).Nodup)
    (hkeys : ∀ entry ∈ providedEntries presetData, ∀ link ∈ links (nemesisNodes presetData nodes),
      link.name ≠ entry.1)
    {files : List (List TransactionFile)}
    (hfiles : generateNemesisConfig sdk presetData nodes = .ok files) :
    NoneLost sdk presetData (links (nemesisNodes presetData nodes) ++ provided sdk presetData)
        files ↔
      ∀ node ∈ nemesisNodes presetData nodes, (node.voting.getD []).length ≤ 1 := by
  have hstored := generateNemesisConfig_ok hfiles
  have hpaths : files.flatten.map Prod.fst = ((links (nemesisNodes presetData nodes) ++
      provided sdk presetData).map StoredTransaction.name).map (· ++ ".bin") := by
    rw [List.map_map, ← List.forall₂_eq_eq_eq, List.forall₂_map_left_iff,
      List.forall₂_map_right_iff]
    exact hstored.flip.imp fun _ _ h => h.1
  have hcontents : (links (nemesisNodes presetData nodes) ++ provided sdk presetData).mapM
      (StoredTransaction.content sdk presetData) = .ok (files.flatten.map Prod.snd) := by
    rw [mapM_ok, List.forall₂_map_right_iff]
    exact hstored.imp fun _ _ h => h.2
  rw [← stored_names_nodup sdk presetData hnames hkeys,
    ← List.nodup_map_iff (append_left_injective ".bin"), ← hpaths]
  constructor
  · exact fun h => h.1
  · exact fun h => ⟨h, _, hcontents, (oneFileEach_iff files).mpr h⟩

/-- The payloads are the keys of the signer and of the link, and stand for their hashes. -/
def keysSdk : NemesisSdk where
  resolveAccount _ main _ _ _ _ :=
    match main.privateKey with
    | some privateKey => .ok ⟨⟨main.publicKey, main.address⟩, privateKey⟩
    | none => .error "The private key is not known"
  sign account transaction _ :=
    match transaction.link with
    | .vrf linked _ => .ok (account.publicKey ++ linked.publicKey)
    | .remote linked _ => .ok (account.publicKey ++ linked.publicKey)
    | .voting linked _ => .ok (account.publicKey ++ linked.publicKey)
  createFromPayload _ := .ok ()
  hexToUint8 := littleEndianConvert.hexToUint8
  createTransactionHash payload _ := .ok payload

def nodeWithVoting (voting : List VotingKeyFile) : NemesisNode where
  name := "node-0"
  friendlyName := "node-0"
  roles := "Peer,Voting"
  main := ⟨some "11", "A1", "TA"⟩
  transport := ⟨some "12", "A2", "TB"⟩
  remote := some ⟨some "13", "A3", "TC"⟩
  vrf := some ⟨some "14", "A4", "TD"⟩
  voting := some voting

def firstVotingFile : VotingKeyFile := ⟨⟨1, 10, "B1"⟩, "private_key_tree1.dat"⟩

def secondVotingFile : VotingKeyFile := ⟨⟨11, 20, "B2"⟩, "private_key_tree2.dat"⟩

def providedPresetData : NemesisPresetData where
  networkType := 152
  nemesisGenerationHashSeed := "C1"
  nodes := []
  nemesis := some ⟨some ⟨[("first", "D1"), ("again", "D1"), ("second", "D2")], by decide⟩⟩

/-- A node with one voting file and three provided transactions, two of them the same. -/
theorem nemesis_transactions_kept_one :
    NoneLost keysSdk providedPresetData
      (links [nodeWithVoting [firstVotingFile]] ++ provided keysSdk providedPresetData)
      [[("vrf_node-0.bin", [161, 164])], [("remote_node-0.bin", [161, 163])],
        [("voting_node-0.bin", [161, 177])], [("first.bin", [209]), ("second.bin", [210])]] :=
  (nemesis_transactions_kept_iff keysSdk providedPresetData
    (some [nodeWithVoting [firstVotingFile]]) (by decide)
    (by
      intro entry hentry link hlink
      have hnames : ∀ name ∈ ["vrf_node-0", "remote_node-0", "voting_node-0"],
          ∀ key ∈ ["first", "again", "second"], name ≠ key := by decide
      exact hnames link.name (List.mem_map_of_mem hlink) entry.1 (List.mem_map_of_mem hentry))
    rfl).mpr (by
      intro node hnode
      obtain rfl := List.mem_singleton.mp hnode
      exact Nat.le_refl 1)

/-- Two voting files of a node are stored under one name. -/
theorem voting_link_overwritten :
    ¬ ∀ (sdk : NemesisSdk) (presetData : NemesisPresetData) (nodes : Option (List NemesisNode)),
      ((nemesisNodes presetData nodes).map fun node => node.name).Nodup →
      (∀ entry ∈ providedEntries presetData, ∀ link ∈ links (nemesisNodes presetData nodes),
        link.name ≠ entry.1) →
      ∀ files, generateNemesisConfig sdk presetData nodes = .ok files →
        NoneLost sdk presetData
          (links (nemesisNodes presetData nodes) ++ provided sdk presetData) files := by
  intro hclaim
  have hfiles : generateNemesisConfig keysSdk ⟨152, "C1", [], some ⟨none⟩⟩
      (some [nodeWithVoting [firstVotingFile, secondVotingFile]]) =
      .ok [[("vrf_node-0.bin", [161, 164])], [("remote_node-0.bin", [161, 163])],
        [("voting_node-0.bin", [161, 177]), ("voting_node-0.bin", [161, 178])], []] := rfl
  obtain ⟨hnodup, -⟩ := hclaim _ _ _ (by decide) (fun _ h => absurd h List.not_mem_nil) _ hfiles
  exact absurd hnodup (by decide)

end SymbolBootstrap.NemesisTransactions
