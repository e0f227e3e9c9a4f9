import SymbolBootstrap.GatewayFiles

/-!
`RunService.resetData`: the data and the logs of the nodes, the logs of the gateways and the
databases are deleted, for the nodes and gateways of the stored preset. A reset may be cut anywhere
and be run again. What the configuration made is left as it is. Empty folders are no entries.
-/
namespace SymbolBootstrap.DataReset

open Library.Changes Library.Folders Library.Records Library.Throwing Library.Traces
open NemesisBalances AddressesService AccountResolution ConfigRuns NemesisSeeds GatewayFiles

/-- `loadExistingPresetData`. -/
def loadExistingPresetData (target : Target) : Except String ConfigPreset := do
  match ← loadExistingPresetDataIfPreset target with
  | some presetData => return presetData
  | none => throw (s!"The file {presetLocation} doesn't exist. Have you executed the 'config' " ++
      "command? Have you provided the right --target param?")

section Reset

variable (start : Target) (gateways : ConfigPreset → List GatewayPreset)

def resetNode (node : NodePreset) : Changing Unit :=
  match node.name with
  | none => return
  | some name => forEach ["data", "logs"] fun folder =>
      deleteFolder start (getTargetNodesFolder name folder)

def resetGateway (gateway : GatewayPreset) : Changing Unit :=
  match gateway.name with
  | none => missing
  | some name => deleteFolder start (getTargetGatewayFolder name ++ "logs/")

/-- A node without a name fails what waits for all nodes, when the others are done. -/
def deleteData (preset : ConfigPreset) : Changing Unit := do
  forEach preset.nodes (resetNode start)
  if preset.nodes.any fun node => node.name.isNone then missing
  else
    forEach (gateways preset) (resetGateway start)
    deleteFolder start "databases/"

def resetData : Changing Unit := do
  let now ← current start
  let preset ← (loadExistingPresetData now : Except String ConfigPreset)
  deleteData start gateways preset

/-- Resets one after the other, each cut after so many deletions. -/
def resets (moments : List ℕ) : Changing Unit :=
  forEach moments fun moment => cut moment (resetData start gateways)

end Reset

/-- The folders that are deleted. -/
def dataFolders (gateways : List GatewayPreset) (presetData : ConfigPreset) : List String :=
  (presetData.nodes.filterMap fun node => node.name).flatMap
    (fun name => ["data", "logs"].map (getTargetNodesFolder name)) ++
  (gateways.filterMap fun gateway => gateway.name).map
    (fun name => getTargetGatewayFolder name ++ "logs/") ++ ["databases/"]

def isData (gateways : List GatewayPreset) (presetData : ConfigPreset) (name : String) : Bool :=
  (dataFolders gateways presetData).any fun folder => isBelow folder name

section Deletions

variable {start : Target} {gateways : ConfigPreset → List GatewayPreset}
  {presetData : ConfigPreset} {now events : List (Change Entry)}

variable (gateways presetData) in
/-- The removal of a file that is data. -/
def RemovesData (change : Change Entry) : Prop :=
  IsRemoval change ∧ isData (gateways presetData) presetData change.name = true

theorem deleteFolder_data {folder : String}
    (hfolder : folder ∈ dataFolders (gateways presetData) presetData) :
    Emits (RemovesData gateways presetData) (deleteFolder start folder) := by
  intro now change hchange
  refine ⟨deleteFolder_removes folder now change hchange, ?_⟩
  rw [deleteFolder_run] at hchange
  exact List.any_eq_true.mpr ⟨folder, hfolder, isBelow_deletions hchange⟩

theorem nodeFolder_mem {node : NodePreset} {name folder : String}
    (hnode : node ∈ presetData.nodes) (hname : node.name = some name)
    (hfolder : folder ∈ ["data", "logs"]) :
    getTargetNodesFolder name folder ∈ dataFolders (gateways presetData) presetData := by
  refine List.mem_append_left _ (List.mem_append_left _ (List.mem_flatMap.mpr ⟨name, ?_, ?_⟩))
  · exact List.mem_filterMap.mpr ⟨node, hnode, hname⟩
  · exact List.mem_map_of_mem hfolder

theorem gatewayFolder_mem {gateway : GatewayPreset} {name : String}
    (hgateway : gateway ∈ gateways presetData) (hname : gateway.name = some name) :
    getTargetGatewayFolder name ++ "logs/" ∈ dataFolders (gateways presetData) presetData := by
  refine List.mem_append_left _ (List.mem_append_right _ (List.mem_map.mpr ⟨name, ?_, rfl⟩))
  exact List.mem_filterMap.mpr ⟨gateway, hgateway, hname⟩

theorem databases_mem : "databases/" ∈ dataFolders (gateways presetData) presetData :=
  List.mem_append_right _ List.mem_cons_self

theorem resetNode_data {node : NodePreset} (hnode : node ∈ presetData.nodes) :
    Emits (RemovesData gateways presetData) (resetNode start node) := by
  unfold resetNode
  split
  · exact .pure
  · rename_i name hname
    exact .forEach fun folder hfolder => deleteFolder_data (nodeFolder_mem hnode hname hfolder)

theorem resetGateway_data {gateway : GatewayPreset} (hgateway : gateway ∈ gateways presetData) :
    Emits (RemovesData gateways presetData) (resetGateway start gateway) := by
  unfold resetGateway
  split
  · exact .stop
  · rename_i name hname
    exact deleteFolder_data (gatewayFolder_mem hgateway hname)

variable (start gateways presetData) in
/-- What is no data is as it was, and what is data is as it was or gone. -/
structure DataAtMost (later : Target) : Prop where
  kept : ∀ name, isData (gateways presetData) presetData name = false →
    later.get name = start.get name
  data : ∀ name, later.get name = none ∨ later.get name = start.get name

theorem DataAtMost.removed {target later : Target} {change : Change Entry}
    (h : DataAtMost target gateways presetData later)
    (hchange : RemovesData gateways presetData change) :
    DataAtMost target gateways presetData (change.apply later) := by
  obtain ⟨⟨removed, rfl⟩, hdata⟩ := hchange
  have hget : ∀ name, (Change.apply later (.remove removed)).get name =
      if removed = name then none else later.get name := get_apply later (.remove removed)
  constructor
  · intro name hname
    rw [hget, if_neg, h.kept name hname]
    rintro rfl
    rw [Change.name, hname] at hdata
    cases hdata
  · intro name
    rw [hget]
    split
    · exact .inl rfl
    · exact h.data name

end Deletions

section Configuration

variable {gateways : ConfigPreset → List GatewayPreset} {presetData : ConfigPreset}

theorem mem_dataFolders {folder : String}
    (h : folder ∈ dataFolders (gateways presetData) presetData) :
    (∃ node ∈ presetData.nodes, ∃ name, node.name = some name ∧
      (folder = getTargetNodesFolder name "data" ∨ folder = getTargetNodesFolder name "logs")) ∨
    (∃ gateway ∈ gateways presetData, ∃ name, gateway.name = some name ∧
      folder = getTargetGatewayFolder name ++ "logs/") ∨ folder = "databases/" := by
  rcases List.mem_append.mp h with hservices | hdatabases
  · rcases List.mem_append.mp hservices with hnodes | hgateways
    · obtain ⟨name, hname, hfolder⟩ := List.mem_flatMap.mp hnodes
      obtain ⟨node, hnode, hnodeName⟩ := List.mem_filterMap.mp hname
      refine .inl ⟨node, hnode, name, hnodeName, ?_⟩
      simp only [List.map_cons, List.map_nil, List.mem_cons, List.not_mem_nil, or_false] at hfolder
      exact hfolder
    · obtain ⟨name, hname, rfl⟩ := List.mem_map.mp hgateways
      obtain ⟨gateway, hgateway, hgatewayName⟩ := List.mem_filterMap.mp hname
      exact .inr (.inl ⟨gateway, hgateway, name, hgatewayName, rfl⟩)
  · exact .inr (.inr (List.mem_singleton.mp hdatabases))

theorem head_getTargetGatewayFolder (name rest : String) :
    (getTargetGatewayFolder name ++ rest).toList.head? = some 'g' := by
  rw [getTargetGatewayFolder_append, String.toList_append]
  rfl

/-- A file that is data begins like its folder. -/
theorem head_of_data {name : String}
    (h : isData (gateways presetData) presetData name = true) :
    name.toList.head? = some 'n' ∨ name.toList.head? = some 'g' ∨
      name.toList.head? = some 'd' := by
  obtain ⟨folder, hfolder, hbelow⟩ := List.any_eq_true.mp h
  rcases mem_dataFolders hfolder with ⟨_, _, node, _, rfl | rfl⟩ | ⟨_, _, gateway, _, rfl⟩ | rfl
  · exact .inl (head_of_below (head_getTargetNodesFolder node "data") hbelow)
  · exact .inl (head_of_below (head_getTargetNodesFolder node "logs") hbelow)
  · exact .inr (.inl (head_of_below (head_getTargetGatewayFolder gateway "logs/") hbelow))
  · exact .inr (.inr (head_of_below rfl hbelow))

theorem isData_file {name : String} (h : IsFile name) :
    isData (gateways presetData) presetData name = false := by
  rw [Bool.eq_false_iff]
  intro hdata
  have hhead := head_of_data hdata
  rcases h with rfl | rfl
  · revert hhead
    decide
  · revert hhead
    decide

/-- The addresses, the preset, the nemesis, and the folders of the nodes for all else: what a
configuration makes for good. -/
inductive IsConfiguration : String → Prop
  | file {name : String} (h : IsFile name) : IsConfiguration name
  | nemesis (rest : String) : IsConfiguration ("nemesis/" ++ rest)
  | node {name folder : String} (hname : IsStep name) (hfolder : '/' ∉ folder.toList)
      (hdata : folder ≠ "data") (hlogs : folder ≠ "logs") (rest : String) :
      IsConfiguration (getTargetNodesFolder name folder ++ rest)

theorem not_below_folder {name name' folder folder' : String} (rest : String) (hname : IsStep name)
    (hname' : IsStep name') (hfolder : '/' ∉ folder.toList) (hfolder' : '/' ∉ folder'.toList)
    (hne : folder' ≠ folder) :
    isBelow (getTargetNodesFolder name folder) (getTargetNodesFolder name' folder' ++ rest) =
      false := by
  rw [Bool.eq_false_iff]
  intro hbelow
  obtain ⟨rest', hsame⟩ := isBelow_iff.mp hbelow
  rw [getTargetNodesFolder_append, getTargetNodesFolder_append, String.append_right_inj] at hsame
  obtain ⟨-, hinner⟩ := step_inj hname'.2.1 hname.2.1 hsame
  exact hne (step_inj hfolder' hfolder hinner).1

theorem isData_configuration
    (hnodes : ∀ node ∈ presetData.nodes, ∃ name, node.name = some name ∧ IsStep name)
    {name : String} (h : IsConfiguration name) :
    isData (gateways presetData) presetData name = false := by
  cases h with
  | file h => exact isData_file h
  | nemesis rest =>
    rw [Bool.eq_false_iff]
    intro hdata
    obtain ⟨folder, hfolder, hbelow⟩ := List.any_eq_true.mp hdata
    have hnemesis := isBelow_append "nemesis/" rest
    rcases mem_dataFolders hfolder with ⟨_, _, node, _, rfl | rfl⟩ | ⟨_, _, gateway, _, rfl⟩ | rfl
    · rw [not_below_nodes hnemesis] at hbelow
      cases hbelow
    · rw [not_below_nodes hnemesis] at hbelow
      cases hbelow
    · have hhead := head_of_below (head_getTargetGatewayFolder gateway "logs/") hbelow
      rw [String.toList_append] at hhead
      cases hhead
    · have hhead := head_of_below (c := 'd') rfl hbelow
      rw [String.toList_append] at hhead
      cases hhead
  | @node name folder hname hfolder hdata hlogs rest =>
    rw [Bool.eq_false_iff]
    intro hisData
    obtain ⟨dataFolder, hmem, hbelow⟩ := List.any_eq_true.mp hisData
    have hhead := head_getTargetNodesFolder name folder
    rcases mem_dataFolders hmem with ⟨node, hnode, other, hother, rfl | rfl⟩ |
      ⟨_, _, gateway, _, rfl⟩ | rfl
    · obtain ⟨given, hgiven, hstep⟩ := hnodes node hnode
      obtain rfl := Option.some.inj (hother.symm.trans hgiven)
      rw [not_below_folder rest hstep hname (by decide) hfolder hdata] at hbelow
      cases hbelow
    · obtain ⟨given, hgiven, hstep⟩ := hnodes node hnode
      obtain rfl := Option.some.inj (hother.symm.trans hgiven)
      rw [not_below_folder rest hstep hname (by decide) hfolder hlogs] at hbelow
      cases hbelow
    · have hother := head_of_below (head_getTargetGatewayFolder gateway "logs/") hbelow
      rw [String.toList_append, List.head?_append, hhead] at hother
      cases hother
    · have hother := head_of_below (c := 'd') rfl hbelow
      rw [String.toList_append, List.head?_append, hhead] at hother
      cases hother

end Configuration

section Resets

variable {start : Target} {gateways : ConfigPreset → List GatewayPreset}
  {presetData : ConfigPreset} {now events : List (Change Entry)}

theorem deleteData_data : Emits (RemovesData gateways presetData)
    (deleteData start gateways presetData) := by
  refine .bind (.forEach fun node hnode => resetNode_data hnode) fun _ => ?_
  split
  · exact .stop
  · exact .bind (.forEach fun gateway hgateway => resetGateway_data hgateway) fun _ =>
      deleteFolder_data databases_mem

theorem loadExistingPresetData_ok {target : Target}
    (h : target.get presetLocation = some (.preset presetData)) :
    loadExistingPresetData target = .ok presetData := by
  rw [loadExistingPresetData, loadExistingPresetDataIfPreset, h]
  rfl

theorem resetData_run
    (h : (after start now).get presetLocation = some (.preset presetData)) :
    resetData start gateways now = deleteData start gateways presetData now := by
  rw [resetData, run_bind_current, run_bind_lift (loadExistingPresetData_ok h)]

theorem resetData_keeps (hpreset : start.get presetLocation = some (.preset presetData)) :
    Keeps start (DataAtMost start gateways presetData) (DataAtMost start gateways presetData)
      (DataAtMost start gateways presetData) (resetData start gateways)
      fun _ => DataAtMost start gateways presetData := by
  refine Triple.at fun changes hchanges => ?_
  have hthere : (after start changes).get presetLocation = some (.preset presetData) := by
    rw [hchanges.kept _ (isData_file (.inr rfl)), hpreset]
  have hdelete : Keeps start (DataAtMost start gateways presetData)
      (DataAtMost start gateways presetData) (DataAtMost start gateways presetData)
      (deleteData start gateways presetData) fun _ => DataAtMost start gateways presetData := by
    refine Triple.each fun now change hchange later hlater => ?_
    rw [after_concat]
    exact hlater.removed (deleteData_data now change hchange)
  rintro _ rfl
  rw [resetData_run hthere]
  exact hdelete _ hchanges

theorem resets_keep (hpreset : start.get presetLocation = some (.preset presetData))
    (moments : List ℕ) :
    DataAtMost start gateways presetData (after start (resets start gateways moments []).1) := by
  have hkeeps : Keeps start (DataAtMost start gateways presetData)
      (DataAtMost start gateways presetData) (DataAtMost start gateways presetData)
      (resets start gateways moments) fun _ => DataAtMost start gateways presetData :=
    Triple.forEach (fun _ h => h) fun moment _ => (resetData_keeps hpreset).cut fun _ h => h
  exact Triple.over hkeeps ⟨fun _ _ => rfl, fun _ => .inr rfl⟩

theorem resetNode_ends (node : NodePreset) (now : List (Change Entry)) :
    ∃ events, resetNode start node now = (events, .ok ()) := by
  unfold resetNode
  cases node.name with
  | none => exact ⟨[], rfl⟩
  | some name => exact forEach_ends (fun folder _ now => ⟨_, deleteFolder_run _⟩) now

theorem resetGateway_ends {gateway : GatewayPreset} {name : String}
    (hname : gateway.name = some name) (now : List (Change Entry)) :
    ∃ events, resetGateway start gateway now = (events, .ok ()) := by
  rw [resetGateway, hname]
  exact ⟨_, deleteFolder_run _⟩

theorem deleteData_ends (hnodes : ∀ node ∈ presetData.nodes, ∃ name, node.name = some name)
    (hgateways : ∀ gateway ∈ gateways presetData, ∃ name, gateway.name = some name) :
    ∃ events, deleteData start gateways presetData now = (events, .ok ()) := by
  have hnodesEnd : ∀ node ∈ presetData.nodes, ∀ now,
      ∃ events, resetNode start node now = (events, .ok ()) :=
    fun node _ now => resetNode_ends node now
  have hgatewaysEnd : ∀ gateway ∈ gateways presetData, ∀ now,
      ∃ events, resetGateway start gateway now = (events, .ok ()) := by
    intro gateway hgateway now
    obtain ⟨name, hname⟩ := hgateways gateway hgateway
    exact resetGateway_ends hname now
  obtain ⟨nodes, hnodesRun⟩ := forEach_ends hnodesEnd now
  have hnamed : ¬ (presetData.nodes.any fun node => node.name.isNone) = true := by
    intro hany
    obtain ⟨node, hnode, hnone⟩ := List.any_eq_true.mp hany
    obtain ⟨name, hname⟩ := hnodes node hnode
    rw [hname] at hnone
    cases hnone
  obtain ⟨logs, hlogs⟩ := forEach_ends hgatewaysEnd (now ++ nodes)
  obtain ⟨later, hlater⟩ : ∃ later, (do
      forEach (gateways presetData) (resetGateway start)
      deleteFolder start "databases/" : Changing Unit) (now ++ nodes) = (later, .ok ()) :=
    ⟨_, run_bind_returns.mpr ⟨logs, (), _, hlogs, deleteFolder_run _, rfl⟩⟩
  refine ⟨nodes ++ later, run_bind_returns.mpr ⟨nodes, (), later, hnodesRun, ?_, rfl⟩⟩
  rw [if_neg hnamed]
  exact hlater

variable (start) in
/-- Nothing is left below a folder. -/
def Deleted (folder : String) (now : List (Change Entry)) : Prop :=
  ∀ rest, (after start now).get (folder ++ rest) = none

theorem Deleted.later {folder : String} (h : Deleted start folder now)
    (hevents : ∀ change ∈ events, IsRemoval change) : Deleted start folder (now ++ events) := by
  refine kept_append (K := IsRemoval) ?_ h hevents
  exact fun now change hnow hchange rest => none_removed (hnow rest) hchange

theorem deleteFolder_deleted {folder : String}
    (h : deleteFolder start folder now = (events, .ok ())) :
    Deleted start folder (now ++ events) := by
  intro rest
  rw [deleteFolder_run] at h
  cases h
  rw [after_append, get_deletions, if_pos (isBelow_append folder rest)]

theorem removal_kept {folder : String} (now : List (Change Entry)) (change : Change Entry)
    (h : Deleted start folder now) (hchange : IsRemoval change) :
    Deleted start folder (now ++ [change]) := by
  exact h.later fun other hother => by rwa [List.mem_singleton.mp hother]

theorem resetNode_returns {node : NodePreset} {name : String} (hname : node.name = some name)
    (h : resetNode start node now = (events, .ok ())) :
    ∀ folder ∈ ["data", "logs"],
      Deleted start (getTargetNodesFolder name folder) (now ++ events) := by
  rw [resetNode, hname] at h
  refine forEach_returns (K := IsRemoval)
    (P := fun folder now => Deleted start (getTargetNodesFolder name folder) now)
    (fun folder _ => deleteFolder_removes _) ?_ ?_ h
  · exact fun folder _ now events hrun => deleteFolder_deleted hrun
  · exact fun folder now change hdeleted hchange => removal_kept now change hdeleted hchange

theorem resetGateway_returns {gateway : GatewayPreset} {name : String}
    (hname : gateway.name = some name)
    (h : resetGateway start gateway now = (events, .ok ())) :
    Deleted start (getTargetGatewayFolder name ++ "logs/") (now ++ events) := by
  rw [resetGateway, hname] at h
  exact deleteFolder_deleted h

theorem removals {m : Changing Unit} (hm : Emits (RemovesData gateways presetData) m)
    (h : m now = (events, .ok ())) : ∀ change ∈ events, IsRemoval change := by
  intro change hchange
  have hall := hm now
  rw [h] at hall
  exact (hall change hchange).1

/-- A reset that ends leaves nothing in the folders of the data. -/
theorem deleteData_returns (h : deleteData start gateways presetData now = (events, .ok ())) :
    ∀ folder ∈ dataFolders (gateways presetData) presetData,
      Deleted start folder (now ++ events) := by
  obtain ⟨nodes, ⟨⟩, rest, hnodes, hrest, rfl⟩ := run_bind_returns.mp h
  split at hrest
  · cases hrest
  · obtain ⟨logs, ⟨⟩, databases, hlogs, hdatabases, rfl⟩ := run_bind_returns.mp hrest
    have hlogsRemove : ∀ change ∈ logs, IsRemoval change :=
      removals (.forEach fun gateway hgateway => resetGateway_data hgateway) hlogs
    have hdatabasesData :
        Emits (RemovesData gateways presetData) (deleteFolder start "databases/") :=
      deleteFolder_data databases_mem
    have hdatabasesRemove : ∀ change ∈ databases, IsRemoval change :=
      removals hdatabasesData hdatabases
    have hnodesData : ∀ node ∈ presetData.nodes,
        Emits (RemovesData gateways presetData) (resetNode start node) :=
      fun node hnode => resetNode_data hnode
    have hnodesDeleted := forEach_returns (K := IsRemoval)
      (P := fun (node : NodePreset) now => ∀ name, node.name = some name →
        ∀ folder ∈ ["data", "logs"], Deleted start (getTargetNodesFolder name folder) now)
      (fun node hnode now change hchange => (hnodesData node hnode now change hchange).1)
      (fun node _ now events hrun name hname => resetNode_returns hname hrun)
      (fun node now change hdeleted hchange name hname folder hfolder =>
        removal_kept now change (hdeleted name hname folder hfolder) hchange) hnodes
    have hlogsDeleted := forEach_returns (K := IsRemoval)
      (P := fun (gateway : GatewayPreset) now => ∀ name, gateway.name = some name →
        Deleted start (getTargetGatewayFolder name ++ "logs/") now)
      (fun gateway hgateway now change hchange =>
        (resetGateway_data hgateway now change hchange).1)
      (fun gateway _ now events hrun name hname => resetGateway_returns hname hrun)
      (fun gateway now change hdeleted hchange name hname =>
        removal_kept now change (hdeleted name hname) hchange) hlogs
    intro folder hfolder
    rw [← List.append_assoc, ← List.append_assoc]
    rcases mem_dataFolders hfolder with ⟨node, hnode, name, hname, hdata⟩ |
      ⟨gateway, hgateway, name, hname, rfl⟩ | rfl
    · have hdeleted : Deleted start folder (now ++ nodes) := by
        rcases hdata with rfl | rfl
        · exact hnodesDeleted node hnode name hname "data" (by simp)
        · exact hnodesDeleted node hnode name hname "logs" (by simp)
      exact (hdeleted.later hlogsRemove).later hdatabasesRemove
    · exact (hlogsDeleted gateway hgateway name hname).later hdatabasesRemove
    · exact deleteFolder_deleted hdatabases

/-- However often it is cut before, a reset of the stored preset ends, and then the data of the
nodes, the logs and the databases are gone and all else is as it was; all along nothing that a
configuration makes for good is changed. -/
theorem reset_data_exact (hpreset : start.get presetLocation = some (.preset presetData))
    (hnodes : ∀ node ∈ presetData.nodes, ∃ name, node.name = some name ∧ IsStep name)
    (hgateways : ∀ gateway ∈ gateways presetData, ∃ name, gateway.name = some name ∧ IsStep name)
    (moments : List ℕ) :
    DataAtMost start gateways presetData (after start (resets start gateways moments []).1) ∧
    (∀ name, IsConfiguration name → isData (gateways presetData) presetData name = false) ∧
    ∃ events, resetData start gateways (resets start gateways moments []).1 = (events, .ok ()) ∧
      ∀ name, (after start ((resets start gateways moments []).1 ++ events)).get name =
        if isData (gateways presetData) presetData name = true then none
        else start.get name := by
  have hkept : DataAtMost start gateways presetData
      (after start (resets start gateways moments []).1) := resets_keep hpreset moments
  set before := (resets start gateways moments []).1
  refine ⟨hkept, fun name hname => isData_configuration hnodes hname, ?_⟩
  have hthere : (after start before).get presetLocation = some (.preset presetData) := by
    rw [hkept.kept _ (isData_file (.inr rfl)), hpreset]
  obtain ⟨events, hrun⟩ : ∃ events,
      deleteData start gateways presetData before = (events, .ok ()) :=
    deleteData_ends (fun node hnode => (hnodes node hnode).imp fun name hname => hname.1)
      fun gateway hgateway => (hgateways gateway hgateway).imp fun name hname => hname.1
  refine ⟨events, (resetData_run hthere).trans hrun, fun name => ?_⟩
  by_cases hdata : isData (gateways presetData) presetData name = true
  · rw [if_pos hdata]
    obtain ⟨folder, hfolder, hbelow⟩ := List.any_eq_true.mp hdata
    obtain ⟨rest, rfl⟩ := isBelow_iff.mp hbelow
    exact deleteData_returns hrun folder hfolder rest
  · rw [if_neg hdata]
    rw [Bool.not_eq_true] at hdata
    have hall : ∀ change ∈ (deleteData start gateways presetData before).1,
        RemovesData gateways presetData change := deleteData_data before
    rw [hrun] at hall
    rw [after_append, get_after_other, hkept.kept name hdata]
    rintro change hchange rfl
    rw [(hall change hchange).2] at hdata
    cases hdata

/-- A network that has run, with files of its node, of its gateway and of its database. -/
def usedTarget : Target where
  entries :=
    [("preset.yml", .preset AddressesUpgrade.newNetwork), ("nemesis/seed/index.dat", .file [1]),
      ("nodes/node-0/data/index.dat", .file [2]), ("nodes/node-0/seed/index.dat", .file [1]),
      ("nodes/node-0/data/00000/00001.dat", .file [3]), ("gateways/gw/logs/rest.log", .file [5]),
      ("gateways/gw/rest.json", .file [6]), ("databases/db/collection", .file [4])]
  distinct := by decide

def usedGateways : ConfigPreset → List GatewayPreset := fun _ => reusedGateways.gateways

theorem reset_data_exact_cut :
    DataAtMost usedTarget usedGateways AddressesUpgrade.newNetwork
      (after usedTarget (resets usedTarget usedGateways [1] []).1) ∧
    (∀ name, IsConfiguration name →
      isData reusedGateways.gateways AddressesUpgrade.newNetwork name = false) ∧
    ∃ events, resetData usedTarget usedGateways (resets usedTarget usedGateways [1] []).1 =
        (events, .ok ()) ∧
      ∀ name, (after usedTarget ((resets usedTarget usedGateways [1] []).1 ++ events)).get name =
        if isData reusedGateways.gateways AddressesUpgrade.newNetwork name = true then none
        else usedTarget.get name := by
  refine reset_data_exact rfl (fun node hnode => ?_) (fun gateway hgateway => ?_) [1]
  · rw [List.mem_singleton.mp hnode]
    refine ⟨_, rfl, ?_⟩
    unfold IsStep
    decide
  · rw [List.mem_singleton.mp hgateway]
    refine ⟨_, rfl, ?_⟩
    unfold IsStep
    decide

-- the first reset is cut when one file is gone
example : (resets usedTarget usedGateways [1, 9] []).1.map Change.name =
    ["nodes/node-0/data/index.dat", "nodes/node-0/data/00000/00001.dat",
      "gateways/gw/logs/rest.log", "databases/db/collection"] := by
  rfl

end Resets

end SymbolBootstrap.DataReset
