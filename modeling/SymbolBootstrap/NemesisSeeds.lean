import SymbolBootstrap.ConfigRuns
import SymbolBootstrap.Library.Folders

/-!
The nemesis seed among the generated files: where it comes from, and how it gets to the nodes. Of
a network whose nemesis block is created, the seed is generated before the addresses are stored
and no later run changes it. Every configuration empties the seed folders of the nodes and copies
the nemesis seed to each of them.

Paths are texts from the target on. The name of a node is one step of a path.
-/
namespace SymbolBootstrap.NemesisSeeds

open Library.Changes Library.Folders Library.Records Library.Throwing Library.Traces
open CryptoUtils ConfigurationUtils NemesisBalances AddressesService AddressesDocuments
open AccountResolution AddressesUpgrade StoredUpgrade ConfigRuns

/-- The name of an entry of a folder. -/
def IsStep (name : String) : Prop :=
  name ≠ "" ∧ '/' ∉ name.toList ∧ name ≠ "." ∧ name ≠ ".."

def nemesisSeedPath : String := "nemesis/seed"
def nemesisSeedFolder : String := "nemesis/seed/"

/-- `getTargetNodesFolder` of a node and a folder of it. -/
def getTargetNodesFolder (name folder : String) : String :=
  "nodes/" ++ name ++ "/" ++ folder ++ "/"

/-- No seed folder holds the file. -/
def OutOfSeeds (name : String) : Prop :=
  isBelow nemesisSeedFolder name = false ∧
    ∀ node, IsStep node → isBelow (getTargetNodesFolder node "seed") name = false

/-- The given names of the nodes are single steps. -/
def StepNames (presetData : ConfigPreset) : Prop :=
  ∀ node ∈ presetData.nodes, ∀ name, node.name = some name → IsStep name

/-- The parts of a run around the seeds. `prepare` is the rest of the clean up, the certificates,
nodes, gateways and explorers; what is copied at once is written in some order. -/
structure Stages where
  prepare : Bool → Target → ConfigPreset → Addresses → List (Change Entry) × Except String Unit
  generateNemesisConfig : Target → ConfigPreset → Addresses →
    List (Change Entry) × Except String Unit
  report : Target → ConfigPreset → List (Change Entry) × Except String Unit
  resolveWorkingDirPath : String → String
  folder : String → Option Target
  networkNemesisSeed : String → Target
  order : List (Change Entry) → List (Change Entry)
  prepare_file : ∀ isUpgrade target presetData addresses,
    ∀ change ∈ (prepare isUpgrade target presetData addresses).1, ¬ IsFile change.name
  prepare_seeds : ∀ isUpgrade target presetData addresses, StepNames presetData →
    ∀ change ∈ (prepare isUpgrade target presetData addresses).1, OutOfSeeds change.name
  nemesis_below : ∀ target presetData addresses,
    ∀ change ∈ (generateNemesisConfig target presetData addresses).1,
      isBelow "nemesis/" change.name = true
  report_file : ∀ target presetData,
    ∀ change ∈ (report target presetData).1, ¬ IsFile change.name
  report_seeds : ∀ target presetData,
    ∀ change ∈ (report target presetData).1, OutOfSeeds change.name
  order_perm : ∀ changes, (order changes).Perm changes

/-- `validateSeedFolder` of what is below a path. -/
def validateSeedFolder (path message : String) (get : String → Option Entry) :
    Except String Unit :=
  if (get "00000/00001.dat").isNone then
    throw s!"File {path}/00000/00001.dat doesn't exist! {message}"
  else if (get "index.dat").isNone then throw s!"File {path}/index.dat doesn't exist! {message}"
  else return

section Stages

variable (services : Services) (stages : Stages) (start : Target)

def deleteFolder (folder : String) : Changing Unit := do
  let now ← current start
  forEach (deletions folder now) emit

/-- Files that are written at once. -/
def writeAll (changes : List (Change Entry)) : Changing Unit :=
  fun _ => (stages.order changes, .ok ())

/-- A part of the run that reads the target as it is. -/
def stage (part : Target → List (Change Entry) × Except String Unit) : Changing Unit :=
  fun changes => part (after start changes)

def cleanUpNode (node : NodePreset) : Changing Unit :=
  match node.name with
  | none => stop "The \"path\" argument must be of type string. Received undefined"
  | some name => forEach ["server-config", "broker-config", "userconfig", "seed"] fun folder =>
      deleteFolder start (getTargetNodesFolder name folder)

/-- `cleanUpConfiguration` of the nodes. -/
def cleanUpConfiguration (presetData : ConfigPreset) : Changing Unit :=
  forEach presetData.nodes (cleanUpNode start)

/-- The nemesis seed as it is now. -/
def validateNemesisSeed (message : String) : Changing Unit := do
  let now ← current start
  validateSeedFolder nemesisSeedPath message fun rest => now.get (nemesisSeedFolder ++ rest)

/-- A seed takes the place of the one there is. -/
def replaceSeed (presetData : ConfigPreset) (seed : Target) : Changing Unit := do
  deleteFolder start nemesisSeedFolder
  writeAll stages (copies "" nemesisSeedFolder seed)
  validateNemesisSeed start s!"Is the {presetData.preset} preset default seed a valid seed folder?"

def resolveNemesis (presetData : ConfigPreset) (addresses : Addresses) (isUpgrade : Bool) :
    Changing Unit := do
  if shouldCreateNemesis services.seedExists presetData then
    if isUpgrade then return
    else
      deleteFolder start nemesisSeedFolder
      stage start fun target => stages.generateNemesisConfig target presetData addresses
      validateNemesisSeed start "Is the generated nemesis seed a valid seed folder?"
  else
    match given presetData.nemesisSeedFolder with
    | some given =>
        let presetNemesisSeedFolder := stages.resolveWorkingDirPath given
        match stages.folder presetNemesisSeedFolder with
        | none => stop s!"{presetNemesisSeedFolder} folder does not exist"
        | some seed =>
            (validateSeedFolder presetNemesisSeedFolder ("Is the provided preset " ++
              s!"nemesisSeedFolder: {presetNemesisSeedFolder} a valid seed folder?") seed.get :
                Except String Unit)
            replaceSeed stages start presetData seed
    | none =>
        if isYmlFile presetData.preset then
          stop (s!"Seed for preset {presetData.preset} could not be found. Please provide " ++
            "'nemesisSeedFolder'!")
        else if services.seedExists presetData.preset then
          replaceSeed stages start presetData (stages.networkNemesisSeed presetData.preset)
        else stop "Seed could not be found!!!!"

def copyNemesis (addresses : Addresses) : Changing Unit := do
  validateNemesisSeed start s!"Invalid final seed folder {nemesisSeedPath}"
  let now ← current start
  writeAll stages (addresses.nodes.flatMap fun account =>
    copies nemesisSeedFolder (getTargetNodesFolder account.name "seed") now)

/-- What `run` generates between the two files it reads and the two it writes. -/
def generate (isUpgrade : Bool) (presetData : ConfigPreset) (addresses : Addresses) :
    Changing Unit := do
  cleanUpConfiguration start presetData
  stage start fun target => stages.prepare isUpgrade target presetData addresses
  if presetData.nodes ≠ [] then
    resolveNemesis services stages start presetData addresses isUpgrade
    copyNemesis stages start addresses
  stage start fun target => stages.report target presetData

end Stages

section Places

theorem isBelow_append (folder rest : String) : isBelow folder (folder ++ rest) = true :=
  isBelow_iff.mpr ⟨rest, rfl⟩

theorem getTargetNodesFolder_append (name folder rest : String) :
    getTargetNodesFolder name folder ++ rest =
      "nodes/" ++ (name ++ "/" ++ (folder ++ "/" ++ rest)) := by
  simp only [getTargetNodesFolder, String.append_assoc]

/-- A file of a node's folder is below one node. -/
theorem getTargetNodesFolder_inj {name name' folder rest rest' : String} (hname : IsStep name)
    (hname' : IsStep name')
    (h : getTargetNodesFolder name folder ++ rest = getTargetNodesFolder name' folder ++ rest') :
    name = name' ∧ rest = rest' := by
  rw [getTargetNodesFolder_append, getTargetNodesFolder_append, String.append_right_inj] at h
  obtain ⟨hsame, hinner⟩ := step_inj hname.2.1 hname'.2.1 h
  exact ⟨hsame, (String.append_right_inj _).mp hinner⟩

/-- What is below the nodes is not below the nemesis. -/
theorem isBelow_nemesis_nodes {name folder rest : String} :
    isBelow "nemesis/" (getTargetNodesFolder name folder ++ rest) = false := by
  rw [Bool.eq_false_iff]
  intro h
  obtain ⟨rest', hrest⟩ := isBelow_iff.mp h
  have hlist := congrArg (fun text => text.toList.take 2) hrest
  rw [getTargetNodesFolder_append] at hlist
  simp at hlist

theorem not_below_nodes {name folder other : String} (h : isBelow "nemesis/" other = true) :
    isBelow (getTargetNodesFolder name folder) other = false := by
  rw [Bool.eq_false_iff]
  intro hbelow
  obtain ⟨rest, rfl⟩ := isBelow_iff.mp hbelow
  rw [isBelow_nemesis_nodes] at h
  cases h

/-- Neither of the two files is in a folder of the nodes or the nemesis. -/
theorem not_below_of_file {folder name : String} (hfolder : folder.toList.head? = some 'n')
    (hname : IsFile name) : isBelow folder name = false := by
  rw [Bool.eq_false_iff]
  intro hbelow
  obtain ⟨rest, rfl⟩ := isBelow_iff.mp hbelow
  have hhead : (folder ++ rest).toList.head? = some 'n' := by
    rw [String.toList_append, List.head?_append, hfolder, Option.some_or]
  rcases hname with h | h
  · rw [h] at hhead
    exact absurd hhead (by decide)
  · rw [h] at hhead
    exact absurd hhead (by decide)

theorem head_getTargetNodesFolder (name folder : String) :
    (getTargetNodesFolder name folder).toList.head? = some 'n' := by
  simp only [getTargetNodesFolder, String.toList_append, List.append_assoc]
  rfl

theorem outOfSeeds_of_file {name : String} (h : IsFile name) : OutOfSeeds name :=
  ⟨not_below_of_file rfl h, fun node _ => not_below_of_file (head_getTargetNodesFolder node _) h⟩

theorem nemesisSeedFolder_below {name : String} (h : isBelow nemesisSeedFolder name = true) :
    isBelow "nemesis/" name = true := by
  obtain ⟨rest, rfl⟩ := isBelow_iff.mp h
  exact isBelow_iff.mpr ⟨"seed/" ++ rest, by rw [nemesisSeedFolder, ← String.append_assoc]; rfl⟩

end Places

section Generating

variable {services : Services} {stages : Stages} {start : Target} {presetData : ConfigPreset}
  {addresses : Addresses} {isUpgrade : Bool} {now events : List (Change Entry)}

theorem deleteFolder_run (folder : String) :
    deleteFolder start folder now = (deletions folder (after start now), .ok ()) := by
  rw [deleteFolder, run_bind_current]
  have hemit : (forEach (deletions folder (after start now)) fun change => emit (id change) :
      Changing Unit) now = ((deletions folder (after start now)).map id, .ok ()) :=
    forEach_emit _ _
  rw [List.map_id] at hemit
  exact hemit

def IsRemoval (change : Change Entry) : Prop := ∃ name, change = .remove name

theorem deleteFolder_removes (folder : String) : Emits IsRemoval (deleteFolder start folder) := by
  intro now change hchange
  rw [deleteFolder_run] at hchange
  obtain ⟨name, -, rfl⟩ := List.mem_map.mp hchange
  exact ⟨name, rfl⟩

/-- What is not there is not there after a removal. -/
theorem none_removed {change : Change Entry} {name : String}
    (h : (after start now).get name = none) (hchange : IsRemoval change) :
    (after start (now ++ [change])).get name = none := by
  obtain ⟨removed, rfl⟩ := hchange
  rw [after_concat, get_apply, h]
  exact ite_self none

variable (start) in
/-- The folder of a node is empty. -/
def EmptyFolder (name folder : String) (now : List (Change Entry)) : Prop :=
  ∀ rest, (after start now).get (getTargetNodesFolder name folder ++ rest) = none

theorem cleanUpNode_removes (node : NodePreset) : Emits IsRemoval (cleanUpNode start node) := by
  unfold cleanUpNode
  split
  · exact .stop
  · exact .forEach fun folder _ => deleteFolder_removes _

theorem cleanUpNode_returns {node : NodePreset}
    (h : cleanUpNode start node now = (events, .ok ())) :
    ∃ name, node.name = some name ∧ EmptyFolder start name "seed" (now ++ events) := by
  unfold cleanUpNode at h
  cases hname : node.name with
  | none =>
    rw [hname] at h
    cases h
  | some name =>
    rw [hname] at h
    refine ⟨name, rfl, ?_⟩
    refine forEach_returns (K := IsRemoval) (P := EmptyFolder start name)
      (fun folder _ => deleteFolder_removes _) ?_ ?_ h "seed" (by simp)
    · intro folder _ now events hrun rest
      rw [deleteFolder_run] at hrun
      cases hrun
      rw [after_append, get_deletions, if_pos (isBelow_append _ rest)]
    · intro folder now change hempty hchange rest
      exact none_removed (hempty rest) hchange

theorem cleanUpConfiguration_returns
    (h : cleanUpConfiguration start presetData now = (events, .ok ())) :
    ∀ node ∈ presetData.nodes, ∃ name, node.name = some name ∧
      EmptyFolder start name "seed" (now ++ events) := by
  refine forEach_returns (K := IsRemoval)
    (P := fun (node : NodePreset) now => ∃ name, node.name = some name ∧
      EmptyFolder start name "seed" now) (fun node _ => cleanUpNode_removes node) ?_ ?_ h
  · exact fun node _ now events hrun => cleanUpNode_returns hrun
  · rintro node now change ⟨name, hname, hempty⟩ hchange
    exact ⟨name, hname, fun rest => none_removed (hempty rest) hchange⟩

/-- A change below the nemesis folder. -/
def OfNemesis (change : Change Entry) : Prop := isBelow "nemesis/" change.name = true

theorem deleteSeed_nemesis : Emits OfNemesis (deleteFolder start nemesisSeedFolder) := by
  intro now change hchange
  rw [deleteFolder_run] at hchange
  exact nemesisSeedFolder_below (isBelow_deletions hchange)

theorem validateNemesisSeed_emits {R : Change Entry → Prop} (message : String) :
    Emits R (validateNemesisSeed start message) :=
  emits_current fun _ => .lift

theorem replaceSeed_nemesis (seed : Target) :
    Emits OfNemesis (replaceSeed stages start presetData seed) := by
  refine .bind deleteSeed_nemesis fun _ => .bind ?_ fun _ => validateNemesisSeed_emits _
  intro now change hchange
  obtain ⟨rest, value, -, rfl⟩ := mem_copies.mp ((stages.order_perm _).mem_iff.mp hchange)
  exact nemesisSeedFolder_below (isBelow_append _ rest)

theorem resolveNemesis_nemesis :
    Emits OfNemesis (resolveNemesis services stages start presetData addresses isUpgrade) := by
  unfold resolveNemesis
  split
  · split
    · exact .pure
    · refine .bind deleteSeed_nemesis fun _ => .bind ?_ fun _ => validateNemesisSeed_emits _
      exact fun now change hchange => stages.nemesis_below _ _ _ change hchange
  · split
    · dsimp only
      split
      · exact .stop
      · exact .bindLift fun _ _ => replaceSeed_nemesis _
    · split
      · exact .stop
      · split
        · exact replaceSeed_nemesis _
        · exact .stop

/-- The seed has the two files that are looked for. -/
structure ValidSeed (get : String → Option Entry) : Prop where
  data : (get "00000/00001.dat").isSome = true
  index : (get "index.dat").isSome = true

theorem validateSeedFolder_ok {path message : String} {get : String → Option Entry} {a : Unit}
    (h : validateSeedFolder path message get = .ok a) : ValidSeed get := by
  unfold validateSeedFolder at h
  cases hdata : get "00000/00001.dat" with
  | none =>
    rw [hdata] at h
    cases h
  | some data =>
    cases hindex : get "index.dat" with
    | none =>
      rw [hdata, hindex] at h
      cases h
    | some index => exact ⟨by rw [hdata]; rfl, by rw [hindex]; rfl⟩

variable (addresses) in
/-- Every node has the nemesis seed, file by file. -/
def Seeded (target : Target) : Prop :=
  ∀ account ∈ addresses.nodes,
    ValidSeed (fun rest => target.get (getTargetNodesFolder account.name "seed" ++ rest)) ∧
    ∀ rest, target.get (getTargetNodesFolder account.name "seed" ++ rest) =
      target.get (nemesisSeedFolder ++ rest)

theorem validateNemesisSeed_returns {message : String}
    (h : validateNemesisSeed start message now = (events, .ok ())) :
    events = [] ∧ ValidSeed (fun rest => (after start now).get (nemesisSeedFolder ++ rest)) := by
  unfold validateNemesisSeed at h
  rw [run_bind_current] at h
  obtain ⟨rfl, hvalid⟩ := Prod.mk.inj h
  exact ⟨rfl, validateSeedFolder_ok hvalid⟩

/-- What is written in the folders of the nodes is a file of the nemesis seed. -/
theorem mem_seedCopies {target : Target} {change : Change Entry} {name rest : String}
    (hsteps : ∀ account ∈ addresses.nodes, IsStep account.name) (hname : IsStep name)
    (hmem : change ∈ addresses.nodes.flatMap fun account =>
      copies nemesisSeedFolder (getTargetNodesFolder account.name "seed") target)
    (hchange : change.name = getTargetNodesFolder name "seed" ++ rest) :
    change.value = target.get (nemesisSeedFolder ++ rest) := by
  obtain ⟨account, haccount, hcopy⟩ := List.mem_flatMap.mp hmem
  obtain ⟨rest', value, hvalue, rfl⟩ := mem_copies.mp hcopy
  obtain ⟨-, rfl⟩ := getTargetNodesFolder_inj (hsteps account haccount) hname hchange
  exact hvalue.symm

theorem copyNemesis_returns (hsteps : ∀ account ∈ addresses.nodes, IsStep account.name)
    (hempty : ∀ account ∈ addresses.nodes, EmptyFolder start account.name "seed" now)
    (h : copyNemesis stages start addresses now = (events, .ok ())) :
    Seeded addresses (after start (now ++ events)) := by
  obtain ⟨checked, ⟨⟩, written, hvalid, hwrite, rfl⟩ := run_bind_returns.mp h
  obtain ⟨rfl, hvalid⟩ := validateNemesisSeed_returns hvalid
  rw [List.append_nil, run_bind_current] at hwrite
  obtain ⟨rfl, -⟩ := Prod.mk.inj hwrite
  rw [List.nil_append]
  set target := after start now with htarget
  set copied := addresses.nodes.flatMap fun account =>
    copies nemesisSeedFolder (getTargetNodesFolder account.name "seed") target with hcopied
  have hmem : ∀ change, change ∈ stages.order copied ↔ change ∈ copied :=
    fun change => (stages.order_perm copied).mem_iff
  rw [after_append, ← htarget]
  have hseed : ∀ rest, (after target (stages.order copied)).get (nemesisSeedFolder ++ rest) =
      target.get (nemesisSeedFolder ++ rest) := by
    intro rest
    refine get_after_other fun change hchange hname => ?_
    obtain ⟨account, -, hcopy⟩ := List.mem_flatMap.mp ((hmem change).mp hchange)
    obtain ⟨rest', value, -, rfl⟩ := mem_copies.mp hcopy
    have hbelow := nemesisSeedFolder_below (isBelow_append nemesisSeedFolder rest)
    rw [← hname, Change.name, isBelow_nemesis_nodes] at hbelow
    cases hbelow
  have hsame : ∀ account ∈ addresses.nodes, ∀ rest,
      (after target (stages.order copied)).get (getTargetNodesFolder account.name "seed" ++ rest) =
        target.get (nemesisSeedFolder ++ rest) := by
    intro account haccount rest
    have hagree : ∀ change ∈ stages.order copied,
        change.name = getTargetNodesFolder account.name "seed" ++ rest →
          change.value = target.get (nemesisSeedFolder ++ rest) := fun change hchange hname =>
      mem_seedCopies hsteps (hsteps account haccount) ((hmem change).mp hchange) hname
    cases hthere : target.get (nemesisSeedFolder ++ rest) with
    | some value =>
      have hcopy : (.write (getTargetNodesFolder account.name "seed" ++ rest) value :
          Change Entry) ∈ copied :=
        List.mem_flatMap.mpr ⟨account, haccount, mem_copies.mpr ⟨rest, value, hthere, rfl⟩⟩
      rw [hthere] at hagree
      exact get_after_agreeing hagree ⟨_, (hmem _).mpr hcopy, rfl⟩
    | none =>
      rw [← hempty account haccount rest]
      refine get_after_other fun change hchange hname => ?_
      obtain ⟨other, hother, hcopy⟩ := List.mem_flatMap.mp ((hmem change).mp hchange)
      obtain ⟨rest', value, hvalue, rfl⟩ := mem_copies.mp hcopy
      have hnone := hagree _ hchange hname
      rw [hthere] at hnone
      cases hnone
  intro account haccount
  refine ⟨?_, fun rest => by rw [hsame account haccount, hseed]⟩
  simp only [hsame account haccount]
  exact hvalid

variable (start now) in
/-- Changes that are not below a folder leave its files. -/
theorem get_beside {folder : String} (h : ∀ change ∈ events, isBelow folder change.name = false)
    (rest : String) :
    (after start (now ++ events)).get (folder ++ rest) =
      (after start now).get (folder ++ rest) := by
  rw [after_append]
  refine get_after_other fun change hchange hname => ?_
  have hbelow := h change hchange
  rw [hname, isBelow_append] at hbelow
  cases hbelow

theorem Seeded.later (hsteps : ∀ account ∈ addresses.nodes, IsStep account.name)
    (h : Seeded addresses (after start now))
    (hevents : ∀ change ∈ events, OutOfSeeds change.name) :
    Seeded addresses (after start (now ++ events)) := by
  intro account haccount
  have hnode := get_beside start now fun change hchange =>
    (hevents change hchange).2 account.name (hsteps account haccount)
  have hseed := get_beside start now fun change hchange => (hevents change hchange).1
  simp only [hnode, hseed]
  exact h account haccount

/-- The accounts of the nodes have the given names. -/
theorem account_step (hnames : StepNames presetData)
    (hgiven : ∀ node ∈ presetData.nodes, ∃ name, node.name = some name)
    (haddresses : ∀ account ∈ addresses.nodes, ∃ node ∈ presetData.nodes, ∃ index : ℕ,
      account.name = (given node.name).getD s!"node-{index}") {account : NodeAccount}
    (haccount : account ∈ addresses.nodes) :
    ∃ node ∈ presetData.nodes, node.name = some account.name ∧ IsStep account.name := by
  obtain ⟨node, hnode, index, hname⟩ := haddresses account haccount
  obtain ⟨name, hnodeName⟩ := hgiven node hnode
  have hstep := hnames node hnode name hnodeName
  rw [hnodeName, given_some hstep.1, Option.getD_some] at hname
  exact ⟨node, hnode, by rw [hname]; exact hnodeName, by rw [hname]; exact hstep⟩

theorem generate_returns (hnames : StepNames presetData)
    (haddresses : ∀ account ∈ addresses.nodes, ∃ node ∈ presetData.nodes, ∃ index : ℕ,
      account.name = (given node.name).getD s!"node-{index}")
    (h : generate services stages start isUpgrade presetData addresses [] = (events, .ok ())) :
    (∀ account ∈ addresses.nodes, IsStep account.name) ∧
      Seeded addresses (after start events) := by
  obtain ⟨cleaned, ⟨⟩, rest, hclean, hpreparing, rfl⟩ := run_bind_returns.mp h
  obtain ⟨prepared, ⟨⟩, rest', hprepare, hseeding, rfl⟩ := run_bind_returns.mp hpreparing
  have hcleaned := cleanUpConfiguration_returns hclean
  have hsteps : ∀ account ∈ addresses.nodes, ∃ node ∈ presetData.nodes,
      node.name = some account.name ∧ IsStep account.name := by
    refine fun account haccount => account_step hnames (fun node hnode => ?_) haddresses haccount
    obtain ⟨name, hname, -⟩ := hcleaned node hnode
    exact ⟨name, hname⟩
  have hstep : ∀ account ∈ addresses.nodes, IsStep account.name := by
    intro account haccount
    obtain ⟨node, -, -, hstep⟩ := hsteps account haccount
    exact hstep
  have hprepared : ∀ change ∈ prepared, OutOfSeeds change.name := by
    have hall := stages.prepare_seeds isUpgrade (after start ([] ++ cleaned)) presetData
      addresses hnames
    rw [show stages.prepare isUpgrade (after start ([] ++ cleaned)) presetData addresses =
      (prepared, .ok ()) from hprepare] at hall
    exact hall
  have hempty : ∀ account ∈ addresses.nodes,
      EmptyFolder start account.name "seed" (cleaned ++ prepared) := by
    intro account haccount rest
    obtain ⟨node, hnode, hname, hstep⟩ := hsteps account haccount
    obtain ⟨name, hname', hcleared⟩ := hcleaned node hnode
    rw [hname] at hname'
    obtain rfl := Option.some.inj hname'
    rw [get_beside start _ fun change hchange => (hprepared change hchange).2 _ hstep]
    exact hcleared rest
  refine ⟨hstep, ?_⟩
  by_cases hnodes : presetData.nodes ≠ []
  · rw [if_pos hnodes] at hseeding
    obtain ⟨resolved, ⟨⟩, rest, hresolve, hcopying, rfl⟩ := run_bind_returns.mp hseeding
    obtain ⟨copied, ⟨⟩, reported, hcopy, hreport, rfl⟩ := run_bind_returns.mp hcopying
    have hresolved : ∀ change ∈ resolved, OfNemesis change := by
      have hall : ∀ change ∈ (resolveNemesis services stages start presetData addresses isUpgrade
          ([] ++ cleaned ++ prepared)).1, OfNemesis change := resolveNemesis_nemesis _
      rw [hresolve] at hall
      exact hall
    have hstillEmpty : ∀ account ∈ addresses.nodes,
        EmptyFolder start account.name "seed" ([] ++ cleaned ++ prepared ++ resolved) := by
      intro account haccount rest
      rw [get_beside start _ fun change hchange => not_below_nodes (hresolved change hchange)]
      exact hempty account haccount rest
    have hcopied := copyNemesis_returns hstep hstillEmpty hcopy
    have hreported : ∀ change ∈ reported, OutOfSeeds change.name := by
      have hall := stages.report_seeds
        (after start ([] ++ cleaned ++ prepared ++ resolved ++ copied)) presetData
      rw [show stages.report (after start ([] ++ cleaned ++ prepared ++ resolved ++ copied))
        presetData = (reported, .ok ()) from hreport] at hall
      exact hall
    have hend := hcopied.later hstep hreported
    simp only [List.nil_append, List.append_assoc] at hend
    exact hend
  · intro account haccount
    obtain ⟨node, hnode, -⟩ := hsteps account haccount
    rw [not_not.mp hnodes] at hnode
    cases hnode

end Generating

section Runs

variable {services : Services} {start : Target} {presetData : ConfigPreset}
  {mode : PrivateKeySecurityMode} {addresses : Addresses} {stages : Stages} {isUpgrade : Bool}

/-- Changes are of the nodes' folders or of one of the parts. -/
theorem generate_emits {R : Change Entry → Prop}
    (hnodes : ∀ name folder change,
      isBelow (getTargetNodesFolder name folder) change.name = true → R change)
    (hprepare : ∀ target, ∀ change ∈ (stages.prepare isUpgrade target presetData addresses).1,
      R change)
    (hnemesis : Emits R (resolveNemesis services stages start presetData addresses isUpgrade))
    (hreport : ∀ target, ∀ change ∈ (stages.report target presetData).1, R change) :
    Emits R (generate services stages start isUpgrade presetData addresses) := by
  have hreported : Emits R (stage start fun target => stages.report target presetData) :=
    fun now => hreport (after start now)
  refine .bind ?_ fun _ => .bind (fun now => hprepare (after start now)) fun _ => ?_
  · refine .forEach fun node _ => ?_
    unfold cleanUpNode
    split
    · exact .stop
    · refine .forEach fun folder _ now change hchange => ?_
      rw [deleteFolder_run] at hchange
      exact hnodes _ _ change (isBelow_deletions hchange)
  · split
    · refine .bind hnemesis fun _ => .bind ?_ fun _ => hreported
      refine .bind (validateNemesisSeed_emits _) fun _ => emits_current fun _ now => ?_
      intro change hchange
      obtain ⟨account, -, hcopy⟩ := List.mem_flatMap.mp ((stages.order_perm _).mem_iff.mp hchange)
      obtain ⟨rest, value, -, rfl⟩ := mem_copies.mp hcopy
      exact hnodes _ _ _ (isBelow_append _ rest)
    · exact hreported

theorem generate_file : Emits (fun change => ¬ IsFile change.name)
    (generate services stages start isUpgrade presetData addresses) := by
  have hbelow : ∀ {folder : String}, folder.toList.head? = some 'n' →
      ∀ {name : String}, isBelow folder name = true → ¬ IsFile name := by
    intro folder hfolder name hname hfile
    rw [not_below_of_file hfolder hfile] at hname
    cases hname
  refine generate_emits ?_ ?_ ?_ ?_
  · exact fun name folder change => hbelow (head_getTargetNodesFolder name folder)
  · exact fun target => stages.prepare_file isUpgrade target presetData addresses
  · exact fun now change hchange => hbelow rfl (resolveNemesis_nemesis now change hchange)
  · exact fun target => stages.report_file target presetData

/-- The parts as they are run. -/
def Stages.generation (services : Services) (stages : Stages) : Generation where
  generate := fun isUpgrade target presetData addresses =>
    NemesisSeeds.generate services stages target isUpgrade presetData addresses []
  beside := fun _ _ _ _ change hchange => not_or.mp (generate_file [] change hchange)

/-- Every configuration that returns leaves each node with the nemesis seed, file by file. -/
theorem nodes_seeded {attempt : Attempt} {changes : List (Change Entry)}
    (hstages : attempt.generation = stages.generation services)
    (hnames : ∀ old resolved, attempt.createPresetData old = .ok resolved → StepNames resolved)
    (hconfigures : attempt.reset = true ∨ attempt.upgrade = true ∨
      start.get presetLocation = none)
    (hrun : run services start attempt [] = (changes, .ok (presetData, addresses))) :
    Seeded addresses (after start changes) := by
  obtain ⟨before, later, oldAddresses, oldPresetData, hconfigure, rfl⟩ :=
    run_configures hrun hconfigures
  obtain ⟨generated, isUpgrade, resolved, draws', written, writtenPreset, hcreate, hresolve,
    hgenerate, rfl⟩ := configure_returns hconfigure
  have hsame : presetData.nodes = resolved.nodes :=
    congrArg (fun fields => fields.2.2.2) (resolveAddresses_unresolved hresolve).1
  have hsteps : StepNames presetData := by
    unfold StepNames
    rw [hsame]
    exact hnames _ _ hcreate
  rw [hstages] at hgenerate
  have hresolvedNames : ∀ account ∈ addresses.nodes, ∃ node ∈ presetData.nodes, ∃ index : ℕ,
      account.name = (given node.name).getD s!"node-{index}" := by
    intro account haccount
    rw [hsame]
    exact resolveAddresses_names hresolve haccount
  obtain ⟨hstep, hgenerated⟩ := generate_returns hsteps hresolvedNames hgenerate
  rw [← after_append] at hgenerated
  rw [← List.append_assoc]
  refine hgenerated.later hstep fun change hchange => ?_
  simp only [List.mem_cons, List.not_mem_nil, or_false] at hchange
  rcases hchange with rfl | rfl
  · exact outOfSeeds_of_file (.inl rfl)
  · exact outOfSeeds_of_file (.inr rfl)

/-- The names of a stored preset are those of the preset. -/
theorem stepNames_storedPreset (hnames : StepNames presetData) :
    StepNames (storedPreset presetData) := by
  intro node hnode name hname
  obtain ⟨given, hgiven, rfl⟩ := List.mem_map.mp hnode
  exact hnames given hgiven name hname

/-- An upgrade of a network whose nemesis block is created leaves the seed alone. -/
theorem generate_upgrade (hnames : StepNames presetData)
    (hcreates : shouldCreateNemesis services.seedExists presetData = true) :
    Emits (fun change => isBelow nemesisSeedFolder change.name = false)
      (generate services stages start true presetData addresses) := by
  refine generate_emits ?_ ?_ ?_ ?_
  · intro name folder change hbelow
    rw [Bool.eq_false_iff]
    intro hseed
    rw [not_below_nodes (nemesisSeedFolder_below hseed)] at hbelow
    cases hbelow
  · intro target change hchange
    exact (stages.prepare_seeds true target presetData addresses hnames change hchange).1
  · unfold resolveNemesis
    rw [if_pos hcreates]
    exact .pure
  · exact fun target change hchange => (stages.report_seeds target presetData change hchange).1

/-- A stored preset has a nemesis section, which is what an upgrade takes. -/
def StoredNemesis (target : Target) : Prop :=
  ∀ presetData, target.get presetLocation = some (.preset presetData) →
    presetData.nemesis.isSome = true

variable (start) in
/-- The seed changes only as long as no addresses are stored, and these are not removed. -/
structure SeedSettled (before : List (Change Entry)) (change : Change Entry) : Prop where
  seed : isBelow nemesisSeedFolder change.name = true →
    (after start before).get addressesLocation = none
  addresses : change.name = addressesLocation → change.value ≠ none

variable (start) in
structure Settled (changes : List (Change Entry)) : Prop where
  always : Always (SeedSettled start) changes
  stored : StoredNemesis (after start changes)

section Steps

variable {attempt : Attempt} {oldAddresses : Option Addresses}
  {oldPresetData : Option ConfigPreset} {changes : List (Change Entry)} {change : Change Entry}

theorem Settled.next (h : Settled start changes) (hchange : SeedSettled start changes change)
    (hpreset : change.name = presetLocation → ∀ stored, change.value = some (.preset stored) →
      stored.nemesis.isSome = true) : Settled start (changes ++ [change]) := by
  refine ⟨always_concat.mpr ⟨h.always, hchange⟩, fun stored hstored => ?_⟩
  rw [after_concat, get_apply] at hstored
  by_cases hname : change.name = presetLocation
  · rw [if_pos hname] at hstored
    exact hpreset hname stored hstored
  · rw [if_neg hname] at hstored
    exact h.stored stored hstored

/-- One of the two files is no part of the seed. -/
theorem seedSettled_of_file {name : String} (entry : Entry) (hname : IsFile name) :
    SeedSettled start changes (.write name entry) := by
  refine ⟨fun hbelow => ?_, fun _ => Option.some_ne_none entry⟩
  rw [Change.name, not_below_of_file rfl hname] at hbelow
  cases hbelow

/-- What is generated once the addresses are stored is no part of the seed. -/
theorem generateBeside_seed (hnames : StepNames presetData)
    (hcreates : shouldCreateNemesis services.seedExists presetData = true)
    (hstages : attempt.generation = stages.generation services) :
    Emits (fun change => ¬ IsFile change.name ∧
        (isBelow nemesisSeedFolder change.name = true → oldAddresses = none))
      (generateBeside start attempt (oldPresetData.isSome || oldAddresses.isSome) presetData
        addresses) := by
  intro now change hchange
  unfold generateBeside at hchange
  refine ⟨not_or.mpr (attempt.generation.beside _ _ _ _ change hchange), fun hseed => ?_⟩
  cases hold : oldAddresses with
  | none => rfl
  | some old =>
    rw [hstages, hold, Option.isSome_some, Bool.or_true] at hchange
    rw [generate_upgrade hnames hcreates [] change hchange] at hseed
    cases hseed

variable (start) in
theorem configure_seed
    (hpresets : ∀ old resolved, attempt.createPresetData old = .ok resolved →
      shouldCreateNemesis services.seedExists resolved = true ∧ StepNames resolved)
    (hstages : attempt.generation = stages.generation services) {target : Target}
    (haddresses : target.get addressesLocation = oldAddresses.map .addresses)
    (hpreset : target.get presetLocation = oldPresetData.map .preset) :
    Triple (Settled start) (Settled start)
      (fun changes => Settled start changes ∧ after start changes = target)
      (configure services start attempt oldAddresses oldPresetData) fun _ => Settled start := by
  refine .bindLift (fun _ h => ⟨h.1, h.1⟩) fun resolved hcreate => ?_
  refine .bindLift (fun _ h => ⟨h.1, h.1⟩) fun result hrun => ?_
  obtain ⟨⟨second, secondPreset⟩, draws'⟩ := result
  refine .bindLift (fun _ h => ⟨h.1, h.1⟩) fun resolvedMode _ => ?_
  refine .at fun changes ⟨hsettled, htarget⟩ => ?_
  subst htarget
  obtain ⟨hcreates, hnames⟩ := hpresets oldPresetData resolved hcreate
  have hold : ∀ oldPreset, oldPresetData = some oldPreset →
      oldPreset.nemesis.isSome = true := by
    intro oldPreset heq
    refine hsettled.stored oldPreset ?_
    rw [hpreset, heq, Option.map_some]
  have hsecondCreates : shouldCreateNemesis services.seedExists secondPreset = true :=
    (resolveAddresses_creates hold hrun).trans hcreates
  have hsecondNames : StepNames secondPreset := by
    have hsame : secondPreset.nodes = resolved.nodes :=
      congrArg (fun fields => fields.2.2.2) (resolveAddresses_unresolved hrun).1
    unfold StepNames
    rwa [hsame]
  -- until they are written, there are no addresses unless there were some
  let Before : List (Change Entry) → Prop := fun now =>
    Settled start now ∧ (oldAddresses = none → (after start now).get addressesLocation = none)
  have hgenerate : Triple Before Before Before
      (generateBeside start attempt (oldPresetData.isSome || oldAddresses.isSome) secondPreset
        second) fun _ => Before := by
    refine Triple.each fun now change hchange later h => ?_
    obtain ⟨hfile, hseed⟩ :=
      generateBeside_seed hsecondNames hsecondCreates hstages now change hchange
    refine ⟨h.1.next ⟨fun hbelow => h.2 (hseed hbelow), fun hname => ?_⟩ fun hname => ?_,
      fun hnone => ?_⟩
    · exact absurd (.inl hname) hfile
    · exact absurd (.inr hname) hfile
    · rw [after_concat, get_apply, if_neg fun hname => hfile (.inl hname)]
      exact h.2 hnone
  have hwriteAddresses : Triple (Settled start) (Settled start) (Settled start)
      (emit (.write addressesLocation (.addresses (storedAddresses resolvedMode second))) :
        Changing Unit) fun _ => Settled start := by
    refine .emit (fun _ h => h) fun later h => ?_
    have hnext := h.next (seedSettled_of_file (.addresses (storedAddresses resolvedMode second))
      (.inl rfl)) fun hname => absurd hname locations_ne
    exact ⟨hnext, hnext⟩
  have hwritePreset : Triple (Settled start) (Settled start) (Settled start)
      (emit (.write presetLocation (.preset (storedPreset secondPreset))) : Changing Unit)
        fun _ => Settled start := by
    refine .emit (fun _ h => h) fun later h => ?_
    have hnext := h.next (seedSettled_of_file (.preset (storedPreset secondPreset)) (.inr rfl))
      fun _ stored hstored => by
        cases hstored
        obtain ⟨nemesis, hnemesis⟩ := nemesis_of_creates hsecondCreates
        rw [storedPreset, hnemesis]
        rfl
    exact ⟨hnext, hnext⟩
  refine .bind (Q := fun _ => Settled start) ?_ fun _ => .bind hwriteAddresses fun _ =>
    .bind hwritePreset fun _ => .pure fun _ h => ⟨h, h⟩
  refine (hgenerate.mono (fun _ h => h.1) fun _ h => h.1).weaken ?_ fun _ _ h => h.1
  rintro _ rfl
  refine ⟨hsettled, fun hnone => ?_⟩
  rw [haddresses, hnone, Option.map_none]

end Steps

/-- Where no run resets and every preset that is resolved creates the nemesis block, the seed
stays what it is from when the addresses are stored, in any runs, over or cut anywhere. -/
theorem nemesis_seed_kept {attempts : List Attempt}
    (hpresets : ∀ attempt ∈ attempts, ∀ old resolved,
      attempt.createPresetData old = .ok resolved →
        shouldCreateNemesis services.seedExists resolved = true ∧ StepNames resolved)
    (hstages : ∀ attempt ∈ attempts, ∃ stages : Stages,
      attempt.generation = stages.generation services)
    (hreset : ∀ attempt ∈ attempts, attempt.reset = false)
    (hstart : StoredNemesis start) {moment later : List (Change Entry)}
    (hmoment : moment <+: later) (hlater : later <+: (runs services start attempts []).1)
    (hstored : (after start moment).get addressesLocation ≠ none) (rest : String) :
    (after start later).get (nemesisSeedFolder ++ rest) =
      (after start moment).get (nemesisSeedFolder ++ rest) := by
  have hruns : Triple (Settled start) (Settled start) (Settled start)
      (runs services start attempts) fun _ => Settled start := by
    refine .forEach (fun _ h => h) fun attempt hattempt => .cut (run_rule ?_ ?_) fun _ h => h
    · intro hresets
      rw [hreset attempt hattempt] at hresets
      cases hresets
    · intro target oldAddresses oldPresetData haddresses hpreset _
      obtain ⟨stages, hstages⟩ := hstages attempt hattempt
      exact configure_seed start (hpresets attempt hattempt) hstages haddresses hpreset
  have hsettled := (hruns.moment ⟨always_nil, hstart⟩ later hlater).always
  refine get_after_later hmoment fun front change back hsplit hfront hname => ?_
  have hfrontLater : front <+: later := ⟨change :: back, hsplit.symm⟩
  have hnone := (hsettled front change back hsplit).seed
    (by rw [hname]; exact isBelow_append _ rest)
  have hkept : Always (fun _ change => change.name = addressesLocation → change.value ≠ none)
      front := fun front' change' back' hsplit' =>
    (always_earlier hfrontLater hsettled front' change' back' hsplit').addresses
  exact get_after_unremoved hfront hkept hstored hnone

/-- A nemesis block of two files. -/
def smallStages : Stages where
  prepare _ _ _ _ := ([], .ok ())
  generateNemesisConfig _ _ _ :=
    ([.write "nemesis/seed/00000/00001.dat" (.file [1]),
      .write "nemesis/seed/index.dat" (.file [2])], .ok ())
  report _ _ := ([], .ok ())
  resolveWorkingDirPath path := path
  folder _ := none
  networkNemesisSeed _ := Record.empty
  order changes := changes
  prepare_file _ _ _ _ _ h := nomatch h
  prepare_seeds _ _ _ _ _ _ h := nomatch h
  nemesis_below _ _ _ change hchange := by
    simp only [List.mem_cons, List.not_mem_nil, or_false] at hchange
    rcases hchange with rfl | rfl <;> decide
  report_file _ _ _ h := nomatch h
  report_seeds _ _ _ h := nomatch h
  order_perm _ := .refl _

/-- A run of a new network, over or cut at a moment. -/
def seedAttempt (moment : ℕ) : Attempt where
  reset := false
  upgrade := true
  createPresetData := fun old => .ok (if old.isSome then storedPreset newNetwork else newNetwork)
  draws := ⟨moment, []⟩
  generation := smallStages.generation knownServices
  moment

theorem newNetwork_names : StepNames newNetwork := by
  intro node hnode name hname
  rw [List.mem_singleton.mp hnode] at hname
  cases hname
  exact ⟨by decide, by decide, by decide, by decide⟩

theorem nodes_seeded_small :
    ∃ changes presetData addresses,
      run knownServices Record.empty (seedAttempt 9) [] = (changes, .ok (presetData, addresses)) ∧
        Seeded addresses (after Record.empty changes) := by
  have hok : (run knownServices Record.empty (seedAttempt 9) []).2.isOk = true := by
    decide +kernel
  cases hresult : (run knownServices Record.empty (seedAttempt 9) []).2 with
  | error reason =>
    rw [hresult] at hok
    cases hok
  | ok result =>
    have hrun : run knownServices Record.empty (seedAttempt 9) [] =
        ((run knownServices Record.empty (seedAttempt 9) []).1, .ok (result.1, result.2)) :=
      Prod.ext rfl hresult
    have hstages : (seedAttempt 9).generation = smallStages.generation knownServices := rfl
    refine ⟨_, _, _, hrun, nodes_seeded hstages ?_ (.inr (.inl rfl)) hrun⟩
    intro old resolved hresolved
    obtain rfl := Except.ok.inj hresolved
    split
    · exact stepNames_storedPreset newNetwork_names
    · exact newNetwork_names

/-- A run that is cut in the seed, one that is over, an upgrade that is cut and one that is not. -/
def seedAttempts : List Attempt := [1, 9, 4, 9].map seedAttempt

example : (runs knownServices Record.empty seedAttempts []).1.map Change.name =
    ["nemesis/seed/00000/00001.dat", "nemesis/seed/00000/00001.dat",
      "nemesis/seed/00000/00001.dat", "nemesis/seed/index.dat",
      "nodes/node-0/seed/00000/00001.dat", "nodes/node-0/seed/index.dat", "addresses.yml",
      "preset.yml", "nodes/node-0/seed/00000/00001.dat", "nodes/node-0/seed/index.dat",
      "nodes/node-0/seed/00000/00001.dat", "nodes/node-0/seed/index.dat",
      "nodes/node-0/seed/00000/00001.dat", "nodes/node-0/seed/index.dat",
      "nodes/node-0/seed/00000/00001.dat", "nodes/node-0/seed/index.dat", "addresses.yml",
      "preset.yml"] := by
  decide +kernel

theorem nemesis_seed_kept_small :
    (after Record.empty (runs knownServices Record.empty seedAttempts []).1).get
        (nemesisSeedFolder ++ "index.dat") =
      (after Record.empty ((runs knownServices Record.empty seedAttempts []).1.take 7)).get
        (nemesisSeedFolder ++ "index.dat") := by
  have hpresets : ∀ attempt ∈ seedAttempts, ∀ old resolved,
      attempt.createPresetData old = .ok resolved →
        shouldCreateNemesis knownServices.seedExists resolved = true ∧ StepNames resolved := by
    intro attempt hattempt old resolved hresolved
    obtain ⟨moment, -, rfl⟩ := List.mem_map.mp hattempt
    obtain rfl := Except.ok.inj hresolved
    split
    · exact ⟨by decide, stepNames_storedPreset newNetwork_names⟩
    · exact ⟨by decide, newNetwork_names⟩
  have hgenerations : ∀ attempt ∈ seedAttempts, ∃ stages : Stages,
      attempt.generation = stages.generation knownServices := by
    intro attempt hattempt
    obtain ⟨moment, -, rfl⟩ := List.mem_map.mp hattempt
    exact ⟨smallStages, rfl⟩
  have hstored : ((after Record.empty ((runs knownServices Record.empty seedAttempts []).1.take
      7)).get addressesLocation).isSome = true := by
    decide +kernel
  refine nemesis_seed_kept hpresets hgenerations ?_ ?_ (List.take_prefix _ _)
    (List.prefix_refl _) (Option.isSome_iff_ne_none.mp hstored) "index.dat"
  · intro attempt hattempt
    obtain ⟨moment, -, rfl⟩ := List.mem_map.mp hattempt
    rfl
  · intro stored hstored'
    cases hstored'

end Runs
end SymbolBootstrap.NemesisSeeds
