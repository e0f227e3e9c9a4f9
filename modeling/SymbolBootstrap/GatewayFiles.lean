import SymbolBootstrap.NemesisSeeds

/-!
The folder of a REST gateway over a configuration: what `cleanUpConfiguration` leaves of it, and
what `generateGateways` writes. The bundled configuration is one template. From the gateway's node
only some files are copied, and the SSL files stay when they are not given again.

Paths are texts from the target on, and copies to one gateway do not mix with those to another.
-/
namespace SymbolBootstrap.GatewayFiles

open Library.CaseMapping Library.Changes Library.Folders Library.Records Library.Throwing
  Library.Traces
open AccountResolution ConfigurationUtils ConfigRuns NemesisSeeds
open AddressesService (Services Addresses)
open NemesisBalances (ConfigPreset)

structure GatewayPreset where
  name : Option String
  apiNodeName : Option String
  restProtocol : Option String
  restSSLKeyBase64 : Option String
  restSSLCertificateBase64 : Option String

structure Gateways where
  gateways : List GatewayPreset
  restSSLKeyFileName : String
  restSSLCertificateFileName : String

/-- Handlebars with the context of a gateway and with none, the bundled template, and the order in
which the files of a folder are written. -/
structure Surroundings where
  runTemplate : Option GatewayPreset → Entry → Except String Entry
  formatJson : Entry → Except String Entry
  restTemplate : Entry
  fromBase64 : String → Entry
  order : List (String × Entry) → List (String × Entry)
  order_perm : ∀ files, (order files).Perm files

/-- The last step of a path. -/
def basename (path : String) : String :=
  String.ofList (path.toList.reverse.takeWhile (· ≠ '/')).reverse

/-- `text.replace(pattern, '')`. -/
def withoutFirst (pattern : List Char) : List Char → List Char
  | [] => []
  | c :: rest =>
      if pattern <+: c :: rest then (c :: rest).drop pattern.length
      else c :: withoutFirst pattern rest

/-- `toPath.replace('.mustache', '')`. -/
def destination (toPath : String) : String :=
  String.ofList (withoutFirst ".mustache".toList toPath.toList)

def getTargetGatewayFolder (name : String) : String := "gateways/" ++ name ++ "/"

def resourcesFolder (node : String) : String := "nodes/" ++ node ++ "/server-config/resources/"

def certFolder (node : String) : String := "nodes/" ++ node ++ "/cert/"

/-- The files that a gateway gets of the configuration of its node. -/
def propertiesFiles : List String :=
  ["config-network.properties", "config-node.properties", "config-inflation.properties"]

/-- The files that a gateway gets of the certificates of its node. -/
def certFiles : List String := ["node.crt.pem", "node.key.pem", "ca.cert.pem"]

/-- An excluded entry of a folder, with all that it holds. -/
def isExcluded (excluded : List String) (rest : String) : Bool :=
  excluded.any fun entry => rest = entry || isBelow (entry ++ "/") rest

/-- The removals of `deleteFolder` with entries of the folder excluded. -/
def deletionsExcept (folder : String) (excluded : List String) (target : Target) :
    List (Change Entry) :=
  (target.names.filter fun name =>
    ((below folder name).map fun rest => !isExcluded excluded rest).getD false).map .remove

/-- What is below a folder, by the paths from it on. -/
def filesBelow (folder : String) (target : Target) : List (String × Entry) :=
  target.entries.filterMap fun entry => (below folder entry.1).map fun rest => (rest, entry.2)

section Generation

variable (surroundings : Surroundings) (start : Target)

/-- A path without a text. -/
def missing {α : Type} : Changing α :=
  stop "The \"path\" argument must be of type string. Received undefined"

/-- `HandlebarsUtils.generateConfiguration`, one file after the other. -/
def generateConfiguration (context : Option GatewayPreset) (files : List (String × Entry))
    (copyTo : String) (includeFiles : List String) : Changing Unit :=
  forEach (surroundings.order files) fun (rest, content) => do
    let destinationFile := destination (copyTo ++ rest)
    if includeFiles = [] ∨ basename destinationFile ∈ includeFiles then
      if contains (basename rest) ".mustache" then
        let rendered ← (surroundings.runTemplate context content : Except String Entry)
        if endsWith (toLowerCase destinationFile) ".json" then
          let formatted ← (surroundings.formatJson rendered : Except String Entry)
          emit (.write destinationFile formatted)
        else emit (.write destinationFile rendered)
      else emit (.write destinationFile content)

/-- A folder that is read. One without files is not there. -/
def copyFolder (folder copyTo : String) (includeFiles : List String) : Changing Unit := do
  let now ← current start
  let files := filesBelow folder now
  if files = [] then stop s!"ENOENT: no such file or directory, scandir '{folder}'"
  else generateConfiguration surroundings none files copyTo includeFiles

variable (preset : Gateways)

/-- The SSL files: given, or there already. -/
def provideSSL (gateway : GatewayPreset) (moveTo : String) : Changing Unit := do
  if gateway.restProtocol = some "HTTPS" then
    let now ← current start
    match given gateway.restSSLKeyBase64, given gateway.restSSLCertificateBase64 with
    | some key, some certificate =>
        emit (.write (moveTo ++ preset.restSSLKeyFileName) (surroundings.fromBase64 key))
        emit (.write (moveTo ++ preset.restSSLCertificateFileName)
          (surroundings.fromBase64 certificate))
    | _, _ =>
        if (now.get (moveTo ++ preset.restSSLKeyFileName)).isNone &&
            (now.get (moveTo ++ preset.restSSLCertificateFileName)).isNone then
          stop ("Native SSL is enabled but restSSLKeyBase64 or restSSLCertificateBase64 " ++
            "properties are not found in the custom-preset file! Either use 'symbol-bootstrap " ++
            "wizard' command to fill those properties in the custom-preset or make sure you " ++
            s!"copy your SSL key and cert files to {moveTo} folder.")

def generateGateway (gateway : GatewayPreset) (index : ℕ) : Changing Unit := do
  let moveTo := getTargetGatewayFolder ((given gateway.name).getD s!"rest-gateway-{index}")
  generateConfiguration surroundings (some gateway)
    [("rest.json.mustache", surroundings.restTemplate)] moveTo []
  match gateway.apiNodeName with
  | none => missing
  | some apiNodeName =>
      copyFolder surroundings start (resourcesFolder apiNodeName) (moveTo ++ "api-node-config/")
        propertiesFiles
      copyFolder surroundings start (certFolder apiNodeName) (moveTo ++ "api-node-config/cert/")
        certFiles
      provideSSL surroundings start preset gateway moveTo

def generateGateways : Changing Unit :=
  forEach preset.gateways.zipIdx fun (gateway, index) =>
    generateGateway surroundings start preset gateway index

def cleanUpGateway (gateway : GatewayPreset) : Changing Unit :=
  match gateway.name with
  | none => missing
  | some name => do
      let now ← current start
      forEach (deletionsExcept (getTargetGatewayFolder name)
        [preset.restSSLKeyFileName, preset.restSSLCertificateFileName] now) emit

/-- `cleanUpConfiguration` of the gateways. -/
def cleanUpGateways : Changing Unit := forEach preset.gateways (cleanUpGateway start preset)

/-- What a run generates before the gateways, after the clean up, and what it generates and stores
after them. -/
structure Around where
  earlier : Target → List (Change Entry) × Except String Unit
  later : Target → List (Change Entry) × Except String Unit
  earlier_beside : ∀ target, ∀ change ∈ (earlier target).1,
    isBelow "gateways/" change.name = false
  later_beside : ∀ target, ∀ change ∈ (later target).1, isBelow "gateways/" change.name = false
  later_nodes : ∀ target node, IsStep node → ∀ change ∈ (later target).1,
    isBelow (resourcesFolder node) change.name = false ∧
      isBelow (certFolder node) change.name = false

/-- A configuration, as far as it is about the gateways. -/
def configureGateways (around : Around) : Changing Unit := do
  cleanUpGateways start preset
  stage start around.earlier
  generateGateways surroundings start preset
  stage start around.later

end Generation

section Texts

theorem withoutFirst_none {pattern text : List Char} (h : ¬ pattern <:+: text) :
    withoutFirst pattern text = text := by
  induction text with
  | nil => rfl
  | cons c rest ih =>
    have hhere : ¬ pattern <+: c :: rest := fun hpre => h hpre.isInfix
    rw [withoutFirst, if_neg hhere,
      ih fun hwithin => h (hwithin.trans (List.infix_cons List.infix_rfl))]

/-- A pattern within one step of a path is not found across two. -/
theorem withoutFirst_step {pattern front : List Char} (rest : List Char) (hne : pattern ≠ [])
    (hpattern : '/' ∉ pattern) (h : ¬ pattern <:+: front) :
    withoutFirst pattern (front ++ '/' :: rest) = front ++ '/' :: withoutFirst pattern rest := by
  induction front with
  | nil =>
    have hhere : ¬ pattern <+: '/' :: rest := by
      intro hpre
      cases pattern with
      | nil => exact hne rfl
      | cons c others =>
        obtain rfl := (List.cons_prefix_cons.mp hpre).1
        exact hpattern List.mem_cons_self
    rw [List.nil_append, withoutFirst, if_neg hhere, List.nil_append]
  | cons c front ih =>
    have hhere : ¬ pattern <+: c :: (front ++ '/' :: rest) := by
      intro hpre
      have hfront : c :: front <+: c :: (front ++ '/' :: rest) :=
        List.prefix_append (c :: front) ('/' :: rest)
      rcases List.prefix_or_prefix_of_prefix hpre hfront with hshort | hlong
      · exact h hshort.isInfix
      · obtain ⟨more, rfl⟩ := hlong
        rw [← List.cons_append, List.prefix_append_right_inj] at hpre
        cases more with
        | nil => exact h (by rw [List.append_nil])
        | cons d others =>
          obtain rfl := (List.cons_prefix_cons.mp hpre).1
          exact hpattern (by simp)
    rw [List.cons_append, withoutFirst, if_neg hhere,
      ih fun hwithin => h (hwithin.trans (List.infix_cons List.infix_rfl)), List.cons_append]

/-- Not the name of a template. -/
def Plain (text : String) : Prop := contains text ".mustache" = false

theorem not_infix_of_plain {text : String} (h : Plain text) :
    ¬ ".mustache".toList <:+: text.toList :=
  of_decide_eq_false h

theorem destination_of_plain {text : String} (h : Plain text) : destination text = text := by
  rw [destination, withoutFirst_none (not_infix_of_plain h), String.ofList_toList]

theorem destination_step {front : String} (h : Plain front) (rest : String) :
    destination (front ++ "/" ++ rest) = front ++ "/" ++ destination rest := by
  apply String.toList_injective
  simp only [destination, String.toList_ofList, String.toList_append, List.append_assoc]
  exact withoutFirst_step rest.toList (by decide) (by decide) (not_infix_of_plain h)

theorem basename_step (front rest : String) :
    basename (front ++ "/" ++ rest) = basename rest := by
  have hrev : (front ++ "/" ++ rest).toList.reverse =
      rest.toList.reverse ++ '/' :: front.toList.reverse := by
    simp only [String.toList_append, List.reverse_append, List.append_assoc]
    rfl
  have htake : ∀ text : List Char,
      (text ++ '/' :: front.toList.reverse).takeWhile (· ≠ '/') = text.takeWhile (· ≠ '/') := by
    intro text
    induction text with
    | nil => rfl
    | cons c rest ih =>
      rw [List.cons_append, List.takeWhile_cons, List.takeWhile_cons, ih]
  rw [basename, hrev, htake, basename]

theorem plain_basename {text : String} (h : Plain text) : Plain (basename text) := by
  refine decide_eq_false fun hwithin => not_infix_of_plain h (hwithin.trans ?_)
  rw [basename, String.toList_ofList]
  have hprefix := (List.takeWhile_prefix (l := text.toList.reverse) (fun c => decide (c ≠ '/')))
  have hsuffix := List.reverse_suffix.mpr hprefix
  rw [List.reverse_reverse] at hsuffix
  exact hsuffix.isInfix

end Texts

section Places

theorem getTargetGatewayFolder_append (name rest : String) :
    getTargetGatewayFolder name ++ rest = "gateways/" ++ (name ++ "/" ++ rest) := by
  simp only [getTargetGatewayFolder, String.append_assoc]

/-- A file is below the folder of one gateway. -/
theorem getTargetGatewayFolder_inj {name name' rest rest' : String} (hname : IsStep name)
    (hname' : IsStep name')
    (h : getTargetGatewayFolder name ++ rest = getTargetGatewayFolder name' ++ rest') :
    name = name' ∧ rest = rest' := by
  rw [getTargetGatewayFolder_append, getTargetGatewayFolder_append, String.append_right_inj] at h
  exact step_inj hname.2.1 hname'.2.1 h

theorem gateways_below {name other : String}
    (h : isBelow (getTargetGatewayFolder name) other = true) :
    isBelow "gateways/" other = true := by
  obtain ⟨rest, rfl⟩ := isBelow_iff.mp h
  rw [getTargetGatewayFolder_append]
  exact isBelow_append _ _

theorem gateways_not_nodes {folder : String} (hfolder : folder.toList.head? = some 'n')
    (other : String) : isBelow folder ("gateways/" ++ other) = false := by
  rw [Bool.eq_false_iff]
  intro hbelow
  obtain ⟨rest, hrest⟩ := isBelow_iff.mp hbelow
  have hhead := congrArg (fun text => text.toList.head?) hrest
  simp only [String.toList_append, List.head?_append, hfolder] at hhead
  cases hhead

/-- What is written below the gateways is not among the files of the nodes. -/
theorem not_below_of_gateways {folder other : String} (hfolder : folder.toList.head? = some 'n')
    (h : isBelow "gateways/" other = true) : isBelow folder other = false := by
  obtain ⟨rest, rfl⟩ := isBelow_iff.mp h
  exact gateways_not_nodes hfolder rest

theorem head_resourcesFolder (node : String) : (resourcesFolder node).toList.head? = some 'n' := by
  simp only [resourcesFolder, String.toList_append, List.append_assoc]
  rfl

theorem head_certFolder (node : String) : (certFolder node).toList.head? = some 'n' := by
  simp only [certFolder, String.toList_append, List.append_assoc]
  rfl

/-- The entries of a gateway's folder that stay when it is cleaned up. -/
def sslFiles (preset : Gateways) : List String :=
  [preset.restSSLKeyFileName, preset.restSSLCertificateFileName]

/-- The names of the SSL files are entries of their own. -/
structure SSLNames (preset : Gateways) : Prop where
  step : ∀ name ∈ sslFiles preset, IsStep name
  apart : ∀ name ∈ sslFiles preset, name ≠ "rest.json" ∧ name ≠ "api-node-config"

theorem isExcluded_iff {excluded : List String} {rest : String} :
    isExcluded excluded rest = true ↔
      ∃ entry ∈ excluded, rest = entry ∨ ∃ inner, rest = entry ++ "/" ++ inner := by
  simp only [isExcluded, List.any_eq_true, Bool.or_eq_true, decide_eq_true_eq, isBelow_iff]

variable {preset : Gateways}

theorem rest_not_excluded (h : SSLNames preset) :
    isExcluded (sslFiles preset) "rest.json" = false := by
  rw [Bool.eq_false_iff]
  intro hexcluded
  obtain ⟨entry, hentry, hsame | ⟨inner, hinner⟩⟩ := isExcluded_iff.mp hexcluded
  · exact (h.apart entry hentry).1 hsame.symm
  · have hslash : '/' ∈ (entry ++ "/" ++ inner).toList := by
      simp only [String.toList_append, List.mem_append]
      exact .inl (.inr (by decide))
    rw [← hinner] at hslash
    exact absurd hslash (by decide)

theorem node_not_excluded (h : SSLNames preset) (rest : String) :
    isExcluded (sslFiles preset) ("api-node-config" ++ "/" ++ rest) = false := by
  rw [Bool.eq_false_iff]
  intro hexcluded
  obtain ⟨entry, hentry, hsame | ⟨inner, hinner⟩⟩ := isExcluded_iff.mp hexcluded
  · apply (h.step entry hentry).2.1
    rw [← hsame]
    simp only [String.toList_append, List.mem_append]
    exact .inl (.inr (by decide))
  · exact (h.apart entry hentry).2
      (step_inj (by decide) (h.step entry hentry).2.1 hinner).1.symm

end Places

section Cleaning

variable {start : Target} {preset : Gateways} {gateway : GatewayPreset} {name : String}
  {now events : List (Change Entry)}

theorem keeps_deletionsExcept {folder rest : String} {excluded : List String} :
    ((below folder (folder ++ rest)).map fun inner => !isExcluded excluded inner).getD false =
      !isExcluded excluded rest := by
  rw [below_eq_some.mpr rfl]
  rfl

theorem mem_deletionsExcept {folder : String} {excluded : List String} {target : Target}
    {change : Change Entry} (h : change ∈ deletionsExcept folder excluded target) :
    ∃ rest, change = .remove (folder ++ rest) ∧ isExcluded excluded rest = false := by
  obtain ⟨other, hother, rfl⟩ := List.mem_map.mp h
  have hkeeps := (List.mem_filter.mp hother).2
  cases hbelow : below folder other with
  | none =>
    rw [hbelow] at hkeeps
    cases hkeeps
  | some rest =>
    obtain rfl := below_eq_some.mp hbelow
    rw [keeps_deletionsExcept, Bool.not_eq_true'] at hkeeps
    exact ⟨rest, rfl, hkeeps⟩

/-- Of what is not excluded nothing is left. -/
theorem get_deletionsExcept {folder rest : String} {excluded : List String} {target : Target}
    (h : isExcluded excluded rest = false) :
    (after target (deletionsExcept folder excluded target)).get (folder ++ rest) = none := by
  rw [deletionsExcept, get_after_removed, ite_eq_left_iff]
  intro hname
  refine Option.eq_none_iff_forall_ne_some.mpr fun value hvalue => hname ?_
  refine List.mem_filter.mpr ⟨Record.mem_names_iff.mpr ⟨value, hvalue⟩, ?_⟩
  rw [keeps_deletionsExcept, h]
  rfl

theorem cleanUpGateway_run (hname : gateway.name = some name) :
    cleanUpGateway start preset gateway now =
      (deletionsExcept (getTargetGatewayFolder name) (sslFiles preset) (after start now),
        .ok ()) := by
  rw [cleanUpGateway, hname]
  simp only
  rw [run_bind_current]
  have hemit : (forEach (deletionsExcept (getTargetGatewayFolder name) (sslFiles preset)
      (after start now)) fun change => emit (id change) : Changing Unit) now =
      ((deletionsExcept (getTargetGatewayFolder name) (sslFiles preset)
        (after start now)).map id, .ok ()) :=
    forEach_emit _ _
  rw [List.map_id] at hemit
  exact hemit

/-- The names of the gateways and of their nodes are steps of paths, each of one gateway. -/
structure NamedGateways (preset : Gateways) : Prop where
  name : ∀ gateway ∈ preset.gateways, ∀ name, gateway.name = some name → IsStep name ∧ Plain name
  node : ∀ gateway ∈ preset.gateways, ∀ node, gateway.apiNodeName = some node → IsStep node
  distinct : (preset.gateways.map fun gateway => gateway.name).Nodup

variable (preset) in
/-- A removal that leaves the SSL files of every gateway. -/
def LeavesSSL (change : Change Entry) : Prop :=
  IsRemoval change ∧ ∀ name rest, IsStep name →
    change.name = getTargetGatewayFolder name ++ rest → isExcluded (sslFiles preset) rest = false

theorem cleanUpGateway_leaves (hnames : NamedGateways preset)
    (hgateway : gateway ∈ preset.gateways) :
    Emits (LeavesSSL preset) (cleanUpGateway start preset gateway) := by
  cases hname : gateway.name with
  | none =>
    rw [cleanUpGateway, hname]
    exact .stop
  | some name =>
    intro now change hchange
    rw [cleanUpGateway_run hname] at hchange
    obtain ⟨rest, rfl, hrest⟩ := mem_deletionsExcept hchange
    refine ⟨⟨_, rfl⟩, fun name' rest' hname' hsame => ?_⟩
    have hstep := (hnames.name gateway hgateway name hname).1
    obtain ⟨-, rfl⟩ := getTargetGatewayFolder_inj hstep hname' hsame
    exact hrest

variable (start preset) in
/-- Only the SSL files of a gateway are left, as they were. -/
structure Cleaned (name : String) (now : List (Change Entry)) : Prop where
  others : ∀ rest, isExcluded (sslFiles preset) rest = false →
    (after start now).get (getTargetGatewayFolder name ++ rest) = none
  ssl : ∀ rest, isExcluded (sslFiles preset) rest = true →
    (after start now).get (getTargetGatewayFolder name ++ rest) =
      start.get (getTargetGatewayFolder name ++ rest)

theorem cleanUpGateways_returns (hnames : NamedGateways preset)
    (h : cleanUpGateways start preset [] = (events, .ok ())) :
    ∀ gateway ∈ preset.gateways, ∃ name, gateway.name = some name ∧
      Cleaned start preset name events := by
  have hemits : ∀ gateway ∈ preset.gateways,
      Emits (LeavesSSL preset) (cleanUpGateway start preset gateway) :=
    fun gateway hgateway => cleanUpGateway_leaves hnames hgateway
  have hleaves : ∀ change ∈ events, LeavesSSL preset change := by
    have hall := Emits.forEach hemits []
    rw [show forEach preset.gateways (cleanUpGateway start preset) [] = (events, .ok ()) from h]
      at hall
    exact hall
  have hempty := forEach_returns (K := LeavesSSL preset)
    (P := fun (gateway : GatewayPreset) now => ∃ name, gateway.name = some name ∧
      ∀ rest, isExcluded (sslFiles preset) rest = false →
        (after start now).get (getTargetGatewayFolder name ++ rest) = none)
    hemits ?_ ?_ h
  · intro gateway hgateway
    obtain ⟨name, hname, hothers⟩ := hempty gateway hgateway
    refine ⟨name, hname, hothers, fun rest hrest => ?_⟩
    refine get_after_other fun change hchange hsame => ?_
    have hstep := (hnames.name gateway hgateway name hname).1
    rw [(hleaves change hchange).2 name rest hstep hsame] at hrest
    cases hrest
  · intro gateway _ now events hrun
    cases hname : gateway.name with
    | none =>
      rw [cleanUpGateway, hname] at hrun
      cases hrun
    | some name =>
      refine ⟨name, rfl, fun rest hrest => ?_⟩
      rw [cleanUpGateway_run hname] at hrun
      cases hrun
      rw [after_append, get_deletionsExcept hrest]
  · intro gateway now change hthere hchange
    obtain ⟨name, hname, hothers⟩ := hthere
    exact ⟨name, hname, fun rest hrest => none_removed (hothers rest hrest) hchange.1⟩

end Cleaning

section Copying

variable {surroundings : Surroundings} {start : Target} {now events : List (Change Entry)}
  {folder copyTo : String} {includeFiles : List String}

/-- Some of the files of a folder are written to another, by their names. -/
def Copied (target : Target) (folder copyTo : String) (includeFiles : List String)
    (events : List (Change Entry)) : Prop :=
  ∀ change, change ∈ events ↔ ∃ rest value, target.get (folder ++ rest) = some value ∧
    basename rest ∈ includeFiles ∧ change = .write (copyTo ++ rest) value

theorem mem_filesBelow {target : Target} {rest : String} {value : Entry} :
    (rest, value) ∈ filesBelow folder target ↔ target.get (folder ++ rest) = some value := by
  rw [filesBelow, List.mem_filterMap]
  constructor
  · rintro ⟨⟨name, value'⟩, hentry, hsame⟩
    obtain ⟨rest', hrest, heq⟩ := Option.map_eq_some_iff.mp hsame
    obtain ⟨rfl, rfl⟩ := Prod.mk.inj heq
    obtain rfl := below_eq_some.mp hrest
    exact Record.mem_entries_iff.mp hentry
  · intro hvalue
    refine ⟨(folder ++ rest, value), Record.mem_entries_iff.mpr hvalue, ?_⟩
    rw [below_eq_some.mpr rfl]
    rfl

theorem copyFolder_returns (hinclude : includeFiles ≠ [])
    (hplain : ∀ rest value, (after start now).get (folder ++ rest) = some value → Plain rest)
    (hdestination : ∀ rest, Plain rest → destination (copyTo ++ rest) = copyTo ++ rest)
    (hbasename : ∀ rest, basename (copyTo ++ rest) = basename rest)
    (h : copyFolder surroundings start folder copyTo includeFiles now = (events, .ok ())) :
    Copied (after start now) folder copyTo includeFiles events := by
  rw [copyFolder, run_bind_current] at h
  split at h
  · cases h
  · set files := surroundings.order (filesBelow folder (after start now)) with hfiles
    have hmem : ∀ file : String × Entry, file ∈ files ↔
        (after start now).get (folder ++ file.1) = some file.2 := fun file =>
      (surroundings.order_perm _).mem_iff.trans mem_filesBelow
    -- no file is a template, so each is copied or passed over
    have hrun : generateConfiguration surroundings none (filesBelow folder (after start now)) copyTo
        includeFiles = forEach files fun file =>
          if basename file.1 ∈ includeFiles then emit (.write (copyTo ++ file.1) file.2)
          else pure () := by
      refine forEach_congr fun file hfile => ?_
      have hfilePlain := hplain file.1 file.2 ((hmem file).mp hfile)
      obtain ⟨rest, value⟩ := file
      simp only
      rw [hdestination rest hfilePlain, hbasename]
      simp only [hinclude, false_or]
      have hnot : ¬ contains (basename rest) ".mustache" = true := by
        rw [plain_basename hfilePlain]
        exact Bool.false_ne_true
      rw [if_neg hnot]
    rw [hrun, forEach_emit_if] at h
    obtain ⟨rfl, -⟩ := Prod.mk.inj h
    intro change
    rw [List.mem_map]
    constructor
    · rintro ⟨file, hfile, rfl⟩
      obtain ⟨hin, hincluded⟩ := List.mem_filter.mp hfile
      exact ⟨file.1, file.2, (hmem file).mp hin, of_decide_eq_true hincluded, rfl⟩
    · rintro ⟨rest, value, hvalue, hincluded, rfl⟩
      exact ⟨(rest, value),
        List.mem_filter.mpr ⟨(hmem _).mpr hvalue, decide_eq_true hincluded⟩, rfl⟩

/-- What is there after a copy: the file that is copied, or what was there. -/
theorem Copied.get {target : Target} (h : Copied target folder copyTo includeFiles events)
    (rest : String) : (after target events).get (copyTo ++ rest) =
      if basename rest ∈ includeFiles then
        (target.get (folder ++ rest)).or (target.get (copyTo ++ rest))
      else target.get (copyTo ++ rest) := by
  have hsame : ∀ change ∈ events, change.name = copyTo ++ rest →
      basename rest ∈ includeFiles ∧ ∃ value, target.get (folder ++ rest) = some value ∧
        change.value = some value := by
    intro change hchange hname
    obtain ⟨rest', value, hvalue, hincluded, rfl⟩ := (h change).mp hchange
    obtain rfl := (String.append_right_inj copyTo).mp hname
    exact ⟨hincluded, value, hvalue, rfl⟩
  by_cases hincluded : basename rest ∈ includeFiles
  · rw [if_pos hincluded]
    cases hvalue : target.get (folder ++ rest) with
    | none =>
      rw [Option.none_or]
      refine get_after_other fun change hchange hname => ?_
      obtain ⟨-, value, hthere, -⟩ := hsame change hchange hname
      rw [hvalue] at hthere
      cases hthere
    | some value =>
      rw [Option.some_or]
      refine get_after_agreeing (fun change hchange hname => ?_)
        ⟨_, (h _).mpr ⟨rest, value, hvalue, hincluded, rfl⟩, rfl⟩
      obtain ⟨-, value', hthere, hsome⟩ := hsame change hchange hname
      rw [hvalue] at hthere
      rw [hsome, hthere]
  · rw [if_neg hincluded]
    exact get_after_other fun change hchange hname => hincluded (hsame change hchange hname).1

end Copying

section Rounds

variable {surroundings : Surroundings} {start : Target} {preset : Gateways}
  {gateway : GatewayPreset} {name node : String} {index : ℕ} {now events : List (Change Entry)}

/-- The SSL files that a preset gives a gateway. -/
def givenSSL (gateway : GatewayPreset) : Option (String × String) :=
  if gateway.restProtocol = some "HTTPS" then
    match given gateway.restSSLKeyBase64, given gateway.restSSLCertificateBase64 with
    | some key, some certificate => some (key, certificate)
    | _, _ => none
  else none

variable (surroundings preset) in
/-- The SSL files that are written. -/
def sslChanges (gateway : GatewayPreset) (moveTo : String) : List (Change Entry) :=
  match givenSSL gateway with
  | some (key, certificate) =>
      [.write (moveTo ++ preset.restSSLKeyFileName) (surroundings.fromBase64 key),
        .write (moveTo ++ preset.restSSLCertificateFileName) (surroundings.fromBase64 certificate)]
  | none => []

variable (preset) in
def HasSSL (moveTo : String) (target : Target) : Prop :=
  ∃ name ∈ sslFiles preset, (target.get (moveTo ++ name)).isSome = true

theorem provideSSL_returns {moveTo : String}
    (h : provideSSL surroundings start preset gateway moveTo now = (events, .ok ())) :
    events = sslChanges surroundings preset gateway moveTo ∧
    (gateway.restProtocol = some "HTTPS" → HasSSL preset moveTo (after start (now ++ events))) := by
  unfold provideSSL at h
  unfold sslChanges givenSSL
  by_cases hprotocol : gateway.restProtocol = some "HTTPS"
  · rw [if_pos hprotocol, run_bind_current] at h
    rw [if_pos hprotocol]
    have hreuse : ∀ {stopped : String} {events : List (Change Entry)},
        (if ((after start now).get (moveTo ++ preset.restSSLKeyFileName)).isNone &&
            ((after start now).get (moveTo ++ preset.restSSLCertificateFileName)).isNone then
          stop stopped else pure () : Changing Unit) now = (events, .ok ()) →
        events = [] ∧ HasSSL preset moveTo (after start (now ++ events)) := by
      intro stopped events hrun
      split at hrun
      · cases hrun
      · rename_i hthere
        cases hrun
        refine ⟨rfl, ?_⟩
        rw [List.append_nil]
        rw [Bool.and_eq_true, not_and_or, Bool.not_eq_true, Bool.not_eq_true,
          Option.isNone_eq_false_iff, Option.isNone_eq_false_iff] at hthere
        rcases hthere with hkey | hcertificate
        · exact ⟨_, List.mem_cons_self, hkey⟩
        · exact ⟨_, List.mem_cons_of_mem _ List.mem_cons_self, hcertificate⟩
    cases hkey : given gateway.restSSLKeyBase64 with
    | none =>
      rw [hkey] at h
      obtain ⟨hnone, hthere⟩ := hreuse h
      exact ⟨hnone, fun _ => hthere⟩
    | some key =>
      cases hcertificate : given gateway.restSSLCertificateBase64 with
      | none =>
        rw [hkey, hcertificate] at h
        obtain ⟨hnone, hthere⟩ := hreuse h
        exact ⟨hnone, fun _ => hthere⟩
      | some certificate =>
        rw [hkey, hcertificate] at h
        cases h
        refine ⟨rfl, fun _ => ⟨_, List.mem_cons_of_mem _ List.mem_cons_self, ?_⟩⟩
        rw [← List.append_assoc, after_concat, get_apply, if_pos (by rfl)]
        rfl
  · rw [if_neg hprotocol] at h
    rw [if_neg hprotocol]
    cases h
    exact ⟨rfl, fun hhttps => absurd hhttps hprotocol⟩

theorem destination_gateway (hname : Plain name) (rest : String) :
    destination (getTargetGatewayFolder name ++ rest) =
      getTargetGatewayFolder name ++ destination rest := by
  have hgateways : Plain "gateways" := by
    unfold Plain
    decide
  rw [getTargetGatewayFolder_append, getTargetGatewayFolder_append,
    show "gateways/" = "gateways" ++ "/" from rfl, destination_step hgateways,
    destination_step hname]

theorem basename_gateway (rest : String) :
    basename (getTargetGatewayFolder name ++ rest) = basename rest :=
  basename_step ("gateways/" ++ name) rest

/-- The bundled template is rendered and written. -/
theorem generateRest_returns (hname : Plain name)
    (h : generateConfiguration surroundings (some gateway)
      [("rest.json.mustache", surroundings.restTemplate)] (getTargetGatewayFolder name) [] now =
        (events, .ok ())) :
    ∃ rendered formatted,
      surroundings.runTemplate (some gateway) surroundings.restTemplate = .ok rendered ∧
        surroundings.formatJson rendered = .ok formatted ∧
        events = [.write (getTargetGatewayFolder name ++ "rest.json") formatted] := by
  have horder := List.perm_singleton.mp
    (surroundings.order_perm [("rest.json.mustache", surroundings.restTemplate)])
  have hdestination : destination (getTargetGatewayFolder name ++ "rest.json.mustache") =
      getTargetGatewayFolder name ++ "rest.json" := by
    rw [destination_gateway hname]
    exact congrArg _ (by decide)
  have hjson :
      endsWith (toLowerCase (getTargetGatewayFolder name ++ "rest.json")) ".json" = true := by
    rw [toLowerCase_append, endsWith, List.isSuffixOf_iff_suffix, String.toList_append]
    exact List.IsSuffix.trans (by decide) (List.suffix_append _ (toLowerCase "rest.json").toList)
  rw [generateConfiguration, horder] at h
  obtain ⟨written, ⟨⟩, later, hwritten, hlater, rfl⟩ := run_bind_returns.mp h
  cases hlater
  simp only [hdestination, true_or, if_true] at hwritten
  rw [if_pos (show contains (basename "rest.json.mustache") ".mustache" = true by decide),
    run_bind_lift_returns] at hwritten
  obtain ⟨rendered, hrendered, hwritten⟩ := hwritten
  rw [if_pos hjson, run_bind_lift_returns] at hwritten
  obtain ⟨formatted, hformatted, hwritten⟩ := hwritten
  cases hwritten
  exact ⟨rendered, formatted, hrendered, hformatted, rfl⟩

variable (surroundings preset) in
/-- An SSL file of a gateway: given with its preset, or as it was. -/
def sslFile (gateway : GatewayPreset) (was : Option Entry) (rest : String) : Option Entry :=
  match givenSSL gateway with
  | some (key, certificate) =>
      if rest = preset.restSSLCertificateFileName then some (surroundings.fromBase64 certificate)
      else if rest = preset.restSSLKeyFileName then some (surroundings.fromBase64 key)
      else was
  | none => was

/-- The file of a node that a gateway has. -/
def nodeFile (node : String) (target : Target) (rest : String) : Option Entry :=
  if basename rest ∈ propertiesFiles then target.get (resourcesFolder node ++ rest)
  else if basename rest ∈ certFiles then
    (below "cert/" rest).bind fun inner => target.get (certFolder node ++ inner)
  else none

/-- The files of a node that its gateways read are the same. -/
def SameNode (node : String) (target target' : Target) : Prop :=
  ∀ folder ∈ [resourcesFolder node, certFolder node], ∀ rest,
    target'.get (folder ++ rest) = target.get (folder ++ rest)

theorem sameNode_after (hevents : ∀ change ∈ events,
      isBelow (resourcesFolder node) change.name = false ∧
        isBelow (certFolder node) change.name = false) :
    SameNode node (after start now) (after start (now ++ events)) := by
  intro folder hfolder
  refine get_beside start now fun change hchange => ?_
  simp only [List.mem_cons, List.not_mem_nil, or_false] at hfolder
  rcases hfolder with rfl | rfl
  · exact (hevents change hchange).1
  · exact (hevents change hchange).2

theorem nodes_beside_gateways {other : String} (h : isBelow "gateways/" other = true) :
    isBelow (resourcesFolder node) other = false ∧ isBelow (certFolder node) other = false :=
  ⟨not_below_of_gateways (head_resourcesFolder node) h,
    not_below_of_gateways (head_certFolder node) h⟩

theorem sameNode_gateways (hevents : ∀ change ∈ events, isBelow "gateways/" change.name = true) :
    SameNode node (after start now) (after start (now ++ events)) :=
  sameNode_after fun change hchange => nodes_beside_gateways (hevents change hchange)

theorem SameNode.nodeFile {target target' : Target} (h : SameNode node target target')
    (rest : String) : nodeFile node target' rest = nodeFile node target rest := by
  have hresources := h (resourcesFolder node) List.mem_cons_self
  have hcert := h (certFolder node) (List.mem_cons_of_mem _ List.mem_cons_self)
  simp only [GatewayFiles.nodeFile, hresources, hcert]

/-- No file of a node that a gateway reads is named like a template. -/
def PlainFiles (node : String) (target : Target) : Prop :=
  ∀ folder ∈ [resourcesFolder node, certFolder node], ∀ rest value,
    target.get (folder ++ rest) = some value → Plain rest

theorem SameNode.plainFiles {target target' : Target} (h : SameNode node target target') :
    PlainFiles node target ↔ PlainFiles node target' := by
  constructor
  · intro hplain folder hfolder rest value hvalue
    rw [h folder hfolder] at hvalue
    exact hplain folder hfolder rest value hvalue
  · intro hplain folder hfolder rest value hvalue
    rw [← h folder hfolder] at hvalue
    exact hplain folder hfolder rest value hvalue

variable (surroundings start preset) in
/-- What the folder of a gateway holds: its rendered configuration, files of its node, the SSL
files, and nothing else. -/
structure GatewayHolds (gateway : GatewayPreset) (name node : String) (target : Target) : Prop where
  rest : ∃ rendered formatted,
    surroundings.runTemplate (some gateway) surroundings.restTemplate = .ok rendered ∧
      surroundings.formatJson rendered = .ok formatted ∧
      target.get (getTargetGatewayFolder name ++ "rest.json") = some formatted
  node : ∀ rest, target.get (getTargetGatewayFolder name ++ ("api-node-config" ++ "/" ++ rest)) =
    nodeFile node target rest
  ssl : ∀ rest, isExcluded (sslFiles preset) rest = true →
    target.get (getTargetGatewayFolder name ++ rest) =
      sslFile surroundings preset gateway (start.get (getTargetGatewayFolder name ++ rest)) rest
  there : gateway.restProtocol = some "HTTPS" →
    HasSSL preset (getTargetGatewayFolder name) target
  others : ∀ rest, rest ≠ "rest.json" → isExcluded (sslFiles preset) rest = false →
    isBelow "api-node-config/" rest = false →
    target.get (getTargetGatewayFolder name ++ rest) = none

/-- What a gateway holds is kept by changes that are not of its folder or its node's. -/
theorem GatewayHolds.kept {target : Target}
    (h : GatewayHolds surroundings start preset gateway name node target)
    (hgateway : ∀ change ∈ events, isBelow (getTargetGatewayFolder name) change.name = false)
    (hnode : ∀ change ∈ events, isBelow (resourcesFolder node) change.name = false ∧
      isBelow (certFolder node) change.name = false) :
    GatewayHolds surroundings start preset gateway name node (after target events) := by
  have hsame : ∀ rest, (after target events).get (getTargetGatewayFolder name ++ rest) =
      target.get (getTargetGatewayFolder name ++ rest) :=
    get_beside target [] hgateway
  have hfromNothing : SameNode node (after target []) (after target ([] ++ events)) :=
    sameNode_after hnode
  have hsameNode : SameNode node target (after target events) := hfromNothing
  constructor
  · obtain ⟨rendered, formatted, hrendered, hformatted, hrest⟩ := h.rest
    exact ⟨rendered, formatted, hrendered, hformatted, by rw [hsame, hrest]⟩
  · intro rest
    rw [hsame, h.node, hsameNode.nodeFile]
  · intro rest hrest
    rw [hsame, h.ssl rest hrest]
  · intro hprotocol
    obtain ⟨file, hfile, hthere⟩ := h.there hprotocol
    exact ⟨file, hfile, by rw [hsame]; exact hthere⟩
  · intro rest hrest hssl hnodes
    rw [hsame, h.others rest hrest hssl hnodes]

theorem generateGateway_returns (hname : gateway.name = some name) (hstep : IsStep name)
    (hplain : Plain name)
    (h : generateGateway surroundings start preset gateway index now = (events, .ok ())) :
    ∃ node rendered formatted resources certs ssl, gateway.apiNodeName = some node ∧
      surroundings.runTemplate (some gateway) surroundings.restTemplate = .ok rendered ∧
      surroundings.formatJson rendered = .ok formatted ∧
      copyFolder surroundings start (resourcesFolder node)
        (getTargetGatewayFolder name ++ "api-node-config/") propertiesFiles
        (now ++ [.write (getTargetGatewayFolder name ++ "rest.json") formatted]) =
          (resources, .ok ()) ∧
      copyFolder surroundings start (certFolder node)
        (getTargetGatewayFolder name ++ "api-node-config/cert/") certFiles
        (now ++ [.write (getTargetGatewayFolder name ++ "rest.json") formatted] ++ resources) =
          (certs, .ok ()) ∧
      provideSSL surroundings start preset gateway (getTargetGatewayFolder name)
        (now ++ [.write (getTargetGatewayFolder name ++ "rest.json") formatted] ++ resources ++
          certs) = (ssl, .ok ()) ∧
      events = .write (getTargetGatewayFolder name ++ "rest.json") formatted ::
        (resources ++ (certs ++ ssl)) := by
  rw [generateGateway, hname, given_some hstep.1, Option.getD_some] at h
  obtain ⟨first, ⟨⟩, rest, hrest, hnode, rfl⟩ := run_bind_returns.mp h
  obtain ⟨rendered, formatted, hrendered, hformatted, rfl⟩ := generateRest_returns hplain hrest
  cases hapi : gateway.apiNodeName with
  | none =>
    rw [hapi] at hnode
    cases hnode
  | some node =>
    rw [hapi] at hnode
    obtain ⟨resources, ⟨⟩, rest', hresources, hcopying, rfl⟩ := run_bind_returns.mp hnode
    obtain ⟨certs, ⟨⟩, ssl, hcerts, hssl, rfl⟩ := run_bind_returns.mp hcopying
    exact ⟨node, rendered, formatted, resources, certs, ssl, rfl, hrendered, hformatted, hresources,
      hcerts, hssl, rfl⟩

theorem nodeFolder_append (name rest : String) :
    getTargetGatewayFolder name ++ "api-node-config/" ++ rest =
      getTargetGatewayFolder name ++ ("api-node-config" ++ "/" ++ rest) := by
  rw [String.append_assoc]
  rfl

theorem certFolder_append (name rest : String) :
    getTargetGatewayFolder name ++ "api-node-config/cert/" ++ rest =
      getTargetGatewayFolder name ++ ("api-node-config" ++ "/" ++ ("cert/" ++ rest)) := by
  rw [String.append_assoc, String.append_right_inj, show "api-node-config/cert/" =
    "api-node-config" ++ "/" ++ "cert/" from rfl, String.append_assoc]

theorem plain_of_decide {text : String} (h : contains text ".mustache" = false) : Plain text := h

theorem destination_nodeFolder (hname : Plain name) {rest : String} (hrest : Plain rest) :
    destination (getTargetGatewayFolder name ++ "api-node-config/" ++ rest) =
      getTargetGatewayFolder name ++ "api-node-config/" ++ rest := by
  rw [nodeFolder_append, destination_gateway hname,
    destination_step (plain_of_decide (by decide)), destination_of_plain hrest]

theorem destination_certFolder (hname : Plain name) {rest : String} (hrest : Plain rest) :
    destination (getTargetGatewayFolder name ++ "api-node-config/cert/" ++ rest) =
      getTargetGatewayFolder name ++ "api-node-config/cert/" ++ rest := by
  rw [certFolder_append, destination_gateway hname,
    destination_step (plain_of_decide (by decide)), show "cert/" = "cert" ++ "/" from rfl,
    destination_step (plain_of_decide (by decide)), destination_of_plain hrest]

/-- The files that a round copies to the folder of a gateway. -/
structure CopiedNode (name node : String) (target : Target)
    (resources certs : List (Change Entry)) : Prop where
  ofResources : Copied target (resourcesFolder node)
    (getTargetGatewayFolder name ++ "api-node-config/") propertiesFiles resources
  ofCerts : Copied (after target resources) (certFolder node)
    (getTargetGatewayFolder name ++ "api-node-config/cert/") certFiles certs

theorem CopiedNode.resources_name {target : Target} {resources certs : List (Change Entry)}
    (h : CopiedNode name node target resources certs) {change : Change Entry}
    (hchange : change ∈ resources) : ∃ rest, change.name =
      getTargetGatewayFolder name ++ ("api-node-config" ++ "/" ++ rest) := by
  obtain ⟨rest, value, -, -, rfl⟩ := (h.ofResources change).mp hchange
  exact ⟨rest, nodeFolder_append name rest⟩

theorem CopiedNode.certs_name {target : Target} {resources certs : List (Change Entry)}
    (h : CopiedNode name node target resources certs) {change : Change Entry}
    (hchange : change ∈ certs) : ∃ rest, change.name =
      getTargetGatewayFolder name ++ ("api-node-config" ++ "/" ++ ("cert/" ++ rest)) := by
  obtain ⟨rest, value, -, -, rfl⟩ := (h.ofCerts change).mp hchange
  exact ⟨rest, certFolder_append name rest⟩

theorem propertiesFiles_not_cert : ∀ file ∈ propertiesFiles, file ∉ certFiles := by
  decide

/-- What a gateway has of its node, once both folders are copied to it. -/
theorem CopiedNode.get {target : Target} {resources certs : List (Change Entry)}
    (h : CopiedNode name node target resources certs)
    (hempty : ∀ rest,
      target.get (getTargetGatewayFolder name ++ ("api-node-config" ++ "/" ++ rest)) = none)
    (rest : String) :
    (after (after target resources) certs).get
      (getTargetGatewayFolder name ++ ("api-node-config" ++ "/" ++ rest)) =
      nodeFile node target rest := by
  have hcopied : ∀ rest, (after target resources).get
      (getTargetGatewayFolder name ++ ("api-node-config" ++ "/" ++ rest)) =
        if basename rest ∈ propertiesFiles then target.get (resourcesFolder node ++ rest)
        else none := by
    intro rest
    rw [← nodeFolder_append, h.ofResources.get, nodeFolder_append, hempty, Option.or_none]
  have hcert : ∀ inner, (after target resources).get (certFolder node ++ inner) =
      target.get (certFolder node ++ inner) := by
    refine get_beside target [] fun change hchange => ?_
    obtain ⟨rest, hname⟩ := h.resources_name hchange
    rw [hname]
    exact (nodes_beside_gateways (gateways_below (isBelow_append _ _))).2
  rw [nodeFile]
  cases hbelow : below "cert/" rest with
  | none =>
    have hother : ∀ change ∈ certs, change.name ≠
        getTargetGatewayFolder name ++ ("api-node-config" ++ "/" ++ rest) := by
      intro change hchange hname
      obtain ⟨inner, hinner⟩ := h.certs_name hchange
      rw [hinner, String.append_right_inj, String.append_right_inj] at hname
      rw [below_eq_some.mpr hname.symm] at hbelow
      cases hbelow
    rw [get_after_other hother, hcopied, Option.bind_none, ite_self]
  | some inner =>
    obtain rfl := below_eq_some.mp hbelow
    have hbasename : basename ("cert/" ++ inner) = basename inner := basename_step "cert" inner
    rw [← certFolder_append, h.ofCerts.get, certFolder_append, hcopied, hcert, hbasename,
      Option.bind_some]
    by_cases hproperties : basename inner ∈ propertiesFiles
    · rw [if_neg (propertiesFiles_not_cert _ hproperties), if_pos hproperties, if_pos hproperties]
    · rw [if_neg hproperties, if_neg hproperties, Option.or_none]

/-- The SSL files after they are provided. -/
theorem get_sslChanges {moveTo : String} {target : Target} (rest : String) :
    (after target (sslChanges surroundings preset gateway moveTo)).get (moveTo ++ rest) =
      sslFile surroundings preset gateway (target.get (moveTo ++ rest)) rest := by
  unfold sslFile sslChanges
  cases givenSSL gateway with
  | none => rfl
  | some both =>
    simp only [after, List.foldl_cons, List.foldl_nil, get_apply, Change.name, Change.value,
      String.append_right_inj, eq_comm (b := rest)]

theorem generateConfiguration_below {context : Option GatewayPreset}
    {files : List (String × Entry)} {copyTo folder : String} {includeFiles : List String}
    (h : ∀ rest, isBelow folder (destination (copyTo ++ rest)) = true) :
    Emits (fun change => isBelow folder change.name = true)
      (generateConfiguration surroundings context files copyTo includeFiles) := by
  refine .forEach fun file _ => ?_
  obtain ⟨rest, content⟩ := file
  dsimp only
  split
  · split
    · refine .bindLift fun rendered _ => ?_
      split
      · exact .bindLift fun formatted _ => Emits.emit (h rest)
      · exact Emits.emit (h rest)
    · exact Emits.emit (h rest)
  · exact .pure

theorem copyFolder_below {folder copyTo target : String} {includeFiles : List String}
    (h : ∀ rest, isBelow target (destination (copyTo ++ rest)) = true) :
    Emits (fun change => isBelow target change.name = true)
      (copyFolder surroundings start folder copyTo includeFiles) := by
  refine emits_current fun now => ?_
  dsimp only
  split
  · exact .stop
  · exact generateConfiguration_below h

theorem provideSSL_below {moveTo : String} :
    Emits (fun change => isBelow moveTo change.name = true)
      (provideSSL surroundings start preset gateway moveTo) := by
  unfold provideSSL
  split
  · refine emits_current fun now => ?_
    split
    · exact .bind (Emits.emit (isBelow_append _ _)) fun _ => Emits.emit (isBelow_append _ _)
    · split
      · exact .stop
      · exact .pure
  · exact .pure

/-- A round changes the folder of its gateway alone. -/
theorem generateGateway_below (hname : gateway.name = some name) (hstep : IsStep name)
    (hplain : Plain name) :
    Emits (fun change => isBelow (getTargetGatewayFolder name) change.name = true)
      (generateGateway surroundings start preset gateway index) := by
  have hbelow : ∀ rest, isBelow (getTargetGatewayFolder name)
      (destination (getTargetGatewayFolder name ++ rest)) = true := by
    intro rest
    rw [destination_gateway hplain]
    exact isBelow_append _ _
  rw [generateGateway, hname, given_some hstep.1, Option.getD_some]
  refine .bind (generateConfiguration_below hbelow) fun _ => ?_
  split
  · exact .stop
  · refine .bind (copyFolder_below fun rest => ?_) fun _ =>
      .bind (copyFolder_below fun rest => ?_) fun _ => provideSSL_below
    · rw [String.append_assoc]
      exact hbelow _
    · rw [String.append_assoc]
      exact hbelow _

/-- Beside what is copied all is as it was. -/
theorem CopiedNode.get_other {target : Target} {resources certs : List (Change Entry)}
    (h : CopiedNode name node target resources certs) {rest : String}
    (hrest : ∀ inner, rest ≠ "api-node-config" ++ "/" ++ inner) :
    (after (after target resources) certs).get (getTargetGatewayFolder name ++ rest) =
      target.get (getTargetGatewayFolder name ++ rest) := by
  rw [get_after_other, get_after_other]
  · intro change hchange hsame
    obtain ⟨inner, hinner⟩ := h.resources_name hchange
    rw [hinner, String.append_right_inj] at hsame
    exact hrest inner hsame.symm
  · intro change hchange hsame
    obtain ⟨inner, hinner⟩ := h.certs_name hchange
    rw [hinner, String.append_right_inj] at hsame
    exact hrest ("cert/" ++ inner) hsame.symm

theorem copiedNode_returns {resources certs : List (Change Entry)} (hplain : Plain name)
    (hfiles : PlainFiles node (after start now))
    (hresources : copyFolder surroundings start (resourcesFolder node)
      (getTargetGatewayFolder name ++ "api-node-config/") propertiesFiles now =
        (resources, .ok ()))
    (hcerts : copyFolder surroundings start (certFolder node)
      (getTargetGatewayFolder name ++ "api-node-config/cert/") certFiles (now ++ resources) =
        (certs, .ok ())) :
    CopiedNode name node (after start now) resources certs := by
  have hcopied : Copied (after start now) (resourcesFolder node)
      (getTargetGatewayFolder name ++ "api-node-config/") propertiesFiles resources := by
    refine copyFolder_returns (by decide) (hfiles _ List.mem_cons_self)
      (fun rest hrest => destination_nodeFolder hplain hrest) (fun rest => ?_) hresources
    rw [nodeFolder_append, basename_gateway, basename_step]
  refine ⟨hcopied, ?_⟩
  have hbelow : ∀ change ∈ resources, isBelow "gateways/" change.name = true := by
    intro change hchange
    obtain ⟨rest, value, -, -, rfl⟩ := (hcopied change).mp hchange
    rw [Change.name, String.append_assoc]
    exact gateways_below (isBelow_append _ _)
  have hfilesLater : PlainFiles node (after start (now ++ resources)) :=
    (sameNode_gateways hbelow).plainFiles.mp hfiles
  rw [← after_append]
  refine copyFolder_returns (by decide) (hfilesLater _ (List.mem_cons_of_mem _ List.mem_cons_self))
    (fun rest hrest => destination_certFolder hplain hrest) (fun rest => ?_) hcerts
  rw [certFolder_append, basename_gateway, basename_step]
  exact basename_step "cert" rest

theorem sslFile_other {was : Option Entry} {rest : String} (h : rest ∉ sslFiles preset) :
    sslFile surroundings preset gateway was rest = was := by
  have hcertificate : rest ≠ preset.restSSLCertificateFileName := by
    rintro rfl
    exact h (List.mem_cons_of_mem _ List.mem_cons_self)
  have hkey : rest ≠ preset.restSSLKeyFileName := by
    rintro rfl
    exact h List.mem_cons_self
  unfold sslFile
  split
  · rw [if_neg hcertificate, if_neg hkey]
  · rfl

theorem not_mem_sslFiles {rest : String} (h : isExcluded (sslFiles preset) rest = false) :
    rest ∉ sslFiles preset := by
  intro hmem
  rw [isExcluded_iff.mpr ⟨rest, hmem, .inl rfl⟩] at h
  cases h

theorem node_ne_rest (inner : String) : "api-node-config" ++ "/" ++ inner ≠ "rest.json" := by
  intro hsame
  have hslash : '/' ∈ ("api-node-config" ++ "/" ++ inner).toList := by
    simp only [String.toList_append, List.mem_append]
    exact .inl (.inr (by decide))
  rw [hsame] at hslash
  exact absurd hslash (by decide)

theorem get_restWritten (formatted : Entry) (rest : String) :
    (after start (now ++ [.write (getTargetGatewayFolder name ++ "rest.json") formatted])).get
        (getTargetGatewayFolder name ++ rest) =
      if rest = "rest.json" then some formatted
      else (after start now).get (getTargetGatewayFolder name ++ rest) := by
  rw [after_concat, get_apply]
  simp only [Change.name, Change.value, String.append_right_inj, eq_comm (b := rest)]

/-- A round that returns, on a folder that was cleaned up, leaves what a gateway should hold. -/
theorem generateGateway_holds (hssl : SSLNames preset) (hname : gateway.name = some name)
    (hstep : IsStep name) (hplain : Plain name) (hcleaned : Cleaned start preset name now)
    (hfiles : ∀ node, gateway.apiNodeName = some node → PlainFiles node (after start now))
    (h : generateGateway surroundings start preset gateway index now = (events, .ok ())) :
    ∃ node, gateway.apiNodeName = some node ∧
      GatewayHolds surroundings start preset gateway name node (after start (now ++ events)) := by
  have hbelow : ∀ change ∈ events, isBelow "gateways/" change.name = true := by
    have hemits : Emits (fun change => isBelow (getTargetGatewayFolder name) change.name = true)
        (generateGateway surroundings start preset gateway index) :=
      generateGateway_below hname hstep hplain
    have hall := hemits now
    rw [h] at hall
    exact fun change hchange => gateways_below (hall change hchange)
  obtain ⟨node, rendered, formatted, resources, certs, ssl, hnode, hrendered, hformatted,
    hresources, hcerts, hprovided, rfl⟩ := generateGateway_returns hname hstep hplain h
  obtain ⟨rfl, hthere⟩ := provideSSL_returns hprovided
  refine ⟨node, hnode, ?_⟩
  set written : Change Entry := .write (getTargetGatewayFolder name ++ "rest.json") formatted
  set ssl := sslChanges surroundings preset gateway (getTargetGatewayFolder name)
  -- the node is read as it is before the round
  have hsameEarly : SameNode node (after start now) (after start (now ++ [written])) :=
    sameNode_gateways fun change hchange =>
      hbelow change (by rw [List.mem_singleton.mp hchange]; exact List.mem_cons_self)
  have hsame : SameNode node (after start now)
      (after start (now ++ written :: (resources ++ (certs ++ ssl)))) := sameNode_gateways hbelow
  have hcopied : CopiedNode name node (after start (now ++ [written])) resources certs :=
    copiedNode_returns hplain (hsameEarly.plainFiles.mp (hfiles node hnode)) hresources hcerts
  set copied := after (after (after start (now ++ [written])) resources) certs with hcopiedTarget
  have hafter :
      after start (now ++ written :: (resources ++ (certs ++ ssl))) = after copied ssl := by
    simp only [hcopiedTarget, ← after_append, List.append_assoc, List.cons_append, List.nil_append]
  rw [hafter] at hsame ⊢
  constructor
  case rest =>
    refine ⟨rendered, formatted, hrendered, hformatted, ?_⟩
    rw [get_sslChanges, sslFile_other (not_mem_sslFiles (rest_not_excluded hssl)),
      hcopied.get_other fun inner hinner => node_ne_rest inner hinner.symm, get_restWritten,
      if_pos rfl]
  case node =>
    intro rest
    rw [get_sslChanges, sslFile_other (not_mem_sslFiles (node_not_excluded hssl rest)),
      hsame.nodeFile, ← hsameEarly.nodeFile]
    refine hcopied.get (fun inner => ?_) rest
    rw [get_restWritten, if_neg (node_ne_rest inner)]
    exact hcleaned.others _ (node_not_excluded hssl inner)
  case ssl =>
    intro rest hrest
    rw [get_sslChanges, hcopied.get_other, get_restWritten, if_neg, hcleaned.ssl rest hrest]
    · rintro rfl
      rw [rest_not_excluded hssl] at hrest
      cases hrest
    · rintro inner rfl
      rw [node_not_excluded hssl] at hrest
      cases hrest
  case there =>
    rw [← hafter]
    simp only [List.append_assoc, List.cons_append, List.nil_append] at hthere
    exact hthere
  case others =>
    intro rest hrest hexcluded hbelow
    rw [get_sslChanges, sslFile_other (not_mem_sslFiles hexcluded), hcopied.get_other,
      get_restWritten, if_neg hrest, hcleaned.others rest hexcluded]
    rintro inner rfl
    rw [show "api-node-config" ++ "/" = "api-node-config/" from rfl, isBelow_append] at hbelow
    cases hbelow

end Rounds

section Configurations

variable {surroundings : Surroundings} {start : Target} {preset : Gateways}
  {gateway : GatewayPreset} {name node : String} {now events : List (Change Entry)}

theorem not_below_other {name' other : String} (hname : IsStep name) (hname' : IsStep name')
    (hne : name' ≠ name) (h : isBelow (getTargetGatewayFolder name') other = true) :
    isBelow (getTargetGatewayFolder name) other = false := by
  rw [Bool.eq_false_iff]
  intro hbelow
  obtain ⟨rest', rfl⟩ := isBelow_iff.mp h
  obtain ⟨rest, hsame⟩ := isBelow_iff.mp hbelow
  exact hne (getTargetGatewayFolder_inj hname' hname hsame).1

theorem not_below_gateway {other : String} (h : isBelow "gateways/" other = false) :
    isBelow (getTargetGatewayFolder name) other = false := by
  rw [Bool.eq_false_iff]
  intro hbelow
  rw [gateways_below hbelow] at h
  cases h

theorem Cleaned.later (h : Cleaned start preset name now)
    (hevents : ∀ change ∈ events, isBelow (getTargetGatewayFolder name) change.name = false) :
    Cleaned start preset name (now ++ events) := by
  constructor
  · intro rest hrest
    rw [get_beside start now hevents, h.others rest hrest]
  · intro rest hrest
    rw [get_beside start now hevents, h.ssl rest hrest]

/-- The rounds of the other gateways are beside a gateway's folder. -/
theorem generateGateway_beside {other : GatewayPreset} {name' : String} {index : ℕ}
    (hname : IsStep name) (hother : other.name = some name') (hname' : IsStep name')
    (hplain : Plain name') (hne : name' ≠ name) :
    Emits (fun change => isBelow (getTargetGatewayFolder name) change.name = false ∧
        isBelow "gateways/" change.name = true)
      (generateGateway surroundings start preset other index) := by
  intro now change hchange
  have hbelow := generateGateway_below hother hname' hplain now change hchange
  exact ⟨not_below_other hname hname' hne hbelow, gateways_below hbelow⟩

/-- The gateways are generated below their own folder. -/
theorem generateGateways_below (hnames : NamedGateways preset)
    (hgiven : ∀ gateway ∈ preset.gateways, ∃ name, gateway.name = some name) :
    Emits (fun change => isBelow "gateways/" change.name = true)
      (generateGateways surroundings start preset) := by
  refine .forEach fun entry hentry now change hchange => ?_
  have hin := List.fst_mem_of_mem_zipIdx hentry
  obtain ⟨name, hname⟩ := hgiven entry.1 hin
  obtain ⟨hstep, hplain⟩ := hnames.name entry.1 hin name hname
  exact gateways_below (generateGateway_below hname hstep hplain now change hchange)

theorem cleanUpGateways_below :
    Emits (fun change => isBelow "gateways/" change.name = true)
      (cleanUpGateways start preset) := by
  refine .forEach fun gateway _ => ?_
  cases hname : gateway.name with
  | none =>
    rw [cleanUpGateway, hname]
    exact .stop
  | some name =>
    intro now change hchange
    rw [cleanUpGateway_run hname] at hchange
    obtain ⟨rest, rfl, -⟩ := mem_deletionsExcept hchange
    exact gateways_below (isBelow_append _ rest)

theorem generateGateways_returns (hnames : NamedGateways preset) (hssl : SSLNames preset)
    (hcleaned : ∀ gateway ∈ preset.gateways, ∃ name, gateway.name = some name ∧
      Cleaned start preset name now)
    (hfiles : ∀ gateway ∈ preset.gateways, ∀ node, gateway.apiNodeName = some node →
      PlainFiles node (after start now))
    (h : generateGateways surroundings start preset now = (events, .ok ())) :
    ∀ gateway ∈ preset.gateways, ∃ name node, gateway.name = some name ∧
      gateway.apiNodeName = some node ∧
      GatewayHolds surroundings start preset gateway name node (after start (now ++ events)) := by
  intro gateway hgateway
  obtain ⟨front, back, hsplit⟩ := List.append_of_mem hgateway
  obtain ⟨name, hname, hclean⟩ := hcleaned gateway hgateway
  obtain ⟨hstep, hplain⟩ := hnames.name gateway hgateway name hname
  have hzip : preset.gateways.zipIdx =
      front.zipIdx ++ (gateway, front.length) :: back.zipIdx (front.length + 1) := by
    rw [hsplit, List.zipIdx_append, List.zipIdx_cons, Nat.zero_add]
  have hother : ∀ other ∈ front ++ back, ∀ index,
      Emits (fun change => isBelow (getTargetGatewayFolder name) change.name = false ∧
          isBelow "gateways/" change.name = true)
        (generateGateway surroundings start preset other index) := by
    intro other hmem index
    have hin : other ∈ preset.gateways := by
      rw [hsplit]
      simp only [List.mem_append, List.mem_cons] at hmem ⊢
      exact hmem.imp id .inr
    obtain ⟨name', hname', -⟩ := hcleaned other hin
    obtain ⟨hstep', hplain'⟩ := hnames.name other hin name' hname'
    refine generateGateway_beside hstep hname' hstep' hplain' ?_
    rintro rfl
    have hdistinct := hnames.distinct
    rw [hsplit, List.map_append, List.map_cons, List.nodup_middle, List.nodup_cons] at hdistinct
    refine hdistinct.1 ?_
    rw [← List.map_append, hname, ← hname']
    exact List.mem_map_of_mem hmem
  have hrounds : ∀ {part : List (GatewayPreset × ℕ)} {now events : List (Change Entry)},
      (∀ entry ∈ part, entry.1 ∈ front ++ back) →
      (forEach part fun (gateway, index) =>
        generateGateway surroundings start preset gateway index) now = (events, .ok ()) →
      ∀ change ∈ events, isBelow (getTargetGatewayFolder name) change.name = false ∧
        isBelow "gateways/" change.name = true := by
    intro part now events hpart hrun
    have hemits : Emits (fun change => isBelow (getTargetGatewayFolder name) change.name = false ∧
        isBelow "gateways/" change.name = true) (forEach part fun (gateway, index) =>
          generateGateway surroundings start preset gateway index) :=
      .forEach fun entry hentry => hother entry.1 (hpart entry hentry) entry.2
    have hall := hemits now
    rw [hrun] at hall
    exact hall
  rw [generateGateways, hzip] at h
  obtain ⟨early, own, late, hearly, hown, hlate, rfl⟩ := forEach_split h
  have hearlyBeside := hrounds (fun entry hentry =>
    List.mem_append_left _ (List.fst_mem_of_mem_zipIdx hentry)) hearly
  have hlateBeside := hrounds (fun entry hentry =>
    List.mem_append_right _ (List.fst_mem_of_mem_zipIdx hentry)) hlate
  have hfilesNow : ∀ node, gateway.apiNodeName = some node →
      PlainFiles node (after start (now ++ early)) := fun node hnode =>
    (sameNode_gateways fun change hchange => (hearlyBeside change hchange).2).plainFiles.mp
      (hfiles gateway hgateway node hnode)
  obtain ⟨node, hnode, hholds⟩ := generateGateway_holds hssl hname hstep hplain
    (hclean.later fun change hchange => (hearlyBeside change hchange).1) hfilesNow hown
  refine ⟨name, node, hname, hnode, ?_⟩
  have hkept := hholds.kept (fun change hchange => (hlateBeside change hchange).1)
    fun change hchange => nodes_beside_gateways (hlateBeside change hchange).2
  rw [← after_append] at hkept
  simp only [List.append_assoc] at hkept ⊢
  exact hkept

/-- After a configuration that returns, the folder of a gateway holds its rendered configuration,
the chosen files of its node as the node has them, the SSL files, and nothing else. -/
theorem gateway_exact {around : Around} (hnames : NamedGateways preset) (hssl : SSLNames preset)
    (hfiles : ∀ gateway ∈ preset.gateways, ∀ node, gateway.apiNodeName = some node →
      PlainFiles node (after start events))
    (h : configureGateways surroundings start preset around [] = (events, .ok ())) :
    ∀ gateway ∈ preset.gateways, ∃ name node, gateway.name = some name ∧
      gateway.apiNodeName = some node ∧
      GatewayHolds surroundings start preset gateway name node (after start events) := by
  obtain ⟨cleaned, ⟨⟩, rest, hclean, hgenerating, rfl⟩ := run_bind_returns.mp h
  obtain ⟨earlier, ⟨⟩, rest', hearlier, hrest, rfl⟩ := run_bind_returns.mp hgenerating
  obtain ⟨generated, ⟨⟩, later, hgenerated, hlater, rfl⟩ := run_bind_returns.mp hrest
  have hearlierBeside : ∀ change ∈ earlier, isBelow "gateways/" change.name = false := by
    have hall := around.earlier_beside (after start ([] ++ cleaned))
    rw [show around.earlier (after start ([] ++ cleaned)) = (earlier, .ok ()) from hearlier] at hall
    exact hall
  have hlaterRun : around.later (after start ([] ++ cleaned ++ earlier ++ generated)) =
    (later, .ok ()) := hlater
  have hlaterBeside : ∀ change ∈ later, isBelow "gateways/" change.name = false := by
    have hall := around.later_beside (after start ([] ++ cleaned ++ earlier ++ generated))
    rw [hlaterRun] at hall
    exact hall
  have hlaterNodes : ∀ node, IsStep node → ∀ change ∈ later,
      isBelow (resourcesFolder node) change.name = false ∧
        isBelow (certFolder node) change.name = false := by
    intro node hnode
    have hall := around.later_nodes (after start ([] ++ cleaned ++ earlier ++ generated)) node hnode
    rw [hlaterRun] at hall
    exact hall
  have hcleaned : ∀ gateway ∈ preset.gateways, ∃ name, gateway.name = some name ∧
      Cleaned start preset name (cleaned ++ earlier) := by
    intro gateway hgateway
    obtain ⟨name, hname, hgatewayClean⟩ := cleanUpGateways_returns hnames hclean gateway hgateway
    exact ⟨name, hname, hgatewayClean.later fun change hchange =>
      not_below_gateway (hearlierBeside change hchange)⟩
  have hgeneratedBelow : ∀ change ∈ generated, isBelow "gateways/" change.name = true := by
    have hgiven : ∀ gateway ∈ preset.gateways, ∃ name, gateway.name = some name := by
      intro gateway hgateway
      obtain ⟨name, hname, -⟩ := hcleaned gateway hgateway
      exact ⟨name, hname⟩
    have hemits : Emits (fun change => isBelow "gateways/" change.name = true)
        (generateGateways surroundings start preset) := generateGateways_below hnames hgiven
    have hall := hemits (cleaned ++ earlier)
    rw [show generateGateways surroundings start preset (cleaned ++ earlier) = (generated, .ok ())
      from hgenerated] at hall
    exact hall
  have hfilesNow : ∀ gateway ∈ preset.gateways, ∀ node, gateway.apiNodeName = some node →
      PlainFiles node (after start (cleaned ++ earlier)) := by
    intro gateway hgateway node hnode
    have hend := hfiles gateway hgateway node hnode
    rw [← List.append_assoc, ← List.append_assoc] at hend
    rw [← (sameNode_after (hlaterNodes node (hnames.node gateway hgateway node hnode))).plainFiles]
      at hend
    exact (sameNode_gateways hgeneratedBelow).plainFiles.mpr hend
  intro gateway hgateway
  obtain ⟨name, node, hname, hnode, hholds⟩ :=
    generateGateways_returns hnames hssl hcleaned hfilesNow hgenerated gateway hgateway
  refine ⟨name, node, hname, hnode, ?_⟩
  have hkept := hholds.kept (fun change hchange => not_below_gateway (hlaterBeside change hchange))
    (hlaterNodes node (hnames.node gateway hgateway node hnode))
  rw [← after_append] at hkept
  simp only [List.append_assoc] at hkept
  exact hkept

/-- The gateways are among what is prepared before the seeds: these parts with the gateways after
what else is prepared. -/
def withGateways (stages : Stages) (surroundings : Surroundings) (preset : Gateways)
    (hnames : NamedGateways preset)
    (hgiven : ∀ gateway ∈ preset.gateways, ∃ name, gateway.name = some name) : Stages :=
  have hbelow : ∀ target isUpgrade presetData addresses,
      Emits (fun change => isBelow "gateways/" change.name = true ∨
          ∃ now, change ∈ (stages.prepare isUpgrade now presetData addresses).1)
        (do
          cleanUpGateways target preset
          stage target fun now => stages.prepare isUpgrade now presetData addresses
          generateGateways surroundings target preset : Changing Unit) := by
    intro target isUpgrade presetData addresses
    refine .bind (fun now change hchange => .inl (cleanUpGateways_below now change hchange))
      fun _ => .bind (fun now change hchange => .inr ⟨_, hchange⟩) fun _ => ?_
    exact fun now change hchange => .inl (generateGateways_below hnames hgiven now change hchange)
  { stages with
    prepare := fun isUpgrade target presetData addresses =>
      (do
        cleanUpGateways target preset
        stage target fun now => stages.prepare isUpgrade now presetData addresses
        generateGateways surroundings target preset : Changing Unit) []
    prepare_file := by
      intro isUpgrade target presetData addresses change hchange hfile
      rcases hbelow target isUpgrade presetData addresses [] change hchange with
        hgateways | ⟨now, hprepared⟩
      · rcases hfile with hname | hname
        · rw [hname] at hgateways
          exact absurd hgateways (by decide)
        · rw [hname] at hgateways
          exact absurd hgateways (by decide)
      · exact stages.prepare_file _ _ _ _ change hprepared hfile
    prepare_seeds := by
      intro isUpgrade target presetData addresses hsteps change hchange
      rcases hbelow target isUpgrade presetData addresses [] change hchange with
        hgateways | ⟨now, hprepared⟩
      · exact ⟨not_below_of_gateways rfl hgateways,
          fun node _ => not_below_of_gateways (head_getTargetNodesFolder node "seed") hgateways⟩
      · exact stages.prepare_seeds _ _ _ _ hsteps change hprepared }

theorem resourcesFolder_eq (node : String) :
    resourcesFolder node = getTargetNodesFolder node "server-config/resources" := by
  simp only [resourcesFolder, getTargetNodesFolder, String.append_assoc]
  rfl

theorem certFolder_eq (node : String) : certFolder node = getTargetNodesFolder node "cert" := by
  simp only [certFolder, getTargetNodesFolder, String.append_assoc]
  rfl

/-- A seed folder of a node is beside the other folders of nodes. -/
theorem not_below_of_seed {name node folder other : String} (hname : IsStep name)
    (hnode : IsStep node) (hne : ∀ rest rest', "seed" ++ "/" ++ rest ≠ folder ++ "/" ++ rest')
    (h : isBelow (getTargetNodesFolder name "seed") other = true) :
    isBelow (getTargetNodesFolder node folder) other = false := by
  rw [Bool.eq_false_iff]
  intro hbelow
  obtain ⟨rest, rfl⟩ := isBelow_iff.mp h
  obtain ⟨rest', hsame⟩ := isBelow_iff.mp hbelow
  rw [getTargetNodesFolder_append, getTargetNodesFolder_append, String.append_right_inj] at hsame
  obtain ⟨-, hinner⟩ := step_inj hname.2.1 hnode.2.1 hsame
  exact hne rest rest' hinner

/-- What is of the nemesis or of the seed folders of nodes is not of a gateway, nor among the files
that a gateway reads of a node. -/
theorem seeds_beside {change : Change Entry}
    (h : OfNemesis change ∨
      ∃ name, IsStep name ∧ isBelow (getTargetNodesFolder name "seed") change.name = true) :
    isBelow "gateways/" change.name = false ∧ ∀ node, IsStep node →
      isBelow (resourcesFolder node) change.name = false ∧
        isBelow (certFolder node) change.name = false := by
  have hhead : ∀ {folder : String}, folder.toList.head? = some 'n' →
      isBelow folder change.name = true → isBelow "gateways/" change.name = false := by
    intro folder hfolder hbelow
    rw [Bool.eq_false_iff]
    intro hgateways
    rw [not_below_of_gateways hfolder hgateways] at hbelow
    cases hbelow
  rcases h with hnemesis | ⟨name, hname, hseed⟩
  · exact ⟨hhead rfl hnemesis, fun node _ =>
      ⟨by rw [resourcesFolder_eq]; exact not_below_nodes hnemesis,
        by rw [certFolder_eq]; exact not_below_nodes hnemesis⟩⟩
  · refine ⟨hhead (head_getTargetNodesFolder name "seed") hseed, fun node hnode => ?_⟩
    have hresources : ∀ rest rest' : String,
        "seed" ++ "/" ++ rest ≠ "server-config/resources" ++ "/" ++ rest' := by
      intro rest rest' hsame
      have htexts := congrArg (fun text => text.toList.take 3) hsame
      simp at htexts
    have hcert : ∀ rest rest' : String, "seed" ++ "/" ++ rest ≠ "cert" ++ "/" ++ rest' := by
      intro rest rest' hsame
      have htexts := congrArg (fun text => text.toList.take 1) hsame
      simp at htexts
    rw [resourcesFolder_eq, certFolder_eq]
    exact ⟨not_below_of_seed hname hnode hresources hseed,
      not_below_of_seed hname hnode hcert hseed⟩

/-- The seeds are generated and copied once the gateways are there. -/
def seedsAround (services : Services) (stages : Stages) (presetData : ConfigPreset)
    (addresses : Addresses) (isUpgrade : Bool)
    (hsteps : ∀ account ∈ addresses.nodes, IsStep account.name) : Around :=
  have hlater : ∀ target : Target, Emits (fun change => OfNemesis change ∨ ∃ name, IsStep name ∧
      isBelow (getTargetNodesFolder name "seed") change.name = true)
      (do
        resolveNemesis services stages target presetData addresses isUpgrade
        copyNemesis stages target addresses : Changing Unit) := by
    intro target
    refine .bind (fun now change hchange => .inl (resolveNemesis_nemesis now change hchange))
      fun _ => .bind (validateNemesisSeed_emits _) fun _ => emits_current fun _ now => ?_
    intro change hchange
    obtain ⟨account, haccount, hcopy⟩ :=
      List.mem_flatMap.mp ((stages.order_perm _).mem_iff.mp hchange)
    obtain ⟨rest, value, -, rfl⟩ := mem_copies.mp hcopy
    exact .inr ⟨account.name, hsteps account haccount, isBelow_append _ rest⟩
  { earlier := fun _ => ([], .ok ())
    later := fun target =>
      (do
        resolveNemesis services stages target presetData addresses isUpgrade
        copyNemesis stages target addresses : Changing Unit) []
    earlier_beside := fun _ _ hchange => absurd hchange List.not_mem_nil
    later_beside := fun target change hchange =>
      (seeds_beside (hlater target [] change hchange)).1
    later_nodes := fun target node hnode change hchange =>
      (seeds_beside (hlater target [] change hchange)).2 node hnode }

theorem plainFiles_of_names {target : Target} (h : ∀ name ∈ target.names, Plain name) :
    PlainFiles node target := by
  intro folder _ rest value hvalue
  have hname := h _ (Record.mem_names_iff.mpr ⟨value, hvalue⟩)
  refine decide_eq_false fun hwithin => not_infix_of_plain hname (hwithin.trans ?_)
  rw [String.toList_append]
  exact (List.suffix_append folder.toList rest.toList).isInfix

/-- A gateway that reuses its key: some files of its node are not for it, and one file is stale. -/
def reusedTarget : Target where
  entries :=
    [("nodes/api/server-config/resources/config-node.properties", .file [1]),
      ("nodes/api/server-config/resources/config-harvesting.properties", .file [2]),
      ("nodes/api/cert/ca.cert.pem", .file [3]), ("nodes/api/cert/ca.pubkey.pem", .file [4]),
      ("gateways/gw/restSSL.key", .file [5]), ("gateways/gw/api-node-config/old.pem", .file [6])]
  distinct := by decide

def reusedGateways : Gateways where
  gateways := [⟨some "gw", some "api", some "HTTPS", none, none⟩]
  restSSLKeyFileName := "restSSL.key"
  restSSLCertificateFileName := "restSSL.crt"

theorem reusedGateways_named : NamedGateways reusedGateways := by
  constructor
  · intro gateway hgateway name hname
    rw [List.mem_singleton.mp hgateway] at hname
    cases hname
    exact ⟨by unfold IsStep; decide, plain_of_decide (by decide)⟩
  · intro gateway hgateway node hnode
    rw [List.mem_singleton.mp hgateway] at hnode
    cases hnode
    unfold IsStep
    decide
  · exact List.nodup_singleton _

/-- The bundled template is an empty object. -/
def emptyObject : Surroundings where
  runTemplate := fun _ content => .ok content
  formatJson := .ok
  restTemplate := .file [123, 125]
  fromBase64 := fun _ => .file []
  order := id
  order_perm := List.Perm.refl

/-- The addresses of a network with the gateway's node. -/
def apiAddresses : Addresses where
  version := 2
  networkType := 152
  nemesisGenerationHashSeed := ""
  sinkAddress := none
  nodes := [{ NemesisSound.smallNode with name := "api" }]
  nemesisSigner := none
  mosaics := none

/-- A first run, which generates the nemesis seed. -/
def firstSeeds : Around :=
  seedsAround AddressesUpgrade.knownServices smallStages AddressesUpgrade.newNetwork apiAddresses
    false (by unfold IsStep; decide)

def reusedChanges : List (Change Entry) :=
  [.remove "gateways/gw/api-node-config/old.pem",
    .write "gateways/gw/rest.json" (.file [123, 125]),
    .write "gateways/gw/api-node-config/config-node.properties" (.file [1]),
    .write "gateways/gw/api-node-config/cert/ca.cert.pem" (.file [3]),
    .write "nemesis/seed/00000/00001.dat" (.file [1]),
    .write "nemesis/seed/index.dat" (.file [2]),
    .write "nodes/api/seed/00000/00001.dat" (.file [1]),
    .write "nodes/api/seed/index.dat" (.file [2])]

theorem gateway_exact_reused :
    ∃ events, configureGateways emptyObject reusedTarget reusedGateways firstSeeds [] =
        (events, .ok ()) ∧
      ∀ gateway ∈ reusedGateways.gateways, ∃ name node, gateway.name = some name ∧
        gateway.apiNodeName = some node ∧
        GatewayHolds emptyObject reusedTarget reusedGateways gateway name node
          (after reusedTarget events) := by
  have hrun : configureGateways emptyObject reusedTarget reusedGateways firstSeeds [] =
      (reusedChanges, .ok ()) := by
    rfl
  refine ⟨_, hrun, gateway_exact reusedGateways_named ?_ ?_ hrun⟩
  · constructor
    · intro name hname
      unfold IsStep
      simp only [sslFiles, reusedGateways, List.mem_cons, List.not_mem_nil, or_false] at hname
      rcases hname with rfl | rfl <;> decide
    · decide
  · intro gateway _ node _
    refine plainFiles_of_names fun name hname => ?_
    have hall : ((after reusedTarget reusedChanges).names.all
        fun name => !contains name ".mustache") = true := by
      decide +kernel
    exact (Bool.not_eq_true' _).mp (List.all_eq_true.mp hall name hname)

/-- A run on a target with a gateway, which is generated before the seeds. -/
def gatewayAttempt : Attempt :=
  { seedAttempt 20 with
    generation := (withGateways smallStages emptyObject reusedGateways reusedGateways_named
      (fun gateway hgateway => ⟨"gw", by rw [List.mem_singleton.mp hgateway]⟩)).generation
        AddressesUpgrade.knownServices }

example : (run AddressesUpgrade.knownServices reusedTarget gatewayAttempt []).1.map Change.name =
    ["gateways/gw/api-node-config/old.pem", "gateways/gw/rest.json",
      "gateways/gw/api-node-config/config-node.properties",
      "gateways/gw/api-node-config/cert/ca.cert.pem", "nemesis/seed/00000/00001.dat",
      "nemesis/seed/index.dat", "nodes/node-0/seed/00000/00001.dat", "nodes/node-0/seed/index.dat",
      "addresses.yml", "preset.yml"] := by
  decide +kernel

end Configurations

end SymbolBootstrap.GatewayFiles
