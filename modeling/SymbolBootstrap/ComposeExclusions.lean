import Mathlib.Data.List.Pairwise
import SymbolBootstrap.ComposeServices

/-!
What excluding services does to the docker-compose. It has the services that are enabled,
except that nothing excludes a broker whose node is enabled. Its dependencies are the
references of the enabled services, whether or not what they refer to is excluded.
-/
namespace SymbolBootstrap.ComposeExclusions

open Library.Records ComposeService ComposeServices

def containerNames (dockerCompose : DockerCompose) : List String :=
  dockerCompose.services.entries.filterMap fun entry => entry.2.containerName

section

variable (presetData : ConfigPreset)

def enabledNames : List String :=
  (enabled DatabasePreset.toDockerServicePreset presetData.databases).map DatabasePreset.name ++
    (enabledNodes presetData).map NodePreset.name ++
    (enabled GatewayPreset.toDockerServicePreset presetData.gateways).map GatewayPreset.name ++
    (enabled HttpsProxyPreset.toDockerServicePreset presetData.httpsProxies).map
      HttpsProxyPreset.name ++
    (enabled ExplorerPreset.toDockerServicePreset presetData.explorers).map ExplorerPreset.name ++
    (enabled FaucetPreset.toDockerServicePreset presetData.faucets).map FaucetPreset.name

/-- The brokers that are to be there: of a node that is enabled, and not excluded themselves. -/
def enabledBrokers : List String :=
  ((brokers presetData).filter fun broker => !broker.1.brokerExcludeDockerService).map Prod.snd

/-- The names of all services and brokers, excluded or not. -/
def allNames : List String :=
  presetData.databases.map DatabasePreset.name ++ presetData.nodes.map NodePreset.name ++
    presetData.gateways.map GatewayPreset.name ++
    presetData.httpsProxies.map HttpsProxyPreset.name ++
    presetData.explorers.map ExplorerPreset.name ++ presetData.faucets.map FaucetPreset.name ++
    presetData.nodes.filterMap fun n => given n.brokerName

/-- No service has a `compose` section of the user, and neither has the preset. -/
structure WithoutCompose : Prop where
  preset : presetData.compose = none
  databases : ∀ n ∈ presetData.databases, n.compose = none
  nodes : ∀ n ∈ presetData.nodes, n.compose = none ∧ n.brokerCompose = none
  gateways : ∀ n ∈ presetData.gateways, n.compose = none
  httpsProxies : ∀ n ∈ presetData.httpsProxies, n.compose = none
  explorers : ∀ n ∈ presetData.explorers, n.compose = none
  faucets : ∀ n ∈ presetData.faucets, n.compose = none

end

section Names

variable {env : Environment} {presetData : ConfigPreset}

/-- Without sections of the user every service goes by its own name. -/
theorem map_declare {α : Type} (name : α → String) {references : α → Option (List String)}
    {compose : α → Option DockerComposeService} {presets : List α}
    (h : ∀ preset ∈ presets, compose preset = none) :
    (presets.map fun preset => declare (name preset) (references preset) (compose preset)).map
      Declared.name = presets.map name := by
  rw [List.map_map]
  refine List.map_congr_left ?_
  intro preset hpreset
  rw [Function.comp_apply, declare, h preset hpreset]
  rfl

theorem mem_of_mem_enabled {α : Type} {service : α → DockerServicePreset} {presets : List α}
    {preset : α} (h : preset ∈ enabled service presets) : preset ∈ presets :=
  (List.mem_filter.mp h).1

theorem mem_brokers {broker : NodePreset × String} : broker ∈ brokers presetData ↔
    broker.1 ∈ enabledNodes presetData ∧ given broker.1.brokerName = some broker.2 := by
  obtain ⟨node, name⟩ := broker
  simp only [brokers, List.mem_filterMap, Option.map_eq_some_iff, Prod.mk.injEq]
  constructor
  · intro h
    obtain ⟨node, hnode, name, hname, rfl, rfl⟩ := h
    exact ⟨hnode, hname⟩
  · intro h
    exact ⟨node, h.1, name, h.2, rfl, rfl⟩

theorem declared_names (hcompose : WithoutCompose presetData) (name : String) :
    name ∈ (declaredServices presetData).map Declared.name ↔
      name ∈ enabledNames presetData ∨ name ∈ (brokers presetData).map Prod.snd := by
  have hnode : ∀ n ∈ enabledNodes presetData, n.compose = none ∧ n.brokerCompose = none :=
    fun n hn => hcompose.nodes n (mem_of_mem_enabled hn)
  rw [declaredServices, enabledNames]
  simp only [List.map_append]
  rw [map_declare DatabasePreset.name fun n hn => hcompose.databases n (mem_of_mem_enabled hn),
    map_declare NodePreset.name fun n hn => (hnode n hn).1,
    map_declare Prod.snd fun broker hn => (hnode broker.1 (mem_brokers.mp hn).1).2,
    map_declare GatewayPreset.name fun n hn => hcompose.gateways n (mem_of_mem_enabled hn),
    map_declare HttpsProxyPreset.name fun n hn =>
      hcompose.httpsProxies n (mem_of_mem_enabled hn),
    map_declare ExplorerPreset.name fun n hn => hcompose.explorers n (mem_of_mem_enabled hn),
    map_declare FaucetPreset.name fun n hn => hcompose.faucets n (mem_of_mem_enabled hn)]
  simp only [List.mem_append]
  tauto

theorem userService_none (hcompose : WithoutCompose presetData) (name : String) :
    userService presetData name = none := by
  rw [userService, hcompose.preset, Option.bind_none]

/-- Without sections of the user what is there is what is declared. -/
theorem provided_iff (hcompose : WithoutCompose presetData) (name : String) :
    Provided presetData name ↔ name ∈ (declaredServices presetData).map Declared.name := by
  rw [Provided, userService_none hcompose, List.mem_map]
  simp

/-- Without sections of the user the containers are those of the services that are declared. -/
theorem mem_containerNames (hcompose : WithoutCompose presetData) {dockerCompose : DockerCompose}
    (h : run env presetData = .ok dockerCompose) (name : String) :
    name ∈ containerNames dockerCompose ↔
      name ∈ enabledNames presetData ∨ name ∈ (brokers presetData).map Prod.snd := by
  have hname : ∀ {key : String} {service : DockerComposeService},
      dockerCompose.services.get key = some service → service.containerName = some key := by
    intro key service hget
    obtain ⟨resolved, hdeclared, hrun⟩ := run_get h key
    rw [hget, userService_none hcompose, withUser] at hrun
    obtain ⟨service', rfl, hpruned⟩ := Option.bind_eq_some_iff.mp hrun.symm
    generalize hfound : ((declaredServices presetData).reverse.find? fun service =>
      service.name = key) = found at hdeclared
    cases hdeclared with
    | @some declared _ hsame =>
      have hkey : declared.name = key := by simpa using List.find?_some hfound
      rw [(pruneService_eq hpruned).1, hsame.1, hkey]
  have hnames : name ∈ containerNames dockerCompose ↔ name ∈ dockerCompose.services.names := by
    rw [Record.mem_names_iff]
    simp only [containerNames, List.mem_filterMap, Prod.exists, Record.mem_entries_iff]
    constructor
    · intro hmem
      obtain ⟨key, service, hget, hcontainer⟩ := hmem
      rw [hname hget, Option.some.injEq] at hcontainer
      exact ⟨service, hcontainer ▸ hget⟩
    · intro hget
      obtain ⟨service, hget⟩ := hget
      exact ⟨name, service, hget, hname hget⟩
  rw [hnames, mem_names_run h, provided_iff hcompose, declared_names hcompose]

/-- No two nodes have the same broker, and no service goes by the name of a broker. -/
theorem broker_unique (hdistinct : (allNames presetData).Nodup) {node node' : NodePreset}
    {name : String} (hnode : node ∈ presetData.nodes) (hnode' : node' ∈ presetData.nodes)
    (hname : given node.brokerName = some name) (hname' : given node'.brokerName = some name) :
    node = node' := by
  have hbrokers := (List.nodup_append.mp hdistinct).2.1
  rw [List.Nodup, List.pairwise_filterMap] at hbrokers
  have hsymm : Std.Symm fun node node' : NodePreset => ∀ name, given node.brokerName = some name →
      ∀ name', given node'.brokerName = some name' → name ≠ name' :=
    ⟨fun _ _ hpair _ h _ h' => (hpair _ h' _ h).symm⟩
  by_contra hne
  exact hbrokers.forall hnode hnode' hne name hname name hname' rfl

theorem not_broker_of_enabled {name : String} (h : name ∈ enabledNames presetData)
    (hdistinct : (allNames presetData).Nodup) :
    name ∉ presetData.nodes.filterMap fun n => given n.brokerName := by
  have hdisjoint := (List.nodup_append.mp hdistinct).2.2
  intro hbroker
  refine hdisjoint name ?_ name hbroker rfl
  have hmap : ∀ {α : Type} {service : α → DockerServicePreset} {presets : List α}
      {f : α → String}, name ∈ (enabled service presets).map f → name ∈ presets.map f := by
    intro α service presets f hmem
    obtain ⟨preset, hpreset, hf⟩ := List.mem_map.mp hmem
    exact List.mem_map.mpr ⟨preset, mem_of_mem_enabled hpreset, hf⟩
  simp only [enabledNames, List.mem_append] at h ⊢
  exact h.imp (Or.imp (Or.imp (Or.imp (Or.imp hmap hmap) hmap) hmap) hmap) hmap

/-- The containers are those that are to be there exactly when no broker is excluded whose
node is enabled. -/
theorem container_names_exactly (hdistinct : (allNames presetData).Nodup)
    (hcompose : WithoutCompose presetData) {dockerCompose : DockerCompose}
    (h : run env presetData = .ok dockerCompose) :
    (∀ name, name ∈ containerNames dockerCompose ↔
      name ∈ enabledNames presetData ++ enabledBrokers presetData) ↔
      ∀ n ∈ enabledNodes presetData, (given n.brokerName).isSome = true →
        n.brokerExcludeDockerService = false := by
  simp only [mem_containerNames hcompose h, List.mem_append]
  constructor
  · intro hnames n hn hbroker
    obtain ⟨name, hname⟩ := Option.isSome_iff_exists.mp hbroker
    have hmem : (n, name) ∈ brokers presetData := mem_brokers.mpr ⟨hn, hname⟩
    rcases (hnames name).mp (.inr (List.mem_map_of_mem hmem)) with hservice | henabled
    · exact absurd (List.mem_filterMap.mpr ⟨n, mem_of_mem_enabled hn, hname⟩)
        (not_broker_of_enabled hservice hdistinct)
    · obtain ⟨⟨n', name'⟩, hfilter, rfl⟩ := List.mem_map.mp henabled
      obtain ⟨hmem', hkept⟩ := List.mem_filter.mp hfilter
      obtain ⟨hn', hname'⟩ := mem_brokers.mp hmem'
      obtain rfl := broker_unique hdistinct (mem_of_mem_enabled hn) (mem_of_mem_enabled hn')
        hname hname'
      simpa using hkept
  · intro hkept name
    have hall : (brokers presetData).filter (fun broker =>
        !broker.1.brokerExcludeDockerService) = brokers presetData := by
      refine List.filter_eq_self.mpr ?_
      intro broker hbroker
      obtain ⟨hn, hname⟩ := mem_brokers.mp hbroker
      rw [hkept broker.1 hn (by rw [hname]; rfl), Bool.not_false]
    rw [enabledBrokers, hall]

end Names

def smallEnvironment : Environment where
  user := none
  restUrls := []
  mainAccountPrivateKey := none

/-- A preset with two nodes, one of them with a broker that is excluded or not. -/
def brokerPreset (brokerExcludeDockerService : Bool) : ConfigPreset where
  nodes := [{ name := "peer-node" },
    { name := "api-node", brokerName := some "api-node-broker", brokerExcludeDockerService }]
  databaseName := "catapult"
  mongoImage := "mongo"
  mongoComposeRunParam := ""
  symbolServerImage := "symbol-server"
  symbolRestImage := "symbol-rest"
  symbolExplorerImage := "symbol-explorer"
  symbolFaucetImage := "symbol-faucet"
  httpsPortalImage := "https-portal"
  catapultAppFolder := "/usr/catapult"
  dataDirectory := "./data"
  nodeStopGracePeriod := "30s"
  brokerStopGracePeriod := "30s"
  dockerComposeVersion := .str "2.4"
  dockerComposeServiceRestart := "on-failure"
  dockerComposeDebugMode := false
  mosaics := []
  baseNamespace := "cat"
  currencyMosaicId := none

theorem brokerPreset_withoutCompose (excluded : Bool) : WithoutCompose (brokerPreset excluded) := by
  constructor <;> simp [brokerPreset]

theorem container_names_exactly_small :
    ∃ dockerCompose, run smallEnvironment (brokerPreset false) = .ok dockerCompose ∧
      ((∀ name, name ∈ containerNames dockerCompose ↔
        name ∈ enabledNames (brokerPreset false) ++ enabledBrokers (brokerPreset false)) ↔
        ∀ n ∈ enabledNodes (brokerPreset false), (given n.brokerName).isSome = true →
          n.brokerExcludeDockerService = false) :=
  ⟨_, rfl, container_names_exactly (by decide) (brokerPreset_withoutCompose false) rfl⟩

/-- A broker that is excluded is in the docker-compose. -/
theorem excluded_broker_present :
    (allNames (brokerPreset true)).Nodup ∧ WithoutCompose (brokerPreset true) ∧
      ∃ dockerCompose, run smallEnvironment (brokerPreset true) = .ok dockerCompose ∧
        containerNames dockerCompose = ["peer-node", "api-node", "api-node-broker"] ∧
        enabledNames (brokerPreset true) ++ enabledBrokers (brokerPreset true) =
          ["peer-node", "api-node"] :=
  ⟨by decide, brokerPreset_withoutCompose true, _, rfl, rfl, rfl⟩

section Dependencies

variable {env : Environment} {presetData : ConfigPreset}

/-- Every dependency is the name of a service of the same docker-compose. -/
def Closed (dockerCompose : DockerCompose) : Prop :=
  ∀ entry ∈ dockerCompose.services.entries, ∀ dependency ∈ entry.2.dependsOn.getD [],
    dependency ∈ dockerCompose.services.names

/-- The dependencies are closed exactly when what a service refers to is there as well: it is
enabled, or the user's `compose` adds it. -/
theorem depends_on_closed_exactly {dockerCompose : DockerCompose}
    (h : run env presetData = .ok dockerCompose) :
    Closed dockerCompose ↔ ∀ name, Provided presetData name →
      ∀ dependency ∈ references presetData name, Provided presetData dependency := by
  constructor
  · intro hclosed name hprovided dependency hdependency
    obtain ⟨service, hget⟩ := Record.mem_names_iff.mp ((mem_names_run h name).mpr hprovided)
    rw [← dependsOn_run h hget] at hdependency
    exact (mem_names_run h dependency).mp
      (hclosed (name, service) (Record.mem_entries_iff.mpr hget) dependency hdependency)
  · intro hreferences entry hentry dependency hdependency
    obtain ⟨name, service⟩ := entry
    have hget := Record.mem_entries_iff.mp hentry
    rw [dependsOn_run h hget] at hdependency
    have hprovided := (mem_names_run h name).mp (Record.mem_names_iff.mpr ⟨service, hget⟩)
    exact (mem_names_run h dependency).mpr (hreferences name hprovided dependency hdependency)

/-- Under its own name a service has its own references. -/
theorem references_of_declared (hcompose : WithoutCompose presetData)
    (hdistinct : ((declaredServices presetData).map Declared.name).Nodup) {service : Declared}
    (hservice : service ∈ declaredServices presetData) :
    references presetData service.name = service.references.getD [] := by
  have hfound : (declaredServices presetData).reverse.find? (fun other =>
      decide (other.name = service.name)) = some service := by
    cases hfind : (declaredServices presetData).reverse.find? (fun other =>
        decide (other.name = service.name)) with
    | none =>
      have hnone := List.find?_eq_none.mp hfind service (List.mem_reverse.mpr hservice)
      exact absurd (decide_eq_true rfl) hnone
    | some other =>
      have hname : other.name = service.name :=
        of_decide_eq_true (List.find?_some (p := fun other : Declared =>
          decide (other.name = service.name)) hfind)
      have hother := List.mem_reverse.mp (List.mem_of_find?_eq_some hfind)
      rw [List.inj_on_of_nodup_map hdistinct hother hservice hname]
  rw [references, hfound, userService_none hcompose]
  rfl

variable (presetData) in
/-- A service that is enabled, or the broker of a node that is. -/
def Present (name : String) : Prop :=
  name ∈ enabledNames presetData ∨ name ∈ (brokers presetData).map Prod.snd

variable (presetData) in
/-- What the enabled services refer to is there: the database of a node and of a gateway, the first
gateway where there is a proxy, and the gateway of a faucet. -/
structure ReferencesPresent : Prop where
  nodes : ∀ n ∈ enabledNodes presetData, ∀ host, given n.databaseHost = some host →
    Present presetData host
  gateways : ∀ n ∈ enabled GatewayPreset.toDockerServicePreset presetData.gateways,
    Present presetData n.databaseHost
  httpsProxies : enabled HttpsProxyPreset.toDockerServicePreset presetData.httpsProxies ≠ [] →
    ∀ gateway ∈ proxyDependsOn presetData, Present presetData gateway
  faucets : ∀ n ∈ enabled FaucetPreset.toDockerServicePreset presetData.faucets,
    Present presetData n.gateway

theorem declare_references {name : String} {references : Option (List String)}
    {compose : Option DockerComposeService} (h : compose = none) :
    (declare name references compose).references = references := by
  rw [declare, h]
  rfl

/-- Without sections of the user the references are those of the enabled services. -/
theorem references_present_iff (hcompose : WithoutCompose presetData) :
    (∀ service ∈ declaredServices presetData, ∀ dependency ∈ service.references.getD [],
      Present presetData dependency) ↔ ReferencesPresent presetData := by
  have hnodes : ∀ n ∈ enabledNodes presetData, n.compose = none ∧ n.brokerCompose = none :=
    fun n hn => hcompose.nodes n (mem_of_mem_enabled hn)
  have hbroker : ∀ {n : NodePreset} {name : String}, n ∈ enabledNodes presetData →
      given n.brokerName = some name → Present presetData name := fun {n name} hn hname =>
    .inr (List.mem_map.mpr ⟨(n, name), mem_brokers.mpr ⟨hn, hname⟩, rfl⟩)
  simp only [declaredServices, List.forall_mem_append, List.forall_mem_map]
  constructor
  · rintro ⟨⟨⟨⟨⟨⟨-, hserver⟩, -⟩, hgateway⟩, hproxy⟩, -⟩, hfaucet⟩
    refine ⟨fun n hn host hhost => ?_, fun n hn => ?_, fun hproxies gateway hfirst => ?_,
      fun n hn => ?_⟩
    · refine hserver n hn host ?_
      rw [declare_references (hnodes n hn).1, Option.getD_some, serverDependsOn, hhost]
      exact List.mem_cons_self
    · refine hgateway n hn n.databaseHost ?_
      rw [declare_references (hcompose.gateways n (mem_of_mem_enabled hn))]
      exact List.mem_cons_self
    · obtain ⟨n, hn⟩ := List.exists_mem_of_ne_nil _ hproxies
      refine hproxy n hn gateway ?_
      rw [declare_references (hcompose.httpsProxies n (mem_of_mem_enabled hn))]
      exact hfirst
    · refine hfaucet n hn n.gateway ?_
      rw [declare_references (hcompose.faucets n (mem_of_mem_enabled hn))]
      exact List.mem_cons_self
  · intro h
    refine ⟨⟨⟨⟨⟨⟨fun n hn dependency hmem => ?_, fun n hn dependency hmem => ?_⟩,
      fun broker hn dependency hmem => ?_⟩, fun n hn dependency hmem => ?_⟩,
      fun n hn dependency hmem => ?_⟩, fun n hn dependency hmem => ?_⟩,
      fun n hn dependency hmem => ?_⟩
    · rw [declare_references (hcompose.databases n (mem_of_mem_enabled hn))] at hmem
      cases hmem
    · rw [declare_references (hnodes n hn).1, Option.getD_some, serverDependsOn,
        List.mem_append, Option.mem_toList, Option.mem_toList] at hmem
      exact hmem.elim (h.nodes n hn dependency) (hbroker hn)
    · obtain ⟨hnode, -⟩ := mem_brokers.mp hn
      rw [declare_references (hnodes broker.1 hnode).2, Option.getD_some, brokerDependsOn,
        Option.mem_toList] at hmem
      exact h.nodes broker.1 hnode dependency hmem
    · rw [declare_references (hcompose.gateways n (mem_of_mem_enabled hn))] at hmem
      rw [List.mem_singleton.mp hmem]
      exact h.gateways n hn
    · rw [declare_references (hcompose.httpsProxies n (mem_of_mem_enabled hn))] at hmem
      exact h.httpsProxies (List.ne_nil_of_mem hn) dependency hmem
    · rw [declare_references (hcompose.explorers n (mem_of_mem_enabled hn))] at hmem
      cases hmem
    · rw [declare_references (hcompose.faucets n (mem_of_mem_enabled hn))] at hmem
      rw [List.mem_singleton.mp hmem]
      exact h.faucets n hn

/-- Where services have different names and no sections of the user, the dependencies are closed
exactly when the references of the enabled services are there. -/
theorem closed_without_compose (hcompose : WithoutCompose presetData)
    (hdistinct : ((declaredServices presetData).map Declared.name).Nodup)
    {dockerCompose : DockerCompose} (h : run env presetData = .ok dockerCompose) :
    Closed dockerCompose ↔ ReferencesPresent presetData := by
  have hnames : ∀ name, name ∈ dockerCompose.services.names ↔ Present presetData name := by
    intro name
    rw [mem_names_run h, provided_iff hcompose, declared_names hcompose, Present]
  rw [← references_present_iff hcompose]
  constructor
  · intro hclosed service hservice dependency hdependency
    have hprovided := (provided_iff hcompose service.name).mpr (List.mem_map_of_mem hservice)
    obtain ⟨run, hget⟩ := Record.mem_names_iff.mp ((mem_names_run h service.name).mpr hprovided)
    rw [← references_of_declared hcompose hdistinct hservice, ← dependsOn_run h hget]
      at hdependency
    exact (hnames dependency).mp
      (hclosed (service.name, run) (Record.mem_entries_iff.mpr hget) dependency hdependency)
  · intro hreferences entry hentry dependency hdependency
    obtain ⟨name, service⟩ := entry
    have hget := Record.mem_entries_iff.mp hentry
    rw [dependsOn_run h hget] at hdependency
    have hprovided := (mem_names_run h name).mp (Record.mem_names_iff.mpr ⟨service, hget⟩)
    obtain ⟨declared, hdeclared, rfl⟩ :=
      List.mem_map.mp ((provided_iff hcompose name).mp hprovided)
    rw [references_of_declared hcompose hdistinct hdeclared] at hdependency
    exact (hnames dependency).mpr (hreferences declared hdeclared dependency hdependency)

end Dependencies

/-- A preset with a gateway on a database that is excluded or not. -/
def databasePreset (excludeDockerService : Bool) : ConfigPreset :=
  { brokerPreset false with
    databases := [{ name := "db", excludeDockerService }]
    gateways := [{ name := "rest-gateway", databaseHost := "db", apiNodeName := "api-node" }] }

theorem depends_on_closed_exactly_small :
    ∃ dockerCompose, run smallEnvironment (databasePreset false) = .ok dockerCompose ∧
      (Closed dockerCompose ↔ ∀ name, Provided (databasePreset false) name →
        ∀ dependency ∈ references (databasePreset false) name,
          Provided (databasePreset false) dependency) :=
  ⟨_, rfl, depends_on_closed_exactly rfl⟩

/-- A gateway depends on the database that it refers to although it is excluded. -/
theorem excluded_database_missing :
    ∃ dockerCompose, run smallEnvironment (databasePreset true) = .ok dockerCompose ∧
      (dockerCompose.services.get "rest-gateway").bind DockerComposeService.dependsOn =
        some ["db"] ∧
      dockerCompose.services.names =
        ["peer-node", "api-node", "api-node-broker", "rest-gateway"] ∧
      ¬Closed dockerCompose := by
  refine ⟨_, rfl, rfl, rfl, ?_⟩
  intro hclosed
  have hmem := hclosed _ (.tail _ (.tail _ (.tail _ (.head _)))) "db" (.head _)
  revert hmem
  decide

end SymbolBootstrap.ComposeExclusions
