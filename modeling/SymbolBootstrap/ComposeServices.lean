import SymbolBootstrap.ComposeService
import SymbolBootstrap.Library.Throwing

/-!
The services that a docker-compose has, and those that they depend on, read off the preset:
what is enabled, under which name, with which references, and what the user's `compose`
sections say of it.
-/
namespace SymbolBootstrap.ComposeServices

open Library.Records Library.Throwing ComposeService

/-- A service as the preset and the user's section declare it. -/
structure Declared where
  name : String
  references : Option (List String)

def declare (name : String) (references : Option (List String))
    (compose : Option DockerComposeService) : Declared where
  name := (compose.bind DockerComposeService.containerName).getD name
  references := mergeList references (compose.bind DockerComposeService.dependsOn)

section

variable (presetData : ConfigPreset)

/-- The brokers of the nodes that are enabled. -/
def brokers : List (NodePreset × String) :=
  (enabledNodes presetData).filterMap fun n => (given n.brokerName).map fun name => (n, name)

def declaredServices : List Declared :=
  (enabled DatabasePreset.toDockerServicePreset presetData.databases).map
      (fun n => declare n.name none n.compose) ++
    (enabledNodes presetData).map
      (fun n => declare n.name (some (serverDependsOn n)) n.compose) ++
    (brokers presetData).map
      (fun broker => declare broker.2 (some (brokerDependsOn broker.1)) broker.1.brokerCompose) ++
    (enabled GatewayPreset.toDockerServicePreset presetData.gateways).map
      (fun n => declare n.name (some [n.databaseHost]) n.compose) ++
    (enabled HttpsProxyPreset.toDockerServicePreset presetData.httpsProxies).map
      (fun n => declare n.name (some (proxyDependsOn presetData)) n.compose) ++
    (enabled ExplorerPreset.toDockerServicePreset presetData.explorers).map
      (fun n => declare n.name none n.compose) ++
    (enabled FaucetPreset.toDockerServicePreset presetData.faucets).map
      (fun n => declare n.name (some [n.gateway]) n.compose)

/-- What the user's `compose` says of a service. -/
def userService (name : String) : Option DockerComposeService :=
  presetData.compose.bind fun compose => compose.services.get name

/-- A service is enabled, or the user's `compose` adds one that is not empty. -/
def Provided (name : String) : Prop :=
  (∃ service ∈ declaredServices presetData, service.name = name) ∨
    ∃ service, userService presetData name = some service ∧
      (pruneService (mergeServices [none, some service])).isSome = true

/-- The references of a service: of those enabled under its name the last one counts. -/
def references (name : String) : List String :=
  let service := (declaredServices presetData).reverse.find? fun service => service.name = name
  let user := userService presetData name
  (mergeList (service.bind Declared.references) (user.bind DockerComposeService.dependsOn)).getD []

end

section

theorem mergeList_none (items : Option (List String)) : mergeList none items = items := by
  cases items with
  | none => rfl
  | some items => simp [mergeList]

theorem resolveService_containerName (servicePreset : DockerServicePreset)
    (rawService : DockerComposeService) :
    (resolveService servicePreset rawService).containerName =
      (servicePreset.compose.bind DockerComposeService.containerName).or
        rawService.containerName := by
  unfold resolveService mergeServices
  cases servicePreset.compose with
  | none => simp [DockerComposeService.merge]
  | some compose => simp [DockerComposeService.merge]

theorem resolveService_dependsOn (servicePreset : DockerServicePreset)
    (rawService : DockerComposeService) :
    (resolveService servicePreset rawService).dependsOn =
      mergeList rawService.dependsOn
        (servicePreset.compose.bind DockerComposeService.dependsOn) := by
  unfold resolveService mergeServices
  cases servicePreset.compose with
  | none => exact mergeList_none rawService.dependsOn
  | some compose => simp [DockerComposeService.merge, mergeList_none]

/-- A service of the list is as it was declared. -/
def IsDeclared (declared : Declared) (service : DockerComposeService) : Prop :=
  service.containerName = some declared.name ∧ service.dependsOn = declared.references

theorem isDeclared_resolveService {servicePreset : DockerServicePreset}
    {rawService : DockerComposeService} {name : String} (h : rawService.containerName = some name) :
    IsDeclared (declare name rawService.dependsOn servicePreset.compose)
      (resolveService servicePreset rawService) := by
  refine ⟨?_, resolveService_dependsOn servicePreset rawService⟩
  rw [resolveService_containerName, h, declare]
  cases servicePreset.compose.bind DockerComposeService.containerName <;> rfl

variable {env : Environment} {presetData : ConfigPreset}

theorem databaseService_declared (n : DatabasePreset) :
    IsDeclared (declare n.name none n.compose) (databaseService env presetData n) :=
  isDeclared_resolveService rfl

theorem nodeService_declared (n : NodePreset) :
    IsDeclared (declare n.name (some (serverDependsOn n)) n.compose)
      (nodeService env presetData n) :=
  isDeclared_resolveService rfl

theorem brokerService_declared (broker : NodePreset × String) :
    IsDeclared (declare broker.2 (some (brokerDependsOn broker.1)) broker.1.brokerCompose)
      (brokerService env presetData broker.1 broker.2) :=
  isDeclared_resolveService rfl

theorem gatewayService_declared (n : GatewayPreset) :
    IsDeclared (declare n.name (some [n.databaseHost]) n.compose)
      (gatewayService env presetData n) :=
  isDeclared_resolveService rfl

theorem httpsProxyService_declared {n : HttpsProxyPreset} {service : DockerComposeService}
    (h : httpsProxyService presetData n = .ok service) :
    IsDeclared (declare n.name (some (proxyDependsOn presetData)) n.compose) service := by
  obtain ⟨domains, -, hpure⟩ := bind_ok.mp h
  cases hpure
  exact isDeclared_resolveService rfl

theorem explorerService_declared (n : ExplorerPreset) :
    IsDeclared (declare n.name none n.compose) (explorerService presetData n) :=
  isDeclared_resolveService rfl

theorem faucetService_declared {n : FaucetPreset} {service : DockerComposeService}
    (h : faucetService env presetData n = .ok service) :
    IsDeclared (declare n.name (some [n.gateway]) n.compose) service := by
  unfold faucetService at h
  cases hmosaics : presetData.mosaics with
  | nil =>
    rw [hmosaics] at h
    cases h
  | cons mosaic rest =>
    rw [hmosaics] at h
    obtain ⟨url, -, hpure⟩ := bind_ok.mp h
    cases hpure
    exact isDeclared_resolveService rfl

theorem forall₂_map_map {α : Type} {f : α → Declared} {g : α → DockerComposeService}
    (h : ∀ a, IsDeclared (f a) (g a)) (presets : List α) :
    List.Forall₂ IsDeclared (presets.map f) (presets.map g) := by
  rw [List.forall₂_map_left_iff, List.forall₂_map_right_iff, List.forall₂_same]
  exact fun a _ => h a

/-- The services of a run are the declared ones, in the same order. -/
theorem services_declared {services : List DockerComposeService}
    (h : ComposeService.services env presetData = .ok services) :
    List.Forall₂ IsDeclared (declaredServices presetData) services := by
  obtain ⟨httpsProxies, hproxies, hnext⟩ := bind_ok.mp h
  obtain ⟨faucets, hfaucets, hpure⟩ := bind_ok.mp hnext
  cases hpure
  have hbrokers : (enabledNodes presetData).filterMap (fun n =>
      (given n.brokerName).map (brokerService env presetData n)) =
      (brokers presetData).map fun broker => brokerService env presetData broker.1 broker.2 := by
    rw [brokers, List.map_filterMap]
    simp only [Option.map_map]
    rfl
  rw [hbrokers]
  unfold declaredServices
  refine List.rel_append (List.rel_append (List.rel_append (List.rel_append (List.rel_append
    (List.rel_append ?_ ?_) ?_) ?_) ?_) ?_) ?_
  · exact forall₂_map_map databaseService_declared _
  · exact forall₂_map_map nodeService_declared _
  · exact forall₂_map_map brokerService_declared _
  · exact forall₂_map_map gatewayService_declared _
  · rw [List.forall₂_map_left_iff]
    exact (mapM_ok.mp hproxies).imp fun _ _ => httpsProxyService_declared
  · exact forall₂_map_map explorerService_declared _
  · rw [List.forall₂_map_left_iff]
    exact (mapM_ok.mp hfaucets).imp fun _ _ => faucetService_declared

/-- Of the services of a name the same one is found, declared or resolved. -/
theorem find?_declared {declared : List Declared} {services : List DockerComposeService}
    (h : List.Forall₂ IsDeclared declared services) (name : String) :
    Option.Rel IsDeclared (declared.find? fun service => service.name = name)
      (services.find? fun service => serviceKey service = name) := by
  induction h with
  | nil => exact .none
  | @cons declared service _ _ hdeclared _ ih =>
    have hkey : serviceKey service = declared.name := by
      rw [serviceKey, hdeclared.1, Option.getD_some]
    by_cases hname : declared.name = name
    · simpa [List.find?_cons, hkey, hname] using Option.Rel.some hdeclared
    · simpa [List.find?_cons, hkey, hname] using ih

/-- A service with the user's section merged into it. -/
def withUser (service user : Option DockerComposeService) : Option DockerComposeService :=
  match user with
  | none => service
  | some user => some (mergeServices [service, some user])

/-- What a run makes of each name. -/
theorem run_get {dockerCompose : DockerCompose} (h : run env presetData = .ok dockerCompose)
    (name : String) : ∃ service, Option.Rel IsDeclared
        ((declaredServices presetData).reverse.find? fun service => service.name = name) service ∧
      dockerCompose.services.get name =
        (withUser service (userService presetData name)).bind pruneService := by
  obtain ⟨services, hservices, hpure⟩ := bind_ok.mp h
  cases hpure
  have hdeclared := List.forall₂_reverse_iff.mpr (services_declared hservices)
  refine ⟨_, find?_declared hdeclared name, ?_⟩
  unfold pruneEmpty mergeCompose userService
  cases presetData.compose with
  | none =>
    rw [Record.get_filterMap, Record.get_keyBy]
    rfl
  | some compose =>
    rw [Record.get_filterMap, Record.get_mergeWith, Record.get_keyBy, Option.bind_some]
    cases compose.services.get name <;> rfl

theorem pruneService_isSome {service : DockerComposeService}
    (h : service.containerName.isSome = true) : (pruneService service).isSome = true := by
  rw [pruneService, Option.isNone_eq_false_iff.mpr h, Bool.false_and, Bool.false_and,
    if_neg (by decide)]
  rfl

/-- Pruning deletes no dependency. -/
theorem pruneService_eq {service pruned : DockerComposeService}
    (h : pruneService service = some pruned) :
    pruned.containerName = service.containerName ∧
      pruned.dependsOn.getD [] = service.dependsOn.getD [] := by
  unfold pruneService at h
  simp only at h
  split at h
  · cases h
  · cases h
    refine ⟨rfl, ?_⟩
    obtain _ | _ | ⟨first, rest⟩ := service.dependsOn <;> rfl

theorem mergeServices_containerName (service : Option DockerComposeService)
    (user : DockerComposeService) :
    (mergeServices [service, some user]).containerName =
      user.containerName.or (service.bind DockerComposeService.containerName) := by
  cases service <;> simp [mergeServices, DockerComposeService.merge]

theorem mergeServices_dependsOn (service : Option DockerComposeService)
    (user : DockerComposeService) :
    (mergeServices [service, some user]).dependsOn =
      mergeList (service.bind DockerComposeService.dependsOn) user.dependsOn := by
  cases service with
  | none => rfl
  | some service => simp [mergeServices, DockerComposeService.merge, mergeList_none]

theorem withUser_dependsOn (service user : Option DockerComposeService) :
    (withUser service user).bind DockerComposeService.dependsOn =
      mergeList (service.bind DockerComposeService.dependsOn)
        (user.bind DockerComposeService.dependsOn) := by
  cases user with
  | none => rfl
  | some user => exact mergeServices_dependsOn service user

theorem rel_dependsOn {declared : Option Declared} {service : Option DockerComposeService}
    (h : Option.Rel IsDeclared declared service) :
    service.bind DockerComposeService.dependsOn = declared.bind Declared.references := by
  cases h with
  | none => rfl
  | some hsame => exact hsame.2

/-- A name is in the docker-compose when its service is enabled or added by the user. -/
theorem mem_names_run {dockerCompose : DockerCompose} (h : run env presetData = .ok dockerCompose)
    (name : String) : name ∈ dockerCompose.services.names ↔ Provided presetData name := by
  obtain ⟨service, hdeclared, hget⟩ := run_get h name
  rw [Record.mem_names_iff, ← Option.isSome_iff_exists, hget, Provided]
  generalize hfound : ((declaredServices presetData).reverse.find? fun service =>
    service.name = name) = found at hdeclared
  cases hdeclared with
  | none =>
    have hnone : ¬∃ declared ∈ declaredServices presetData, declared.name = name := by
      simpa using hfound
    rw [or_iff_right hnone]
    cases userService presetData name with
    | none => simp [withUser]
    | some user => simp [withUser]
  | @some declared service hsame =>
    have hsome : ∃ declared ∈ declaredServices presetData, declared.name = name :=
      ⟨declared, List.mem_reverse.mp (List.mem_of_find?_eq_some hfound),
        by simpa using List.find?_some hfound⟩
    have hkept : ∀ user, ((withUser (some service) user).bind pruneService).isSome = true := by
      intro user
      cases user with
      | none => exact pruneService_isSome (by rw [hsame.1]; rfl)
      | some user =>
        refine pruneService_isSome ?_
        rw [mergeServices_containerName, Option.bind_some, hsame.1, Option.isSome_or]
        exact Bool.or_true _
    exact iff_of_true (hkept _) (.inl hsome)

/-- The dependencies of a service are its references. -/
theorem dependsOn_run {dockerCompose : DockerCompose} {name : String}
    {service : DockerComposeService} (h : run env presetData = .ok dockerCompose)
    (hget : dockerCompose.services.get name = some service) :
    service.dependsOn.getD [] = references presetData name := by
  obtain ⟨resolved, hdeclared, hrun⟩ := run_get h name
  rw [hget] at hrun
  obtain ⟨merged, hmerged, hpruned⟩ := Option.bind_eq_some_iff.mp hrun.symm
  have hdepends := withUser_dependsOn resolved (userService presetData name)
  rw [hmerged, Option.bind_some, rel_dependsOn hdeclared] at hdepends
  rw [(pruneService_eq hpruned).2, hdepends]
  rfl

end

end SymbolBootstrap.ComposeServices
