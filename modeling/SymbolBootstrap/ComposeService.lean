import SymbolBootstrap.ConfigLoader
import SymbolBootstrap.Library.Records

/-!
`ComposeService.run` for a target without a docker-compose.yml (or that is upgraded): the
services of the preset, keyed by their container names, merged with the user's `compose` and
pruned. What is asked of the host, the network and the addresses is a parameter. Every service
has a name, and the REST urls for the faucets arrive in the order of the faucets.
-/
namespace SymbolBootstrap.ComposeService

open Library.Documents Library.Merging Library.Records ConfigLoader

/-- A service of the docker-compose: its name, its dependencies, and every other field. -/
structure DockerComposeService where
  containerName : Option String := none
  dependsOn : Option (List String) := none
  others : Fields := []

structure DockerCompose where
  services : Record DockerComposeService
  others : Fields

/-- `boolean | number | string`. -/
inductive OpenPort
  | flag (value : Bool)
  | number (value : ℤ)
  | text (value : String)
deriving DecidableEq

structure DockerServicePreset where
  ipv4Address : Option String := none
  openPort : Option OpenPort := none
  host : Option String := none
  excludeDockerService : Bool := false
  compose : Option DockerComposeService := none
  dockerComposeDebugMode : Option Bool := none
  stopGracePeriod : Option String := none

structure DatabasePreset extends DockerServicePreset where
  name : String
  databaseName : Option String := none

structure NodePreset extends DockerServicePreset where
  name : String
  databaseHost : Option String := none
  nodeStopGracePeriod : Option String := none
  brokerName : Option String := none
  brokerHost : Option String := none
  brokerIpv4Address : Option String := none
  brokerOpenPort : Option OpenPort := none
  brokerExcludeDockerService : Bool := false
  brokerCompose : Option DockerComposeService := none
  brokerDockerComposeDebugMode : Option Bool := none
  brokerStopGracePeriod : Option String := none

structure GatewayPreset extends DockerServicePreset where
  name : String
  databaseHost : String
  apiNodeName : String

structure HttpsProxyPreset extends DockerServicePreset where
  name : String
  domains : Option String := none
  stage : String := "production"
  webSocket : Option String := none
  serverNamesHashBucketSize : Option ℤ := none

structure ExplorerPreset extends DockerServicePreset where
  name : String

structure FaucetPreset extends DockerServicePreset where
  name : String
  gateway : String

/-- The fields of the resolved preset that are read here. -/
structure ConfigPreset where
  databases : List DatabasePreset := []
  nodes : List NodePreset := []
  gateways : List GatewayPreset := []
  httpsProxies : List HttpsProxyPreset := []
  explorers : List ExplorerPreset := []
  faucets : List FaucetPreset := []
  databaseName : String
  mongoImage : String
  mongoComposeRunParam : String
  symbolServerImage : String
  symbolRestImage : String
  symbolExplorerImage : String
  symbolFaucetImage : String
  httpsPortalImage : String
  catapultAppFolder : String
  dataDirectory : String
  nodeStopGracePeriod : String
  brokerStopGracePeriod : String
  dockerComposeVersion : Value
  dockerComposeServiceRestart : String
  dockerComposeDebugMode : Bool
  subnet : Option String := none
  /-- The names of `nemesis.mosaics`. -/
  mosaics : List String
  baseNamespace : String
  currencyMosaicId : Option String
  compose : Option DockerCompose := none

/-- What a run asks for: the user of the containers, the known REST urls and the key of the
account of the faucets. -/
structure Environment where
  user : Option String
  restUrls : List String
  mainAccountPrivateKey : Option String

def optionalText (text : Option String) : Value := (text.map Value.str).getD .undefined

def texts (items : List String) : Value := .array (items.map Value.str) []

/-- A test such as `if (text)`. -/
def given (text : Option String) : Option String := text.filter (· ≠ "")

def resolveDebugOptions (dockerComposeDebugMode : Bool)
    (dockerComposeServiceDebugMode : Option Bool) : Fields :=
  if dockerComposeServiceDebugMode = some false then []
  else if dockerComposeServiceDebugMode = some true ∨ dockerComposeDebugMode = true then
    [("security_opt", texts ["seccomp:unconfined"]), ("cap_add", texts ["ALL"]),
      ("privileged", .bool true)]
  else []

def vol (hostFolder imageFolder : String) (readOnly : Bool) : String :=
  let mode := if readOnly then "ro" else "rw"
  s!"{hostFolder}:{imageFolder}:{mode}"

/-- The ports that are open, on the host under their own number or another one. -/
def resolvePorts (portConfigurations : List (ℕ × Option OpenPort)) : Value :=
  texts <| portConfigurations.filterMap fun (internalPort, openPort) =>
    match openPort with
    | none => none
    | some (.flag value) => if value then some s!"{internalPort}:{internalPort}" else none
    | some (.number value) => if value = 0 then none else some s!"{value}:{internalPort}"
    | some (.text value) =>
      if value = "" then none
      else if value = "true" then some s!"{internalPort}:{internalPort}"
      else some s!"{value}:{internalPort}"

/-- A list of strings merged into another one, item by item. -/
def mergeList (object source : Option (List String)) : Option (List String) :=
  match source with
  | none => object
  | some items => some (items ++ (object.getD []).drop items.length)

def DockerComposeService.merge (object source : DockerComposeService) : DockerComposeService where
  containerName := source.containerName.or object.containerName
  dependsOn := mergeList object.dependsOn source.dependsOn
  others := mergeFields object.others source.others

/-- `_.merge({}, ...sources)`. -/
def mergeServices (sources : List (Option DockerComposeService)) : DockerComposeService :=
  sources.foldl (fun object source => source.elim object object.merge) {}

def resolveService (servicePreset : DockerServicePreset) (rawService : DockerComposeService) :
    DockerComposeService :=
  let host := given servicePreset.host
  let ipv4Address := given servicePreset.ipv4Address
  let aliases := host.elim [] fun host => [("aliases", texts [host])]
  let address := ipv4Address.elim [] fun address => [("ipv4_address", Value.str address)]
  let networks : Fields :=
    if host.isSome ∨ ipv4Address.isSome then
      [("networks", .object [("default", .object (aliases ++ address))])]
    else []
  let hostname : Fields := host.elim [] fun host => [("hostname", .str host)]
  let stopGracePeriod : Fields := (given servicePreset.stopGracePeriod).elim [] fun period =>
    [("stop_grace_period", .str period)]
  let service := { rawService with
    others := spread rawService.others (networks ++ hostname ++ stopGracePeriod) }
  mergeServices [some service, servicePreset.compose]

section

variable (env : Environment) (presetData : ConfigPreset)

def databaseService (n : DatabasePreset) : DockerComposeService :=
  let databaseName := (orElse n.databaseName (some presetData.databaseName)).getD ""
  let command :=
    s!"mongod --dbpath=/dbdata --bind_ip={n.name} {presetData.mongoComposeRunParam}"
  resolveService n.toDockerServicePreset {
    containerName := some n.name
    others := spread
      [("user", optionalText env.user),
        ("environment", .object [("MONGO_INITDB_DATABASE", .str databaseName)]),
        ("image", .str presetData.mongoImage), ("command", .str command),
        ("stop_signal", .str "SIGINT"), ("working_dir", .str "/docker-entrypoint-initdb.d"),
        ("ports", resolvePorts [(27017, n.openPort)]),
        ("volumes", texts [vol "./mongo" "/docker-entrypoint-initdb.d" true,
          vol s!"../databases/{n.name}" "/dbdata" false])]
      (resolveDebugOptions presetData.dockerComposeDebugMode n.dockerComposeDebugMode) }

def nodeWorkingDirectory : String := "/symbol-workdir"

def nodeCommandsDirectory : String := "/symbol-commands"

def debugText (debugMode : Bool) : String := if debugMode then "DEBUG" else "NORMAL"

def isDebug (serviceDebugMode : Option Bool) : Bool :=
  presetData.dockerComposeDebugMode || serviceDebugMode.getD false

/-- `serverDependsOn`. -/
def serverDependsOn (n : NodePreset) : List String :=
  (given n.databaseHost).toList ++ (given n.brokerName).toList

/-- `brokerDependsOn`. -/
def brokerDependsOn (n : NodePreset) : List String := (given n.databaseHost).toList

def nodeService (n : NodePreset) : DockerComposeService :=
  let debugMode := isDebug presetData n.dockerComposeDebugMode
  let hasBroker := if (given n.brokerName).isSome then "true" else "false"
  let start := s!"/bin/bash {nodeCommandsDirectory}/start.sh {presetData.catapultAppFolder}"
  let serverCommand :=
    s!"{start} {presetData.dataDirectory} server broker {n.name} {debugText debugMode} {hasBroker}"
  resolveService
    { ipv4Address := n.ipv4Address, openPort := n.openPort,
      excludeDockerService := n.excludeDockerService, host := n.host, compose := n.compose,
      stopGracePeriod := orElse n.nodeStopGracePeriod (some presetData.nodeStopGracePeriod) }
    { containerName := some n.name
      dependsOn := some (serverDependsOn n)
      others := spread
        [("user", optionalText (if debugMode then none else env.user)),
          ("image", .str presetData.symbolServerImage), ("command", .str serverCommand),
          ("stop_signal", .str "SIGINT"), ("working_dir", .str nodeWorkingDirectory),
          ("restart", .str presetData.dockerComposeServiceRestart),
          ("ports", resolvePorts [(7900, n.openPort)]),
          ("volumes", texts [vol s!"../nodes/{n.name}" nodeWorkingDirectory false,
            vol "./server" nodeCommandsDirectory true])]
        (resolveDebugOptions presetData.dockerComposeDebugMode n.dockerComposeDebugMode) }

/-- The broker of a node takes its image and its volumes. The preset that is resolved says
whether the broker is excluded, but no one looks at it. -/
def brokerService (n : NodePreset) (brokerName : String) : DockerComposeService :=
  let debugMode := isDebug presetData n.brokerDockerComposeDebugMode
  let service := nodeService env presetData n
  let start := s!"/bin/bash {nodeCommandsDirectory}/start.sh {presetData.catapultAppFolder}"
  let brokerCommand :=
    s!"{start} {presetData.dataDirectory} broker server {brokerName} {debugText debugMode}"
  resolveService
    { ipv4Address := n.brokerIpv4Address, openPort := n.brokerOpenPort,
      excludeDockerService := n.brokerExcludeDockerService, host := n.brokerHost,
      compose := n.brokerCompose,
      stopGracePeriod := orElse n.brokerStopGracePeriod (some presetData.brokerStopGracePeriod) }
    { containerName := some brokerName
      dependsOn := some (brokerDependsOn n)
      others := spread
        [("user", optionalText (if debugMode then none else env.user)),
          ("image", (field service.others "image").getD .undefined),
          ("working_dir", .str nodeWorkingDirectory), ("command", .str brokerCommand),
          ("ports", resolvePorts [(7902, n.brokerOpenPort)]), ("stop_signal", .str "SIGINT"),
          ("restart", .str presetData.dockerComposeServiceRestart),
          ("volumes", (field service.others "volumes").getD .undefined)]
        (resolveDebugOptions presetData.dockerComposeDebugMode n.brokerDockerComposeDebugMode) }

def gatewayService (n : GatewayPreset) : DockerComposeService :=
  resolveService n.toDockerServicePreset {
    containerName := some n.name
    dependsOn := some [n.databaseHost]
    others := spread
      [("user", optionalText env.user),
        ("environment", .object [("npm_config_cache", .str nodeWorkingDirectory)]),
        ("image", .str presetData.symbolRestImage),
        ("command", .str "npm start --prefix /app /symbol-workdir/rest.json"),
        ("stop_signal", .str "SIGINT"), ("working_dir", .str nodeWorkingDirectory),
        ("ports", resolvePorts [(3000, n.openPort)]),
        ("restart", .str presetData.dockerComposeServiceRestart),
        ("volumes", texts [vol s!"../gateways/{n.name}" nodeWorkingDirectory false])]
      (resolveDebugOptions presetData.dockerComposeDebugMode n.dockerComposeDebugMode) }

/-- The domains of a proxy, by default those of the first gateway on the proxy's host. -/
def resolveDomains (n : HttpsProxyPreset) : Except String String :=
  match given n.domains with
  | some domains => return domains
  | none =>
    match presetData.gateways with
    | [] => throw s!"HTTPS Proxy {n.name} is invalid, 'domains' property could not be resolved!"
    | gateway :: _ =>
      match given (orElse n.host (presetData.nodes.head?.bind fun node => node.host)) with
      | none =>
        throw (s!"HTTPS Proxy {n.name} is invalid, 'host' property could not be resolved." ++
          " It must be set to a valid DNS record.")
      | some host => return s!"{host} -> http://{gateway.name}:3000"

/-- `restDependency`, as a list. -/
def proxyDependsOn : List String :=
  (given (presetData.gateways.head?.map GatewayPreset.name)).toList

def httpsProxyService (n : HttpsProxyPreset) : Except String DockerComposeService := do
  let domains ← resolveDomains presetData n
  let bucketSize := n.serverNamesHashBucketSize.elim .undefined fun size => Value.number size
  return resolveService n.toDockerServicePreset {
    containerName := some n.name
    dependsOn := some (proxyDependsOn presetData)
    others := spread
      [("image", .str presetData.httpsPortalImage), ("stop_signal", .str "SIGINT"),
        ("ports", resolvePorts [(80, some (.flag true)), (443, n.openPort)]),
        ("environment", .object [("DOMAINS", .str domains),
          ("WEBSOCKET", optionalText n.webSocket), ("STAGE", .str n.stage),
          ("SERVER_NAMES_HASH_BUCKET_SIZE", bucketSize)]),
        ("restart", .str presetData.dockerComposeServiceRestart)]
      (resolveDebugOptions presetData.dockerComposeDebugMode n.dockerComposeDebugMode) }

def explorerService (n : ExplorerPreset) : DockerComposeService :=
  let entrypoint := s!"ash -c \"/bin/ash {nodeCommandsDirectory}/run.sh {n.name}\""
  resolveService n.toDockerServicePreset {
    containerName := some n.name
    others := spread
      [("image", .str presetData.symbolExplorerImage), ("entrypoint", .str entrypoint),
        ("stop_signal", .str "SIGINT"), ("working_dir", .str nodeWorkingDirectory),
        ("ports", resolvePorts [(4000, n.openPort)]),
        ("restart", .str presetData.dockerComposeServiceRestart),
        ("volumes", texts [vol s!"../explorers/{n.name}" nodeWorkingDirectory true,
          vol "./explorer" nodeCommandsDirectory true])]
      (resolveDebugOptions presetData.dockerComposeDebugMode n.dockerComposeDebugMode) }

/-- The REST urls of the gateways, with the known ones after them. -/
def restNodes : List String :=
  presetData.gateways.map (fun gateway =>
    let node := presetData.nodes.find? fun node => node.name = gateway.apiNodeName
    let nodeHost := orElse (node.bind fun node => node.host) (some "localhost")
    let host := (orElse gateway.host nodeHost).getD ""
    s!"http://{host}:3000") ++ env.restUrls

/-- `resolveRestUrlsForServices().defaultNode`. -/
def defaultNode : Except String String :=
  match given (restNodes env presetData).head? with
  | some url => return url
  | none => throw "Rest node could not be resolved!"

/-- `HandlebarsUtils.toSimpleHex`: without quotes and without the prefix `0x`. -/
def toSimpleHex (renderedText : String) : String :=
  let digits := renderedText.toList.filter fun c => c ≠ Char.ofNat 39
  String.ofList (if ['0', 'x'].isPrefixOf digits then digits.drop 2 else digits)

def faucetService (n : FaucetPreset) : Except String DockerComposeService :=
  match presetData.mosaics with
  | [] => throw "Cannot read properties of undefined (reading 'name')"
  | mosaic :: _ => do
    let defaultNode ← defaultNode env presetData
    let fullName := s!"{presetData.baseNamespace}.{mosaic}"
    return resolveService n.toDockerServicePreset {
      containerName := some n.name
      dependsOn := some [n.gateway]
      others := spread
        [("image", .str presetData.symbolFaucetImage), ("stop_signal", .str "SIGINT"),
          ("environment", .object [("DEFAULT_NODE", .str defaultNode),
            ("DEFAULT_NODE_CLIENT", .str defaultNode), ("NATIVE_CURRENCY_NAME", .str fullName),
            ("FAUCET_PRIVATE_KEY", .str (env.mainAccountPrivateKey.getD "")),
            ("NATIVE_CURRENCY_ID", .str (toSimpleHex (presetData.currencyMosaicId.getD "")))]),
          ("restart", .str presetData.dockerComposeServiceRestart),
          ("ports", resolvePorts [(4000, n.openPort)])]
        (resolveDebugOptions presetData.dockerComposeDebugMode n.dockerComposeDebugMode) }

/-- A filter such as `(d) => !d.excludeDockerService`. -/
def enabled {α : Type} (service : α → DockerServicePreset) (presets : List α) : List α :=
  presets.filter fun preset => !(service preset).excludeDockerService

def enabledNodes : List NodePreset := enabled NodePreset.toDockerServicePreset presetData.nodes

/-- The services, in the order in which they are pushed: the brokers after all the nodes. -/
def services : Except String (List DockerComposeService) := do
  let databases := enabled DatabasePreset.toDockerServicePreset presetData.databases
  let brokers := (enabledNodes presetData).filterMap fun n =>
    (given n.brokerName).map (brokerService env presetData n)
  let gateways := enabled GatewayPreset.toDockerServicePreset presetData.gateways
  let httpsProxies ← (enabled HttpsProxyPreset.toDockerServicePreset presetData.httpsProxies).mapM
    (httpsProxyService presetData)
  let explorers := enabled ExplorerPreset.toDockerServicePreset presetData.explorers
  let faucets ← (enabled FaucetPreset.toDockerServicePreset presetData.faucets).mapM
    (faucetService env presetData)
  return databases.map (databaseService env presetData) ++
    (enabledNodes presetData).map (nodeService env presetData) ++ brokers ++
    gateways.map (gatewayService env presetData) ++ httpsProxies ++
    explorers.map (explorerService presetData) ++ faucets

end

mutual

/-- What `pruneEmpty` leaves of a copy of a value, when it does not delete it. The copy of an
array has none of its named fields. -/
def pruneValue : Value → Option Value
  | .scalar .undefined => none
  | .scalar .null => none
  | .scalar .nan => none
  | .scalar value => some (.scalar value)
  | .str text => some (.str text)
  | .date _ => none
  | .binary bytes => if bytes.isEmpty then none else some (.binary bytes)
  | .array items _ =>
      let items := pruneItems items
      if items.isEmpty then none else some (.array items [])
  | .object fields =>
      let fields := pruneFields fields
      if fields.isEmpty then none else some (.object fields)

def pruneItems : List Value → List Value
  | [] => []
  | item :: rest => (pruneValue item).toList ++ pruneItems rest

def pruneFields : Fields → Fields
  | [] => []
  | (name, value) :: rest =>
      ((pruneValue value).map fun value => (name, value)).toList ++ pruneFields rest

end

/-- `pruneEmpty` for a service: it is deleted when nothing is left of it. -/
def pruneService (service : DockerComposeService) : Option DockerComposeService :=
  let dependsOn := service.dependsOn.filter fun items => !items.isEmpty
  let others := pruneFields service.others
  if service.containerName.isNone && dependsOn.isNone && others.isEmpty then none
  else some { containerName := service.containerName, dependsOn := dependsOn, others := others }

/-- `Utils.pruneEmpty` for the docker-compose. -/
def pruneEmpty (dockerCompose : DockerCompose) : DockerCompose where
  services := dockerCompose.services.filterMap pruneService
  others := pruneFields dockerCompose.others

/-- `_.merge({}, dockerCompose, compose)`. -/
def mergeCompose (dockerCompose : DockerCompose) (compose : Option DockerCompose) : DockerCompose :=
  match compose with
  | none => dockerCompose
  | some compose =>
    { services := .mergeWith (fun object source => mergeServices [object, some source])
        dockerCompose.services compose.services
      others := mergeFields dockerCompose.others compose.others }

def serviceKey (service : DockerComposeService) : String := service.containerName.getD "undefined"

def run (env : Environment) (presetData : ConfigPreset) : Except String DockerCompose := do
  let services ← services env presetData
  let networks : Fields := (given presetData.subnet).elim [] fun subnet =>
    [("networks", .object [("default", .object [("ipam", .object
      [("config", .array [.object [("subnet", .str subnet)]] [])])])])]
  let dockerCompose : DockerCompose :=
    { services := .keyBy serviceKey services
      others := ("version", presetData.dockerComposeVersion) :: networks }
  return pruneEmpty (mergeCompose dockerCompose presetData.compose)

end SymbolBootstrap.ComposeService
