import Mathlib.Algebra.Order.Floor.Ring
import Mathlib.Data.Rat.Floor
import SymbolBootstrap.CryptoUtils
import SymbolBootstrap.Library.Merging

/-!
`ConfigLoader.createPresetData`: the presets merged into one, the nodes with their defaults,
and the lists of services and the nemesis with their repetitions and templates expanded.
What is loaded from files and Handlebars are parameters. Every preset is an object, and the
lists of services, `repeat`, `preset`, `assembly` and `customPresetCache` have the types that
the source gives them.
-/
namespace SymbolBootstrap.ConfigLoader

open Library.Documents Library.Merging

/-- What the loader uses: the preset files, and `HandlebarsUtils.runTemplate`. -/
structure Environment where
  sharedPreset : Fields
  loadNetworkPreset : String → Except String Fields
  loadAssembly : String → String → Except String Fields
  runTemplate : String → Fields → Except String String

/-- The parameters of `createPresetData`, with the custom preset as it was loaded. -/
structure Params where
  preset : Option String
  assembly : Option String
  customPresetFileObject : Option Fields
  customPresetObject : Option Fields
  oldPresetData : Option Fields

/-- A field of a preset that holds a text, when a test such as `if (text)` takes it. -/
def textField (preset : Option Fields) (name : String) : Option String :=
  match preset.bind fun fields => field fields name with
  | some (.str text) => if text = "" then none else some text
  | _ => none

/-- The items of a field of a preset that is a list. -/
def listField (preset : Fields) (name : String) : List Value :=
  match field preset name with
  | some (.array items _) => items
  | _ => []

/-- A field of a preset that is an object, or an empty one. -/
def objectField (preset : Option Fields) (name : String) : Fields :=
  match preset.bind fun fields => field fields name with
  | some (.object fields) => fields
  | _ => []

/-- The last preset in which a field is not empty decides on it alone. -/
def replaceByLast (presets : List (Option Fields)) (presetData : Fields) (name : String) : Fields :=
  let values := presets.reverse.filterMap fun preset => preset.bind fun fields => field fields name
  match values.find? fun value => !isEmpty value with
  | some value => setField presetData name value
  | none => presetData

def mergePresets (presets : List (Option Fields)) : Fields :=
  ["inflation", "knownRestGateways", "knownPeers"].foldl (replaceByLast presets) (merge presets)

/-- A test such as `if (node.api)`. -/
def isSet (value : Value) (name : String) : Bool :=
  ((field (ownFields value) name).map Value.truthy).getD false

/-- The defaults of a node that serves clients or not. -/
def nodeDefaults (syncsource api : Bool) : Fields :=
  [("syncsource", .bool syncsource), ("filespooling", .bool api),
    ("partialtransaction", .bool api), ("addressextraction", .bool api), ("mongo", .bool api),
    ("zeromq", .bool api), ("enableAutoSyncCleanup", .bool (!api))]

def getDefaultConfiguration (node : Value) : Fields :=
  if isSet node "harvesting" && isSet node "api" then nodeDefaults true true
  else if isSet node "api" then nodeDefaults false true
  else nodeDefaults true false

def dynamicDefaultNodeConfiguration (nodes : List Value) : List Value :=
  nodes.map fun node => .object (spread (getDefaultConfiguration node) (ownFields node))

/-- The enumeration `Assembly`. -/
def assemblies : List String := ["dual", "peer", "api", "demo", "multinode", "services"]

def defaultAssembly (preset : String) : Option String :=
  if preset = "bootstrap" then some "multinode" else none

/-- `text || other`. -/
def orElse (text other : Option String) : Option String :=
  (text.filter (· ≠ "")).or other

/-- The custom preset of the parameters, or the one of the earlier run. -/
def resolvedCustomPreset (params : Params) : Fields :=
  let providedCustomPreset :=
    mergePresets [params.customPresetFileObject, params.customPresetObject]
  if providedCustomPreset.isEmpty then objectField params.oldPresetData "customPresetCache"
  else providedCustomPreset

/-- A text of the parameters, of the custom presets or of the earlier run. -/
def resolveText (params : Params) (param : Option String) (name : String) : Option String :=
  orElse param (orElse (textField params.customPresetObject name)
    (orElse (textField params.customPresetFileObject name) (textField params.oldPresetData name)))

/-- `_.range(stop)`. -/
def range (stop : ℚ) : Except String (List ℤ) :=
  if ⌈|stop|⌉ > 4294967295 then throw "Invalid array length"
  else if 0 ≤ stop then return (List.range ⌈stop⌉.toNat).map fun index => (index : ℤ)
  else return (List.range ⌈-stop⌉.toNat).map fun index => -(index : ℤ)

/-- The indices for which a service is repeated; without `repeat` there is one. -/
def repeatIndices (service : Fields) : Except String (List ℤ) :=
  match field service "repeat" with
  | some (.scalar (.number count)) => range count
  | some (.scalar (.infinity _)) => throw "Invalid array length"
  | _ => return [0]

/-- `_.omit(service, 'repeat')`. -/
def omitRepeat (service : Fields) : Fields := service.filter fun entry => entry.1 ≠ "repeat"

/-- `{ ...context, ...service, $index: index }`. -/
def serviceContext (context service : Fields) (index : ℤ) : Fields :=
  setField (spread context service) "$index" (.number index)

section

variable (runTemplate : String → Fields → Except String String)

mutual

def applyValueTemplate (context : Fields) : Value → Except String Value
  | .scalar value => return .scalar value
  | .str text =>
      if text = "" then return .str text
      else do
        let rendered ← runTemplate text context
        return .str rendered
  | .date _ => return .object []
  | .binary bytes => return .object (byteFields bytes)
  | .array items _ => do
      let services ← expandServicesRepeat context items
      return .array services []
  | .object fields => do
      let values ← mapValues (spread context fields) fields
      return .object values
termination_by structural value => value

def expandServicesRepeat (context : Fields) : List Value → Except String (List Value)
  | [] => return []
  | service :: rest => do
      let services ← repeatService context service
      let others ← expandServicesRepeat context rest
      return services ++ others
termination_by structural services => services

/-- One service of the list, repeated. What is no object stays as it is. -/
def repeatService (context : Fields) : Value → Except String (List Value)
  | .scalar value => return [.scalar value]
  | .str text => return [.str text]
  | .date _ => return [.object []]
  | .binary bytes => return [.object (byteFields bytes)]
  | .array items named => do
      let service := ownFields (.array items named)
      let indices ← repeatIndices service
      indices.mapM fun index => do
        let values ← mapIndexed (serviceContext context service index) 0 items
        let others ← mapValues (serviceContext context service index) named
        return .object (omitRepeat (values ++ others))
  | .object fields => do
      let indices ← repeatIndices fields
      indices.mapM fun index => do
        let values ← mapValues (serviceContext context fields index) fields
        return .object (omitRepeat values)
termination_by structural service => service

/-- `_.mapValues` with `applyValueTemplate`. -/
def mapValues (context : Fields) : Fields → Except String Fields
  | [] => return []
  | (name, value) :: rest => do
      let value ← applyValueTemplate context value
      let values ← mapValues context rest
      return (name, value) :: values
termination_by structural fields => fields

def mapIndexed (context : Fields) (start : ℕ) : List Value → Except String Fields
  | [] => return []
  | value :: rest => do
      let value ← applyValueTemplate context value
      let values ← mapIndexed context (start + 1) rest
      return (toString start, value) :: values
termination_by structural items => items

end

/-- The lists of services that are expanded. -/
def serviceNames : List String :=
  ["databases", "nodes", "gateways", "httpsProxies", "explorers", "faucets"]

def expandRepeat (presetData : Fields) : Except String Fields := do
  let services ← serviceNames.mapM fun name => do
    let services ← expandServicesRepeat runTemplate presetData (listField presetData name)
    return (name, Value.array services [])
  let nemesis ← applyValueTemplate runTemplate presetData
    ((field presetData "nemesis").getD .undefined)
  return spread presetData (services ++ [("nemesis", nemesis)])

end

/-- The merged preset, checked, with the fields that the run decides on. -/
def withDynamicDefaults (preset assembly : String) (customPreset presetData : Fields) :
    Except String Fields :=
  if isSet (.object presetData) "networkType" then
    return spread presetData [("version", .number 1), ("preset", .str preset),
      ("assembly", .str assembly),
      ("nodes", .array (dynamicDefaultNodeConfiguration (listField presetData "nodes")) []),
      ("customPresetCache", .object customPreset)]
  else throw "Network Type could not be resolved. Have your provided the right --preset?"

/-- The preset that is expanded: the merged one with the defaults of its nodes. -/
def mergedPresetData (env : Environment) (params : Params) : Except String Fields := do
  match resolveText params params.preset "preset" with
  | none => throw ("Preset value could not be resolved from target folder contents. " ++
      "Please provide the --preset parameter when running the config/start command.")
  | some preset =>
    let networkPreset ← env.loadNetworkPreset preset
    match orElse (resolveText params params.assembly "assembly") (defaultAssembly preset) with
    | none =>
      let values := ", ".intercalate assemblies
      throw (s!"Preset {preset} requires assembly (-a, --assembly option). " ++
        s!"Possible values are: {values}")
    | some assembly =>
      let assemblyPreset ← env.loadAssembly preset assembly
      let customPreset := resolvedCustomPreset params
      let presetData := mergePresets
        [some env.sharedPreset, some networkPreset, some assemblyPreset, some customPreset]
      withDynamicDefaults preset assembly customPreset presetData

def createPresetData (env : Environment) (params : Params) : Except String Fields := do
  let presetData ← mergedPresetData env params
  expandRepeat env.runTemplate presetData

end SymbolBootstrap.ConfigLoader
