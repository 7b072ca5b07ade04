import Mathlib.Data.Finset.Basic
import Wmfs.Manifest.Metadata

/-!
# `Wmfs.Runtime.Registry`: plugins, operations and their names

`PluginManifest` (`plugins.py`), `OperationRegistry` (`registry.py`), and the operation tables
that the two backends execute: the one that `BundledBackend.initialize` builds, and the registry
of an `IsolatedBackend`.

A public operation has the name `plugin.operation`, and the short name `operation` when one
plugin alone declares it. Identifiers have no dots, so an `OperationName` is short or qualified.
The dictionaries of the source are looked up by such names, and here they are lookups in the list
of plugins: `register` refuses a second plugin of one name, and `validate_plugin_metadata` a
second operation of one name.
-/

set_option autoImplicit false

namespace Wmfs.Runtime

open Wmfs.Manifest (OperationMetadata)

/-- The name of an operation: `add`, or `reference.add`. -/
inductive OperationName where
  | short (name : String)
  | qualified (plugin name : String)
  deriving DecidableEq, Repr

/-- `PluginMetadata` as the registry reads it. -/
structure PluginMetadata where
  name : String
  operations : List OperationMetadata
  distinct : (operations.map fun operation => operation.name).Nodup

/-- `LoggingMode`. -/
inductive LoggingMode where
  | disabled
  | centralized
  | workerFile
  deriving DecidableEq, Repr

/-- `LoggingOptions`. -/
structure LoggingOptions where
  mode : LoggingMode
  level : Nat
  queueCapacity : Nat
  recordBytes : Nat
  file : Option String
  deriving DecidableEq, Repr

/-- `DISABLED_LOGGING`. -/
def DISABLED_LOGGING : LoggingOptions := ⟨.disabled, 20, 256, 16384, none⟩

/-- `EMPTY_CONFIGURATION_BYTES`, as text. -/
def EMPTY_CONFIGURATION_BYTES : String := "{}"

/-- `ConfigurationMetadata`: a schema, of which the runtime reads the fingerprint. -/
structure ConfigurationMetadata where
  fingerprint : Nat
  deriving DecidableEq, Repr

/-- `PluginManifest`. The canonical configuration is text. -/
structure PluginManifest where
  metadata : PluginMetadata
  configuration : Option ConfigurationMetadata
  configurationBytes : String
  pythonProvider : Option String
  bundledNamespace : Option String
  hasInitialize : Bool
  hasShutdown : Bool
  logging : LoggingOptions

/-- `manifest.name`, which is the name in its metadata. -/
def PluginManifest.name (manifest : PluginManifest) : String := manifest.metadata.name

/-- The operation of this name. -/
def PluginMetadata.find (plugin : PluginMetadata) (name : String) : Option OperationMetadata :=
  plugin.operations.find? fun operation => operation.name == name

/-! ### The registry -/

/-- Why a call of the runtime raises. -/
inductive Failure where
  | alreadyRegistered (plugin : String)
  /-- `find_manifests` or `_validate_public_operations` raises. -/
  | manifests
  | closing
  | notLoaded (plugin : String)
  | alreadyInitialized (plugin : String)
  /-- `validate_and_canonicalize` raises. -/
  | configuration
  | loggingType
  | memoryAfterDiscovery
  | memoryMode
  | bundledAfterInitialization
  | bundledImplementation
  | deadlinesAfterDiscovery
  /-- `TransportDeadlines` raises. -/
  | deadlines
  | unknownBackend
  /-- The import of `wmfs._bundled` raises. -/
  | nativeModule
  | noCompiledProvider (plugin : String)
  | noPythonProvider (plugin : String)
  /-- The provider cannot be imported, or lacks an operation. -/
  | provider (plugin : String)
  | noInitializeHook (plugin : String)
  | differentConfiguration (plugin : String)
  /-- An `initialize` or a `shutdown` of a provider raises, or its logger does. -/
  | hook (plugin : String)
  /-- `IsolatedBackend.discover` raises. -/
  | discovery
  /-- `close` of the replaced backend raises. -/
  | previousClose
  /-- `close` of a backend raises in `close` of the runtime. -/
  | backendClose
  | noBackend
  | stale
  | notRegistered
  deriving DecidableEq, Repr

/-- `OperationRegistry`. -/
structure OperationRegistry where
  plugins : List PluginMetadata
  distinct : (plugins.map PluginMetadata.name).Nodup

namespace OperationRegistry

/-- `OperationRegistry()`. -/
def empty : OperationRegistry := ⟨[], List.nodup_nil⟩

/-- `register`. -/
def register (registry : OperationRegistry) (plugin : PluginMetadata) :
    Except Failure OperationRegistry :=
  if h : plugin.name ∈ registry.plugins.map PluginMetadata.name then
    .error (.alreadyRegistered plugin.name)
  else
    .ok ⟨registry.plugins ++ [plugin], by
      rw [List.map_append, List.map_singleton, List.nodup_append]
      refine ⟨registry.distinct, List.nodup_singleton _, ?_⟩
      intro name hname other hother
      rw [List.mem_singleton] at hother
      rw [hother]
      exact fun heq => h (heq ▸ hname)⟩

/-- The loop `for manifest in manifests: registry.register(manifest.metadata)`. -/
def ofManifests (manifests : List PluginManifest) : Except Failure OperationRegistry :=
  manifests.foldlM (fun registry manifest => registry.register manifest.metadata) empty

/-- `_operations[f"{plugin}.{name}"]`. -/
def lookup (registry : OperationRegistry) (plugin name : String) : Option OperationMetadata :=
  (registry.plugins.find? fun item => item.name == plugin).bind fun item => item.find name

/-- The plugins that declare an operation of this name. -/
def declaring (registry : OperationRegistry) (name : String) : List PluginMetadata :=
  registry.plugins.filter fun item => (item.find name).isSome

/-- `_resolve_name`, with `_aliases`: a short name that two plugins declare is ambiguous. -/
def resolveName (registry : OperationRegistry) : OperationName → Option (String × String)
  | .qualified plugin name => some (plugin, name)
  | .short name =>
    match registry.declaring name with
    | [plugin] => some (plugin.name, name)
    | _ => none

/-- `operation`, or `none` for a `KeyError`. -/
def operation (registry : OperationRegistry) (name : OperationName) : Option OperationMetadata :=
  (registry.resolveName name).bind fun resolved => registry.lookup resolved.1 resolved.2

/-- `plugin_for_operation`. -/
def pluginForOperation (registry : OperationRegistry) (name : OperationName) : Option String :=
  (registry.resolveName name).bind fun resolved =>
    (registry.lookup resolved.1 resolved.2).map fun _ => resolved.1

/-- The public operation of this name: `internal` operations have no public name. -/
def visible (registry : OperationRegistry) (name : OperationName) : Option OperationMetadata :=
  (registry.operation name).filter fun operation => !operation.internal

/-- `operation_names`. -/
def operationNames (registry : OperationRegistry) : Finset String :=
  (registry.plugins.flatMap fun plugin => plugin.operations.map fun operation =>
    operation.name).toFinset.filter fun name => (registry.visible (.short name)).isSome

end OperationRegistry

/-! ### The operation tables -/

/-- What a backend executes under a name. -/
abbrev OperationTable : Type := OperationName → Option OperationMetadata

/-- The public operation of a manifest. -/
def publicOperation (manifests : List PluginManifest) (plugin name : String) :
    Option OperationMetadata :=
  (manifests.find? fun manifest => manifest.name == plugin).bind fun manifest =>
    (manifest.metadata.find name).filter fun operation => !operation.internal

/-- `operations` of `BundledBackend.initialize`: the public operations of the manifests under
their qualified names, and those that the registry names under their short names. -/
def bundledTable (manifests : List PluginManifest) (registry : OperationRegistry) : OperationTable
  | .qualified plugin name => publicOperation manifests plugin name
  | .short name =>
    if name ∈ registry.operationNames then
      (registry.pluginForOperation (.short name)).bind fun plugin =>
        publicOperation manifests plugin name
    else none

/-- `operation_names` of a `BundledBackend` with this table. -/
def bundledNames (manifests : List PluginManifest) (registry : OperationRegistry) :
    Finset String :=
  registry.operationNames.filter fun name => (bundledTable manifests registry (.short name)).isSome

/-- What `IsolatedBackend.invoke` executes. It refuses internal operations, and its sessions
have checked that their workers declare the metadata of the registry. -/
def isolatedTable (registry : OperationRegistry) : OperationTable := registry.visible

/-- The two tables give one operation to each name that both have. -/
def Agrees (registry : OperationRegistry) (table : OperationTable) : Prop :=
  ∀ name published executed, registry.operation name = some published →
    table name = some executed → published = executed

/-! ### The tables of one registry agree with it -/

section
variable {manifests : List PluginManifest} {registry : OperationRegistry}

/-- A registration adds the plugin. -/
theorem register_ok {r r' : OperationRegistry} {plugin : PluginMetadata}
    (h : r.register plugin = .ok r') : r'.plugins = r.plugins ++ [plugin] := by
  unfold OperationRegistry.register at h
  split at h
  · cases h
  · cases h
    rfl

/-- The registry of a list of manifests has their metadata. -/
theorem plugins_of_ofManifests (h : OperationRegistry.ofManifests manifests = .ok registry) :
    registry.plugins = manifests.map PluginManifest.metadata := by
  have hloop : ∀ (manifests : List PluginManifest) (r r' : OperationRegistry),
      manifests.foldlM (fun r manifest => r.register manifest.metadata) r = .ok r' →
        r'.plugins = r.plugins ++ manifests.map PluginManifest.metadata := by
    intro manifests
    induction manifests with
    | nil =>
      intro r r' h
      cases h
      simp
    | cons manifest manifests ih =>
      intro r r' h
      rw [List.foldlM_cons] at h
      cases hone : r.register manifest.metadata with
      | error e =>
        rw [hone] at h
        cases h
      | ok r'' =>
        rw [hone] at h
        rw [ih r'' r' h, register_ok hone]
        simp
  exact hloop manifests .empty registry h

/-- A public operation of the manifests is an operation of their registry. -/
theorem lookup_of_publicOperation
    (hplugins : registry.plugins = manifests.map PluginManifest.metadata) {plugin name : String}
    {operation : OperationMetadata} (h : publicOperation manifests plugin name = some operation) :
    registry.lookup plugin name = some operation := by
  unfold publicOperation at h
  rw [Option.bind_eq_some_iff] at h
  obtain ⟨manifest, hmanifest, hfind⟩ := h
  rw [Option.filter_eq_some_iff] at hfind
  unfold OperationRegistry.lookup
  rw [hplugins, List.find?_map]
  have hsame : manifests.find? ((fun item : PluginMetadata => item.name == plugin) ∘
      PluginManifest.metadata) = some manifest := hmanifest
  rw [hsame]
  exact hfind.1

/-- A short name is resolved to the operation of that name in one plugin. -/
theorem lookup_of_pluginForOperation {name plugin : String} {operation : OperationMetadata}
    (hplugin : registry.pluginForOperation (.short name) = some plugin)
    (hoperation : registry.operation (.short name) = some operation) :
    registry.lookup plugin name = some operation := by
  simp only [OperationRegistry.pluginForOperation, OperationRegistry.operation,
    OperationRegistry.resolveName] at hplugin hoperation
  split at hplugin
  · next hone =>
    simp only [Option.bind_some, Option.map_eq_some_iff] at hplugin
    obtain ⟨_, -, rfl⟩ := hplugin
    simpa [hone] using hoperation
  · cases hplugin

/-- The table of `initialize` agrees with the registry of the same manifests. -/
theorem agrees_bundledTable (hplugins : registry.plugins = manifests.map PluginManifest.metadata) :
    Agrees registry (bundledTable manifests registry) := by
  intro name published executed hpublished hexecuted
  cases name with
  | qualified plugin name =>
    have hlookup := lookup_of_publicOperation hplugins hexecuted
    have hsame : registry.lookup plugin name = some published := hpublished
    rw [hlookup] at hsame
    exact (Option.some.inj hsame).symm
  | short name =>
    simp only [bundledTable, Option.ite_none_right_eq_some, Option.bind_eq_some_iff] at hexecuted
    obtain ⟨-, plugin, hplugin, hpublic⟩ := hexecuted
    have hlookup := lookup_of_publicOperation hplugins hpublic
    have hsame : registry.lookup plugin name = some published :=
      lookup_of_pluginForOperation hplugin hpublished
    rw [hlookup] at hsame
    exact (Option.some.inj hsame).symm

/-- An isolated backend agrees with its own registry. -/
theorem agrees_isolatedTable (registry : OperationRegistry) :
    Agrees registry (isolatedTable registry) := by
  intro name published executed hpublished hexecuted
  unfold isolatedTable OperationRegistry.visible at hexecuted
  rw [Option.filter_eq_some_iff, hpublished] at hexecuted
  exact Option.some.inj hexecuted.1

end

end Wmfs.Runtime
