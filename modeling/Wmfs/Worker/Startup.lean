import Wmfs.Configuration.Canonical
import Wmfs.Control.RoundTrip
import Wmfs.Lib.Sha256

/-!
# `Wmfs.Worker.Startup`: the startup exchange

The runtime sends a `STARTUP_REQUEST` with the identity of the plugin and the canonical bytes of
its configuration, and a Python worker answers with a `STARTUP_RESPONSE`. `serveStartup` is
`_serve` of `wmfs_plugin/worker.py` up to its response, and `confirmStartup` is what
`_worker_connection` of `worker_process.py` makes of the answer. The configuration of the response
is a document about the environment of the worker, and it has the configuration of the plugin in
it. One limit of the control protocol holds for both.

`startupExchange_eq` says how the exchange of an accepted configuration ends. The response is
longer than the configuration by `overhead`, and the exchange completes exactly when this still
fits the limit. Then the runtime has the environment that the worker described. Otherwise the
worker cannot encode its response and rejects the startup.

How the worker reports an exception is the subject of `Wmfs.Worker.Failures`. The logger of the
worker and the descriptors that come with the request are not modelled, but for their number.
-/

set_option autoImplicit false

namespace Wmfs.Worker.Startup

open Wmfs.Lib Wmfs.Lib.Json Wmfs.Control
open Wmfs.Configuration
open Wmfs.Lib.Utf8 (Text ofString)
open Wmfs.Lib.Document (Members get? Everywhere DistinctKeys)

/-! ### The worker -/

/-- What `bind_operations` attaches to the handlers. -/
structure Declarations where
  interfaceFingerprint : List UInt8
  configurationFingerprint : List UInt8
  metadataFingerprint : Int
  startupCapabilities : Int
  operationCount : Int
  protocolVersion : Int
  configurationSchemaVersion : Int
  hasInitialize : Bool
  hasShutdown : Bool

/-- The interpreter of a party: how it decodes bytes, and how deep it nests. Both parties spell
floats alike. -/
structure Interpreter where
  decoders : Decoders
  depth : Nat

/-- `EnvironmentMetadata`. -/
structure EnvironmentMetadata where
  pythonVersion : Text
  torchVersion : Text
  glibcVersion : Text
  executable : Text
  deriving DecidableEq

/-- The process of a worker. `hookAccepts` says whether `initialize` returns. -/
structure Process where
  operations : Declarations
  interpreter : Interpreter
  environment : EnvironmentMetadata
  hookAccepts : Document → Bool

/-- The exceptions of `_serve`. -/
inductive Refusal where
  | protocol (error : Control.Exn)
  | valueError (message : String)
  | json
  | hook
  deriving DecidableEq

/-- `if bad: raise ValueError(message)`. -/
def refuseIf (bad : Prop) [Decidable bad] (message : String) : Except Refusal Unit :=
  raiseIf bad (.valueError message)

/-- The roles of the descriptors of a request. -/
def expectedRoles (logMode : LogMode) : List DescriptorRole :=
  [.commandRing, .commandDataEvent, .commandSpaceEvent, .completionRing, .completionDataEvent,
    .completionSpaceEvent, .fdControl] ++ if logMode = .disabled then [] else [.log]

/-- `bool(capabilities & (1 << bit))`. -/
def hasCapability (capabilities : Int) (bit : Nat) : Bool := capabilities / 2 ^ bit % 2 = 1

/-- `_validate_startup_identity`. -/
def validateStartupIdentity (startup : Startup) (operations : Declarations) :
    Except Refusal Unit := do
  refuseIf (operations.hasInitialize ≠ hasCapability operations.startupCapabilities 6 ∨
      operations.hasShutdown ≠ hasCapability operations.startupCapabilities 7)
    "worker hooks do not match generated lifecycle declarations"
  refuseIf (startup.interfaceFingerprint ≠ operations.interfaceFingerprint ∨
      startup.configurationFingerprint ≠ operations.configurationFingerprint ∨
      startup.metadataFingerprint ≠ operations.metadataFingerprint ∨
      startup.capabilities ≠ operations.startupCapabilities ∨
      startup.operationCount ≠ operations.operationCount ∨
      startup.protocolVersion ≠ operations.protocolVersion ∨
      startup.configurationSchemaVersion ≠ operations.configurationSchemaVersion)
    "startup manifest and generated worker identity differ"

section
variable (floats : FloatText) (sha256 : List UInt8 → Hex.Digest)

/-- `hashlib.sha256(bytes).hexdigest()`. -/
def hexdigest (bytes : List UInt8) : Text := Hex.hexBytes (sha256 bytes).toList

/-- The document that a worker answers with. -/
def environmentDocument (environment : EnvironmentMetadata) (config : Document) (digest : Text) :
    Document :=
  .object [("executable", .str environment.executable),
    ("glibcVersion", .str environment.glibcVersion),
    ("pythonVersion", .str environment.pythonVersion),
    ("torchVersion", .str environment.torchVersion), ("configuration", config),
    ("configurationDigest", .str digest), ("hookAccepted", .bool true)]

/-- A step of the codec. -/
def protocol {α : Type} (result : Except Control.Exn α) : Except Refusal α :=
  result.mapError .protocol

/-- `_serve` up to the response, for a packet that came with this many descriptors. -/
def serveStartup (worker : Process) (packet : List UInt8) (descriptors : Nat) :
    Except Refusal (List UInt8) := do
  let (requestId, startup) ← protocol (Sdk.decodeStartup packet false)
  refuseIf (startup.descriptorRoles ≠ expectedRoles startup.logMode ∨
      descriptors ≠ (expectedRoles startup.logMode).length)
    "STARTUP_REQUEST descriptor roles are not exact"
  validateStartupIdentity startup worker.operations
  let config ←
    match workerConfiguration worker.interpreter.decoders floats worker.interpreter.depth
      startup.config with
    | some config => Except.ok config
    | none => .error .json
  raiseIf (worker.operations.hasInitialize = true ∧ worker.hookAccepts config = false) .hook
  let environment ←
    match encodeJson floats
      (environmentDocument worker.environment config (hexdigest sha256 startup.config)) with
    | some environment => Except.ok environment
    | none => .error .json
  protocol (Sdk.encodeStartup
    { startup with config := environment, descriptorRoles := [], status := .ok } true requestId)

/-! ### The runtime -/

/-- The exceptions of `_worker_connection` behind the start of the process. -/
inductive StartupError where
  | protocol (error : Control.Exn)
  | runtimeError (message : Text)
  | json
  | keyError
  /-- The worker raised, and reports it or ends. -/
  | rejected
  deriving DecidableEq

/-- `if bad: raise RuntimeError(message)`. -/
def failIf (bad : Prop) [Decidable bad] (message : String) : Except StartupError Unit :=
  raiseIf bad (.runtimeError (ofString message))

/-- `str(environment_data[name])`. `str` is that of a value that is no text. -/
def readText (str : Document → Text) (environment : Members) (name : String) :
    Except StartupError Text :=
  match get? environment name with
  | none => .error .keyError
  | some (.str text) => .ok text
  | some value => .ok (str value)

/-- The checks of `_worker_connection` on the environment document. A key that is missing is read
as null. -/
def confirmEnvironment (str : Document → Text) (config : List UInt8) (environment : Members) : Except StartupError EnvironmentMetadata := do
  let acknowledged ←
    match encodeJson floats ((get? environment "configuration").getD .null) with
    | some acknowledged => Except.ok acknowledged
    | none => .error .json
  failIf (acknowledged ≠ config) "Worker did not acknowledge exact configuration bytes"
  let digestAccepted := match (get? environment "configurationDigest").getD .null with
    | .null => true
    | .str digest => digest = hexdigest sha256 config
    | _ => false
  let hookAccepted := match (get? environment "hookAccepted").getD .null with
    | .null => true
    | .bool accepted => accepted
    | _ => false
  failIf (digestAccepted = false ∨ hookAccepted = false)
    "Worker did not confirm configuration hook acceptance"
  let pythonVersion ← readText str environment "pythonVersion"
  let torchVersion ← readText str environment "torchVersion"
  let glibcVersion ← readText str environment "glibcVersion"
  let executable ← readText str environment "executable"
  return ⟨pythonVersion, torchVersion, glibcVersion, executable⟩

/-- The response is for the request. -/
def SameIdentity (requestId : Int) (startup : Startup) (responseId : Int) (response : Startup) :
    Prop :=
  responseId = requestId ∧ response.sessionGeneration = startup.sessionGeneration ∧
  response.interfaceFingerprint = startup.interfaceFingerprint ∧
  response.metadataFingerprint = startup.metadataFingerprint ∧
  response.capabilities = startup.capabilities ∧
  response.operationCount = startup.operationCount ∧
  response.protocolVersion = startup.protocolVersion ∧
  response.configurationSchemaVersion = startup.configurationSchemaVersion ∧
  response.status = .ok ∧ response.descriptorRoles = [] ∧ response.logMode = startup.logMode ∧
  response.configurationFingerprint = startup.configurationFingerprint

instance (requestId : Int) (startup : Startup) (responseId : Int) (response : Startup) :
    Decidable (SameIdentity requestId startup responseId response) := by
  unfold SameIdentity
  infer_instance

/-- A step of the codec. -/
def codec {α : Type} (result : Except Control.Exn α) : Except StartupError α :=
  result.mapError .protocol

/-- What `_worker_connection` makes of an answer that came with this many descriptors. -/
def confirmStartup (runtime : Interpreter) (str : Document → Text) (startup : Startup)
    (requestId : Int) (packet : List UInt8) (descriptors : Nat) :
    Except StartupError EnvironmentMetadata := do
  failIf (descriptors ≠ 0) "STARTUP_RESPONSE carried file descriptors"
  let frame ← codec (decodeFrame packet)
  if frame.kind = .errorResponse then
    let (_, error) ← codec (decodeError packet)
    throw (.runtimeError (ofString "Worker rejected startup: " ++ error.message))
  else
    let (responseId, response) ← codec (decodeStartup packet true)
    failIf (¬ SameIdentity requestId startup responseId response)
      "Worker STARTUP_RESPONSE identity does not match manifest"
    match loadsBytes runtime.decoders floats runtime.depth response.config with
    | some (.obj environment) => confirmEnvironment floats sha256 str startup.config environment
    | _ => throw .json

/-- The exchange: the request, the answer of the worker, and what the runtime makes of it. -/
def startupExchange (runtime : Interpreter) (str : Document → Text) (worker : Process)
    (startup : Startup) (requestId : Int) : Except StartupError EnvironmentMetadata := do
  let packet ← codec (encodeStartup startup false requestId)
  match serveStartup floats sha256 worker packet startup.descriptorRoles.length with
  | .ok response => confirmStartup floats sha256 runtime str startup requestId response 0
  | .error _ => throw .rejected

end

/-! ### The bytes of the response -/

/-- The number of bytes of a response next to those of the configuration in it. -/
def overhead (environment : EnvironmentMetadata) : Nat :=
  190 + Utf8.size (quote false environment.executable) +
    Utf8.size (quote false environment.glibcVersion) +
    Utf8.size (quote false environment.pythonVersion) +
    Utf8.size (quote false environment.torchVersion)

/-- The texts have a UTF-8 form. -/
structure Encodable (environment : EnvironmentMetadata) : Prop where
  executable : Scalars environment.executable
  glibcVersion : Scalars environment.glibcVersion
  pythonVersion : Scalars environment.pythonVersion
  torchVersion : Scalars environment.torchVersion

/-- The members of the response in the order of their keys. -/
def environmentMembers (environment : EnvironmentMetadata) (config : Document) (digest : Text) :
    Members :=
  Document.membersOf [("configuration", config), ("configurationDigest", .str digest),
    ("executable", .str environment.executable),
    ("glibcVersion", .str environment.glibcVersion), ("hookAccepted", .bool true),
    ("pythonVersion", .str environment.pythonVersion),
    ("torchVersion", .str environment.torchVersion)]

/-- The texts of the members in the order of their keys. -/
def environmentEntries (environment : EnvironmentMetadata) (config digest : Text) :
    List (Text × Text) :=
  [(ofString "configuration", config), (ofString "configurationDigest", quote false digest),
    (ofString "executable", quote false environment.executable),
    (ofString "glibcVersion", quote false environment.glibcVersion),
    (ofString "hookAccepted", ofString "true"),
    (ofString "pythonVersion", quote false environment.pythonVersion),
    (ofString "torchVersion", quote false environment.torchVersion)]

/-- The text of the response. -/
def environmentText (environment : EnvironmentMetadata) (config digest : Text) : Text :=
  char '{' :: commas ((environmentEntries environment config digest).map (member false)) ++
    [char '}']

/-- The order of the keys. -/
theorem sortKeys_environment {α : Type}
    (executable glibcVersion pythonVersion torchVersion config digest accepted : α) :
    sortKeys [(ofString "executable", executable), (ofString "glibcVersion", glibcVersion),
        (ofString "pythonVersion", pythonVersion), (ofString "torchVersion", torchVersion),
        (ofString "configuration", config), (ofString "configurationDigest", digest),
        (ofString "hookAccepted", accepted)] =
      [(ofString "configuration", config), (ofString "configurationDigest", digest),
        (ofString "executable", executable), (ofString "glibcVersion", glibcVersion),
        (ofString "hookAccepted", accepted), (ofString "pythonVersion", pythonVersion),
        (ofString "torchVersion", torchVersion)] := rfl

/-- The response is canonical but for its configuration. -/
theorem canonical_environmentDocument (environment : EnvironmentMetadata) (config : Document)
    (digest : Text) : canonical (environmentDocument environment config digest) =
      .obj (environmentMembers environment (canonical config) digest) := by
  have hsorted := sortKeys_environment (Document.str environment.executable)
    (.str environment.glibcVersion) (.str environment.pythonVersion)
    (.str environment.torchVersion) (canonical config) (.str digest) (.bool true)
  rw [environmentDocument, Document.object, canonical]
  exact congrArg Document.obj hsorted

section
variable {floats : FloatText}

/-- The text of the response. -/
theorem dumps_environmentDocument {environment : EnvironmentMetadata} {config : Document}
    {text digest : Text} (h : dumps floats false config = some text) :
    dumps floats false (environmentDocument environment config digest) =
      some (environmentText environment text digest) := by
  have hentries : dumpsMembers floats false (Document.membersOf
      [("executable", .str environment.executable), ("glibcVersion", .str environment.glibcVersion),
        ("pythonVersion", .str environment.pythonVersion),
        ("torchVersion", .str environment.torchVersion), ("configuration", config),
        ("configurationDigest", .str digest), ("hookAccepted", .bool true)]) =
      some [(ofString "executable", quote false environment.executable),
        (ofString "glibcVersion", quote false environment.glibcVersion),
        (ofString "pythonVersion", quote false environment.pythonVersion),
        (ofString "torchVersion", quote false environment.torchVersion),
        (ofString "configuration", text), (ofString "configurationDigest", quote false digest),
        (ofString "hookAccepted", ofString "true")] :=
    dumpsMembers_eq_some_iff.mpr (.cons ⟨rfl, rfl⟩ (.cons ⟨rfl, rfl⟩ (.cons ⟨rfl, rfl⟩
      (.cons ⟨rfl, rfl⟩ (.cons ⟨rfl, h⟩ (.cons ⟨rfl, rfl⟩ (.cons ⟨rfl, rfl⟩ .nil)))))))
  rw [environmentDocument, Document.object, dumps, hentries, Option.map_some,
    sortKeys_environment]
  rfl

/-- The response is longer than its configuration by a fixed number of bytes. -/
theorem size_environmentText (environment : EnvironmentMetadata) (config digest : Text)
    (hdigest : (∀ point ∈ digest, Hex.isHexDigit point = true) ∧ digest.length = 64) :
    Utf8.size (environmentText environment config digest) =
      Utf8.size config + overhead environment := by
  have hascii : IsAscii digest := by
    intro point hpoint
    have hhex := hdigest.1 point hpoint
    rw [Hex.isHexDigit, decide_eq_true_iff] at hhex
    omega
  have hquoted : Utf8.size (quote false digest) = 66 := by
    rw [quote_hex hdigest.1, size_append, Utf8.size, size_of_isAscii hascii, hdigest.2]
    rfl
  have hmember : ∀ (key : String) (text : Text), Utf8.size (member false (ofString key, text)) =
      Utf8.size (quote false (ofString key)) + 1 + Utf8.size text := by
    intro key text
    show Utf8.size (quote false (ofString key) ++ char ':' :: text) = _
    rw [size_append, Utf8.size]
    show _ + (1 + Utf8.size text) = _
    omega
  have hcommas : ∀ (text next : Text) (texts : List Text),
      Utf8.size (commas (text :: next :: texts)) =
        Utf8.size text + 1 + Utf8.size (commas (next :: texts)) := by
    intro text next texts
    rw [commas_cons_cons, size_append, Utf8.size]
    show _ + (1 + _) = _
    omega
  have hkeys : Utf8.size (quote false (ofString "configuration")) = 15 ∧
      Utf8.size (quote false (ofString "configurationDigest")) = 21 ∧
      Utf8.size (quote false (ofString "executable")) = 12 ∧
      Utf8.size (quote false (ofString "glibcVersion")) = 14 ∧
      Utf8.size (quote false (ofString "hookAccepted")) = 14 ∧
      Utf8.size (quote false (ofString "pythonVersion")) = 15 ∧
      Utf8.size (quote false (ofString "torchVersion")) = 14 ∧
      Utf8.size (ofString "true") = 4 := by decide
  obtain ⟨h1, h2, h3, h4, h5, h6, h7, h8⟩ := hkeys
  have hopen : Utf8.size [char '\x7d'] = 1 ∧ Utf8.pointSize (char '{') = 1 := by decide
  rw [environmentText, size_append, Utf8.size, environmentEntries]
  simp only [List.map_cons, List.map_nil, hcommas, commas_singleton, hmember]
  rw [overhead]
  omega

/-- The text of the response has no surrogates. -/
theorem scalars_environmentText {environment : EnvironmentMetadata} (h : Encodable environment)
    {config digest : Text} (hconfig : Scalars config)
    (hdigest : ∀ point ∈ digest, Hex.isHexDigit point = true) :
    Scalars (environmentText environment config digest) := by
  have hascii : IsAscii digest := by
    intro point hpoint
    have hhex := hdigest point hpoint
    rw [Hex.isHexDigit, decide_eq_true_iff] at hhex
    omega
  have hmark : ∀ c : Char, (char c).val < 128 → Scalars [char c] := fun c hc =>
    scalars_of_isAscii (IsAscii.cons hc isAscii_nil)
  have hliteral : ∀ s : String, Scalars (ofString s) := fun s =>
    Utf8.encode_isSome_iff.mp (Utf8.encode_ofString_isSome s)
  have hmember : ∀ {key : String} {text : Text}, Scalars text →
      Scalars (member false (ofString key, text)) := by
    intro key text htext
    exact scalars_append (scalars_quote (hliteral key))
      (scalars_append (hmark ':' (by decide)) htext)
  have hcommas : ∀ {texts : List Text}, (∀ text ∈ texts, Scalars text) →
      Scalars (commas texts) := by
    intro texts
    induction texts with
    | nil =>
      intro _ point hpoint
      cases hpoint
    | cons text texts ih =>
      intro htexts
      obtain ⟨htext, hrest⟩ := List.forall_mem_cons.mp htexts
      cases texts with
      | nil =>
        rw [commas_singleton]
        exact htext
      | cons next texts =>
        rw [commas_cons_cons]
        exact scalars_append htext (scalars_append (hmark ',' (by decide)) (ih hrest))
  refine scalars_append (scalars_append (hmark '{' (by decide)) (hcommas ?_)) (hmark '\x7d' (by decide))
  intro text htext
  obtain ⟨entry, hentry, rfl⟩ := List.mem_map.mp htext
  simp only [environmentEntries, List.mem_cons, List.not_mem_nil, or_false] at hentry
  rcases hentry with rfl | rfl | rfl | rfl | rfl | rfl | rfl
  · exact hmember hconfig
  · exact hmember (scalars_quote (scalars_of_isAscii hascii))
  · exact hmember (scalars_quote h.executable)
  · exact hmember (scalars_quote h.glibcVersion)
  · exact hmember (hliteral "true")
  · exact hmember (scalars_quote h.pythonVersion)
  · exact hmember (scalars_quote h.torchVersion)

/-- The response has bytes, as many as its configuration and the overhead. -/
theorem exists_encodeJson_environment {environment : EnvironmentMetadata}
    (h : Encodable environment) {config : Document} {bytes : List UInt8} {digest : Text}
    (hconfig : encodeJson floats config = some bytes)
    (hdigest : (∀ point ∈ digest, Hex.isHexDigit point = true) ∧ digest.length = 64) :
    ∃ response, encodeJson floats (environmentDocument environment config digest) =
        some response ∧ response.length = bytes.length + overhead environment := by
  obtain ⟨hshort, text, htext, hbytes⟩ := encodeJson_eq_some_iff.mp hconfig
  have hscalars : Scalars text := by
    rw [Scalars, ← Utf8.encode_isSome_iff, hbytes]
    rfl
  have hresponse : (Utf8.encode (environmentText environment text digest)).isSome :=
    Utf8.encode_isSome_iff.mpr (scalars_environmentText h hscalars hdigest.1)
  obtain ⟨response, hresponse⟩ := Option.isSome_iff_exists.mp hresponse
  refine ⟨response, encodeJson_eq_some_iff.mpr ⟨?_, _, dumps_environmentDocument htext,
    hresponse⟩, ?_⟩
  · simp [environmentDocument, Document.object, Document.membersOf, shortIntegers, shortMembers,
      hshort]
  · rw [Utf8.length_of_encode hresponse, Utf8.length_of_encode hbytes,
      size_environmentText _ _ _ hdigest]

/-- The keys of the response are distinct. -/
theorem distinctKeys_environmentDocument (environment : EnvironmentMetadata) {config : Document}
    (hconfig : Everywhere DistinctKeys config) (digest : Text) :
    Everywhere DistinctKeys (environmentDocument environment config digest) := by
  have hstr : ∀ text, Everywhere DistinctKeys (.str text) := fun text =>
    .leaf trivial (by rintro _ ⟨⟩) (by rintro _ ⟨⟩)
  refine .obj ?_ ?_
  · have hnodup : (["executable", "glibcVersion", "pythonVersion", "torchVersion",
        "configuration", "configurationDigest", "hookAccepted"].map ofString).Nodup := by decide
    show (Document.keys (Document.membersOf _)).Nodup
    rw [Document.keys_membersOf]
    exact hnodup
  · intro member hmember
    simp only [Document.membersOf, List.map_cons, List.map_nil, List.mem_cons, List.not_mem_nil,
      or_false] at hmember
    rcases hmember with rfl | rfl | rfl | rfl | rfl | rfl | rfl
    · exact hstr _
    · exact hstr _
    · exact hstr _
    · exact hstr _
    · exact hconfig
    · exact hstr _
    · exact .leaf trivial (by rintro _ ⟨⟩) (by rintro _ ⟨⟩)

/-- The nesting of the response. -/
theorem nesting_environmentDocument (environment : EnvironmentMetadata) (config : Document)
    (digest : Text) :
    nesting (environmentDocument environment config digest) = nesting config + 1 := by
  simp [environmentDocument, Document.object, Document.membersOf, nesting, nestingMembers]

/-- The runtime takes the environment from the response. -/
theorem confirmEnvironment_eq {sha256 : List UInt8 → Hex.Digest} {str : Document → Text}
    {environment : EnvironmentMetadata} {config : Document} {bytes : List UInt8}
    (hconfig : encodeJson floats config = some bytes) :
    confirmEnvironment floats sha256 str bytes
      (environmentMembers environment config (hexdigest sha256 bytes)) = .ok environment := by
  simp [confirmEnvironment, environmentMembers, readText, failIf, raiseIf, hconfig,
    Result.ok_bind]

end

/-! ### The exchange -/

/-- The response to a request. -/
def responseOf (startup : Startup) (config : List UInt8) : Startup :=
  { startup with config := config, descriptorRoles := [], status := .ok }

/-- The response to a request that was sent can be encoded exactly when it fits the limit. -/
theorem exists_encodeResponse_iff {startup : Startup} {requestId : Int} {packet : List UInt8}
    (h : encodeStartup startup false requestId = .ok packet) {config : List UInt8}
    (hconfig : ∃ text, Utf8.encode text = some config) :
    (∃ response, encodeStartup (responseOf startup config) true requestId = .ok response) ↔
      config.length ≤ MAX_CONFIG_BYTES := by
  constructor
  · rintro ⟨response, hresponse⟩
    obtain ⟨payload, ⟨hfits, _⟩, _⟩ := encodeStartup_ok_iff.mp hresponse
    exact hfits.configLength
  · intro hlength
    have hlimit : config.length ≤ 65536 := hlength
    obtain ⟨payload, ⟨hfits, hparts⟩, hframe⟩ := encodeStartup_ok_iff.mp h
    -- The fields are those of the request, which were in range.
    have htail := holds_of_pack hparts.tail
    simp only [STARTUP_TAIL, Startup.tail, List.forall₂_cons] at htail
    obtain ⟨hmetadata, hcapabilities, hoperations, hprotocol, hschema, _, _, hmode, _⟩ := htail
    have hlengthHolds : Field.Holds .I (config.length : Int) := by
      rw [Field.holds_I_iff]
      omega
    have hzero : Field.Holds .H 0 := by
      rw [Field.holds_H_iff]
      omega
    have hstatus : Field.Holds .I Status.ok.value := by
      rw [Field.holds_I_iff]
      decide
    have hholds : List.Forall₂ Field.Holds STARTUP_TAIL (responseOf startup config).tail :=
      .cons hmetadata (.cons hcapabilities (.cons hoperations (.cons hprotocol (.cons hschema
        (.cons hlengthHolds (.cons hzero (.cons hmode (.cons hstatus .nil))))))))
    obtain ⟨tail, htail⟩ := Option.isSome_iff_exists.mp (isSome_pack_iff.mpr hholds)
    have hhead : structPack STARTUP_HEAD [(responseOf startup config).sessionGeneration] =
        .ok (slice payload 0 8) := structPack_ok_iff.mpr hparts.generation
    obtain ⟨bytes, hbytes⟩ : ∃ bytes, (responseOf startup config).bytes = .ok bytes := by
      rw [Startup.bytes, hhead, structPack_ok_iff.mpr htail]
      exact ⟨_, rfl⟩
    have hresponse := (@Startup.bytes_ok_iff (responseOf startup config) bytes hfits.interface
      hfits.configuration).mp hbytes
    have hsize : 112 + 0 * 8 + config.length = bytes.length := hresponse.size
    obtain ⟨_, header, hheader, _⟩ := encodeFrame_ok_iff.mp hframe
    have hid := holds_of_pack hheader
    simp only [FRAME, List.forall₂_cons] at hid
    obtain ⟨hmagic, hmajor, hminor, _, hflags, hheaderSize, _, hrequest, _⟩ := hid
    have hkind : Field.Holds .H (startupKind true).value := by
      rw [Field.holds_H_iff]
      decide
    have hpayload : Field.Holds .I (bytes.length : Int) := by
      rw [Field.holds_I_iff]
      omega
    have hframeHolds : List.Forall₂ Field.Holds FRAME [MAGIC, ABI_MAJOR, ABI_MINOR,
        (startupKind true).value, 0, 32, bytes.length, requestId] :=
      .cons hmagic (.cons hmajor (.cons hminor (.cons hkind (.cons hflags (.cons hheaderSize
        (.cons hpayload (.cons hrequest .nil)))))))
    obtain ⟨front, hfront⟩ := Option.isSome_iff_exists.mp (isSome_pack_iff.mpr hframeHolds)
    have hencoded : encodeFrame (startupKind true) requestId bytes = .ok (front ++ bytes) :=
      encodeFrame_ok_iff.mpr ⟨by omega, front, hfront, rfl⟩
    have hroles : (responseOf startup config).descriptorRoles.length ≤ 16 := Nat.zero_le _
    exact ⟨_, encodeStartup_ok_iff.mpr ⟨bytes, ⟨⟨hconfig, hlimit, hfits.interface,
      hfits.configuration, hroles⟩, hresponse⟩, hencoded⟩⟩

section
variable {floats : FloatText} {sha256 : List UInt8 → Hex.Digest}

/-- The digest has 64 hexadecimal digits. -/
theorem hexdigest_spec (bytes : List UInt8) :
    (∀ point ∈ hexdigest sha256 bytes, Hex.isHexDigit point = true) ∧
      (hexdigest sha256 bytes).length = 64 := by
  constructor
  · intro point hpoint
    exact Hex.isHexDigit_of_mem_hexBytes hpoint
  · rw [hexdigest, Hex.length_hexBytes, Vector.length_toList]

/-- What the runtime sends for a plugin, and what the worker was generated for. -/
structure Matches (startup : Startup) (worker : Process) : Prop where
  roles : startup.descriptorRoles = expectedRoles startup.logMode
  identity : validateStartupIdentity startup worker.operations = .ok ()

/-- The worker answers a request that it accepts, when the response can be encoded. -/
theorem serveStartup_eq {worker : Process} {startup : Startup} {requestId : Int}
    {packet : List UInt8} {config : Document} {environment : List UInt8}
    (hpacket : encodeStartup startup false requestId = .ok packet)
    (hmatches : Matches startup worker)
    (hconfig : workerConfiguration worker.interpreter.decoders floats worker.interpreter.depth
      startup.config = some config)
    (hhook : worker.hookAccepts config = true)
    (henvironment : encodeJson floats (environmentDocument worker.environment config
      (hexdigest sha256 startup.config)) = some environment) :
    serveStartup floats sha256 worker packet startup.descriptorRoles.length =
      protocol (Sdk.encodeStartup (responseOf startup environment) true requestId) := by
  have hdecode := Sdk.decodeStartup_ok_iff.mpr (decodeStartup_ok_iff.mpr hpacket)
  have hroles : ¬ (startup.descriptorRoles ≠ expectedRoles startup.logMode ∨
      startup.descriptorRoles.length ≠ (expectedRoles startup.logMode).length) := by
    rw [hmatches.roles]
    simp
  have hhook' : ¬ (worker.operations.hasInitialize = true ∧ worker.hookAccepts config = false) := by
    rw [hhook]
    simp
  unfold serveStartup
  rw [hdecode]
  show (refuseIf _ _ >>= fun _ => _) = _
  rw [refuseIf, raiseIf, if_neg hroles, Result.ok_bind, hmatches.identity, Result.ok_bind]
  simp only [hconfig, henvironment, Result.ok_bind, raiseIf, if_neg hhook']
  rfl

/-- A codec that succeeds. -/
theorem codec_ok {α : Type} (result : α) : codec (.ok result) = .ok result := rfl

/-- The runtime takes the environment from the response of the worker. -/
theorem confirmStartup_eq {runtime : Interpreter} {str : Document → Text} {startup : Startup}
    {requestId : Int} {packet : List UInt8} {config : Document} {described : EnvironmentMetadata}
    {environment : List UInt8}
    (hpacket : encodeStartup (responseOf startup environment) true requestId = .ok packet)
    (hconfig : encodeJson floats (canonical config) = some startup.config)
    (hkeys : Everywhere DistinctKeys config) (hdepth : nesting config < runtime.depth)
    (henvironment : encodeJson floats (environmentDocument described config
      (hexdigest sha256 startup.config)) = some environment) :
    confirmStartup floats sha256 runtime str startup requestId packet 0 = .ok described := by
  obtain ⟨payload, _, hframe⟩ := encodeStartup_ok_iff.mp hpacket
  have hframe : decodeFrame packet = .ok ⟨startupKind true, requestId, payload⟩ :=
    decodeFrame_ok_iff.mpr hframe
  have hdecode := decodeStartup_ok_iff.mpr hpacket
  have hidentity : SameIdentity requestId startup requestId (responseOf startup environment) := by
    unfold SameIdentity responseOf
    simp
  have hread : loadsBytes runtime.decoders floats runtime.depth environment =
      some (.obj (environmentMembers described (canonical config)
        (hexdigest sha256 startup.config))) := by
    rw [← canonical_environmentDocument]
    refine loadsBytes_encodeJson henvironment
      (distinctKeys_environmentDocument described hkeys _) ?_
    show nesting (environmentDocument described config _) ≤ _
    rw [nesting_environmentDocument]
    exact hdepth
  have hconfirm : confirmEnvironment floats sha256 str startup.config (environmentMembers described
      (canonical config) (hexdigest sha256 startup.config)) = .ok described :=
    confirmEnvironment_eq hconfig
  have hkind : ¬ startupKind true = .errorResponse := by decide
  have hdescriptors : ¬ (0 ≠ 0) := by simp
  have hresponse : (responseOf startup environment).config = environment := rfl
  unfold confirmStartup
  rw [failIf, raiseIf, if_neg hdescriptors, Result.ok_bind, hframe, codec_ok, Result.ok_bind,
    if_neg hkind, hdecode, codec_ok, Result.ok_bind]
  show (failIf _ _ >>= fun _ => _) = _
  rw [failIf, raiseIf, if_neg (not_not.mpr hidentity), Result.ok_bind, hresponse, hread]
  exact hconfirm

/-- **The startup exchange.** The exchange of an accepted configuration, between parties that
agree on the plugin and a hook that accepts, completes exactly when the configuration and the
overhead of the response fit the limit of the control protocol. Then the runtime has the
environment of the worker. -/
theorem startupExchange_eq {runtime : Interpreter} {str : Document → Text} {worker : Process}
    {startup : Startup} {requestId : Int} {config : Option Document} {metadata : Option Members}
    {plugin : Text} {members : Members}
    (hpacket : ∃ packet, encodeStartup startup false requestId = .ok packet)
    (hmatches : Matches startup worker) (hencodable : Encodable worker.environment)
    (hconfig : validateAndCanonicalize floats config metadata plugin = .ok startup.config)
    (hmembers : givenMembers config = some members)
    (hkeys : Everywhere DistinctKeys (.obj members))
    (hhook : worker.hookAccepts (canonical (.obj members)) = true)
    (hworker : 0 < worker.interpreter.depth ∧
      ∀ schema ∈ metadata, nesting (.obj schema) ≤ worker.interpreter.depth)
    (hruntime : 1 < runtime.depth ∧ ∀ schema ∈ metadata, nesting (.obj schema) < runtime.depth) :
    startupExchange floats sha256 runtime str worker startup requestId =
      if startup.config.length + overhead worker.environment ≤ MAX_CONFIG_BYTES then
        .ok worker.environment
      else .error .rejected := by
  obtain ⟨packet, hpacket⟩ := hpacket
  obtain ⟨given, hgiven, haccepted⟩ := accepted_of_validate hconfig
  cases hmembers.symm.trans hgiven
  have hcanonical := encodeJson_canonical haccepted.encoded hkeys
  have hcanonicalKeys := distinctKeys_canonical haccepted.encoded hkeys
  have hread : workerConfiguration worker.interpreter.decoders floats worker.interpreter.depth
      startup.config = some (canonical (.obj members)) :=
    (readers_agree hconfig hmembers hkeys hworker.1 hworker.2).1
  obtain ⟨environment, henvironment, hlength⟩ :=
    exists_encodeJson_environment hencodable hcanonical (hexdigest_spec startup.config)
  have hserve := serveStartup_eq hpacket hmatches hread hhook henvironment
  have hutf8 : ∃ text, Utf8.encode text = some environment := by
    obtain ⟨_, text, _, htext⟩ := encodeJson_eq_some_iff.mp henvironment
    exact ⟨text, htext⟩
  have hresponse := exists_encodeResponse_iff hpacket hutf8
  rw [hlength] at hresponse
  unfold startupExchange
  rw [hpacket, codec_ok, Result.ok_bind, hserve]
  by_cases hfits : startup.config.length + overhead worker.environment ≤ MAX_CONFIG_BYTES
  · obtain ⟨response, hencoded⟩ := hresponse.mpr hfits
    have hdepth : nesting (canonical (.obj members)) < runtime.depth := by
      refine lt_of_le_of_lt (nesting_canonical_le _) ?_
      have hle : nesting (.obj members) ≤ runtime.depth - 1 := by
        refine haccepted.nesting_le (by omega) fun schema hschema => ?_
        have := hruntime.2 schema hschema
        omega
      omega
    rw [if_pos hfits, Sdk.encodeStartup_ok_iff.mpr hencoded]
    refine confirmStartup_eq hencoded ?_ hcanonicalKeys hdepth henvironment
    rw [canonical_canonical]
    exact hcanonical
  · rw [if_neg hfits]
    cases hencoded : Sdk.encodeStartup (responseOf startup environment) true requestId with
    | ok response =>
      exact absurd (hresponse.mp ⟨response, Sdk.encodeStartup_ok_iff.mp hencoded⟩) hfits
    | error error => rfl

end

/-! ### A worker of the sample schema -/

/-- The bytes of the sample configuration. -/
def workersBytes : List UInt8 :=
  [123, 34, 98, 97, 116, 99, 104, 34, 58, 45, 56, 44, 34, 116, 104, 114, 101, 97, 100, 115, 34, 58,
    50, 125]

/-- A request with the sample configuration. -/
def workersStartup : Startup where
  sessionGeneration := 3
  interfaceFingerprint := List.replicate 32 1
  configurationFingerprint := List.replicate 32 2
  metadataFingerprint := 5
  capabilities := 64
  operationCount := 1
  protocolVersion := 1
  configurationSchemaVersion := 1
  config := workersBytes
  descriptorRoles := expectedRoles .disabled

/-- A worker with an `initialize` hook that accepts every configuration. -/
def workersProcess : Process where
  operations := ⟨List.replicate 32 1, List.replicate 32 2, 5, 64, 1, 1, 1, true, false⟩
  interpreter := ⟨utf8Decoders, 8⟩
  environment := ⟨ofString "3.12.3", ofString "2.6.0", ofString "2.39", ofString "/usr/bin/python3"⟩
  hookAccepts _ := true

/-- The exchange with the sample configuration. -/
theorem startupExchange_workers :
    startupExchange .ofBits Sha256.digestVector ⟨utf8Decoders, 8⟩ (fun _ => [])
      workersProcess workersStartup 7 = .ok workersProcess.environment := by
  have hpacket : ∃ packet, encodeStartup workersStartup false 7 = .ok packet := by
    have hok : (encodeStartup workersStartup false 7).isOk = true := by decide +kernel
    cases h : encodeStartup workersStartup false 7 with
    | error error =>
      rw [h] at hok
      cases hok
    | ok packet => exact ⟨packet, rfl⟩
  have hconfig : canonicalizeWorkers workersReversed = .ok workersStartup.config := by
    decide +kernel
  have hschema : ∀ schema ∈ some workersSchema, nesting (.obj schema) < 8 := by
    rintro schema ⟨⟩
    decide
  have hliteral : ∀ s : String, Scalars (ofString s) := fun s =>
    Utf8.encode_isSome_iff.mp (Utf8.encode_ofString_isSome s)
  have hfits : workersStartup.config.length + overhead workersProcess.environment ≤
      MAX_CONFIG_BYTES := by decide +kernel
  rw [startupExchange_eq hpacket ⟨rfl, by decide⟩
    ⟨hliteral _, hliteral _, hliteral _, hliteral _⟩ hconfig rfl distinctKeys_workersReversed rfl
    ⟨by decide, fun schema h => Nat.le_of_lt (hschema schema h)⟩ ⟨by decide, hschema⟩, if_pos hfits]

end Wmfs.Worker.Startup
