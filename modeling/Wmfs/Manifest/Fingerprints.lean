import Wmfs.Compiler.Accepted
import Wmfs.Lib.Sha256
import Wmfs.Manifest.Translation

/-!
# `Wmfs.Manifest.Fingerprints`: compiler and runtime compute the same fingerprints

The compiler writes the interface document and the metadata document from its own model. The
runtime rebuilds the first one from the fields of the manifest and the second one from the
decoded metadata. `fingerprints_agree` says that both are the same documents, so the runtime
accepts both fingerprints of a generated manifest.

A document that the JSON library wrote is read back as it is, so the manifest that the runtime
decodes is the document that the compiler generated.
-/

set_option autoImplicit false

namespace Wmfs.Manifest

open Wmfs.Lib
open Wmfs.Lib.Utf8 (Text ofString)
open Wmfs.Lib.Document (Members get? membersOf orNull)
open Wmfs.Invocation (Exn)

/-! ### The metadata document -/

mutual
/-- The runtime writes a dimension as the compiler does. -/
theorem dimensionDocument_metadata : ∀ value : Compiler.Dimension,
    dimensionDocument (dimensionMetadata value) = Compiler.metadataDimension value
  | .constant value h => rfl
  | .inputAxis input axis => rfl
  | .minimum first second rest => by
    have hfirst := dimensionDocument_metadata first
    have hsecond := dimensionDocument_metadata second
    have hrest := dimensionsDocument_metadata rest
    rw [dimensionMetadata, dimensionDocument, dimensionsDocument, dimensionsDocument, hfirst,
      hsecond, hrest]
    rfl
  | .select scalar whenTrue whenFalse => by
    have htrue := dimensionDocument_metadata whenTrue
    have hfalse := dimensionDocument_metadata whenFalse
    rw [dimensionMetadata, dimensionDocument, htrue, hfalse]
    rfl

/-- The runtime writes a list of dimensions as the compiler does. -/
theorem dimensionsDocument_metadata : ∀ values : List Compiler.Dimension,
    dimensionsDocument (dimensionsMetadata values) = Compiler.metadataDimensions values
  | [] => rfl
  | value :: values => by
    have hfirst := dimensionDocument_metadata value
    have hrest := dimensionsDocument_metadata values
    rw [dimensionsMetadata, dimensionsDocument, hfirst, hrest]
    rfl
end

/-- A supported dtype keeps its text as a string. -/
theorem ofString_toString_of_supported {text : Text}
    (h : text ∈ Compiler.SUPPORTED_DTYPES.map ofString) : ofString (Utf8.toString text) = text := by
  obtain ⟨name, _, rfl⟩ := List.mem_map.mp h
  rw [Utf8.toString_ofString]

/-- The runtime writes a valid dtype as the compiler does. -/
theorem dtypeDocument_metadata {operation : Compiler.Operation} {value : Compiler.DType}
    (h : Compiler.validateDType operation value = .ok ()) :
    dtypeDocument (dtypeMetadata value) = Compiler.metadataDType value := by
  cases value with
  | input index => rfl
  | fixed value =>
    rw [Compiler.validateDType, raiseIf_ok_iff, not_not] at h
    show Document.object [("kind", .string "fixed"),
      ("value", .str (ofString (Utf8.toString value.text)))] = _
    rw [ofString_toString_of_supported h]
    rfl
  | «variable» name => rfl
  | promoteTensorScalar input scalar => rfl

/-- The runtime writes a valid output as the compiler does. -/
theorem outputDocument_metadata {operation : Compiler.Operation} {value : Compiler.Output}
    (h : Compiler.validateOutputReferences operation value = .ok ()) :
    outputDocument (outputMetadata value) = Compiler.metadataOutput value := by
  obtain ⟨name, known⟩ := value
  cases known with
  | none => rfl
  | some known =>
    obtain ⟨shape, dtype⟩ := known
    obtain ⟨_, _, hdtype⟩ := Result.bind_ok_iff.mp h
    have hdocument := dtypeDocument_metadata hdtype
    cases shape with
    | sameShapeAsInput input =>
      show Document.object [("known", .object [("dtype", dtypeDocument (dtypeMetadata dtype)),
        ("shape", .int input), ("shape_kind", .string "sameShapeAsInput")]),
        ("name", .string name.name)] = _
      rw [hdocument]
      rfl
    | dimensions values =>
      show Document.object [("known", .object [("dtype", dtypeDocument (dtypeMetadata dtype)),
        ("shape", .arr (dimensionsDocument (dimensionsMetadata values))),
        ("shape_kind", .string "dimensions")]), ("name", .string name.name)] = _
      rw [hdocument, dimensionsDocument_metadata]
      rfl

/-- An identifier that may be missing is written as its name. -/
theorem orNull_identifier (identifier : Option Compiler.Identifier) :
    orNull Document.string (identifier.map Compiler.Identifier.name) =
      orNull Compiler.identifierDocument identifier := by
  cases identifier <;> rfl

/-- The runtime writes an input as the compiler does. -/
theorem tensorDocument_metadata (tensor : Compiler.TensorParameter) :
    tensorDocument 2 (tensorMetadata tensor) = Compiler.metadataInput tensor := by
  rw [Compiler.metadataInput, ← orNull_identifier]
  rfl

/-- The runtime writes a default as the compiler does. -/
theorem defaultDocument_metadata (scalar : Compiler.ScalarParameter) :
    orNull valueDocument (defaultMetadata scalar.type) = orNull id scalar.default := by
  unfold Compiler.ScalarParameter.default
  cases scalar.type with
  | boolean default => cases default <;> rfl
  | float64 default => cases default <;> rfl
  | int64 default => cases default <;> rfl
  | text default => cases default <;> rfl
  | enum declaration default => cases default <;> rfl

/-- The runtime writes a scalar as the compiler does. -/
theorem scalarDocument_metadata (scalar : Compiler.ScalarParameter) :
    scalarDocument 2 (scalarMetadata scalar) = Compiler.metadataScalar scalar := by
  rw [Compiler.metadataScalar, ← orNull_identifier, ← defaultDocument_metadata,
    Compiler.identifiersDocument]
  show Document.object _ = _
  rw [scalarMetadata]
  show Document.object [_, _, ("enum_values", .arr (List.map .str (List.map _ _))), _, _, _] = _
  rw [List.map_map]
  rfl

/-- The runtime writes a VJP as the compiler does. -/
theorem vjpDocument_metadata (vjp : Option Compiler.Vjp) :
    orNull vjpDocument (vjp.map vjpMetadata) = orNull Compiler.vjpDocument vjp := by
  cases vjp <;> rfl

/-- The metadata of an operation has the document that the compiler hashes. -/
theorem operationDocument_metadata {operations : List Compiler.Operation}
    {operation : Compiler.Operation} (h : Compiler.OperationValid operations operation) :
    operationDocument 2 (operationMetadata operation) = Compiler.metadataOperation operation := by
  have houtputs : operation.outputs.map (outputDocument ∘ outputMetadata) =
      operation.outputs.map Compiler.metadataOutput :=
    List.map_congr_left fun output hmem => outputDocument_metadata (h.references output hmem)
  have hinputs : tensorDocument 2 ∘ tensorMetadata = Compiler.metadataInput :=
    funext tensorDocument_metadata
  have hscalars : scalarDocument 2 ∘ scalarMetadata = Compiler.metadataScalar :=
    funext scalarDocument_metadata
  have hvariables : dtypeVariableDocument ∘ dtypeVariableMetadata =
      Compiler.dtypeVariableDocument := rfl
  rw [operationDocument, operationMetadata]
  simp only [List.map_map, vjpDocument_metadata, houtputs, hinputs, hscalars, hvariables]
  rfl

/-- The metadata that `load_manifest` builds for a plugin. -/
def pluginMetadata (plugin : Compiler.Plugin) (fingerprint : Nat) : PluginMetadata where
  name := plugin.name.name
  version := plugin.version.text
  protocolVersion := plugin.protocolVersion
  operations := plugin.operations.map operationMetadata
  fingerprint := fingerprint
  metadataVersion := 2

/-- The runtime hashes the document that the compiler hashes. -/
theorem canonicalDocument_pluginMetadata {plugin : Compiler.Plugin}
    (h : Compiler.PluginValid plugin) (fingerprint : Nat) :
    canonicalDocument (pluginMetadata plugin fingerprint) = Compiler.metadataDocument plugin := by
  have hoperations : plugin.operations.map (operationDocument 2 ∘ operationMetadata) =
      plugin.operations.map Compiler.metadataOperation :=
    List.map_congr_left fun operation hmem =>
      operationDocument_metadata (h.operations_valid operation hmem)
  rw [canonicalDocument, pluginMetadata]
  simp only [List.map_map, hoperations]
  rfl

/-! ### Documents of a plugin with finite defaults -/

/-- The defaults of the scalars are finite. -/
def FiniteDefaults (plugin : Compiler.Plugin) : Prop :=
  ∀ operation ∈ plugin.operations, ∀ scalar ∈ operation.scalars, ∀ bits,
    scalar.type = .float64 (some bits) → Document.isFinite bits = true

/-- An identifier that may be missing is a JSON value. -/
theorem isJson_identifier (identifier : Option Compiler.Identifier) :
    Json.isJson (orNull Compiler.identifierDocument identifier) = true :=
  Json.isJson_orNull fun _ _ => rfl

/-- A list of identifiers is a JSON value. -/
theorem isJson_identifiers (identifiers : List Compiler.Identifier) :
    Json.isJson (Compiler.identifiersDocument identifiers) = true := by
  rw [Compiler.identifiersDocument, Json.isJson_arr, List.all_map, List.all_eq_true]
  intro identifier _
  rfl

/-- A finite default is a JSON value. -/
theorem isJson_default {scalar : Compiler.ScalarParameter}
    (h : ∀ bits, scalar.type = .float64 (some bits) → Document.isFinite bits = true) :
    Json.isJson (orNull id scalar.default) = true := by
  refine Json.isJson_orNull fun document hdocument => ?_
  unfold Compiler.ScalarParameter.default at hdocument
  split at hdocument
  · obtain ⟨b, _, rfl⟩ := Option.map_eq_some_iff.mp hdocument
    rfl
  · rename_i default htype
    obtain ⟨bits, hbits, rfl⟩ := Option.map_eq_some_iff.mp hdocument
    rw [hbits] at htype
    exact h bits htype
  · obtain ⟨n, _, rfl⟩ := Option.map_eq_some_iff.mp hdocument
    rfl
  · obtain ⟨text, _, rfl⟩ := Option.map_eq_some_iff.mp hdocument
    rfl
  · obtain ⟨value, _, rfl⟩ := Option.map_eq_some_iff.mp hdocument
    rfl

/-- A VJP is a JSON value. -/
theorem isJson_vjp (vjp : Option Compiler.Vjp) :
    Json.isJson (orNull Compiler.vjpDocument vjp) = true := by
  refine Json.isJson_orNull fun vjp _ => ?_
  simp [Compiler.vjpDocument]

/-- A dtype variable is a JSON value. -/
theorem isJson_dtypeVariable (declared : Compiler.DTypeVariable) :
    Json.isJson (Compiler.dtypeVariableDocument declared) = true := by
  simp [Compiler.dtypeVariableDocument, Compiler.identifierDocument]

mutual
/-- A dimension of the interface is a JSON value. -/
theorem isJson_dimensionDocument : ∀ value : Compiler.Dimension,
    Json.isJson (Compiler.dimensionDocument value) = true
  | .constant value h => by simp [Compiler.dimensionDocument]
  | .inputAxis input axis => by simp [Compiler.dimensionDocument]
  | .minimum first second rest => by
    have hfirst := isJson_dimensionDocument first
    have hsecond := isJson_dimensionDocument second
    have hrest := areJson_dimensionsDocument rest
    rw [← List.all_eq_true] at hrest
    simp [Compiler.dimensionDocument, hfirst, hsecond, hrest]
  | .select scalar whenTrue whenFalse => by
    have htrue := isJson_dimensionDocument whenTrue
    have hfalse := isJson_dimensionDocument whenFalse
    simp [Compiler.dimensionDocument, htrue, hfalse]

/-- The dimensions of the interface are JSON values. -/
theorem areJson_dimensionsDocument : ∀ values : List Compiler.Dimension,
    ∀ document ∈ Compiler.dimensionsDocument values, Json.isJson document = true
  | [] => by
    intro document h
    cases h
  | value :: values => by
    rw [Compiler.dimensionsDocument, List.forall_mem_cons]
    exact ⟨isJson_dimensionDocument value, areJson_dimensionsDocument values⟩
end

mutual
/-- A dimension of the metadata is a JSON value. -/
theorem isJson_metadataDimension : ∀ value : Compiler.Dimension,
    Json.isJson (Compiler.metadataDimension value) = true
  | .constant value h => by simp [Compiler.metadataDimension]
  | .inputAxis input axis => by simp [Compiler.metadataDimension]
  | .minimum first second rest => by
    have hfirst := isJson_metadataDimension first
    have hsecond := isJson_metadataDimension second
    have hrest := areJson_metadataDimensions rest
    rw [← List.all_eq_true] at hrest
    simp [Compiler.metadataDimension, hfirst, hsecond, hrest]
  | .select scalar whenTrue whenFalse => by
    have htrue := isJson_metadataDimension whenTrue
    have hfalse := isJson_metadataDimension whenFalse
    simp [Compiler.metadataDimension, htrue, hfalse]

/-- The dimensions of the metadata are JSON values. -/
theorem areJson_metadataDimensions : ∀ values : List Compiler.Dimension,
    ∀ document ∈ Compiler.metadataDimensions values, Json.isJson document = true
  | [] => by
    intro document h
    cases h
  | value :: values => by
    rw [Compiler.metadataDimensions, List.forall_mem_cons]
    exact ⟨isJson_metadataDimension value, areJson_metadataDimensions values⟩
end

/-- A dtype is a JSON value in both documents. -/
theorem isJson_dtypes (value : Compiler.DType) :
    Json.isJson (Compiler.dtypeDocument value) = true ∧
      Json.isJson (Compiler.metadataDType value) = true := by
  cases value <;> simp [Compiler.dtypeDocument, Compiler.metadataDType, Compiler.identifierDocument]

/-- An output of the interface is a JSON value. -/
theorem isJson_outputDocument (output : Compiler.Output) :
    Json.isJson (Compiler.outputDocument output) = true := by
  have hdtype : Json.isJson (orNull Compiler.dtypeDocument output.dtype) = true :=
    Json.isJson_orNull fun value _ => (isJson_dtypes value).1
  have hsame : Json.isJson (orNull .int output.sameShapeAsInput) = true :=
    Json.isJson_orNull fun _ _ => rfl
  have hdimensions := List.all_eq_true.mpr (areJson_dimensionsDocument output.dimensions)
  simp [Compiler.outputDocument, Compiler.identifierDocument, hdtype, hsame, hdimensions]

/-- An output of the metadata is a JSON value. -/
theorem isJson_metadataOutput (output : Compiler.Output) :
    Json.isJson (Compiler.metadataOutput output) = true := by
  have hknown : Json.isJson (orNull Compiler.metadataKnown output.known) = true := by
    refine Json.isJson_orNull fun known _ => ?_
    obtain ⟨shape, dtype⟩ := known
    cases shape with
    | sameShapeAsInput input => simp [Compiler.metadataKnown, (isJson_dtypes dtype).2]
    | dimensions values =>
      have hvalues := List.all_eq_true.mpr (areJson_metadataDimensions values)
      simp [Compiler.metadataKnown, (isJson_dtypes dtype).2, hvalues]
  simp [Compiler.metadataOutput, Compiler.identifierDocument, hknown]

/-- The documents of all items are JSON values. -/
theorem all_isJson_map {α : Type} {f : α → Document} {items : List α}
    (h : ∀ item ∈ items, Json.isJson (f item) = true) : (items.map f).all Json.isJson = true := by
  rw [List.all_map, List.all_eq_true]
  exact h

/-- With finite defaults an operation of the interface is a JSON value. -/
theorem isJson_interfaceOperation {operation : Compiler.Operation}
    (h : ∀ scalar ∈ operation.scalars, ∀ bits,
      scalar.type = .float64 (some bits) → Document.isFinite bits = true) :
    Json.isJson (Compiler.interfaceOperation operation) = true := by
  have hvariables := all_isJson_map fun declared (_ : declared ∈ operation.dtypeVariables) =>
    isJson_dtypeVariable declared
  have hinputs : (operation.inputs.map Compiler.tensorDocument).all Json.isJson = true :=
    all_isJson_map fun tensor _ => by
      simp [Compiler.tensorDocument, isJson_identifier, Compiler.identifierDocument]
  have houtputs := all_isJson_map fun output (_ : output ∈ operation.outputs) =>
    isJson_outputDocument output
  have hscalars : (operation.scalars.map Compiler.scalarDocument).all Json.isJson = true :=
    all_isJson_map fun scalar hmem => by
      simp [Compiler.scalarDocument, isJson_identifier, isJson_identifiers,
        Compiler.identifierDocument, isJson_default (h scalar hmem)]
  simp [Compiler.interfaceOperation, hvariables, hinputs, houtputs, hscalars, isJson_vjp,
    Compiler.identifierDocument, -List.all_map]

/-- With finite defaults an operation of the metadata is a JSON value. -/
theorem isJson_metadataOperation {operation : Compiler.Operation}
    (h : ∀ scalar ∈ operation.scalars, ∀ bits,
      scalar.type = .float64 (some bits) → Document.isFinite bits = true) :
    Json.isJson (Compiler.metadataOperation operation) = true := by
  have hvariables := all_isJson_map fun declared (_ : declared ∈ operation.dtypeVariables) =>
    isJson_dtypeVariable declared
  have hinputs : (operation.inputs.map Compiler.metadataInput).all Json.isJson = true :=
    all_isJson_map fun tensor _ => by
      simp [Compiler.metadataInput, isJson_identifier, Compiler.identifierDocument]
  have houtputs : (operation.outputs.map Compiler.metadataTensorOutput).all Json.isJson = true :=
    all_isJson_map fun output _ => by
      simp [Compiler.metadataTensorOutput, Compiler.identifierDocument]
  have hplans := all_isJson_map fun output (_ : output ∈ operation.outputs) =>
    isJson_metadataOutput output
  have hscalars : (operation.scalars.map Compiler.metadataScalar).all Json.isJson = true :=
    all_isJson_map fun scalar hmem => by
      simp [Compiler.metadataScalar, isJson_identifier, isJson_identifiers,
        Compiler.identifierDocument, isJson_default (h scalar hmem)]
  simp [Compiler.metadataOperation, hvariables, hinputs, houtputs, hplans, hscalars, isJson_vjp,
    Compiler.identifierDocument, -List.all_map]

/-- With finite defaults the interface is a JSON value. -/
theorem isJson_interfaceDocument {plugin : Compiler.Plugin} (h : FiniteDefaults plugin) :
    Json.isJson (Compiler.interfaceDocument plugin) = true := by
  have henums : (plugin.enums.map Compiler.enumDocument).all Json.isJson = true :=
    all_isJson_map fun declaration _ => by
      simp [Compiler.enumDocument, isJson_identifiers, Compiler.identifierDocument]
  have hoperations := all_isJson_map fun operation (hmem : operation ∈ plugin.operations) =>
    isJson_interfaceOperation (h operation hmem)
  simp [Compiler.interfaceDocument, Compiler.lifecycleDocument, Compiler.pluginDocument,
    Compiler.identifierDocument, henums, hoperations, -List.all_map]

/-- With finite defaults the metadata is a JSON value. -/
theorem isJson_metadataDocument {plugin : Compiler.Plugin} (h : FiniteDefaults plugin) :
    Json.isJson (Compiler.metadataDocument plugin) = true := by
  have hoperations := all_isJson_map fun operation (hmem : operation ∈ plugin.operations) =>
    isJson_metadataOperation (h operation hmem)
  simp [Compiler.metadataDocument, Compiler.identifierDocument, hoperations, -List.all_map]

/-! ### Fingerprints as texts -/

/-- A literal has as many characters as its string. -/
theorem length_ofString (s : String) : (ofString s).length = s.length := by
  rw [ofString, List.length_map, String.length_toList]

/-- Lower-case digits behind the mark are found. -/
theorem hexAfter_append {mark : String} {digits : Text} {count : Nat}
    (hlength : digits.length = count) (hdigits : ∀ point ∈ digits, Hex.isHexDigit point = true) :
    hexAfter mark count (ofString mark ++ digits) = some digits := by
  have htake : (ofString mark ++ digits).take mark.length = ofString mark :=
    List.take_left' (length_ofString mark)
  have hdrop : (ofString mark ++ digits).drop mark.length = digits :=
    List.drop_left' (length_ofString mark)
  rw [hexAfter, htake, hdrop, if_pos]
  refine ⟨rfl, ?_, List.all_eq_true.mpr hdigits⟩
  rw [List.length_append, length_ofString, hlength]

section
variable (floats : Json.FloatText) (sha256 : List UInt8 → Hex.Digest)

/-- The runtime reads back the metadata fingerprint that the compiler writes. -/
theorem readMetadataFingerprint_hexDigits {n : Nat} (h : n < 2 ^ 64) :
    readMetadataFingerprint (.str (ofString "0x" ++ Hex.hexDigits 16 n)) = .ok n := by
  have hne : ofString "0x" ++ Hex.hexDigits 16 n ≠ [] :=
    List.append_ne_nil_of_left_ne_nil (Utf8.ofString_ne_nil (by decide)) _
  have hafter : hexAfter "0x" 16 (ofString "0x" ++ Hex.hexDigits 16 n) =
      some (Hex.hexDigits 16 n) :=
    hexAfter_append (Hex.length_hexDigits 16 n) fun point hpoint =>
      Hex.isHexDigit_of_mem_hexDigits hpoint
  rw [readMetadataFingerprint, text_str hne, Result.ok_bind, hafter]
  have hread := Hex.readHex_hexDigits 16 n
  rw [Nat.mod_eq_of_lt (show n < 16 ^ 16 by omega)] at hread
  exact congrArg Except.ok hread

/-- Eight bytes of a digest are a number of 64 bits. -/
theorem shortFingerprint_lt (digest : Hex.Digest) :
    Hex.bigEndian (digest.toList.take 8) < 2 ^ 64 := by
  have hlength : (digest.toList.take 8).length = 8 := by simp
  have hlt := Hex.bigEndian_lt (digest.toList.take 8)
  rw [hlength] at hlt
  omega

/-- The fields that the interface fingerprint covers. -/
theorem interfaceSource_membersOf (members : List (String × Document)) :
    interfaceSource (membersOf members) =
      .object (members.filter fun entry => entry.1 ∉ UNCOVERED_FIELDS) := by
  have hkey : ∀ entry : String × Document,
      decide (ofString entry.1 ∉ UNCOVERED_FIELDS.map ofString) =
        decide (entry.1 ∉ UNCOVERED_FIELDS) := by
    intro entry
    rw [decide_eq_decide, not_iff_not, List.mem_map]
    constructor
    · intro ⟨name, hname, heq⟩
      rw [← Utf8.ofString_inj.mp heq]
      exact hname
    · intro hname
      exact ⟨entry.1, hname, rfl⟩
  rw [interfaceSource, membersOf, List.filter_map, Document.object, membersOf]
  exact congrArg (fun p => Document.obj ((members.filter p).map _)) (funext hkey)

/-- The source that the runtime rebuilds from a manifest is the interface document. -/
theorem interfaceSource_manifest (plugin : Compiler.Plugin) (fingerprint : Text) (metadata : Nat)
    (configuration : Document) :
    interfaceSource (membersOf
      (Compiler.manifestMembers plugin fingerprint metadata configuration)) =
      Compiler.interfaceDocument plugin := by
  rw [interfaceSource_membersOf, Compiler.manifestMembers, Compiler.interfaceDocument,
    UNCOVERED_FIELDS]
  simp

/-- The digest of the interface document passes the check of the runtime. -/
theorem validateInterfaceFingerprint_manifest {plugin : Compiler.Plugin} {bytes : List UInt8}
    (h : Json.canonicalBytes floats (Compiler.interfaceDocument plugin) = some bytes)
    (metadata : Nat) (configuration : Document) :
    validateInterfaceFingerprint floats sha256 (membersOf (Compiler.manifestMembers plugin
      (Hex.hexBytes (sha256 bytes).toList) metadata configuration)) =
      .ok (sha256 bytes).toList := by
  have hne : ofString "sha256:" ++ Hex.hexBytes (sha256 bytes).toList ≠ [] :=
    List.append_ne_nil_of_left_ne_nil (Utf8.ofString_ne_nil (by decide)) _
  have hafter : hexAfter "sha256:" 64 (ofString "sha256:" ++ Hex.hexBytes (sha256 bytes).toList) =
      some (Hex.hexBytes (sha256 bytes).toList) := by
    refine hexAfter_append ?_ fun point hpoint => Hex.isHexDigit_of_mem_hexBytes hpoint
    rw [Hex.length_hexBytes, Vector.length_toList]
  have hdeclared : (Compiler.manifestMembers plugin (Hex.hexBytes (sha256 bytes).toList) metadata
      configuration).lookup "interfaceFingerprint" =
      some (.str (ofString "sha256:" ++ Hex.hexBytes (sha256 bytes).toList)) := by
    simp [Compiler.manifestMembers]
  rw [validateInterfaceFingerprint, subscript_membersOf, hdeclared, Option.elim_some,
    Result.ok_bind, text_str hne, Result.ok_bind, interfaceSource_manifest, hafter, h]
  simp only [ne_eq, not_true_eq_false, raiseIf, if_false]
  rfl

/-- The runtime builds the metadata of the plugin from the manifest. -/
theorem readMetadata_manifest (plugin : Compiler.Plugin) (fingerprint : Text) {metadata : Nat}
    (configuration : Document) (h : metadata < 2 ^ 64) (protocolVersion : Int) :
    readMetadata (membersOf (Compiler.manifestMembers plugin fingerprint metadata configuration))
      (plugin.operations.map Compiler.interfaceOperation) 2 protocolVersion =
      .ok { pluginMetadata plugin metadata with protocolVersion := protocolVersion } := by
  have hplugin : (Compiler.manifestMembers plugin fingerprint metadata configuration).lookup
      "plugin" = some (Compiler.pluginDocument plugin) := by
    simp [Compiler.manifestMembers]
  have hmetadata : (Compiler.manifestMembers plugin fingerprint metadata configuration).lookup
      "metadataFingerprint" = some (.str (ofString "0x" ++ Hex.hexDigits 16 metadata)) := by
    simp [Compiler.manifestMembers]
  rw [readMetadata, subscript_membersOf, hplugin, subscript_membersOf, hmetadata,
    Compiler.pluginDocument]
  simp only [Option.elim_some, Result.ok_bind, object_object]
  rw [keys_ok (by simp) (by simp)]
  simp only [Result.ok_bind, subscript_membersOf, Document.lookup_cons_ite, String.reduceEq,
    if_true, if_false, Option.elim_some, string_identifier, text_str plugin.version.text_ne_nil,
    readMetadataFingerprint_hexDigits h, operations_interfaceOperations]
  rfl

/-- The schema of the configuration of an accepted interface has a canonical text. -/
theorem isJson_configuration {data : Members} {plugin : Compiler.Plugin}
    {configuration : Compiler.Configuration} (h : Compiler.loadInterface floats data = .ok plugin)
    (hconfiguration : plugin.configuration = some configuration) :
    Json.isJson (Compiler.configurationSizeDocument configuration) = true := by
  obtain ⟨members, haccepted⟩ := Compiler.exists_configuration_of_readInterface floats
    ((Compiler.loadInterface_ok_iff floats).mp h).1 hconfiguration
  exact Compiler.isJson_of_configuration floats haccepted

/-- A document that JSON can hold has canonical bytes. -/
theorem exists_canonicalBytes {document : Document} (h : Json.isJson document = true) :
    ∃ bytes, Json.canonicalBytes floats document = some bytes := by
  rw [← Option.isSome_iff_exists, Json.canonicalBytes_isSome_iff]
  exact h

/-- The manifest of an accepted interface with finite defaults. -/
theorem exists_manifest {data : Members} {plugin : Compiler.Plugin}
    (h : Compiler.loadInterface floats data = .ok plugin) (hfinite : FiniteDefaults plugin) :
    ∃ interfaceBytes metadataBytes configuration,
      Json.canonicalBytes floats (Compiler.interfaceDocument plugin) = some interfaceBytes ∧
      Json.canonicalBytes floats (Compiler.metadataDocument plugin) = some metadataBytes ∧
      Compiler.manifest floats sha256 plugin = some (.object (Compiler.manifestMembers plugin
        (Hex.hexBytes (sha256 interfaceBytes).toList)
        (Hex.bigEndian ((sha256 metadataBytes).toList.take 8)) configuration)) := by
  obtain ⟨interfaceBytes, hinterface⟩ :=
    exists_canonicalBytes floats (isJson_interfaceDocument hfinite)
  obtain ⟨metadataBytes, hmetadata⟩ :=
    exists_canonicalBytes floats (isJson_metadataDocument hfinite)
  have hconfiguration : ∃ document, (plugin.configuration.elim (some .null) fun configuration =>
      Compiler.configurationManifest floats sha256 configuration) = some document := by
    cases hfound : plugin.configuration with
    | none => exact ⟨.null, rfl⟩
    | some configuration =>
      obtain ⟨bytes, hbytes⟩ :=
        exists_canonicalBytes floats (isJson_configuration floats h hfound)
      rw [Option.elim_some, Compiler.configurationManifest, Compiler.configurationFingerprint,
        Compiler.fingerprintOf, hbytes]
      exact ⟨_, rfl⟩
  obtain ⟨configuration, hconfiguration⟩ := hconfiguration
  refine ⟨interfaceBytes, metadataBytes, configuration, hinterface, hmetadata, ?_⟩
  rw [Compiler.manifest, Compiler.fingerprintOf, hinterface, Compiler.metadataFingerprint,
    Compiler.shortFingerprintOf, hmetadata, hconfiguration]
  rfl

/-- The runtime accepts both fingerprints of every generated manifest. The metadata that it
decodes has the canonical bytes that the compiler hashes, and the source that it rebuilds is the
interface document. -/
theorem fingerprints_agree {data : Members} {plugin : Compiler.Plugin}
    (h : Compiler.loadInterface floats data = .ok plugin) (hfinite : FiniteDefaults plugin) :
    ∃ members operationDocuments metadata metadataBytes digest,
      Compiler.manifest floats sha256 plugin = some (.obj members) ∧
      get? members "operations" = some (.arr operationDocuments) ∧
      readMetadata members operationDocuments 2 plugin.protocolVersion = .ok metadata ∧
      Json.canonicalBytes floats (Compiler.metadataDocument plugin) = some metadataBytes ∧
      canonicalMetadataBytes floats metadata = .ok metadataBytes ∧
      metadataFingerprint floats sha256 metadata = .ok metadata.fingerprint ∧
      interfaceSource members = Compiler.interfaceDocument plugin ∧
      validateInterfaceFingerprint floats sha256 members = .ok digest := by
  have hvalid := Compiler.pluginValid_of_loadInterface h
  obtain ⟨interfaceBytes, metadataBytes, configuration, hinterface, hmetadata, hmanifest⟩ :=
    exists_manifest floats sha256 h hfinite
  let fingerprint := Hex.bigEndian ((sha256 metadataBytes).toList.take 8)
  have hcanonical : canonicalMetadataBytes floats (pluginMetadata plugin fingerprint) =
      .ok metadataBytes := by
    rw [canonicalMetadataBytes, canonicalDocument_pluginMetadata hvalid, hmetadata]
  refine ⟨_, plugin.operations.map Compiler.interfaceOperation,
    pluginMetadata plugin fingerprint, metadataBytes, (sha256 interfaceBytes).toList, hmanifest,
    ?_, ?_, hmetadata, hcanonical, ?_, interfaceSource_manifest plugin _ _ _,
    validateInterfaceFingerprint_manifest floats sha256 hinterface _ _⟩
  · rw [Document.get?_membersOf]
    simp [Compiler.manifestMembers]
  · exact readMetadata_manifest plugin _ configuration (shortFingerprint_lt _) _
  · rw [metadataFingerprint, hcanonical]
    rfl

end

/-- The source of an operation that scales a tensor by a factor, which is 1.0 when it is left
out. -/
def scaleSource : Document :=
  .object [("id", .int 1), ("name", .string "scale"),
    ("inputs", .arr [.object [("name", .string "x")]]),
    ("scalars", .arr [.object [("name", .string "factor"), ("kind", .string "float64"),
      ("required", .bool false), ("default", .float 0x3FF0000000000000)]]),
    ("outputs", .arr [.object [("name", .string "y"), ("same_shape_as_input", .int 0),
      ("dtype", .object [("input", .int 0)])]])]

/-- The operation of `scaleSource`. -/
def scaleOperation : Compiler.Operation where
  operationId := 1
  name := ⟨"scale", by decide⟩
  internal := false
  inputs := [⟨⟨"x", Compiler.isIdentifier_x⟩, .readOnly, .any⟩]
  outputs := [⟨⟨"y", Compiler.isIdentifier_y⟩, some ⟨.sameShapeAsInput 0, .input 0⟩⟩]
  scalars := [⟨⟨"factor", by decide⟩, .float64 (some 0x3FF0000000000000)⟩]
  vjp := none
  dtypeVariables := []

/-- The default of the sample is finite. -/
theorem finiteDefaults_scale : FiniteDefaults (Compiler.smallPlugin [scaleOperation]) := by
  intro operation hoperation scalar hscalar bits htype
  cases List.mem_singleton.mp hoperation
  cases List.mem_singleton.mp hscalar
  cases htype
  decide

/-- The manifest of the sample, with SHA-256. -/
theorem fingerprints_agree_scale :
    ∃ members operationDocuments metadata metadataBytes digest,
      Compiler.manifest .ofBits Sha256.digestVector
        (Compiler.smallPlugin [scaleOperation]) = some (.obj members) ∧
      get? members "operations" = some (.arr operationDocuments) ∧
      readMetadata members operationDocuments 2 11 = .ok metadata ∧
      Json.canonicalBytes .ofBits
        (Compiler.metadataDocument (Compiler.smallPlugin [scaleOperation])) = some metadataBytes ∧
      canonicalMetadataBytes .ofBits metadata = .ok metadataBytes ∧
      metadataFingerprint .ofBits Sha256.digestVector metadata =
        .ok metadata.fingerprint ∧
      interfaceSource members =
        Compiler.interfaceDocument (Compiler.smallPlugin [scaleOperation]) ∧
      validateInterfaceFingerprint .ofBits Sha256.digestVector members = .ok digest := by
  have haccepted : Compiler.loadInterface .ofBits (Compiler.smallInterface [scaleSource]) =
      .ok (Compiler.smallPlugin [scaleOperation]) := rfl
  exact fingerprints_agree .ofBits _ haccepted finiteDefaults_scale

end Wmfs.Manifest
