import Wmfs.Configuration.Model
import Wmfs.Lib.JsonBytes

/-!
# `Wmfs.Configuration.Canonical`: the canonical configuration of a plugin

`validate_and_canonicalize` of `wmfs/configuration.py` makes the bytes of a configuration, and
the two readers of these bytes give the configuration to the `initialize` hook: `_serve` of
`wmfs_plugin/worker.py` in a worker, and `BundledBackend.initialize` in the process. The worker
writes what it has read once more, and refuses bytes that are not the ones it received.

- `canonicalBytes_eq_iff`: two configurations have the same bytes exactly when they are the same
  but for the order of their keys.
- `readers_agree`: both readers accept the bytes of every configuration, and give the hook the
  same configuration with its keys in order.
- `workerConfiguration_iff`: the worker accepts the canonical bytes of an object and no others.

`_plain_json` turns mappings and tuples into the dictionaries and lists of a document, so it is
not seen here. The limit of the interpreter on nesting is a parameter of a reader. A
configuration nests no deeper than its schema (`nesting_le_of_validateValue`).
-/

set_option autoImplicit false

namespace Wmfs.Configuration

open Wmfs.Lib Wmfs.Lib.Json
open Wmfs.Lib.Utf8 (Text ofString)
open Wmfs.Lib.Document (Members get? Everywhere DistinctKeys)
open Wmfs.Compiler (ConfigurationKind ConfigurationScalarKind)

/-! ### The writer -/

/-- `EMPTY_CONFIGURATION_BYTES`. -/
def EMPTY_CONFIGURATION_BYTES : List UInt8 := [0x7B, 0x7D]

/-- `MAX_CONFIGURATION_BYTES`. -/
def MAX_CONFIGURATION_BYTES : Nat := 65536

/-- `validate_and_canonicalize`. `config` is missing where it is `None`, and `metadata` is the
schema of the plugin, which is missing where the plugin has none. -/
def validateAndCanonicalize (floats : FloatText) (config : Option Document)
    (metadata : Option Members) (plugin : Text) : Except Exn (List UInt8) :=
  match config with
  | none => .ok EMPTY_CONFIGURATION_BYTES
  | some (.obj members) =>
    match metadata with
    | none => do
      raiseIf (members ≠ []) (.valueError [.text (ofString "plugin "), .repr plugin,
        .text (ofString " does not accept configuration")])
      return EMPTY_CONFIGURATION_BYTES
    | some schema => do
      validateValue schema (ofString "configuration") (.obj members)
      if members = [] then return EMPTY_CONFIGURATION_BYTES
      else match encodeJson floats (.obj members) with
      | none => throw (.valueError [.text (ofString "configuration is not canonical JSON")])
      | some encoded => do
        raiseIf (encoded.length > MAX_CONFIGURATION_BYTES) (.valueError
          [.text (ofString "configuration exceeds the 65536-byte limit")])
        return encoded
  | some _ => .error (.valueError [.text (ofString "configuration for plugin "), .repr plugin,
      .text (ofString " must be an object")])

/-! ### The readers -/

section
variable (decoders : Decoders) (floats : FloatText) (depth : Nat)

/-- The configuration that `_serve` of the worker passes to `initialize`. -/
def workerConfiguration (bytes : List UInt8) : Option Document :=
  (loadsBytes decoders floats depth bytes).bind fun config =>
    match config with
    | .obj members => if encodeJson floats (.obj members) = some bytes then some config else none
    | _ => none

/-- The configuration that `BundledBackend.initialize` passes to the hook. -/
def bundledConfiguration (bytes : List UInt8) : Option Document :=
  loadsBytes decoders floats depth bytes

end

/-! ### What is accepted -/

/-- The members that `config` stands for. -/
def givenMembers : Option Document → Option Members
  | none => some []
  | some (.obj members) => some members
  | some _ => none

section
variable {floats : FloatText}

/-- The empty configuration. -/
theorem encodeJson_empty : encodeJson floats (.obj []) = some EMPTY_CONFIGURATION_BYTES := rfl

/-- An accepted configuration: an object that has these bytes, within the limit. It is empty or
a value of the schema. -/
structure Accepted (floats : FloatText) (metadata : Option Members) (members : Members)
    (bytes : List UInt8) : Prop where
  encoded : encodeJson floats (.obj members) = some bytes
  bounded : bytes.length ≤ MAX_CONFIGURATION_BYTES
  valid : members = [] ∨ ∃ schema ∈ metadata, ∃ path,
    validateValue schema path (.obj members) = .ok ()

/-- A configuration that passes is accepted. -/
theorem accepted_of_validate {config : Option Document} {metadata : Option Members}
    {plugin : Text} {bytes : List UInt8}
    (h : validateAndCanonicalize floats config metadata plugin = .ok bytes) :
    ∃ members, givenMembers config = some members ∧ Accepted floats metadata members bytes := by
  have hempty : EMPTY_CONFIGURATION_BYTES.length ≤ MAX_CONFIGURATION_BYTES := by decide
  unfold validateAndCanonicalize at h
  split at h
  · cases h
    exact ⟨[], rfl, encodeJson_empty, hempty, .inl rfl⟩
  · rename_i members
    split at h
    · obtain ⟨hmembers, h⟩ := Result.check_bind_ok_iff.mp h
      rw [raiseIf_ok_iff, not_not] at hmembers
      cases h
      rw [hmembers]
      exact ⟨[], rfl, encodeJson_empty, hempty, .inl rfl⟩
    · rename_i schema
      obtain ⟨hvalid, h⟩ := Result.check_bind_ok_iff.mp h
      split at h
      · rename_i hnil
        cases h
        rw [hnil]
        exact ⟨[], rfl, encodeJson_empty, hempty, .inl rfl⟩
      · split at h
        · cases h
        · rename_i encoded hencoded
          obtain ⟨hlength, h⟩ := Result.check_bind_ok_iff.mp h
          rw [raiseIf_ok_iff, not_lt] at hlength
          cases h
          exact ⟨members, rfl, hencoded, hlength, .inr ⟨schema, rfl, _, hvalid⟩⟩
  · cases h

/-- The value of a key nests less deep than the table. -/
theorem nesting_le_of_lookup {members : Members} {key : Text} {value : Document}
    (h : members.lookup key = some value) : nesting value ≤ nestingMembers members := by
  obtain ⟨before, after, heq, _⟩ := List.lookup_eq_some_iff.mp h
  have hmem : (key, value) ∈ members := by
    rw [heq]
    exact List.mem_append_right before List.mem_cons_self
  exact nestingMembers_le_iff.mp (Nat.le_refl _) _ hmem

/-- An object is no scalar. -/
theorem validateScalar_obj {members : Members} {kind : ConfigurationScalarKind} {path : Text} :
    validateScalar (.obj members) kind path ≠ .ok () := by
  cases kind <;> simp [validateScalar, isScalar, failIf, raiseIf]

/-- An array is no scalar. -/
theorem validateScalar_arr {items : List Document} {kind : ConfigurationScalarKind} {path : Text} :
    validateScalar (.arr items) kind path ≠ .ok () := by
  cases kind <;> simp [validateScalar, isScalar, failIf, raiseIf]

mutual
/-- A value nests no deeper than a schema that accepts it. -/
theorem nesting_le_of_validateValue : ∀ {value : Document} {schema : Members} {path : Text},
    validateValue schema path value = .ok () → nesting value ≤ nesting (.obj schema)
  | .null, _, _, _ | .bool _, _, _, _ | .int _, _, _, _ | .float _, _, _, _ | .str _, _, _, _
  | .date _, _, _, _ => Nat.zero_le _
  | .arr items, schema, path, h => by
    rw [validateValue, validateAs] at h
    obtain ⟨kind, _, h⟩ := Result.bind_ok_iff.mp h
    have hcheck := (Result.check_bind_ok_iff.mp h).1
    cases kind with
    | object => cases hcheck
    | array => exact Nat.succ_le_succ (nesting_le_of_validateItems hcheck)
    | scalar kind => exact absurd hcheck validateScalar_arr
  | .obj members, schema, path, h => by
    rw [validateValue, validateAs] at h
    obtain ⟨kind, _, h⟩ := Result.bind_ok_iff.mp h
    have hcheck := (Result.check_bind_ok_iff.mp h).1
    cases kind with
    | object =>
      obtain ⟨properties, hproperties, hcheck⟩ := Result.bind_ok_iff.mp hcheck
      obtain ⟨required, _, hcheck⟩ := Result.bind_ok_iff.mp hcheck
      have hmembers := nesting_le_of_validateMembers (Result.check_bind_ok_iff.mp hcheck).2
      have hlookup : get? schema "properties" = some (.obj properties) := by
        unfold schemaProperties at hproperties
        split at hproperties
        · rename_i found hfound
          cases hproperties
          exact hfound
        · cases hproperties
        · cases hproperties
      have hle := nesting_le_of_lookup hlookup
      have hproperty : nesting (.obj properties) = nestingMembers properties + 1 := rfl
      show nestingMembers members + 1 ≤ nestingMembers schema + 1
      omega
    | array => cases hcheck
    | scalar kind => exact absurd hcheck validateScalar_obj

/-- Items that pass are nested no deeper than the schema. -/
theorem nesting_le_of_validateItems : ∀ {items : List Document} {schema : Members} {path : Text}
    {index : Nat}, validateItems schema path index items = .ok () →
      nestingItems items ≤ nestingMembers schema
  | [], _, _, _, _ => Nat.zero_le _
  | item :: items, schema, path, index, h => by
    rw [validateItems] at h
    obtain ⟨hitem, hrest⟩ := Result.check_bind_ok_iff.mp h
    refine max_le ?_ (nesting_le_of_validateItems hrest)
    split at hitem
    · rename_i inner hinner
      exact Nat.le_trans (nesting_le_of_validateValue hitem) (nesting_le_of_lookup hinner)
    · cases hitem
    · cases hitem

/-- Members that pass are nested no deeper than the schema. -/
theorem nesting_le_of_validateMembers : ∀ {members properties : Members} {path : Text},
    validateMembers properties path members = .ok () →
      nestingMembers members ≤ nestingMembers properties
  | [], _, _, _ => Nat.zero_le _
  | (name, item) :: members, properties, path, h => by
    rw [validateMembers] at h
    obtain ⟨hitem, hrest⟩ := Result.check_bind_ok_iff.mp h
    refine max_le ?_ (nesting_le_of_validateMembers hrest)
    split at hitem
    · rename_i schema hschema
      exact Nat.le_trans (nesting_le_of_validateValue hitem) (nesting_le_of_lookup hschema)
    · cases hitem
    · cases hitem
end

/-- **A configuration is one text.** Two configurations that are accepted have the same bytes
exactly when they are the same but for the order of their keys. -/
theorem canonicalBytes_eq_iff {config config' : Option Document} {metadata metadata' : Option Members}
    {plugin plugin' : Text} {bytes bytes' : List UInt8} {members members' : Members}
    (h : validateAndCanonicalize floats config metadata plugin = .ok bytes)
    (h' : validateAndCanonicalize floats config' metadata' plugin' = .ok bytes')
    (hmembers : givenMembers config = some members)
    (hmembers' : givenMembers config' = some members')
    (hkeys : Everywhere DistinctKeys (.obj members))
    (hkeys' : Everywhere DistinctKeys (.obj members')) :
    bytes = bytes' ↔ canonical (.obj members) = canonical (.obj members') := by
  obtain ⟨given, hgiven, haccepted⟩ := accepted_of_validate h
  obtain ⟨given', hgiven', haccepted'⟩ := accepted_of_validate h'
  cases hmembers.symm.trans hgiven
  cases hmembers'.symm.trans hgiven'
  obtain ⟨hshort, text, htext, hbytes⟩ := encodeJson_eq_some_iff.mp haccepted.encoded
  obtain ⟨hshort', text', htext', hbytes'⟩ := encodeJson_eq_some_iff.mp haccepted'.encoded
  have hjson : isJson (.obj members') = true := by
    rw [← dumps_isSome_iff floats false, htext']
    rfl
  rw [← dumps_eq_iff htext (loadable_of_short hshort hkeys) (loadable_of_short hshort' hkeys')
    hjson, htext', Option.some_inj]
  constructor
  · rintro rfl
    have hdecode := Utf8.decode_encode hbytes
    rw [Utf8.decode_encode hbytes', Option.some_inj] at hdecode
    exact hdecode
  · rintro rfl
    rw [hbytes, Option.some_inj] at hbytes'
    exact hbytes'

/-- The worker accepts the canonical bytes of an object whose keys are distinct and in order,
and no others, and reads them as this object. -/
theorem workerConfiguration_iff {decoders : Decoders} {depth : Nat} {bytes : List UInt8}
    {config : Document} :
    workerConfiguration decoders floats depth bytes = some config ↔
      ∃ members, config = .obj members ∧ encodeJson floats config = some bytes ∧
        Everywhere DistinctKeys config ∧ Everywhere InOrder config ∧ nesting config ≤ depth := by
  constructor
  · intro h
    obtain ⟨found, hfound, h⟩ := Option.bind_eq_some_iff.mp h
    split at h
    · rename_i members
      split at h
      · rename_i hencoded
        cases h
        exact ⟨members, rfl, hencoded, (loadsBytes_iff hencoded).mp hfound⟩
      · cases h
    · cases h
  · rintro ⟨members, rfl, hencoded, hparts⟩
    rw [workerConfiguration, (loadsBytes_iff hencoded).mpr hparts, Option.bind_some]
    exact if_pos hencoded

/-- The canonical configuration has distinct keys. -/
theorem distinctKeys_canonical {document : Document} {bytes : List UInt8}
    (h : encodeJson floats document = some bytes) (hkeys : Everywhere DistinctKeys document) :
    Everywhere DistinctKeys (canonical document) := by
  obtain ⟨hshort, _⟩ := encodeJson_eq_some_iff.mp h
  exact distinctKeys_of_loadable (loadable_canonical (loadable_of_short hshort hkeys))

/-- An accepted configuration nests no deeper than the schema, or is empty. -/
theorem Accepted.nesting_le {metadata : Option Members} {members : Members} {bytes : List UInt8}
    (h : Accepted floats metadata members bytes) {depth : Nat} (hpos : 0 < depth)
    (hschema : ∀ schema ∈ metadata, nesting (.obj schema) ≤ depth) :
    nesting (.obj members) ≤ depth := by
  rcases h.valid with rfl | ⟨schema, hmetadata, path, hvalid⟩
  · exact hpos
  · exact Nat.le_trans (nesting_le_of_validateValue hvalid) (hschema schema hmetadata)

/-- **The hook sees one configuration.** The bytes of an accepted configuration pass the check of
the worker, and `initialize` is called with the configuration, its keys in order, by a worker and
in the process. A reader that can read the schema can read the configuration. -/
theorem readers_agree {decoders : Decoders} {depth : Nat} {config : Option Document}
    {metadata : Option Members} {plugin : Text} {bytes : List UInt8} {members : Members}
    (h : validateAndCanonicalize floats config metadata plugin = .ok bytes)
    (hmembers : givenMembers config = some members)
    (hkeys : Everywhere DistinctKeys (.obj members)) (hpos : 0 < depth)
    (hschema : ∀ schema ∈ metadata, nesting (.obj schema) ≤ depth) :
    workerConfiguration decoders floats depth bytes = some (canonical (.obj members)) ∧
      bundledConfiguration decoders floats depth bytes = some (canonical (.obj members)) := by
  obtain ⟨given, hgiven, haccepted⟩ := accepted_of_validate h
  cases hmembers.symm.trans hgiven
  have hencoded := haccepted.encoded
  have hdepth := haccepted.nesting_le hpos hschema
  constructor
  · exact workerConfiguration_iff.mpr ⟨_, rfl, encodeJson_canonical hencoded hkeys,
      distinctKeys_canonical hencoded hkeys, inOrder_canonical _,
      Nat.le_trans (nesting_canonical_le _) hdepth⟩
  · exact loadsBytes_encodeJson hencoded hkeys hdepth

end

/-! ### A schema and its configurations -/

/-- A schema with two optional integers. -/
def workersSchema : Members :=
  Document.membersOf [("type", .string "object"), ("additionalProperties", .bool false),
    ("properties", .object [("batch", .object [("type", .string "integer")]),
      ("threads", .object [("type", .string "integer"), ("minimum", .int 1)])]),
    ("required", .arr [])]

/-- A configuration, and the same one written in another order. -/
def workersConfiguration : Members := Document.membersOf [("batch", .int (-8)), ("threads", .int 2)]

/-- The sample configuration with its members in another order. -/
def workersReversed : Members := Document.membersOf [("threads", .int 2), ("batch", .int (-8))]

/-- The decoders, where every encoding is UTF-8. -/
def utf8Decoders : Decoders := ⟨fun _ => Utf8.decode, fun h => h⟩

/-- Distinct members that are integers have distinct keys everywhere. -/
theorem distinctKeys_ints {members : Members} (hnodup : (Document.keys members).Nodup)
    (hints : ∀ member ∈ members, ∃ n, member.2 = .int n) :
    Everywhere DistinctKeys (.obj members) := by
  refine .obj hnodup ?_
  intro member hmember
  obtain ⟨n, hn⟩ := hints member hmember
  rw [hn]
  exact .leaf trivial (by rintro _ ⟨⟩) (by rintro _ ⟨⟩)

/-- The keys of the sample are distinct. -/
theorem distinctKeys_workersConfiguration :
    Everywhere DistinctKeys (.obj workersConfiguration) :=
  distinctKeys_ints (by decide) (by simp [workersConfiguration, Document.membersOf])

/-- The keys are distinct in the other order. -/
theorem distinctKeys_workersReversed : Everywhere DistinctKeys (.obj workersReversed) :=
  distinctKeys_ints (by decide) (by simp [workersReversed, Document.membersOf])

/-- `validate_and_canonicalize` for the plugin of the schema. -/
abbrev canonicalizeWorkers (members : Members) : Except Exn (List UInt8) :=
  validateAndCanonicalize .ofBits (some (.obj members)) (some workersSchema) (ofString "workers")

/-- The sample is accepted. -/
theorem exists_canonicalizeWorkers : ∃ bytes, canonicalizeWorkers workersConfiguration = .ok bytes := by
  have hok : (canonicalizeWorkers workersConfiguration).isOk = true := by decide +kernel
  cases h : canonicalizeWorkers workersConfiguration with
  | error e =>
    rw [h] at hok
    cases hok
  | ok bytes => exact ⟨bytes, rfl⟩

/-- It is accepted in the other order. -/
theorem exists_canonicalizeReversed : ∃ bytes, canonicalizeWorkers workersReversed = .ok bytes := by
  have hok : (canonicalizeWorkers workersReversed).isOk = true := by decide +kernel
  cases h : canonicalizeWorkers workersReversed with
  | error e =>
    rw [h] at hok
    cases hok
  | ok bytes => exact ⟨bytes, rfl⟩

/-- Both orders have the same bytes. -/
theorem canonicalBytes_workers : ∃ bytes, canonicalizeWorkers workersConfiguration = .ok bytes ∧
    canonicalizeWorkers workersReversed = .ok bytes := by
  obtain ⟨bytes, h⟩ := exists_canonicalizeWorkers
  obtain ⟨bytes', h'⟩ := exists_canonicalizeReversed
  have hsame : bytes = bytes' :=
    (canonicalBytes_eq_iff h h' rfl rfl distinctKeys_workersConfiguration
      distinctKeys_workersReversed).mpr rfl
  exact ⟨bytes, h, by rw [hsame]; exact h'⟩

/-- Both backends read the sample alike. -/
theorem readers_agree_workers : ∃ bytes, canonicalizeWorkers workersReversed = .ok bytes ∧
    workerConfiguration utf8Decoders .ofBits 4 bytes = some (.obj workersConfiguration) ∧
    bundledConfiguration utf8Decoders .ofBits 4 bytes = some (.obj workersConfiguration) := by
  obtain ⟨bytes, h⟩ := exists_canonicalizeReversed
  have hschema : ∀ schema ∈ some workersSchema, nesting (.obj schema) ≤ 4 := by
    rintro schema ⟨⟩
    decide
  exact ⟨bytes, h, readers_agree h rfl distinctKeys_workersReversed (by decide) hschema⟩

end Wmfs.Configuration
