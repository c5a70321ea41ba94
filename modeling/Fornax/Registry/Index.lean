import Fornax.Audit.Ledger
import Fornax.Manifest.ExactDecimal

namespace Fornax.Registry

open Manifest Fallible Option Json

inductive RegistryErrorCode
  | unavailable
  | indexOversized
  | malformed
  | unsupportedVersion
  | invalidRecord
  | duplicateId
  | builtinCollision
  | registryFull
  | registryBusy
  | registryChanged
  | registrationMissing
  | wrongKind
  | registrationEnabled
  | descriptorUnavailable
  | descriptorUnsafeFileType
  | descriptorOversized
  | descriptorChanged
  | descriptorMismatch
  | invalidDescriptor
  | descriptorCapacity
  | executionBoundaryUnavailable
  | cleanupFailed
  | committedUnverified
  | io
  | ownedDestinationOccupied
  deriving DecidableEq, Repr

structure RegistryError where
  code : RegistryErrorCode
  detail : String
  manifestRejection : Option HostManifestRejection
  indexPublished : Bool
  deriving DecidableEq

def fail (code : RegistryErrorCode) (detail : String) : RegistryError := ⟨code, detail, none, false⟩

def failPublished (code : RegistryErrorCode) (detail : String) : RegistryError :=
  ⟨code, detail, none, true⟩

def HostManifestRejection.reasonCode : HostManifestRejection → String
  | .inputTooLarge => "manifest_byte_capacity_exceeded"
  | .excessiveNesting => "manifest_depth_capacity_exceeded"
  | .nodeLimit => "manifest_node_capacity_exceeded"
  | .configurationSchemaTooLarge => "configuration_schema_byte_capacity_exceeded"
  | .configurationSchemaExcessiveNesting => "configuration_schema_depth_capacity_exceeded"
  | .configurationSchemaNodeLimit => "configuration_schema_node_capacity_exceeded"
  | .numericTokenSizeLimit => "numeric_token_capacity_exceeded"
  | .numericExponentDigitLimit => "numeric_exponent_capacity_exceeded"
  | .duplicateKey => "manifest_duplicate_key"
  | .invalidJson => "manifest_invalid_json"
  | .contractViolation => "manifest_contract_violation"

def HostManifestRejection.isLocalCapacity : HostManifestRejection → Bool
  | .duplicateKey | .invalidJson | .contractViolation => false
  | _ => true

def rejectManifest (e : HostManifestRejection) : RegistryError :=
  { fail (if HostManifestRejection.isLocalCapacity e then .descriptorCapacity
      else .invalidDescriptor) (HostManifestRejection.reasonCode e) with
    manifestRejection := some e }

mutual

def uniqueValue : Json → Option Json
  | .array items => (uniqueItems items).map .array
  | .object fields => (uniqueFields [] fields).map .object
  | .null => some .null
  | .bool b => some (.bool b)
  | .number n => some (.number n)
  | .string s => some (.string s)

def uniqueItems : List Json → Option (List Json)
  | [] => some []
  | item :: rest => do
    let item ← uniqueValue item
    let rest ← uniqueItems rest
    some (item :: rest)

def uniqueFields (values : List (String × Json)) : List (String × Json) →
    Option (List (String × Json))
  | [] => some values
  | (key, value) :: rest => do
    let value ← uniqueValue value
    if values.any (·.1 == key) then none else uniqueFields (values ++ [(key, value)]) rest

end

/-- The fields of a structure that denies unknown ones, by name; an array gives them
in the order of declaration. -/
def record (names : List String) : Json → Option (String → Option Json)
  | .object fields =>
    if fields.all (names.contains ·.1) then some (object fields).get? else none
  | .array items =>
    if items.length ≤ names.length then some fun name => (names.zip items).lookup name else none
  | _ => none

def optional {α : Type} (read : Json → Option α) : Option Json → Option (Option α)
  | none | some .null => some none
  | some v => (read v).map some

def asU32 (v : Json) : Option UInt32 :=
  v.asU64.bind fun n => if n < 2 ^ 32 then some (UInt32.ofNat n) else none

def u32Json (n : UInt32) : Json := .number (.posInt ⟨n.toNat, by have := n.toNat_lt; omega⟩)

structure Formats where
  toVecPretty : Json → Option Bytes
  /-- The value at the start of the input as it is written, repeated keys included,
  and whether nothing but white space follows. -/
  fromSlice : Bytes → Option (Json × Bool)
  sha256 : Bytes → Vector UInt8 32
  /-- The id that a host manifest within the size limit is validated to have. -/
  manifestId : Bytes → Except HostManifestRejection String

variable (c : Formats)

def deserializeUnique (bytes : Bytes) (malformed trailing : RegistryError) :
    Except RegistryError Json :=
  match c.fromSlice bytes with
  | none => .error malformed
  | some (tree, atEnd) =>
    match uniqueValue tree with
    | none => .error malformed
    | some value => if atEnd then .ok value else .error trailing

inductive RegistrationKind
  | configV1
  | hostAdapterV1
  deriving DecidableEq, Repr

namespace RegistrationKind

def filename : RegistrationKind → String → String
  | configV1, id => id ++ ".manifest.json"
  | hostAdapterV1, id => id ++ ".host-adapter.json"

def name : RegistrationKind → String
  | configV1 => "config-v1"
  | hostAdapterV1 => "host-adapter-v1"

def ofName (s : String) : Option RegistrationKind :=
  if s = "config-v1" then some configV1
  else if s = "host-adapter-v1" then some hostAdapterV1
  else none

def ofJson : Json → Option RegistrationKind
  | .string s => ofName s
  | .object [(key, .null)] => ofName key
  | _ => none

end RegistrationKind

structure WireEntry where
  id : String
  manifestFile : String
  digest : String
  sourcePath : String
  registeredAt : String
  enabled : Bool
  kind : Option RegistrationKind
  deriving DecidableEq

structure RegistryEntry where
  id : String
  manifestFile : String
  digest : String
  sourcePath : String
  registeredAt : String
  enabled : Bool
  kind : RegistrationKind
  deriving DecidableEq

namespace WireEntry

def kindOr (e : WireEntry) : RegistrationKind := e.kind.getD .configV1

def toJson (e : WireEntry) : Json :=
  .object ([("id", .string e.id), ("manifest_file", .string e.manifestFile),
      ("digest", .string e.digest), ("source_path", .string e.sourcePath),
      ("registered_at", .string e.registeredAt), ("enabled", .bool e.enabled)] ++
    (e.kind.map fun k => ("kind", string k.name)).toList)

def fieldNames : List String :=
  ["id", "manifest_file", "digest", "source_path", "registered_at", "enabled"]

def ofFields (field : String → Option Json) (kind : Option RegistrationKind) :
    Option WireEntry := do
  let id ← (field "id").bind asStr
  let manifestFile ← (field "manifest_file").bind asStr
  let digest ← (field "digest").bind asStr
  let sourcePath ← (field "source_path").bind asStr
  let registeredAt ← (field "registered_at").bind asStr
  let enabled ← (field "enabled").bind asBool
  some { id, manifestFile, digest, sourcePath, registeredAt, enabled, kind }

def ofLegacyJson (v : Json) : Option WireEntry := do
  let field ← record fieldNames v
  ofFields field none

def ofJson (v : Json) : Option WireEntry := do
  let field ← record (fieldNames ++ ["kind"]) v
  let kind ← optional RegistrationKind.ofJson (field "kind")
  ofFields field kind

end WireEntry

def publicEntry (e : WireEntry) : RegistryEntry :=
  ⟨e.id, e.manifestFile, e.digest, e.sourcePath, e.registeredAt, e.enabled, e.kindOr⟩

def registryIndexFile : String := "registry.json"

def maxIndexBytes : ℕ := 1024 * 1024

def maxEntries : ℕ := 64

def registryKindV2 : String := "fornax-adapter-registry-v2"

def builtinAdapterIds : List String := ["claude-code", "codex"]

structure IndexState where
  storedVersion : Option UInt32
  effectiveVersion : UInt32
  v2 : Bool
  entries : List WireEntry
  deriving DecidableEq

namespace IndexState

def empty : IndexState := ⟨none, 1, false, []⟩

def rootJson (st : IndexState) : Json :=
  let entries := ("entries", array (st.entries.map WireEntry.toJson))
  if st.v2 then
    .object [("schema_version", u32Json 2), ("registry_kind", .string registryKindV2), entries]
  else .object [("schema_version", u32Json st.effectiveVersion), entries]

def encode (st : IndexState) : Except RegistryError Bytes :=
  match c.toVecPretty st.rootJson with
  | none => .error (fail .malformed "index serialization failed")
  | some printed =>
    if maxIndexBytes < (printed ++ [10]).length then
      .error (fail .registryFull "index byte limit exceeded")
    else .ok (printed ++ [10])

end IndexState

structure RegistrySnapshot where
  storedSchemaVersion : Option UInt32
  effectiveSchemaVersion : UInt32
  entries : List RegistryEntry
  deriving DecidableEq

def snapshot (st : IndexState) : RegistrySnapshot :=
  ⟨st.storedVersion, st.effectiveVersion, st.entries.map publicEntry⟩

def isIdChar (ch : Char) : Bool := ch.isLower || ch.isDigit

def validId (id : String) : RegistrationKind → Bool
  | .configV1 =>
    decide (3 ≤ Text.utf8Len id.toList ∧ Text.utf8Len id.toList ≤ 64) &&
      id.toList.all (fun ch => isIdChar ch || ch == '-') &&
      id.toList.head?.any isIdChar && id.toList.getLast?.any isIdChar
  | .hostAdapterV1 =>
    decide (1 ≤ Text.utf8Len id.toList ∧ Text.utf8Len id.toList ≤ 64) &&
      id.toList.head?.any Char.isLower &&
      id.toList.all fun ch => isIdChar ch || ch == '-' || ch == '_'

def validDigest (digest : String) : Bool :=
  (Text.stripPrefix "sha256:".toList digest.toList).any fun h =>
    Text.utf8Len h == 64 && h.all fun ch => ch.isDigit || ('a' ≤ ch && ch ≤ 'f')

def digest (bytes : Bytes) : String := digestText (c.sha256 bytes)

def validateEntries : List String → List WireEntry → Except RegistryError Unit
  | _, [] => .ok ()
  | ids, e :: rest =>
    if ids.contains e.id then .error (fail .duplicateId "duplicate registration id")
    else if !validId e.id e.kindOr || e.manifestFile != e.kindOr.filename e.id ||
        !validDigest e.digest then
      .error (fail .invalidRecord "registration fields invalid")
    else if builtinAdapterIds.contains e.id then
      .error (fail .builtinCollision "built-in id collision")
    else validateEntries (e.id :: ids) rest

def validateState (st : IndexState) : Except RegistryError Unit :=
  if maxEntries < st.entries.length then
    .error (fail .registryFull "entry count limit exceeded")
  else validateEntries [] st.entries

def rows (read : Json → Option WireEntry) : Option Json → Option (List WireEntry)
  | some (.array items) => items.mapM read
  | _ => none

def legacyRoot (value : Json) : Option (Option UInt32 × List WireEntry) := do
  let field ← record ["schema_version", "entries"] value
  let version ← optional asU32 (field "schema_version")
  let entries ← rows WireEntry.ofLegacyJson (field "entries")
  some (version, entries)

def v2Root (value : Json) : Option (UInt32 × String × List WireEntry) := do
  let field ← record ["schema_version", "registry_kind", "entries"] value
  let version ← (field "schema_version").bind asU32
  let kind ← (field "registry_kind").bind asStr
  let entries ← rows WireEntry.ofJson (field "entries")
  some (version, kind, entries)

def legacyState (root : Option UInt32 × List WireEntry) : IndexState :=
  ⟨root.1, root.1.getD 1, false, root.2⟩

def legacyMalformed : RegistryError := fail .malformed "legacy index shape malformed"

def unsupportedVersion : RegistryError := fail .unsupportedVersion "unsupported registry version"

def rootState (value : Json) : Option ℕ → Except RegistryError IndexState
  | none =>
    match legacyRoot value with
    | none => .error legacyMalformed
    | some root =>
      if 1 < (legacyState root).effectiveVersion then .error unsupportedVersion
      else .ok (legacyState root)
  | some 0 | some 1 =>
    match legacyRoot value with
    | none => .error legacyMalformed
    | some root => .ok (legacyState root)
  | some 2 =>
    match v2Root value with
    | none => .error (fail .malformed "v2 index shape malformed")
    | some (version, kind, entries) =>
      if version != 2 || kind != registryKindV2 || entries.any (·.kind.isNone) then
        .error (fail .malformed "v2 marker or record kind invalid")
      else .ok ⟨some 2, 2, true, entries⟩
  | some _ => .error unsupportedVersion

def versionMalformed (value : Json) : Bool :=
  (value.get? "schema_version").any fun v => v.asU64.all fun n => 2 ^ 32 - 1 < n

def decodeIndex (bytes : Bytes) : Except RegistryError IndexState :=
  if maxIndexBytes < bytes.length then .error (fail .malformed "index byte limit exceeded")
  else do
    let value ← deserializeUnique c bytes (fail .malformed "index JSON malformed")
      (fail .malformed "index JSON trailing data")
    if versionMalformed value then .error (fail .malformed "registry version field malformed")
    else do
      let state ← rootState value ((value.get? "schema_version").bind asU64)
      validateState state
      return state

theorem asU32_u32Json (n : UInt32) : asU32 (u32Json n) = some n := by
  have hlt := n.toNat_lt
  simp [asU32, u32Json, asU64, hlt]

namespace WireEntry

theorem uniqueValue_toJson (e : WireEntry) : uniqueValue e.toJson = some e.toJson := by
  cases hk : e.kind with
  | none => simp [toJson, hk, uniqueValue, uniqueFields]
  | some k => simp [toJson, hk, uniqueValue, uniqueFields]

theorem uniqueItems_map_toJson (l : List WireEntry) :
    uniqueItems (l.map toJson) = some (l.map toJson) := by
  induction l with
  | nil => rfl
  | cons e l ih => simp [uniqueItems, uniqueValue_toJson, ih]

theorem ofLegacyJson_toJson {e : WireEntry} (hkind : e.kind = none) :
    ofLegacyJson e.toJson = some e := by
  cases e
  cases hkind
  simp [toJson, ofLegacyJson, record, fieldNames, ofFields, get?, asStr, asBool]

theorem ofJson_name (k : RegistrationKind) : RegistrationKind.ofJson (.string k.name) = some k := by
  cases k <;> rfl

theorem ofJson_toJson {e : WireEntry} (hkind : e.kind ≠ none) : ofJson e.toJson = some e := by
  obtain ⟨k, hk⟩ := ne_none_iff_exists'.mp hkind
  cases e
  cases hk
  simp [toJson, ofJson, record, fieldNames, ofFields, get?, asStr, asBool, optional, ofJson_name]

end WireEntry

theorem mapM_map_eq_some {α β : Type} {write : α → β} {read : β → Option α} {l : List α}
    (h : ∀ a ∈ l, read (write a) = some a) : (l.map write).mapM read = some l := by
  induction l with
  | nil => rfl
  | cons a l ih =>
    have hrest := ih fun b hb => h b (List.mem_cons_of_mem a hb)
    simp [h a List.mem_cons_self, hrest]

namespace IndexState

def Shaped (st : IndexState) : Prop :=
  (st.v2 = true ∧ st.effectiveVersion = 2 ∧ ∀ e ∈ st.entries, e.kind ≠ none) ∨
    (st.v2 = false ∧ st.effectiveVersion ≤ 1 ∧ ∀ e ∈ st.entries, e.kind = none)

theorem uniqueValue_rootJson (st : IndexState) : uniqueValue st.rootJson = some st.rootJson := by
  unfold rootJson
  split
  · simp [uniqueValue, uniqueFields, u32Json, WireEntry.uniqueItems_map_toJson]
  · simp [uniqueValue, uniqueFields, u32Json, WireEntry.uniqueItems_map_toJson]

theorem versionMalformed_rootJson (st : IndexState) : versionMalformed st.rootJson = false := by
  have hlt := st.effectiveVersion.toNat_lt
  unfold rootJson versionMalformed
  split
  · simp [get?, u32Json, asU64]
  · simp [get?, u32Json, asU64]
    omega

variable {st : IndexState}

theorem v2Root_rootJson (hv2 : st.v2) (hkinds : ∀ e ∈ st.entries, e.kind ≠ none) :
    v2Root st.rootJson = some (2, registryKindV2, st.entries) := by
  have hrows := mapM_map_eq_some fun e he => WireEntry.ofJson_toJson (hkinds e he)
  simp [rootJson, hv2, v2Root, rows, record, get?, asStr, asU32_u32Json, hrows]

theorem legacyRoot_rootJson (hv2 : st.v2 = false) (hkinds : ∀ e ∈ st.entries, e.kind = none) :
    legacyRoot st.rootJson = some (some st.effectiveVersion, st.entries) := by
  have hrows := mapM_map_eq_some fun e he => WireEntry.ofLegacyJson_toJson (hkinds e he)
  have hversion := asU32_u32Json st.effectiveVersion
  rw [u32Json] at hversion
  simp [rootJson, hv2, legacyRoot, rows, optional, record, get?, u32Json, hversion, hrows]

theorem rootState_rootJson (h : st.Shaped) :
    rootState st.rootJson ((st.rootJson.get? "schema_version").bind asU64) =
      .ok { st with storedVersion := some st.effectiveVersion } := by
  rcases h with ⟨hv2, heffective, hkinds⟩ | ⟨hv2, heffective, hkinds⟩
  · have hversion : (st.rootJson.get? "schema_version").bind asU64 = some 2 := by
      simp [rootJson, hv2, get?, u32Json, asU64]
    have hsome : st.entries.any (·.kind.isNone) = false := by simpa using hkinds
    obtain ⟨stored, effective, v2, entries⟩ := st
    cases hv2
    cases heffective
    rw [hversion, rootState, v2Root_rootJson rfl hkinds]
    simp [hsome]
  · have hversion : (st.rootJson.get? "schema_version").bind asU64 =
        some st.effectiveVersion.toNat := by
      simp [rootJson, hv2, get?, u32Json, asU64]
    have hlegacy := legacyRoot_rootJson hv2 hkinds
    obtain ⟨stored, effective, v2, entries⟩ := st
    cases hv2
    have hle : effective.toNat ≤ 1 := UInt32.le_iff_toNat_le.mp heffective
    rw [hversion]
    rcases Nat.le_one_iff_eq_zero_or_eq_one.mp hle with hzero | hone
    · simp only [hzero, rootState, hlegacy]
      rfl
    · simp only [hone, rootState, hlegacy]
      rfl

end IndexState

def RowValid (e : WireEntry) : Prop :=
  validId e.id e.kindOr = true ∧ e.manifestFile = e.kindOr.filename e.id ∧
    validDigest e.digest = true ∧ e.id ∉ builtinAdapterIds

theorem validateEntries_ok_iff {ids : List String} {l : List WireEntry} :
    validateEntries ids l = .ok () ↔
      (∀ e ∈ l, RowValid e ∧ e.id ∉ ids) ∧ (l.map WireEntry.id).Nodup := by
  induction l generalizing ids with
  | nil => simp [validateEntries]
  | cons e l ih =>
    rw [validateEntries]
    split_ifs with hseen hrow hbuiltin
    · simp [List.contains_iff_mem.mp hseen]
    · have hinvalid : ¬ RowValid e := by
        rintro ⟨hid, hfile, hdigest, _⟩
        simp [hid, hfile, hdigest] at hrow
      simp [hinvalid]
    · have hinvalid : ¬ RowValid e := fun h => h.2.2.2 (List.contains_iff_mem.mp hbuiltin)
      simp [hinvalid]
    · have hvalid : RowValid e := by
        simp only [Bool.or_eq_true, Bool.not_eq_true', bne_iff_ne, not_or, Bool.not_eq_false,
          ne_eq, not_not] at hrow
        exact ⟨hrow.1.1, hrow.1.2, hrow.2, fun h => hbuiltin (List.contains_iff_mem.mpr h)⟩
      rw [ih]
      simp [hvalid]
      grind

variable {st : IndexState} {bytes : Bytes}

theorem validateState_ok_iff : validateState st = .ok () ↔ st.entries.length ≤ maxEntries ∧
      (∀ e ∈ st.entries, RowValid e) ∧ (st.entries.map WireEntry.id).Nodup := by
  unfold validateState
  split_ifs with h
  · simp [h]
  · simp [validateEntries_ok_iff, Nat.le_of_not_lt h]

theorem isHex_hexDigit (n : ℕ) :
    ((hexDigit n).isDigit || ('a' ≤ hexDigit n && hexDigit n ≤ 'f')) := by
  have hall : ∀ i : Fin 16,
      ((hexDigit i).isDigit || ('a' ≤ hexDigit i && hexDigit i ≤ 'f')) = true := by
    decide
  rw [← hexDigit_mod]
  exact hall ⟨n % 16, by omega⟩

theorem mem_hexDigits {width n : ℕ} {ch : Char} (h : ch ∈ hexDigits width n) :
    ∃ m, ch = hexDigit m := by
  induction width generalizing n with
  | zero => cases h
  | succ width ih =>
    rw [hexDigits, List.mem_append, List.mem_singleton] at h
    exact h.elim ih fun h => ⟨n, h⟩

theorem utf8Len_eq_length {s : Text} (h : ∀ ch ∈ s, ch.utf8Size = 1) :
    Text.utf8Len s = s.length := by
  rw [Text.utf8Len, List.map_congr_left h]
  simp

theorem validDigest_digest (c : Formats) (bytes : Bytes) : validDigest (digest c bytes) := by
  have htext : (digest c bytes).toList = "sha256:".toList ++
      (c.sha256 bytes).toList.flatMap fun b => hexDigits 2 b.toNat := by
    simp [digest, digestText]
  have hhex : ∀ ch ∈ (c.sha256 bytes).toList.flatMap (fun b => hexDigits 2 b.toNat),
      ∃ m, ch = hexDigit m := by
    intro ch hch
    obtain ⟨b, _, hmem⟩ := List.mem_flatMap.mp hch
    exact mem_hexDigits hmem
  unfold validDigest
  rw [htext, Text.stripPrefix_eq_some.mpr rfl]
  simp only [any_some, Bool.and_eq_true, beq_iff_eq, List.all_eq_true]
  constructor
  · rw [utf8Len_eq_length]
    · simp
    · intro ch hch
      obtain ⟨m, rfl⟩ := hhex ch hch
      exact utf8Size_hexDigit m
  · intro ch hch
    obtain ⟨m, rfl⟩ := hhex ch hch
    exact isHex_hexDigit m

def Formats.ReadsBack (c : Formats) : Prop :=
  ∀ (st : IndexState) (printed : Bytes), c.toVecPretty st.rootJson = some printed →
    c.fromSlice (printed ++ [10]) = some (st.rootJson, true)

theorem encode_eq_ok {c : Formats} (h : st.encode c = .ok bytes) :
    ∃ printed, c.toVecPretty st.rootJson = some printed ∧ bytes = printed ++ [10] ∧
      bytes.length ≤ maxIndexBytes := by
  unfold IndexState.encode at h
  split at h
  · cases h
  · next printed hprinted =>
    split_ifs at h with hlong
    cases h
    exact ⟨printed, hprinted, rfl, Nat.le_of_not_lt hlong⟩

theorem decodeIndex_encode {c : Formats} (hreads : c.ReadsBack) (hshaped : st.Shaped)
    (hvalid : validateState st = .ok ()) (h : st.encode c = .ok bytes) :
    decodeIndex c bytes = .ok { st with storedVersion := some st.effectiveVersion } := by
  obtain ⟨printed, hprinted, rfl, hlength⟩ := encode_eq_ok h
  have hvalid' : validateState { st with storedVersion := some st.effectiveVersion } = .ok () :=
    hvalid
  have hvalue : deserializeUnique c (printed ++ [10]) (fail .malformed "index JSON malformed")
      (fail .malformed "index JSON trailing data") = .ok st.rootJson := by
    simp [deserializeUnique, hreads st printed hprinted, st.uniqueValue_rootJson]
  rw [decodeIndex, if_neg (Nat.not_lt.mpr hlength)]
  simp [hvalue, st.versionMalformed_rootJson, IndexState.rootState_rootJson hshaped, hvalid',
    bind, Except.bind, pure, Except.pure]

theorem kind_of_ofLegacyJson {v : Json} {e : WireEntry} (h : WireEntry.ofLegacyJson v = some e) :
    e.kind = none := by
  simp only [WireEntry.ofLegacyJson, WireEntry.ofFields, bind_eq_bind,
    bind_eq_some_iff, some.injEq] at h
  obtain ⟨_, _, _, _, _, _, _, _, _, _, _, _, _, _, rfl⟩ := h
  rfl

theorem kinds_of_rows {read : Json → Option WireEntry} {P : WireEntry → Prop}
    (hread : ∀ v e, read v = some e → P e) {field : Option Json} {entries : List WireEntry}
    (h : rows read field = some entries) : ∀ e ∈ entries, P e := by
  unfold rows at h
  split at h
  · next items =>
    induction items generalizing entries with
    | nil =>
      cases h
      simp
    | cons v items ih =>
      simp only [List.mapM_cons, bind_eq_bind, bind_eq_some_iff, pure_def, some.injEq] at h
      obtain ⟨e, he, rest, hrest, rfl⟩ := h
      intro e' he'
      rcases List.mem_cons.mp he' with rfl | he'
      · exact hread v e' he
      · exact ih hrest e' he'
  · cases h

theorem legacyRoot_eq_some {value : Json} {version : Option UInt32} {entries : List WireEntry}
    (h : legacyRoot value = some (version, entries)) :
    (∀ e ∈ entries, e.kind = none) ∧ ∀ v, value.get? "schema_version" = some v →
      ∀ n, v.asU64 = some n → version = some (UInt32.ofNat n) := by
  simp only [legacyRoot, bind_eq_bind, bind_eq_some_iff, some.injEq, Prod.mk.injEq] at h
  obtain ⟨field, hfield, version, hversion, entries, hentries, rfl, rfl⟩ := h
  refine ⟨kinds_of_rows (fun v e => kind_of_ofLegacyJson) hentries, fun v hv n hn => ?_⟩
  -- only an object has the field by that name
  cases value with
  | object fields =>
    rw [record] at hfield
    split_ifs at hfield
    cases hfield
    rw [hv] at hversion
    cases v with
    | number m =>
      simp only [optional, asU32, hn, bind_some, map_eq_some_iff] at hversion
      obtain ⟨m', hm', rfl⟩ := hversion
      split_ifs at hm'
      rw [hm']
    | _ => cases hn
  | _ => cases hv

theorem rootState_shaped {value : Json}
    (h : rootState value ((value.get? "schema_version").bind asU64) = .ok st) : st.Shaped := by
  cases hversion : (value.get? "schema_version").bind asU64 with
  | none =>
    rw [hversion, rootState] at h
    split at h
    · cases h
    · next root hroot =>
      split_ifs at h with hle
      cases h
      exact .inr ⟨rfl, UInt32.not_lt.mp hle, (legacyRoot_eq_some hroot).1⟩
  | some n =>
    obtain ⟨v, hv, hn⟩ := bind_eq_some_iff.mp hversion
    rw [hversion] at h
    have hlegacy : ∀ {root}, legacyRoot value = some root → n ≤ 1 → (legacyState root).Shaped := by
      intro root hroot hle
      obtain ⟨hkinds, hroot⟩ := legacyRoot_eq_some hroot
      refine .inr ⟨rfl, ?_, hkinds⟩
      rw [legacyState, hroot v hv n hn, getD_some, UInt32.le_iff_toNat_le]
      simp only [UInt32.toNat_ofNat']
      exact le_trans (Nat.mod_le _ _) hle
    rcases n with _ | _ | _ | n
    · rw [rootState] at h
      split at h <;> cases h
      next root hroot => exact hlegacy hroot (by omega)
    · rw [rootState] at h
      split at h <;> cases h
      next root hroot => exact hlegacy hroot (by omega)
    · rw [rootState] at h
      split at h
      · cases h
      · split_ifs at h with hinvalid
        cases h
        simp only [Bool.or_eq_true, not_or, List.any_eq_true, not_exists, not_and] at hinvalid
        refine .inl ⟨rfl, rfl, fun e he hnone => hinvalid.2 e he ?_⟩
        rw [hnone]
        rfl
    · cases h

theorem decodeIndex_sound {c : Formats} (h : decodeIndex c bytes = .ok st) :
    bytes.length ≤ maxIndexBytes ∧ st.Shaped ∧ validateState st = .ok () := by
  rw [decodeIndex] at h
  split_ifs at h with hlength
  obtain ⟨value, -, h⟩ := bind_eq_ok.mp h
  split_ifs at h with hmalformed
  obtain ⟨state, hstate, h⟩ := bind_eq_ok.mp h
  obtain ⟨⟨⟩, hvalid, h⟩ := bind_eq_ok.mp h
  cases h
  exact ⟨Nat.le_of_not_lt hlength, rootState_shaped hstate, hvalid⟩

end Fornax.Registry
