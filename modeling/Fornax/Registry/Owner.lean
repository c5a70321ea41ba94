import Fornax.Lib.Files
import Fornax.Registry.Index

namespace Fornax.Registry

open Files Manifest

inductive Dir
  | home
  | adapters
  deriving DecidableEq

abbrev Owner := ExceptT RegistryError (StateM (World Dir))

def orFail {α : Type} (e : RegistryError) (calls : Io Dir α) : Owner α :=
  ExceptT.adapt (fun _ => e) calls

def ofResult {α : Type} : Except RegistryError α → Owner α
  | .ok a => pure a
  | .error e => throw e

structure CreatedIdentity where
  device : ℕ
  inode : ℕ
  deriving DecidableEq

def identityOf (m : Metadata) : CreatedIdentity := ⟨m.device, m.inode⟩

variable (c : Formats)

def openExisting : Owner Bool := do
  match ← resultOf (openDir Dir.home) with
  | .error .notFound => return false
  | .error _ => throw (fail .unavailable "home directory unavailable")
  | .ok () =>
    match ← resultOf (openDir Dir.adapters) with
    | .ok () => return true
    | .error .notFound => return false
    | .error _ => throw (fail .unavailable "adapters directory unavailable or unsafe")

def openForMutation : Owner Unit := do
  orFail (fail .unavailable "home directory creation failed") (makeDirs Dir.home)
  orFail (fail .unavailable "home directory unavailable") (openDir Dir.home)
  match ← resultOf (openDir Dir.adapters) with
  | .ok () => return ()
  | .error .notFound =>
    match ← resultOf (makeDir Dir.adapters) with
    | .ok () | .error .alreadyExists =>
      orFail (fail .unavailable "adapters directory creation failed") (openDir Dir.adapters)
    | .error _ => throw (fail .unavailable "adapters directory creation failed")
  | .error _ => throw (fail .unavailable "adapters directory unsafe")

def readBounded (name : String) (max : ℕ) : Io Dir Bytes := do
  openFile name
  let before ← metadata name
  if max < before.length then throw .fileTooLarge
  else
    let bytes ← readUpTo name (max + 1)
    let after ← metadata name
    if before.length ≠ after.length ∨ before.inode ≠ after.inode ∨ before.mtime ≠ after.mtime ∨
        before.ctime ≠ after.ctime then
      throw .invalidData
    else if max < bytes.length then throw .fileTooLarge
    else return bytes

def readIndexBytes : Owner (Option Bytes) := do
  match ← resultOf (readBounded registryIndexFile maxIndexBytes) with
  | .ok bytes => return some bytes
  | .error .notFound => return none
  | .error .fileTooLarge => throw (fail .indexOversized "index byte capacity exceeded")
  | .error _ => throw (fail .malformed "registry index unavailable or unsafe")

def stateOf : Option Bytes → Except RegistryError IndexState
  | none => .ok .empty
  | some bytes => decodeIndex c bytes

def readStateWithRevision : Owner (IndexState × Option Bytes) := do
  let bytes ← readIndexBytes
  let state ← ofResult (stateOf c bytes)
  return (state, bytes)

def readState : Owner IndexState := do
  let (state, _) ← readStateWithRevision c
  return state

def lockFile : String := "registry.lock"

def lockWait : ℕ := 2000

def pollLock (deadline : ℕ) (disk : Disk Dir) (now : ℕ) : List Event →
    Except RegistryError Unit × World Dir
  | [] => (.ok (), ⟨disk, now, []⟩)
  | e :: rest =>
    match e.failure with
    | none => (.ok (), ⟨disk, e.time, rest⟩)
    | some f =>
      if f.kind = .wouldBlock then
        if deadline ≤ e.time then
          (.error (fail .registryBusy "registry is busy"), ⟨disk, e.time, rest⟩)
        else pollLock deadline disk e.time rest
      else (.error (fail .unavailable "registry lock failed"), ⟨disk, e.time, rest⟩)

def lock : Owner Unit := do
  orFail (fail .unavailable "registry lock unsafe or unavailable") (openOrCreate lockFile)
  let _ ← orFail (fail .unavailable "registry lock unavailable") (metadata lockFile)
  let w ← get
  let (result, w') := pollLock (w.now + lockWait) w.disk w.now w.script
  set w'
  ofResult result

def lockedState : Owner (IndexState × Option Bytes) := do
  openForMutation
  lock
  readStateWithRevision c

def removeOwned (name : String) (created : CreatedIdentity) :
    ExceptT Unit (StateM (World Dir)) Unit := do
  ExceptT.adapt (fun _ => ()) (openFile name)
  let m ← ExceptT.adapt (fun _ => ()) (metadata name)
  if identityOf m ≠ created then throw () else throw ()

def identityIfRegular (name : String) :
    ExceptT Unit (StateM (World Dir)) (Option CreatedIdentity) := do
  match ← resultOf (openFile name : Io Dir Unit) with
  | .error .notFound => return none
  | .error _ => throw ()
  | .ok () =>
    let _ ← ExceptT.adapt (fun _ => ()) (metadata name)
    let m ← ExceptT.adapt (fun _ => ()) (metadata name)
    return some (identityOf m)

def writeNew (occupied : ErrorKind → RegistryError) (unverified unwritten : RegistryError)
    (name : String) (bytes : Bytes) : Owner CreatedIdentity := do
  ExceptT.adapt occupied (createNew name)
  let m ← orFail unverified (metadata name)
  match ← resultOf (do writeAll name bytes; sync : Io Dir Unit) with
  | .error _ =>
    let _ ← resultOf (removeOwned name (identityOf m))
    throw unwritten
  | .ok () => return identityOf m

def occupiedError : ErrorKind → RegistryError
  | .alreadyExists =>
    fail .ownedDestinationOccupied "a file already occupies this id's owned destination"
  | _ => fail .io "owned file creation failed"

def createOwned (name : String) (bytes : Bytes) : Owner CreatedIdentity :=
  writeNew occupiedError
    (fail .cleanupFailed "owned copy created but its identity could not be verified")
    (fail .io "owned file write failed") name bytes

def stagingName (uuid : Uuid) : String := "registry.json.tmp-" ++ uuid.text

def committedUnverified : RegistryError :=
  failPublished .committedUnverified "index committed but verification failed"

def confirmPublished (bytes : Bytes) : Owner Unit := do
  orFail (failPublished .committedUnverified "index committed but directory sync failed") sync
  let observed ← orFail committedUnverified (readBounded registryIndexFile maxIndexBytes)
  match decodeIndex c observed with
  | .error _ => throw committedUnverified
  | .ok _ => if observed = bytes then return () else throw committedUnverified

def publish (uuid : Uuid) (state : IndexState) (expected : Option Bytes) : Owner Unit := do
  let bytes ← ofResult (state.encode c)
  let staging := stagingName uuid
  let identity ← writeNew (fun _ => fail .io "index staging creation failed")
    (fail .cleanupFailed "index staging created but its identity could not be verified")
    (fail .io "index staging write failed") staging bytes
  match ← resultOf readIndexBytes with
  | .error e =>
    let _ ← resultOf (removeOwned staging identity)
    throw e
  | .ok current =>
    if current ≠ expected then
      let _ ← resultOf (removeOwned staging identity)
      throw (fail .registryChanged "registry changed before publication")
    else
      match ← resultOf (rename staging registryIndexFile : Io Dir Unit) with
      | .error _ =>
        let _ ← resultOf (removeOwned staging identity)
        throw (fail .io "index publication failed")
      | .ok () => confirmPublished c bytes

namespace IndexState

def upgraded (st : IndexState) : IndexState :=
  { storedVersion := some 2, effectiveVersion := 2, v2 := true
    entries := st.entries.map fun e => { e with kind := some e.kindOr } }

def adding (upgrade : Bool) (entry : WireEntry) (st : IndexState) : IndexState :=
  let st := if upgrade && !st.v2 then st.upgraded else st
  let entry := if st.v2 && entry.kind.isNone then { entry with kind := some .configV1 } else entry
  { st with entries := st.entries ++ [entry] }

end IndexState

def registerBytes (uuid : Uuid) (entry : WireEntry) (bytes : Bytes) (upgrade : Bool) :
    Owner Unit := do
  let (state, revision) ← lockedState c
  if state.entries.any (·.id == entry.id) then
    throw (fail .duplicateId "registration id already exists")
  else if builtinAdapterIds.contains entry.id then
    throw (fail .builtinCollision "built-in id collision")
  else if maxEntries ≤ state.entries.length then
    throw (fail .registryFull "entry count limit exceeded")
  else
    let owned ← createOwned entry.manifestFile bytes
    match ← resultOf (publish c uuid (state.adding upgrade entry) revision) with
    | .ok () => return ()
    | .error e =>
      if e.indexPublished then throw e
      else
        let _ ← resultOf (removeOwned entry.manifestFile owned)
        throw e

def maxConfigManifestBytes : ℕ := 64 * 1024

def configIdentity (raw : Json) (id : String) : Bool :=
  (raw.get? "manifest_kind").isNone && (raw.get? "schema_version").bind Json.asU64 == some 1 &&
    (raw.get? "id").bind Json.asStr == some id

def checkConfig (id : String) (rawBytes : Bytes) : Except RegistryError Unit :=
  if maxConfigManifestBytes < rawBytes.length ∨ validId id .configV1 = false then
    .error (fail .invalidRecord "configuration registration invalid")
  else do
    let raw ← deserializeUnique c rawBytes
      (fail .invalidRecord "configuration manifest malformed")
      (fail .invalidRecord "configuration manifest malformed")
    if configIdentity raw id then .ok ()
    else .error (fail .invalidRecord "configuration manifest identity invalid")

def configRow (id sourcePath registeredAt : String) (rawBytes : Bytes) : WireEntry where
  id := id
  manifestFile := RegistrationKind.configV1.filename id
  digest := digest c rawBytes
  sourcePath := sourcePath
  registeredAt := registeredAt
  enabled := true
  kind := none

def registerConfig (uuid : Uuid) (id sourcePath registeredAt : String) (rawBytes : Bytes) :
    Owner RegistryEntry := do
  ofResult (checkConfig c id rawBytes)
  let row := configRow c id sourcePath registeredAt rawBytes
  registerBytes c uuid row rawBytes false
  return publicEntry row

def maxOwnedBytes : ℕ := 1048576

structure HostAdapterManifest where
  id : String
  source : Bytes
  deriving DecidableEq

def decodeHostAdapterManifest (bytes : Bytes) :
    Except HostManifestRejection HostAdapterManifest :=
  if maxOwnedBytes < bytes.length then .error .inputTooLarge
  else do
    let id ← c.manifestId bytes
    return ⟨id, bytes⟩

def checkHostDescriptor (rawBytes : Bytes) : Except RegistryError HostAdapterManifest := do
  let manifest ← (decodeHostAdapterManifest c rawBytes).mapError rejectManifest
  if validId manifest.id .hostAdapterV1 then return manifest
  else .error (fail .invalidDescriptor "descriptor identity invalid")

def hostRow (manifest : HostAdapterManifest) (sourcePath registeredAt : String) : WireEntry where
  id := manifest.id
  manifestFile := RegistrationKind.hostAdapterV1.filename manifest.id
  digest := digest c manifest.source
  sourcePath := sourcePath
  registeredAt := registeredAt
  enabled := false
  kind := some .hostAdapterV1

def registerHostDescriptor (uuid : Uuid) (sourcePath registeredAt : String) (rawBytes : Bytes) :
    Owner RegistryEntry := do
  let manifest ← ofResult (checkHostDescriptor c rawBytes)
  let row := hostRow c manifest sourcePath registeredAt
  registerBytes c uuid row manifest.source true
  return publicEntry row

def enableRow (id : String) (enabled : Bool) : List WireEntry → List WireEntry
  | [] => []
  | e :: rest =>
    if e.id = id then { e with enabled := enabled } :: rest else e :: enableRow id enabled rest

def setEnabled (uuid : Uuid) (id : String) (enabled : Bool) : Owner Unit := do
  let (state, revision) ← lockedState c
  match state.entries.find? (·.id == id) with
  | none => throw (fail .registrationMissing "registration not found")
  | some row =>
    if row.kind = some .hostAdapterV1 ∧ enabled = true then
      throw (fail .executionBoundaryUnavailable "host execution boundary unavailable")
    else publish c uuid { state with entries := enableRow id enabled state.entries } revision

def remove (uuid : Uuid) (id : String) : Owner Unit := do
  let (state, revision) ← lockedState c
  match state.entries.find? (·.id == id) with
  | none => throw (fail .registrationMissing "registration not found")
  | some removed =>
    if removed.kind = some .hostAdapterV1 ∧ removed.enabled = true then
      throw (fail .registrationEnabled "host registration must be disabled before removal")
    else
      let ownedIdentity ← resultOf (identityIfRegular removed.manifestFile)
      publish c uuid { state with entries := state.entries.eraseP (·.id == id) } revision
      match ownedIdentity with
      | .ok (some identity) =>
        ExceptT.adapt (fun _ => failPublished .cleanupFailed
          "registration removed but owned copy cleanup failed")
          (removeOwned removed.manifestFile identity)
      | .ok none => return ()
      | .error () => throw (failPublished .cleanupFailed
          "registration removed but owned copy could not be safely cleaned")

def readRegistry : Owner RegistrySnapshot := do
  if ← openExisting then
    match ← resultOf (readBounded registryIndexFile maxIndexBytes) with
    | .ok bytes =>
      let state ← ofResult (decodeIndex c bytes)
      return snapshot state
    | .error .notFound => return snapshot .empty
    | .error .fileTooLarge => throw (fail .indexOversized "index byte capacity exceeded")
    | .error _ => throw (fail .unavailable "index unavailable or unsafe")
  else return snapshot .empty

def descriptorCode : ErrorKind → RegistryErrorCode
  | .invalidInput => .descriptorUnsafeFileType
  | .fileTooLarge => .descriptorOversized
  | .invalidData => .descriptorChanged
  | _ => .descriptorUnavailable

def readPinnedDescriptor (id : String) (expected : RegistrationKind) (maxBytes : ℕ) :
    Owner (RegistryEntry × Bytes) := do
  if ← openExisting then
    let state ← readState c
    match state.entries.find? (·.id == id) with
    | none => throw (fail .registrationMissing "registration not found")
    | some wire =>
      let entry := publicEntry wire
      if entry.kind ≠ expected then
        throw (fail .wrongKind "registration kind does not match lookup")
      else
        let bytes ← ExceptT.adapt
          (fun k => fail (descriptorCode k) "owned descriptor unavailable or unsafe")
          (readBounded entry.manifestFile maxBytes)
        if digest c bytes ≠ entry.digest then
          throw (fail .descriptorMismatch "owned descriptor digest mismatch")
        else
          let after ← readState c
          if after.entries.any (publicEntry · = entry) then return (entry, bytes)
          else throw (fail .descriptorMismatch "registration changed during lookup")
  else throw (fail .registrationMissing "registration not found")

def lookupHostDescriptor (id : String) : Owner (RegistryEntry × HostAdapterManifest) := do
  let (entry, bytes) ← readPinnedDescriptor c id .hostAdapterV1 maxOwnedBytes
  let manifest ← ofResult ((decodeHostAdapterManifest c bytes).mapError rejectManifest)
  if manifest.id ≠ id then throw (fail .descriptorMismatch "owned descriptor id mismatch")
  else return (entry, manifest)

def lookupConfigDescriptor (id : String) : Owner (RegistryEntry × Bytes) := do
  let (entry, rawBytes) ← readPinnedDescriptor c id .configV1 maxConfigManifestBytes
  let raw ← ofResult (deserializeUnique c rawBytes
    (fail .invalidDescriptor "owned configuration manifest malformed")
    (fail .invalidDescriptor "owned configuration manifest malformed"))
  if configIdentity raw id then return (entry, rawBytes)
  else throw (fail .descriptorMismatch "owned configuration identity mismatch")

end Fornax.Registry
