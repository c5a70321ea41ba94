import Fornax.Policy.Cache
import Fornax.Lib.Table

namespace Fornax

open OrdMap

abbrev BundleKey := Uuid ×ₗ PayloadDigest

structure BundleRow where
  envelope : Bytes
  issuer : String
  sequence : ℕ
  policyId : Uuid
  revision : ℕ
  revisionDigest : RevisionDigest
  verifiedBy : KeyId
  notBefore : String
  expiresAt : String
  firstActivatedAt : String
  confirmedAt : String
  deriving DecidableEq

/-- A row of `policy_cache_generations` with its member rows, keyed by `policy_id`. -/
structure GenerationRow where
  writtenAt : String
  members : OrdMap Uuid BundleKey
  deriving DecidableEq

structure SlotsRow where
  schemaVersion : ℕ
  activeGeneration : Option ℕ
  pendingGeneration : Option ℕ
  lastKnownGoodGeneration : Option ℕ
  everConfigured : Bool
  updatedAt : String
  deriving DecidableEq, Repr

structure HighWaterRow where
  maxSequence : ℕ
  lastBundleId : Uuid
  lastPayloadDigest : PayloadDigest
  lastSeenAt : String
  deriving DecidableEq, Repr

structure RevocationArtifactRow where
  envelope : Bytes
  receivedAt : String
  deriving DecidableEq

structure RevocationStateRow where
  maxSequence : ℕ
  lastPayloadDigest : PayloadDigest
  lastSeenAt : String
  unrecognizedEntryCount : ℕ
  deriving DecidableEq, Repr

abbrev RevocationKey := String ×ₗ String ×ₗ String

structure RevocationRow where
  reason : String
  revokedAt : String
  auditRef : Option String
  supersededBy : Option RevisionDigest
  firstSeenSequence : ℕ
  firstSeenAt : String
  deriving DecidableEq, Repr

structure Tables where
  bundles : OrdMap BundleKey BundleRow
  generations : OrdMap ℕ GenerationRow
  slots : Option SlotsRow
  highWater : OrdMap LineageKey HighWaterRow
  revocationArtifacts : OrdMap (String ×ₗ ℕ) RevocationArtifactRow
  revocationState : OrdMap String RevocationStateRow
  revocations : OrdMap RevocationKey RevocationRow
  deriving DecidableEq

def Tables.fresh : Tables :=
  ⟨empty, empty, none, empty, empty, empty, empty⟩

inductive StoreError
  | rowNotFound
  | uniqueViolation (table : String)
  | policyCacheCorrupt (detail : String)
  | panicked (message : String)
  deriving DecidableEq, Repr

def readTime (c : Crates) (field value : String) : Except StoreError Instant :=
  match c.parseRfc3339 value with
  | .ok t => .ok t
  | .error e => .error (.policyCacheCorrupt (field ++ " " ++ c.debugStr value ++ ": " ++ e))

def CachedBundleRef.key (m : CachedBundleRef) : BundleKey := toLex (m.bundleId, m.payloadDigest)

def VerifiedPolicyBundle.key (v : VerifiedPolicyBundle) : BundleKey :=
  toLex (v.bundleId, v.payloadDigest)

def BundleRow.intoCachedBundleRef (c : Crates) (key : BundleKey) (row : BundleRow) :
    Except StoreError CachedBundleRef := do
  let notBefore ← readTime c "not_before" row.notBefore
  let expiresAt ← readTime c "expires_at" row.expiresAt
  let firstActivatedAt ← readTime c "first_activated_at" row.firstActivatedAt
  let confirmedAt ← readTime c "confirmed_at" row.confirmedAt
  return {
    bundleId := (ofLex key).1
    issuer := row.issuer
    sequence := row.sequence
    policyId := row.policyId
    revision := row.revision
    revisionDigest := row.revisionDigest
    payloadDigest := (ofLex key).2
    verifiedBy := row.verifiedBy
    notBefore := notBefore
    expiresAt := expiresAt
    firstActivatedAt := firstActivatedAt
    confirmedAt := confirmedAt }

def unixEpoch : Instant := 0

def danglingRef (policyId : Uuid) (key : BundleKey) : CachedBundleRef where
  bundleId := (ofLex key).1
  issuer := ""
  sequence := 0
  policyId := policyId
  revision := 0
  revisionDigest := "sha256:" ++ String.ofList (List.replicate 64 '0')
  payloadDigest := (ofLex key).2
  verifiedBy := ""
  notBefore := unixEpoch
  expiresAt := unixEpoch
  firstActivatedAt := unixEpoch
  confirmedAt := unixEpoch

def joinedRows (bundles : OrdMap BundleKey BundleRow) (raw : List (Uuid × BundleKey)) :
    OrdMap BundleKey BundleRow :=
  ofList (raw.filterMap fun e => (bundles.get? e.2).map fun row => (e.2, row))

def resolveMembers (c : Crates) : OrdMap BundleKey BundleRow → List (Uuid × BundleKey) →
    Except StoreError (List CachedBundleRef)
  | _, [] => .ok []
  | resolved, (policyId, key) :: rest =>
    match resolved.get? key with
    | some row => do
      let m ← row.intoCachedBundleRef c key
      let ms ← resolveMembers c (resolved.erase key) rest
      return m :: ms
    | none => do
      let ms ← resolveMembers c resolved rest
      return danglingRef policyId key :: ms

def loadGeneration (c : Crates) (db : Tables) (g : ℕ) : Except StoreError CacheGeneration :=
  match db.generations.get? g with
  | none => .error .rowNotFound
  | some row => do
    let members ← resolveMembers c (joinedRows db.bundles row.members.entries) row.members.entries
    let writtenAt ← readTime c "written_at" row.writtenAt
    return ⟨g, members, writtenAt⟩

def HighWaterRow.intoHighWater (c : Crates) (key : LineageKey) (row : HighWaterRow) :
    Except StoreError SequenceHighWater := do
  let lastSeenAt ← readTime c "last_seen_at" row.lastSeenAt
  return ⟨(ofLex key).1, (ofLex key).2, row.maxSequence, row.lastBundleId,
    row.lastPayloadDigest, lastSeenAt⟩

def addRevocationState (s : RevocationSet) (e : String × RevocationStateRow) : RevocationSet :=
  { s with
    maxSequenceByIssuer := s.maxSequenceByIssuer.insert e.1 e.2.maxSequence
    unrecognizedEntryCount := s.unrecognizedEntryCount + e.2.unrecognizedEntryCount }

def RevocationKey.kind (k : RevocationKey) : String := (ofLex (ofLex k).2).1

def RevocationKey.digest (k : RevocationKey) : String := (ofLex (ofLex k).2).2

def addRevocation (s : RevocationSet) (e : RevocationKey × RevocationRow) : RevocationSet :=
  if RevocationKey.kind e.1 = "revision_digest" then
    { s with
      revisionDigests := s.revisionDigests.insert (RevocationKey.digest e.1)
        ⟨e.2.reason, e.2.revokedAt⟩ }
  else if RevocationKey.kind e.1 = "payload_digest" then
    { s with
      payloadDigests := s.payloadDigests.insert (RevocationKey.digest e.1)
        ⟨e.2.reason, e.2.revokedAt⟩ }
  else { s with unrecognizedEntryCount := s.unrecognizedEntryCount + 1 }

def loadRevocations (db : Tables) : RevocationSet :=
  db.revocations.entries.foldl addRevocation
    (db.revocationState.entries.foldl addRevocationState RevocationSet.none)

def loadSlot (c : Crates) (db : Tables) : Option ℕ → Except StoreError (Option CacheGeneration)
  | none => .ok none
  | some g => (loadGeneration c db g).map some

def loadState (c : Crates) (db : Tables) : Except StoreError PolicyCacheState := do
  let highWater ← db.highWater.collect (HighWaterRow.intoHighWater c)
  match db.slots with
  | none =>
    return ⟨policyCacheSchemaVersion, none, none, none, highWater, false, loadRevocations db⟩
  | some slots =>
    let active ← loadSlot c db slots.activeGeneration
    let lastKnownGood ← loadSlot c db slots.lastKnownGoodGeneration
    return ⟨slots.schemaVersion, active, none, lastKnownGood, highWater, slots.everConfigured,
      loadRevocations db⟩

def unavailableDiagnostic (detail : String) : PolicyDiagnostic :=
  .new .policyCacheUnavailable .warning detail
    ("import a policy bundle via `fornax policy import <path>`, or configure a trust store " ++
      "so a previously-imported bundle can be re-verified")

def debugTarget (c : Crates) : RevocationTarget → String
  | .revisionDigest d =>
    "RevisionDigest \x7b digest: RevisionDigest(" ++ c.debugStr d ++ ") \x7d"
  | .payloadDigest d => "PayloadDigest \x7b digest: PayloadDigest(" ++ c.debugStr d ++ ") \x7d"
  | .unrecognized => "Unrecognized"

def revokedDiagnostic (c : Crates) (bundleId : Uuid) (hit : RevocationHit) : PolicyDiagnostic :=
  .new .policyCacheRevoked .error
    ("cached bundle " ++ bundleId.text ++ " is revoked (" ++ debugTarget c hit.target ++ "): " ++
      hit.reason ++ " (revoked_at=" ++ hit.revokedAt ++ ")")
    "this artifact must never be re-trusted; publish a fresh, unrevoked bundle instead"

def unverifiableDiagnostic (bundleId : Uuid) (detail : String) : PolicyDiagnostic :=
  .new .policyCacheUnverifiable .warning
    ("cached bundle " ++ bundleId.text ++ " failed re-verification: " ++ detail)
    "republish and re-import a bundle signed by a currently-trusted key"

def rebind (v : VerifiedPolicyBundle) (bundleId : Uuid) (detail : String) :
    Except PolicyDiagnostic (List BoundRevision) :=
  match v.intoBoundRevisions with
  | .ok bound => .ok bound
  | .error _ => .error (unverifiableDiagnostic bundleId detail)

def reverify (c : Crates) (envelope : Bytes) (bundleId : Uuid)
    (trusted : TrustedVerificationKeys) (now : Instant) :
    Except PolicyDiagnostic (List BoundRevision) :=
  match verifyBundle c envelope trusted now with
  | .ok v => rebind v bundleId "bindings became unusable on reload"
  | .error (.bundleExpired expiresAt _) =>
    match c.parseRfc3339 expiresAt with
    | .error _ =>
      .error (unverifiableDiagnostic bundleId "expires_at on the rejection was itself unparseable")
    | .ok rewindNow =>
      match verifyBundle c envelope trusted rewindNow with
      | .ok v => rebind v bundleId "bindings became unusable on reload (rewound)"
      | .error e => .error (unverifiableDiagnostic bundleId (e.display c))
  | .error e => .error (unverifiableDiagnostic bundleId (e.display c))

def reloadMember (c : Crates) (db : Tables) (trusted : TrustedVerificationKeys)
    (revocations : RevocationSet) (now : Instant) (m : CachedBundleRef) :
    Except PolicyDiagnostic (List BoundRevision) :=
  match revocations.hit m.revisionDigest m.payloadDigest with
  | some hit => .error (revokedDiagnostic c m.bundleId hit)
  | none =>
    match db.bundles.get? m.key with
    | none =>
      .error (unverifiableDiagnostic m.bundleId "no stored envelope bytes for this member")
    | some row => reverify c row.envelope m.bundleId trusted now

def tryGenerationUsable (c : Crates) (db : Tables) (trusted : TrustedVerificationKeys)
    (revocations : RevocationSet) (now : Instant) (g : CacheGeneration) :
    Except PolicyDiagnostic (List BoundRevision) :=
  (g.members.mapM (reloadMember c db trusted revocations now)).map List.flatten

structure PolicyCacheLoad where
  state : PolicyCacheState
  usable : List BoundRevision
  loadedSlot : Option CacheSlotKind
  diagnostics : List PolicyDiagnostic
  deriving DecidableEq

def unrecognizedWarning (revocations : RevocationSet) : List PolicyDiagnostic :=
  if revocations.unrecognizedEntryCount > 0 then
    [.new .policyRevocationEntryNotUnderstood .warning
      (toString revocations.unrecognizedEntryCount ++ " revocation list entr" ++
        (if revocations.unrecognizedEntryCount = 1 then "y" else "ies") ++
        " named a target_kind this binary does not recognize")
      "upgrade this binary to a version that understands the newer target_kind"]
  else []

def trySlot (c : Crates) (db : Tables) (trusted : TrustedVerificationKeys)
    (revocations : RevocationSet) (now : Instant) :
    Option CacheGeneration → Except (List PolicyDiagnostic) (List BoundRevision)
  | none => .error []
  | some g => (tryGenerationUsable c db trusted revocations now g).mapError fun d => [d]

def chooseSlot (c : Crates) (db : Tables) (trusted : TrustedVerificationKeys) (now : Instant)
    (state : PolicyCacheState) (diagnostics : List PolicyDiagnostic) : PolicyCacheLoad :=
  match trySlot c db trusted state.revocations now state.active with
  | .ok usable => ⟨state, usable, some .active, diagnostics⟩
  | .error ds =>
    match trySlot c db trusted state.revocations now state.lastKnownGood with
    | .ok usable => ⟨state, usable, some .lastKnownGood, diagnostics ++ ds⟩
    | .error ds' =>
      ⟨state, [], none, diagnostics ++ ds ++ ds' ++ [unavailableDiagnostic
        "neither the active nor last-known-good generation has any usable member"]⟩

def loadPolicyCache (c : Crates) (db : Tables) (trusted : Option TrustedVerificationKeys)
    (now : Instant) : Except StoreError PolicyCacheLoad :=
  match loadState c db with
  | .error e => .error e
  | .ok state =>
    match trusted with
    | none =>
      .ok ⟨state, [], none, unrecognizedWarning state.revocations ++ [unavailableDiagnostic
        "no trust store configured; cached bundles cannot be re-verified"]⟩
    | some keys => .ok (chooseSlot c db keys now state (unrecognizedWarning state.revocations))

def newBundleRow (c : Crates) (envelope : Bytes) (m : CachedBundleRef) : BundleRow where
  envelope := envelope
  issuer := m.issuer
  sequence := m.sequence
  policyId := m.policyId
  revision := m.revision
  revisionDigest := m.revisionDigest
  verifiedBy := m.verifiedBy
  notBefore := c.toRfc3339 m.notBefore
  expiresAt := c.toRfc3339 m.expiresAt
  firstActivatedAt := c.toRfc3339 m.firstActivatedAt
  confirmedAt := c.toRfc3339 m.confirmedAt

def nextGeneration (db : Tables) : ℕ := db.generations.keys.max?.getD 0 + 1

def insertMember (rows : OrdMap Uuid BundleKey) (m : CachedBundleRef) :
    Except StoreError (OrdMap Uuid BundleKey) :=
  if rows.contains m.policyId then .error (.uniqueViolation "policy_cache_generation_members")
  else .ok (rows.insert m.policyId m.key)

def insertMembers (members : List CachedBundleRef) : Except StoreError (OrdMap Uuid BundleKey) :=
  members.foldlM insertMember empty

def activatedSlots (c : Crates) (db : Tables) (g : ℕ) (now : Instant) : SlotsRow where
  schemaVersion := policyCacheSchemaVersion
  activeGeneration := some g
  pendingGeneration := none
  lastKnownGoodGeneration := db.slots.bind fun s => s.activeGeneration
  everConfigured := true
  updatedAt := c.toRfc3339 now

def newHighWater (c : Crates) (cand : VerifiedPolicyBundle) (now : Instant) : HighWaterRow where
  maxSequence := cand.sequence
  lastBundleId := cand.bundleId
  lastPayloadDigest := cand.payloadDigest
  lastSeenAt := c.toRfc3339 now

/-- `m` is the member whose bundle row is stored, `rows` are the member rows of the new generation.
-/
def activatedTables (c : Crates) (db : Tables) (envelope : Bytes) (cand : VerifiedPolicyBundle)
    (m : CachedBundleRef) (rows : OrdMap Uuid BundleKey) (now : Instant) : Tables :=
  { db with
    bundles := db.bundles.insertNew m.key (newBundleRow c envelope m)
    generations := db.generations.insert (nextGeneration db) ⟨c.toRfc3339 now, rows⟩
    slots := some (activatedSlots c db (nextGeneration db) now)
    highWater := db.highWater.insert cand.lineage (newHighWater c cand now) }

/-- The stored bundle row is that of the first member with the candidate's
`bundle_id`, with the candidate's envelope. -/
def persistActivation (c : Crates) (db : Tables) (envelope : Bytes) (cand : VerifiedPolicyBundle)
    (members : List CachedBundleRef) (now : Instant) : Except StoreError (ℕ × Tables) :=
  match members.find? fun m => m.bundleId == cand.bundleId with
  | none =>
    .error (.panicked "evaluate_activation always includes the candidate's own member")
  | some m =>
    match insertMembers members with
    | .error e => .error e
    | .ok rows => .ok (nextGeneration db, activatedTables c db envelope cand m rows now)

def persistConfirm (c : Crates) (db : Tables) (cand : VerifiedPolicyBundle) (now : Instant) :
    Tables :=
  { db with
    bundles := db.bundles.update cand.key fun row => { row with confirmedAt := c.toRfc3339 now }
    highWater := db.highWater.update cand.lineage fun row =>
      { row with lastSeenAt := c.toRfc3339 now } }

def activeGenerationOf (state : PolicyCacheState) : Option ℕ :=
  state.active.map fun g => g.generation

def submitPolicyBundle (c : Crates) (db : Tables) (envelope : Bytes)
    (trusted : TrustedVerificationKeys) (now : Instant) :
    Except StoreError ActivationOutcome × Tables :=
  match verifyBundle c envelope trusted now with
  | .error e =>
    ((loadState c db).map fun state => .rejected (.notVerified e) (activeGenerationOf state), db)
  | .ok cand =>
    match loadState c db with
    | .error e => (.error e, db)
    | .ok state =>
      match evaluateActivation c cand state now with
      | .error rejection => (.ok (.rejected rejection (activeGenerationOf state)), db)
      | .ok (.activate members replaced) =>
        match persistActivation c db envelope cand members now with
        | .error e => (.error e, db)
        | .ok (g, db') => (.ok (.activated g (activeGenerationOf state) replaced), db')
      | .ok (.confirm policyId _ _) =>
        (.ok (.confirmed ((activeGenerationOf state).getD 0) policyId now),
          persistConfirm c db cand now)

def rollbackSlots (c : Crates) (state : PolicyCacheState) (now : Instant) (s : SlotsRow) :
    SlotsRow :=
  { s with
    activeGeneration := state.lastKnownGood.map fun g => g.generation
    pendingGeneration := none
    updatedAt := c.toRfc3339 now }

def rollbackPolicyToLastKnownGood (c : Crates) (db : Tables) (now : Instant) :
    Except StoreError Unit × Tables :=
  match loadState c db with
  | .error e => (.error e, db)
  | .ok state => (.ok (), { db with slots := db.slots.map (rollbackSlots c state now) })

inductive RevocationSubmissionRejection
  | notVerified (rejection : RevocationRejection)
  | ingest (rejection : RevocationIngestRejection)
  deriving DecidableEq, Repr

inductive RevocationIngestOutcome
  | applied (issuer : String) (sequence newEntryCount : ℕ) (supersededSequence : Option ℕ)
  | alreadyCurrent (issuer : String) (sequence : ℕ)
  | rejected (rejection : RevocationSubmissionRejection)
  deriving DecidableEq, Repr

def RevocationTarget.rowKey (issuer : String) : RevocationTarget → Option RevocationKey
  | .revisionDigest d => some (toLex (issuer, toLex ("revision_digest", d)))
  | .payloadDigest d => some (toLex (issuer, toLex ("payload_digest", d)))
  | .unrecognized => none

def insertRevocation (c : Crates) (issuer : String) (sequence : ℕ) (now : Instant)
    (rows : OrdMap RevocationKey RevocationRow) (e : RevocationEntry) :
    OrdMap RevocationKey RevocationRow :=
  match e.target.rowKey issuer with
  | some k =>
    rows.insertNew k ⟨e.reason, e.revokedAt, e.auditRef, e.supersededBy, sequence, c.toRfc3339 now⟩
  | none => rows

def newUnrecognized (entries : List RevocationEntry) : ℕ :=
  entries.countP fun e => e.target = .unrecognized

def persistRevocationApply (c : Crates) (db : Tables) (envelope : Bytes)
    (list : VerifiedRevocationList) (issuer : String) (sequence : ℕ)
    (newEntries : List RevocationEntry) (now : Instant) : Tables :=
  { db with
    revocationArtifacts := db.revocationArtifacts.insertNew (toLex (issuer, sequence))
      ⟨envelope, c.toRfc3339 now⟩
    revocationState := db.revocationState.alter issuer fun old =>
      ⟨sequence, list.payloadDigest, c.toRfc3339 now,
        (old.map fun r => r.unrecognizedEntryCount).getD 0 + newUnrecognized newEntries⟩
    revocations := newEntries.foldl (insertRevocation c issuer sequence now) db.revocations }

def submitPolicyRevocation (c : Crates) (db : Tables) (envelope : Bytes)
    (trusted : TrustedVerificationKeys) (now : Instant) :
    Except StoreError RevocationIngestOutcome × Tables :=
  match verifyRevocationList c envelope trusted now with
  | .error e => (.ok (.rejected (.notVerified e)), db)
  | .ok list =>
    match loadState c db with
    | .error e => (.error e, db)
    | .ok state =>
      match evaluateRevocationIngest list state with
      | .error rejection => (.ok (.rejected (.ingest rejection)), db)
      | .ok (.alreadyCurrent issuer sequence) => (.ok (.alreadyCurrent issuer sequence), db)
      | .ok (.apply issuer sequence newEntries superseded) =>
        (.ok (.applied issuer sequence newEntries.length superseded),
          persistRevocationApply c db envelope list issuer sequence newEntries now)

end Fornax
