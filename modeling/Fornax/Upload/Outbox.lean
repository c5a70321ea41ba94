import Fornax.Upload.Members

namespace Fornax.Upload

open Egress

def maxBatchMembers : ℕ := 2000

def outboxMaxBytes : ℤ := 50 * 1024 * 1024

def outboxMaxAgeDays : ℤ := 90

def stageChunk : ℕ := 5000

inductive OutboxState
  | pending
  | inflight
  | acknowledged
  | poison
  | expired
  deriving DecidableEq, Repr

structure OutboxRow where
  windowId : String
  memberJson : String
  memberSha256 : String
  stagedAt : String
  consentId : String
  state : OutboxState
  batchId : Option String
  deriving DecidableEq, Repr

inductive BatchState
  | sealed
  | acknowledged
  | poison
  deriving DecidableEq, Repr

structure BatchRow where
  windowId : String
  consentId : String
  destination : String
  manifestSha256 : String
  memberCount : ℕ
  byteCount : ℕ
  membersJson : String
  state : BatchState
  attempts : ℕ
  lastError : Option String
  sealedAt : String
  lastAttemptAt : Option String
  ackedAt : Option String
  deriving DecidableEq, Repr

inductive GapReason
  | ageCap
  | consentEnded
  | sizeCap
  deriving DecidableEq, Repr

namespace GapReason

def asStr : GapReason → String
  | ageCap => "age_cap"
  | consentEnded => "consent_ended"
  | sizeCap => "size_cap"

def rank : GapReason → ℕ
  | ageCap => 0
  | consentEnded => 1
  | sizeCap => 2

theorem rank_injective : Function.Injective rank := by
  intro a b h
  cases a <;> cases b <;> first | rfl | cases h

instance : LinearOrder GapReason := LinearOrder.lift' rank rank_injective

end GapReason

structure GapRow where
  windowId : String
  reason : GapReason
  droppedCount : ℕ
  recordedAt : String
  deriving DecidableEq, Repr

structure UploadTables where
  outbox : OrdMap MemberKey OutboxRow
  batches : OrdMap String BatchRow
  gaps : List GapRow

def UploadTables.fresh : UploadTables := ⟨OrdMap.empty, OrdMap.empty, []⟩

inductive UploadError
  | malformedProfileLog
  | json
  | primaryKey
  deriving DecidableEq, Repr

variable (c : UploadCrates)

def liveUpload (state : EgressState) (now : Instant) (consent : Consent) : Bool :=
  consent.purpose = .evidenceBatchUpload && consent.revokedAt.isNone &&
    consent.profileGeneration = state.generation &&
    (c.rfc3339 consent.expiresAt).any fun expires => now < expires

def liveUploadConsents (db : EgressTables) (now : Instant) : List Consent :=
  if db.egressState.profile ≠ .personal then []
  else SortDedup.sortBy (fun consent : Consent => OrderDual.toDual consent.grantedAt)
    (db.consents.filter (liveUpload c db.egressState now))

def closeBatch (db : UploadTables) (batchId : String) (rowState : OutboxState)
    (batch : BatchRow → BatchRow) : UploadTables :=
  { db with
    batches := db.batches.update batchId batch
    outbox := db.outbox.mapRows fun _ row =>
      if row.batchId == some batchId then { row with state := rowState } else row }

def acknowledgeUploadBatch (db : UploadTables) (batchId : String) (now : Instant) :
    UploadTables :=
  closeBatch db batchId .acknowledged fun batch =>
    { batch with state := .acknowledged, ackedAt := some (c.toRfc3339 now), lastError := none }

def poisonUploadBatch (db : UploadTables) (batchId reason : String) : UploadTables :=
  closeBatch db batchId .poison fun batch =>
    { batch with state := .poison, lastError := some reason }

def recordUploadAttempt (db : UploadTables) (batchId : String) (error : Option String)
    (now : Instant) : UploadTables :=
  { db with batches := db.batches.update batchId fun batch =>
      { batch with
        attempts := batch.attempts + 1
        lastError := error
        lastAttemptAt := some (c.toRfc3339 now) } }

/-- `UPDATE upload_outbox SET state = 'expired' WHERE state = 'pending' AND ..`. -/
def expireWhere (db : UploadTables) (cond : OutboxRow → Bool) : UploadTables :=
  { db with outbox := db.outbox.mapRows fun _ row =>
      if row.state = .pending && cond row then { row with state := .expired } else row }

def UploadTables.recordGap (db : UploadTables) (windowId : String) (reason : GapReason)
    (dropped : ℕ) (now : Instant) : UploadTables :=
  { db with gaps := db.gaps ++ [⟨windowId, reason, dropped, c.toRfc3339 now⟩] }

def pendingGroups (db : UploadTables) : List ((String ×ₗ String) × List OutboxRow) :=
  (OrdMap.groupBy (fun row => some (toLex (row.windowId, row.consentId))) id
    (db.outbox.values.filter fun row => row.state = .pending)).entries

def retireGroup (isLive : String → Bool) (now : Instant) (acc : ℕ × UploadTables)
    (group : (String ×ₗ String) × List OutboxRow) : ℕ × UploadTables :=
  if isLive (ofLex group.1).2 then acc
  else (acc.1 + group.2.length, (expireWhere acc.2 fun row =>
      row.windowId == (ofLex group.1).1 && row.consentId == (ofLex group.1).2).recordGap c
        (ofLex group.1).1 .consentEnded group.2.length now)

def retireBatch (isLive : String → Bool) (db : UploadTables) (batch : String × BatchRow) :
    UploadTables :=
  if isLive batch.2.consentId then db
  else poisonUploadBatch db batch.1 "consent ended before the batch was acknowledged"

def retireUnauthorizedUploadWork (db : UploadTables) (liveConsentIds : List String)
    (now : Instant) : ℕ × UploadTables :=
  let isLive : String → Bool := liveConsentIds.contains
  let expired := (pendingGroups db).foldl (retireGroup c isLive now) (0, db)
  (expired.1, (expired.2.batches.entries.filter fun batch => batch.2.state = .sealed).foldl
    (retireBatch isLive) expired.2)

def sizeVictims : ℤ → List (MemberKey × OutboxRow) → List (MemberKey × OutboxRow)
  | _, [] => []
  | excess, entry :: rest =>
    if excess ≤ 0 then [] else entry :: sizeVictims (excess - entry.2.memberJson.length) rest

/-- `UPDATE .. WHERE kind = ?1 AND object_id = ?2 AND state = 'pending'`. -/
def expireKey (db : UploadTables) (entry : MemberKey × OutboxRow) : UploadTables :=
  { db with outbox := db.outbox.update entry.1 fun row =>
      if row.state = .pending then { row with state := .expired } else row }

def enforceOutboxBound (db : UploadTables) (maxBytes : ℤ) (now : Instant) : ℕ × UploadTables :=
  let cutoff := c.toRfc3339 (now - outboxMaxAgeDays * nanosPerDay)
  let pending := db.outbox.entries.filter fun entry => entry.2.state = .pending
  let aged := pending.filter fun entry => entry.2.stagedAt < cutoff
  let recent := pending.filter fun entry => cutoff ≤ entry.2.stagedAt
  let excess := (recent.map fun entry => (entry.2.memberJson.length : ℤ)).sum - maxBytes
  let victims := sizeVictims excess (SortDedup.sortBy (fun entry => entry.2.stagedAt) recent)
  let dropped : OrdMap (String ×ₗ GapReason) (List MemberKey) :=
    OrdMap.groupBy (fun drop => some (toLex (drop.2.2.windowId, drop.1))) (fun drop => drop.2.1)
      (aged.map (Prod.mk GapReason.ageCap) ++ victims.map (Prod.mk GapReason.sizeCap))
  let db := expireWhere (victims.foldl expireKey db) fun row => row.stagedAt < cutoff
  ((dropped.entries.map fun gap => gap.2.length).sum, dropped.entries.foldl (fun db gap =>
      db.recordGap c (ofLex gap.1).1 (ofLex gap.1).2 gap.2.length now) db)

structure StageClock where
  live : Instant
  retired : Instant
  staged : Instant
  bounded : Instant
  deriving DecidableEq, Repr

structure StageReport where
  staged : ℕ
  expiredAtBound : ℕ
  deriving DecidableEq, Repr

/-- What the rows of one staging call share: what decides eligibility, the time of staging and the
consent. -/
structure StageContext where
  since : Instant
  history : List (Instant × Profile)
  stagedAt : String
  consentId : String

def memberRow (ctx : StageContext) (window : String) (member : List (String × Json)) : OutboxRow :=
  let json := canonicalJson c (.object member)
  ⟨window, json, sha256Hex c (utf8Bytes json), ctx.stagedAt, ctx.consentId, .pending, none⟩

/-- `INSERT OR IGNORE`, with the number of rows written so far. -/
def insertMember (ctx : StageContext) (kind : MemberKind) (acc : ℕ × OrdMap MemberKey OutboxRow)
    (objectId window : String) (member : List (String × Json)) : ℕ × OrdMap MemberKey OutboxRow :=
  let key : MemberKey := toLex (kind, objectId)
  (acc.1 + (if acc.2.contains key then 0 else 1),
    acc.2.insertNew key (memberRow c ctx window member))

def candidateWindow (ctx : StageContext) (cand : Candidate) : Option String :=
  (eligible c ctx.since ctx.history cand.capturedAt).filter fun _ =>
    cand.parentsAt.all fun ts => (eligible c ctx.since ctx.history ts).isSome

def stageCandidate (ctx : StageContext) (kind : MemberKind)
    (acc : ℕ × OrdMap MemberKey OutboxRow) (cand : Candidate) : ℕ × OrdMap MemberKey OutboxRow :=
  match candidateWindow c ctx cand with
  | some window => insertMember c ctx kind acc cand.objectId window cand.member
  | none => acc

def oldestUnstaged (records : RecordTables) (outbox : OrdMap MemberKey OutboxRow) (since : Instant)
    (kind : MemberKind) : List Candidate :=
  let fresh := (candidates records kind).filter fun cand =>
    !outbox.contains (toLex (kind, cand.objectId)) &&
      toSecond (c.toRfc3339 since) ≤ toSecond cand.capturedAt
  (SortDedup.sortBy Candidate.capturedAt fresh).take stageChunk

def stageKind (records : RecordTables) (ctx : StageContext)
    (acc : ℕ × OrdMap MemberKey OutboxRow) (kind : MemberKind) : ℕ × OrdMap MemberKey OutboxRow :=
  (oldestUnstaged c records acc.2 ctx.since kind).foldl (stageCandidate c ctx kind) acc

def stagedSessions (records : RecordTables) (ctx : StageContext)
    (outbox : OrdMap MemberKey OutboxRow) : List String :=
  SortDedup.sortDedup id (((oldestUnstaged c records outbox ctx.since .events).filter fun cand =>
    (candidateWindow c ctx cand).isSome).map Candidate.sessionId)

def stageMembers (records : RecordTables) (ctx : StageContext)
    (outbox : OrdMap MemberKey OutboxRow) : ℕ × OrdMap MemberKey OutboxRow :=
  let acc := stageKind c records ctx (0, outbox) .events
  let acc := ((stagedSessions c records ctx outbox).filterMap (sessionCandidate records)).foldl
    (stageCandidate c ctx .sessions) acc
  [MemberKind.claims, .evidence, .findings].foldl (stageKind c records ctx) acc

def renewedBy (consent : Consent) (older : List Consent) : List Consent :=
  older.filter fun o => o.destination == consent.destination && o.dataClasses == consent.dataClasses

/-- `UPDATE upload_outbox SET consent_id = ?1 WHERE state = 'pending' AND consent_id = ?2`. -/
def moveRows (consentId : String) (db : UploadTables) (older : Consent) : UploadTables :=
  { db with outbox := db.outbox.mapRows fun _ row =>
      if row.state = .pending && row.consentId == older.id then
        { row with consentId := consentId }
      else row }

def eligibleSince (consent : Consent) (renewed : List Consent) : String :=
  renewed.foldl (fun since o => if o.grantedAt < since then o.grantedAt else since)
    consent.grantedAt

/-- Staging under a live consent: `older` are the other live ones, `retired` what has been expired
so far. Moved rows stay moved when the profile log is malformed. -/
def stageUnder (records : RecordTables) (egress : EgressTables) (clock : StageClock)
    (consent : Consent) (older : List Consent) (retired : ℕ) (db : UploadTables) :
    Except UploadError StageReport × UploadTables :=
  let renewed := renewedBy consent older
  let moved := renewed.foldl (moveRows consent.id) db
  match c.rfc3339 (eligibleSince consent renewed) with
  | none => (.ok ⟨0, retired⟩, moved)
  | some since =>
    match profileHistory c egress with
    | none => (.error .malformedProfileLog, moved)
    | some history =>
      let ctx : StageContext := ⟨since, history, c.toRfc3339 clock.staged, consent.id⟩
      let staged := stageMembers c records ctx moved.outbox
      let bounded := enforceOutboxBound c { moved with outbox := staged.2 } outboxMaxBytes
        clock.bounded
      (.ok ⟨staged.1, bounded.1⟩, bounded.2)

def stageUploadRecords (records : RecordTables) (egress : EgressTables) (db : UploadTables)
    (clock : StageClock) : Except UploadError StageReport × UploadTables :=
  let liveAll := liveUploadConsents c egress clock.live
  let retired := retireUnauthorizedUploadWork c db (liveAll.map Consent.id) clock.retired
  match liveAll with
  | [] => (.ok ⟨0, retired.1⟩, retired.2)
  | consent :: older => stageUnder c records egress clock consent older retired.1 retired.2

structure SealedBatch where
  batchId : String
  windowId : String
  consentId : String
  destination : String
  manifestSha256 : String
  memberCount : ℕ
  membersJson : String
  attempts : ℕ
  deriving DecidableEq, Repr

def sealable (db : UploadTables) (windowId consentId : String) : List (MemberKey × OutboxRow) :=
  (db.outbox.entries.filter fun entry => entry.2.state = .pending &&
    entry.2.windowId == windowId && entry.2.consentId == consentId).take maxBatchMembers

def membersDocument (members : List (MemberKind × Json)) : Json :=
  .object ([MemberKind.claims, .events, .evidence, .findings, .sessions].map fun kind =>
    (kind.asStr, .array ((members.filter fun m => m.1 = kind).map Prod.snd)))

/-- `UPDATE upload_outbox SET state = 'inflight', batch_id = ?3 WHERE kind = ?1 AND ..`. -/
def markInflight (batchId : String) (outbox : OrdMap MemberKey OutboxRow)
    (entry : MemberKey × OutboxRow) : OrdMap MemberKey OutboxRow :=
  outbox.update entry.1 fun row => { row with state := .inflight, batchId := some batchId }

def newBatch (windowId consentId destination membersJson : String) (memberCount : ℕ)
    (now : Instant) : BatchRow where
  windowId := windowId
  consentId := consentId
  destination := destination
  manifestSha256 := sha256Hex c (utf8Bytes membersJson)
  memberCount := memberCount
  byteCount := membersJson.utf8ByteSize
  membersJson := membersJson
  state := .sealed
  attempts := 0
  lastError := none
  sealedAt := c.toRfc3339 now
  lastAttemptAt := none
  ackedAt := none

def sealUploadBatch (db : UploadTables) (windowId consentId destination batchId : String)
    (now : Instant) : Except UploadError (Option SealedBatch × UploadTables) :=
  let rows := sealable db windowId consentId
  if rows.isEmpty then .ok (none, db)
  else match rows.mapM fun entry =>
      (c.parseJson entry.2.memberJson).map fun value => ((ofLex entry.1).1, value) with
    | none => .error .json
    | some members =>
      let batch := newBatch c windowId consentId destination
        (canonicalJson c (membersDocument members)) rows.length now
      if db.batches.contains batchId then .error .primaryKey
      else .ok (some ⟨batchId, windowId, consentId, destination, batch.manifestSha256,
          batch.memberCount, batch.membersJson, 0⟩,
        { db with
          batches := db.batches.insert batchId batch
          outbox := rows.foldl (markInflight batchId) db.outbox })

structure UploadStore where
  records : RecordTables
  egress : EgressTables
  upload : UploadTables

def UploadStore.fresh : UploadStore := ⟨RecordTables.fresh, EgressTables.fresh, UploadTables.fresh⟩

inductive UploadOp
  | records (records : RecordTables)
  | egress (op : EgressOp)
  | stage (clock : StageClock)
  | enforce (maxBytes : ℤ) (now : Instant)
  | retire (liveConsentIds : List String) (now : Instant)
  | sealBatch (windowId consentId destination batchId : String) (now : Instant)
  | attempt (batchId : String) (error : Option String) (now : Instant)
  | acknowledge (batchId : String) (now : Instant)
  | poison (batchId reason : String)

def sealStep (db : UploadTables) (windowId consentId destination batchId : String)
    (now : Instant) : UploadTables :=
  match sealUploadBatch c db windowId consentId destination batchId now with
  | .ok (_, db') => db'
  | .error _ => db

def uploadStep (s : UploadStore) : UploadOp → UploadStore
  | .records records => { s with records := records }
  | .egress op => { s with egress := egressStep c.toEgressStoreCrates s.egress op }
  | .stage clock => { s with upload := (stageUploadRecords c s.records s.egress s.upload clock).2 }
  | .enforce maxBytes now => { s with upload := (enforceOutboxBound c s.upload maxBytes now).2 }
  | .retire live now => { s with upload := (retireUnauthorizedUploadWork c s.upload live now).2 }
  | .sealBatch windowId consentId destination batchId now =>
    { s with upload := sealStep c s.upload windowId consentId destination batchId now }
  | .attempt batchId error now =>
    { s with upload := recordUploadAttempt c s.upload batchId error now }
  | .acknowledge batchId now => { s with upload := acknowledgeUploadBatch c s.upload batchId now }
  | .poison batchId reason => { s with upload := poisonUploadBatch s.upload batchId reason }

def uploadRun (s : UploadStore) (ops : List UploadOp) : UploadStore :=
  Runs.run (uploadStep c) s ops

end Fornax.Upload
