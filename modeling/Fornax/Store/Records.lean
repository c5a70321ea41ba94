import Fornax.Lib.Runs
import Fornax.Lib.Table
import Fornax.Verify.Verifiers

namespace Fornax

/-- The known record tables, the two tables with foreign keys that are not among them, and any other
text. -/
inductive RecordTable
  | agentEvents
  | claims
  | evidence
  | findings
  | corpusCandidates
  | adjudicationQueue
  | adjudicationViews
  | adjudicationReviews
  | acquisitionLog
  | reviewFeedback
  | ingestQuarantine
  | evidenceConsumption
  | claimEvidenceLinks
  | claimMissingEvidence
  | other (name : String)
  deriving DecidableEq, Repr

inductive RetentionClass
  | rawLocal
  | sanitizedReplayFixture
  | sanitizedCandidate
  | aggregatedFeature
  | derivedFinding
  | unrecognized (tag : String)
  deriving DecidableEq, Repr

def retentionClassForTable : RecordTable → RetentionClass
  | .agentEvents | .claims | .evidence | .acquisitionLog | .ingestQuarantine
  | .evidenceConsumption => .rawLocal
  | .findings => .derivedFinding
  | .corpusCandidates | .adjudicationQueue | .adjudicationViews | .adjudicationReviews
  | .reviewFeedback => .sanitizedCandidate
  | .claimEvidenceLinks => .unrecognized "claim_evidence_links"
  | .claimMissingEvidence => .unrecognized "claim_missing_evidence"
  | .other name => .unrecognized name

abbrev RecordKey := RecordTable × String

structure LineageTagRow where
  recordTable : RecordTable
  recordId : String
  retentionClass : RetentionClass
  tenantRef : String
  recordedAt : String
  deriving DecidableEq, Repr

def LineageTagRow.key (tag : LineageTagRow) : RecordKey := (tag.recordTable, tag.recordId)

inductive EventKind
  | sessionStart
  | sessionEnd
  | userPromptSubmit
  | preToolUse
  | postToolUse
  | subagentStart
  | subagentStop
  | notification
  deriving DecidableEq, Repr

structure AgentEvent where
  id : Uuid
  sessionId : String
  provider : Provider
  kind : EventKind
  observedAt : String
  toolName : Option String
  toolInput : Option Json
  toolResponse : Option Json
  raw : Json

inductive HostLineageStatus
  | root
  | child
  | unknown
  deriving DecidableEq, Repr

structure EventAttribution where
  agentId : Option String
  agentType : Option String
  turnId : Option String
  lineageStatus : HostLineageStatus
  deriving DecidableEq, Repr

structure StoredClaim extends Claim where
  sessionId : String
  sourceEventId : Uuid
  text : String
  subject : String
  deriving DecidableEq, Repr

structure ObservedEvidence extends Evidence where
  sessionId : String
  payload : Json
  provenance : String
  extension : Option Json
  evidencePurged : Bool

structure StoredEvidence extends ObservedEvidence where
  ingressOrigin : Option String

structure StoredLink extends EvidenceLink where
  sessionId : String
  claimId : Uuid
  linkedAt : String
  deriving DecidableEq, Repr

structure StoredMissing extends MissingEvidence where
  sessionId : String
  claimId : Uuid
  signalClass : SignalClass
  detail : Option String
  notedAt : String
  deriving DecidableEq, Repr

/-- What `insert_bound_host_event` reads of a canonical host identity. -/
structure HostEventIdentity where
  toolProvider : String
  lineageStatus : HostLineageStatus
  providerSessionId : Option String
  agentId : Option String
  turnId : Option String
  deriving DecidableEq, Repr

/-- Tags stand in the order of their row numbers. Of the record tables without foreign keys only
the primary keys of their rows are kept. -/
structure RecordTables where
  agentEvents : OrdMap String AgentEvent
  eventAttribution : OrdMap String EventAttribution
  claims : OrdMap String StoredClaim
  evidence : OrdMap String StoredEvidence
  findings : OrdMap String Finding
  claimEvidenceLinks : OrdMap String StoredLink
  claimMissingEvidence : OrdMap String StoredMissing
  plainRows : List RecordKey
  lineageTags : List LineageTagRow

def RecordTables.fresh : RecordTables where
  agentEvents := OrdMap.empty
  eventAttribution := OrdMap.empty
  claims := OrdMap.empty
  evidence := OrdMap.empty
  findings := OrdMap.empty
  claimEvidenceLinks := OrdMap.empty
  claimMissingEvidence := OrdMap.empty
  plainRows := []
  lineageTags := []

inductive RecordError
  | foreignKey
  | primaryKey
  | idCollision (table : RecordTable) (id : String)
  | claimIdCollision (id : String)
  | claimSourceMismatch (id : String)
  | missingSessionIdentity (kind : RecordTable)
  | hostIdentityMismatch (field : String)
  deriving DecidableEq, Repr

inductive InsertOutcome
  | inserted
  | duplicate
  deriving DecidableEq, Repr

/-- Whether the stored text of a JSON value parses back to another value, and what the provider
contract reads off a raw payload. -/
structure RecordCrates where
  jsonStrEq : Json → Json → Bool
  nativeIdentity : Provider → Json → Option String × Option String
  nativeAgentType : Provider → Json → Option String

variable (c : RecordCrates)

def blank (sessionId : String) : Bool := (Text.trim sessionId.toList).isEmpty

def jsonOptEq : Option Json → Option Json → Bool
  | none, none => true
  | some stored, some incoming => c.jsonStrEq stored incoming
  | _, _ => false

/-- `insert_lineage_tag_row` with the tag of `DatasetLineageTag::new`. -/
def RecordTables.insertLineageTagRow (db : RecordTables) (table : RecordTable)
    (id tenant now : String) : RecordTables :=
  { db with lineageTags := db.lineageTags ++
      [⟨table, id, retentionClassForTable table, tenant, now⟩] }

def nativeAttribution (e : AgentEvent) : Option EventAttribution :=
  let (agentId, turnId) := c.nativeIdentity e.provider e.raw
  let agentType := c.nativeAgentType e.provider e.raw
  if agentId.isNone && turnId.isNone && agentType.isNone then none
  else some ⟨agentId, agentType, turnId, .unknown⟩

def RecordTables.insertEventAttribution (db : RecordTables) (id : String) :
    Option EventAttribution → RecordTables
  | none => db
  | some attribution =>
    { db with eventAttribution := db.eventAttribution.insertNew id attribution }

def sameEvent (stored incoming : AgentEvent) : Bool :=
  stored.sessionId == incoming.sessionId && stored.provider == incoming.provider &&
    stored.kind == incoming.kind && stored.toolName == incoming.toolName &&
    jsonOptEq c stored.toolInput incoming.toolInput &&
    jsonOptEq c stored.toolResponse incoming.toolResponse && c.jsonStrEq stored.raw incoming.raw

def insertEvent (db : RecordTables) (e : AgentEvent) (now : String) :
    Except RecordError (InsertOutcome × RecordTables) :=
  if blank e.sessionId then .error (.missingSessionIdentity .agentEvents)
  else match db.agentEvents.get? e.id.text with
    | some stored =>
      if sameEvent c stored e then .ok (.duplicate, db)
      else .error (.idCollision .agentEvents e.id.text)
    | none =>
      let db := { db with agentEvents := db.agentEvents.insert e.id.text e }
      let db := db.insertEventAttribution e.id.text (nativeAttribution c e)
      .ok (.inserted, db.insertLineageTagRow .agentEvents e.id.text e.sessionId now)

def sameClaim (stored incoming : StoredClaim) : Bool :=
  stored.sessionId == incoming.sessionId && stored.sourceEventId == incoming.sourceEventId &&
    stored.text == incoming.text && stored.subject == incoming.subject

/-- `insert_claim_inner`; `check` is the caller's test of the source event, if any. -/
def insertClaim (db : RecordTables) (claim : StoredClaim) (check : Option (AgentEvent → Bool))
    (now : String) : Except RecordError (Bool × RecordTables) :=
  if blank claim.sessionId then .error (.missingSessionIdentity .claims)
  else if check.any (fun accepts =>
      !(db.agentEvents.get? claim.sourceEventId.text).any accepts) then
    .error (.claimSourceMismatch claim.id.text)
  else match db.claims.get? claim.id.text with
    | some stored =>
      if sameClaim stored claim then .ok (false, db)
      else .error (.claimIdCollision claim.id.text)
    | none =>
      if (db.agentEvents.get? claim.sourceEventId.text).isNone then .error .foreignKey
      else
        let db := { db with claims := db.claims.insert claim.id.text claim }
        .ok (true, db.insertLineageTagRow .claims claim.id.text claim.sessionId now)

def sameEvidence (stored incoming : ObservedEvidence) : Bool :=
  stored.sessionId == incoming.sessionId && stored.kind == incoming.kind &&
    stored.sourceEventId == incoming.sourceEventId && c.jsonStrEq stored.payload incoming.payload

def insertEvidence (db : RecordTables) (ev : ObservedEvidence) (ingressOrigin : Option String)
    (now : String) : Except RecordError (InsertOutcome × RecordTables) :=
  if blank ev.sessionId then .error (.missingSessionIdentity .evidence)
  else match db.evidence.get? ev.id.text with
    | some stored =>
      if sameEvidence c stored.toObservedEvidence ev then .ok (.duplicate, db)
      else .error (.idCollision .evidence ev.id.text)
    | none =>
      if (db.agentEvents.get? ev.sourceEventId.text).isNone then .error .foreignKey
      else
        let db := { db with evidence := db.evidence.insert ev.id.text ⟨ev, ingressOrigin⟩ }
        .ok (.inserted, db.insertLineageTagRow .evidence ev.id.text ev.sessionId now)

/-- With foreign keys on, a finding without its claim is refused by its `INSERT`; the marker tenant
prepared for it is never written. -/
def insertFinding (db : RecordTables) (f : Finding) (now : String) :
    Except RecordError RecordTables :=
  if db.findings.contains f.id.text then .error .primaryKey
  else match db.claims.get? f.claimId.text with
    | none => .error .foreignKey
    | some claim =>
      let db := { db with findings := db.findings.insert f.id.text f }
      .ok (db.insertLineageTagRow .findings f.id.text claim.sessionId now)

def insertEvidenceLink (db : RecordTables) (link : StoredLink) : Except RecordError RecordTables :=
  if db.claimEvidenceLinks.contains link.id.text then .error .primaryKey
  else if (db.claims.get? link.claimId.text).isNone ||
      (db.evidence.get? link.evidenceId.text).isNone then .error .foreignKey
  else .ok { db with claimEvidenceLinks := db.claimEvidenceLinks.insert link.id.text link }

def insertMissingEvidence (db : RecordTables) (missing : StoredMissing) :
    Except RecordError RecordTables :=
  if db.claimMissingEvidence.contains missing.id.text then .error .primaryKey
  else if (db.claims.get? missing.claimId.text).isNone then .error .foreignKey
  else .ok { db with
    claimMissingEvidence := db.claimMissingEvidence.insert missing.id.text missing }

def Provider.tag : Provider → String
  | .claudeCode => "claude_code"
  | .codex => "codex"
  | .openCode => "open_code"
  | .unknown => "unknown"

def EventKind.tag : EventKind → String
  | .sessionStart => "session_start"
  | .sessionEnd => "session_end"
  | .userPromptSubmit => "user_prompt_submit"
  | .preToolUse => "pre_tool_use"
  | .postToolUse => "post_tool_use"
  | .subagentStart => "subagent_start"
  | .subagentStop => "subagent_stop"
  | .notification => "notification"

def EvidenceKind.tag : EvidenceKind → String
  | .toolResult => "tool_result"
  | .exitCode => "exit_code"
  | .fileDiff => "file_diff"
  | .processObservation => "process_observation"
  | .transcriptExcerpt => "transcript_excerpt"

def Verdict.tag : Verdict → String
  | .verified => "verified"
  | .unverified => "unverified"
  | .contradicted => "contradicted"
  | .review => "review"
  | .unavailable => "unavailable"

def cleanIdentity (v : Option String) : Option String :=
  (v.map fun s => String.ofList (Text.trim s.toList)).filter fun s => !s.isEmpty

def insertBoundHostEvent (db : RecordTables) (e : AgentEvent) (identity : HostEventIdentity)
    (now : String) : Except RecordError (InsertOutcome × RecordTables) := do
  if identity.providerSessionId ≠ some e.sessionId then
    .error (.hostIdentityMismatch "provider_session_id")
  else if identity.toolProvider ≠ e.provider.tag then
    .error (.hostIdentityMismatch "tool_provider")
  else
    let (outcome, db) ← insertEvent c db e now
    let agentId := cleanIdentity identity.agentId
    let turnId := cleanIdentity identity.turnId
    if agentId.isNone && turnId.isNone then .ok (outcome, db)
    else .ok (outcome, db.insertEventAttribution e.id.text
      (some ⟨agentId, none, turnId, identity.lineageStatus⟩))

/-- The inserts with their arguments and the text of the clock at the time of the tag. -/
inductive RecordOp
  | event (e : AgentEvent) (now : String)
  | boundHostEvent (e : AgentEvent) (identity : HostEventIdentity) (now : String)
  | claim (claim : StoredClaim) (check : Option (AgentEvent → Bool)) (now : String)
  | evidence (ev : ObservedEvidence) (ingressOrigin : Option String) (now : String)
  | finding (f : Finding) (now : String)
  | evidenceLink (link : StoredLink)
  | missingEvidence (missing : StoredMissing)

def recordAttempt (db : RecordTables) : RecordOp → Except RecordError RecordTables
  | .event e now => (insertEvent c db e now).map Prod.snd
  | .boundHostEvent e identity now => (insertBoundHostEvent c db e identity now).map Prod.snd
  | .claim claim check now => (insertClaim db claim check now).map Prod.snd
  | .evidence ev origin now => (insertEvidence c db ev origin now).map Prod.snd
  | .finding f now => insertFinding db f now
  | .evidenceLink link => insertEvidenceLink db link
  | .missingEvidence missing => insertMissingEvidence db missing

def recordStep (db : RecordTables) (op : RecordOp) : RecordTables :=
  (recordAttempt c db op).toOption.getD db

def recordRun (ops : List RecordOp) : RecordTables := Runs.run (recordStep c) .fresh ops

end Fornax
