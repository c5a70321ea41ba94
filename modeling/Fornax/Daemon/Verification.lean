import Fornax.Store.Consumption
import Fornax.Verify.Registry

namespace Fornax.Daemon

/-- The calls of the store that one delivery makes; those of a loop by their position. -/
inductive StoreCall
  | upsertCapabilities
  | insertEvent
  | insertEvidence
  | insertClaim
  | admittedEvidence
  | recordAdmissionQuarantine (position : ℕ)
  | recordConsumption (verifier : String) (position : ℕ)
  | insertFinding (verifier : String)
  deriving DecidableEq, Repr

structure Attempt where
  fails : StoreCall → Bool
  drawn : StoreCall → Uuid
  clock : StoreCall → String

inductive HandleError
  | unavailable (call : StoreCall)
  | refused (error : RecordError)
  deriving DecidableEq, Repr

/-- The rows, and what was refused with the reason as it is stored. -/
structure AdmittedEvidenceRead where
  admitted : List EvidenceRow
  rejected : List (Uuid × String)

structure DaemonCrates where
  text : TextTables
  records : RecordCrates
  redactText : String → String
  redactJson : Json → Json
  redactExtension : Json → Json
  admittedEvidenceForSession : RecordTables → String → AdmittedEvidenceRead

/-- What an adapter announces: its provider, the session in its notes, and the signals. -/
structure AnnouncedCapabilities extends RuntimeCapabilities where
  provider : Provider
  notedSession : Option String
  deriving DecidableEq, Repr

/-- The messages of the ingest socket. Policy envelopes leave everything below as it is. -/
inductive IngestMessage
  | capabilities (caps : AnnouncedCapabilities)
  | event (e : AgentEvent)
  | evidence (ev : ObservedEvidence)
  | policyEnvelope
  | claim (claim : StoredClaim)

structure DaemonStore where
  tables : RecordTables
  consumption : ConsumptionTables
  caps : OrdMap String AnnouncedCapabilities

def DaemonStore.fresh : DaemonStore := ⟨.fresh, ⟨[], []⟩, OrdMap.empty⟩

abbrev Handled := Except HandleError Unit × DaemonStore

def Verdict.isDefinite (v : Verdict) : Bool := v == .verified || v == .contradicted

def downgradeIncomplete (incomplete : Bool) (f : Finding) : Finding :=
  if incomplete && Verdict.isDefinite f.verdict then
    { f with
      rationale :=
        f.rationale ++ " -- downgraded from a definite verdict: a connection for this " ++
        "session was still mid-handoff when this claim was evaluated, so currently-visible " ++
        "evidence may not yet be complete (HORO-1712)"
      verdict := .review }
  else f

def anchorOf (claim : StoredClaim) : ClaimAnchor := (claim.sessionId, claim.sourceEventId)

section Verify

variable (c : DaemonCrates) (a : Attempt) (claim : StoredClaim)

def consumeFrom (name : String) (position : ℕ) (replayed : Bool) (rationale : String)
    (db : ConsumptionTables) : List Uuid → Bool × String × ConsumptionTables
  | [] => (replayed, rationale, db)
  | evidenceId :: rest =>
    let call := StoreCall.recordConsumption name position
    if a.fails call then consumeFrom name (position + 1) replayed rationale db rest
    else
      match recordConsumption db evidenceId claim.id (anchorOf claim) (some name) (a.drawn call)
          (a.clock call) with
      | (.replayedAcrossClaims owner, db) =>
        consumeFrom name (position + 1) true (rationale ++ " -- downgraded: evidence " ++
          evidenceId.text ++ " was already consumed by claim " ++ owner.text ++
          " from a different turn (FORNX-431 replay guard)") db rest
      | (_, db) => consumeFrom name (position + 1) replayed rationale db rest

def guardReplay (name : String) (db : ConsumptionTables) (f : Finding) :
    Finding × ConsumptionTables :=
  if f.verdict = .verified then
    match consumeFrom a claim name 0 false f.rationale db f.evidenceIds with
    | (replayed, rationale, db) =>
      ({ f with rationale, verdict := if replayed then .review else f.verdict }, db)
  else (f, db)

def subjectClaim : SubjectClaim := { id := claim.id, text := claim.text, subject := claim.subject }

variable (incomplete : Bool) (caps : RuntimeCapabilities) (admitted : List EvidenceRow)

def judgedFinding (v : Verifier) (db : ConsumptionTables) : Finding × ConsumptionTables :=
  let call := StoreCall.insertFinding v.name
  guardReplay a claim v.name db
    (downgradeIncomplete incomplete
      (v.verify (a.drawn call) (a.clock call) (subjectClaim claim) admitted caps))

def persistFinding (v : Verifier) (db : DaemonStore) : Handled :=
  let call := StoreCall.insertFinding v.name
  let (f, consumption) := judgedFinding a claim incomplete caps admitted v db.consumption
  let db := { db with consumption }
  if a.fails call then (.error (.unavailable call), db)
  else
    match insertFinding db.tables f (a.clock call) with
    | .error error => (.error (.refused error), db)
    | .ok tables => (.ok (), { db with tables })

def persistFindings : List Verifier → DaemonStore → Handled
  | [], db => (.ok (), db)
  | v :: rest, db =>
    match persistFinding a claim incomplete caps admitted v db with
    | (.error error, db) => (.error error, db)
    | (.ok (), db) => persistFindings rest db

def quarantineFrom (position : ℕ) (db : ConsumptionTables) :
    List (Uuid × String) → ConsumptionTables
  | [] => db
  | (evidenceId, reason) :: rest =>
    let call := StoreCall.recordAdmissionQuarantine position
    if a.fails call then quarantineFrom (position + 1) db rest
    else
      quarantineFrom (position + 1) (recordAdmissionQuarantine db evidenceId claim.id
        (anchorOf claim) reason (a.drawn call) (a.clock call)) rest

def recordRejections (read : AdmittedEvidenceRead) (db : DaemonStore) : DaemonStore :=
  { db with consumption := quarantineFrom a claim 0 db.consumption read.rejected }

def applicableVerifiers : List Verifier :=
  (verifiers c.text).filter fun v => v.appliesTo claim.subject

/-- `incomplete` is what `evidence_may_be_incomplete_for` says of the claim's session. -/
def runVerifiersAndPersistFindings (db : DaemonStore) : Handled :=
  if a.fails .admittedEvidence then (.error (.unavailable .admittedEvidence), db)
  else
    let read := c.admittedEvidenceForSession db.tables claim.sessionId
    persistFindings a claim incomplete caps read.admitted (applicableVerifiers c claim)
      (recordRejections a claim read db)

end Verify

def claimMatchesCompletion (claim : StoredClaim) (source : AgentEvent) : Bool :=
  let payload := (source.raw.get? "payload").getD .null
  let text := fun (json : Json) (key : String) => (json.get? key).bind Json.asStr
  let identifiedCompletion := source.provider == .codex && source.kind == .sessionEnd &&
    decide (text source.raw "type" = some "event_msg") &&
    decide (text payload "type" = some "task_complete") &&
    (text payload "turn_id").any fun turn => !(Text.trim turn.toList).isEmpty
  if !identifiedCompletion || claim.subject != "test_result" then true
  else source.id == claim.sourceEventId && source.sessionId == claim.sessionId &&
    decide (text payload "last_agent_message" = some claim.text)

def capsOf (db : DaemonStore) (sid : String) : RuntimeCapabilities :=
  ((db.caps.get? sid).map fun caps => caps.toRuntimeCapabilities).getD ⟨[]⟩

section Handle

variable (c : DaemonCrates) (a : Attempt)

def IngestMessage.named : IngestMessage → Option String
  | .capabilities caps => caps.notedSession
  | .event e => some e.sessionId
  | .evidence ev => some ev.sessionId
  | .policyEnvelope => none
  | .claim stated => some stated.sessionId

def handleCapabilities (hint : Option String) (caps : AnnouncedCapabilities) (db : DaemonStore) :
    Handled :=
  match caps.notedSession.or hint with
  | none => (.ok (), db)
  | some sid =>
    if a.fails .upsertCapabilities then (.error (.unavailable .upsertCapabilities), db)
    else if (db.caps.get? sid).all fun existing => existing.provider == caps.provider then
      (.ok (), { db with caps := db.caps.insert sid caps })
    else (.ok (), db)

def redactEvent (e : AgentEvent) : AgentEvent :=
  { e with
    toolInput := e.toolInput.map c.redactJson
    toolResponse := e.toolResponse.map c.redactJson
    raw := c.redactJson e.raw }

def handleEvent (e : AgentEvent) (db : DaemonStore) : Handled :=
  if a.fails .insertEvent then (.error (.unavailable .insertEvent), db)
  else
    match insertEvent c.records db.tables (redactEvent c e) (a.clock .insertEvent) with
    | .error error => (.error (.refused error), db)
    | .ok (_, tables) => (.ok (), { db with tables })

def redactEvidence (ev : ObservedEvidence) : ObservedEvidence :=
  { ev with payload := c.redactJson ev.payload, extension := ev.extension.map c.redactExtension }

def handleEvidence (ev : ObservedEvidence) (db : DaemonStore) : Handled :=
  if a.fails .insertEvidence then (.error (.unavailable .insertEvidence), db)
  else
    match insertEvidence c.records db.tables (redactEvidence c ev) (some "uds_ingest")
        (a.clock .insertEvidence) with
    | .error error => (.error (.refused error), db)
    | .ok (_, tables) => (.ok (), { db with tables })

def redactClaim (claim : StoredClaim) : StoredClaim :=
  { claim with text := c.redactText claim.text }

def storeClaim (claim : StoredClaim) (db : DaemonStore) : Except HandleError (Bool × DaemonStore) :=
  if a.fails .insertClaim then .error (.unavailable .insertClaim)
  else
    match insertClaim db.tables (redactClaim c claim)
        (some (claimMatchesCompletion (redactClaim c claim))) (a.clock .insertClaim) with
    | .error error => .error (.refused error)
    | .ok (isNew, tables) => .ok (isNew, { db with tables })

def handleClaim (incomplete : Bool) (claim : StoredClaim) (db : DaemonStore) : Handled :=
  match storeClaim c a claim db with
  | .error error => (.error error, db)
  | .ok (false, db) => (.ok (), db)
  | .ok (true, db) =>
    runVerifiersAndPersistFindings c a (redactClaim c claim) incomplete
      (capsOf db claim.sessionId) db

def handleMessage (incomplete : String → Bool) (hint : Option String) (message : IngestMessage)
    (db : DaemonStore) : Handled :=
  match message with
  | .capabilities caps => handleCapabilities a hint caps db
  | .event e => handleEvent c a e db
  | .evidence ev => handleEvidence c a ev db
  | .policyEnvelope => (.ok (), db)
  | .claim claim => handleClaim c a (incomplete claim.sessionId) claim db

end Handle

end Fornax.Daemon
