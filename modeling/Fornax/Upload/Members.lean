import Fornax.Egress.Store
import Fornax.Store.Records

namespace Fornax.Upload

open Egress

/-- SHA-256, the printer of JSON scalars and keys, the JSON parser, and year and month of an
instant in the form `YYYY-MM`. -/
structure UploadCrates extends EgressStoreCrates where
  sha256 : Bytes → Vector UInt8 32
  jsonText : Json → String
  parseJson : String → Option Json
  windowOf : Instant → String

inductive MemberKind
  | claims
  | events
  | evidence
  | findings
  | sessions
  deriving DecidableEq, Repr

namespace MemberKind

def asStr : MemberKind → String
  | claims => "claims"
  | events => "events"
  | evidence => "evidence"
  | findings => "findings"
  | sessions => "sessions"

def rank : MemberKind → ℕ
  | claims => 0
  | events => 1
  | evidence => 2
  | findings => 3
  | sessions => 4

theorem rank_injective : Function.Injective rank := by
  intro a b h
  cases a <;> cases b <;> first | rfl | cases h

instance : LinearOrder MemberKind := LinearOrder.lift' rank rank_injective

end MemberKind

abbrev MemberKey := MemberKind ×ₗ String

variable (c : UploadCrates)

-- `canonical_json`, with the loops over the items and the fields.
mutual

def canonicalJson : Json → String
  | .object fields =>
    let sorted : OrdMap String String := OrdMap.ofList (canonicalFields fields)
    let fields := sorted.entries.map fun f => c.jsonText (.string f.1) ++ ":" ++ f.2
    "\x7b" ++ ",".intercalate fields ++ "\x7d"
  | .array items => "[" ++ ",".intercalate (canonicalItems items) ++ "]"
  | .string s => c.jsonText (.string s)
  | .number n => c.jsonText (.number n)
  | .bool b => c.jsonText (.bool b)
  | .null => c.jsonText .null

def canonicalItems : List Json → List String
  | [] => []
  | item :: rest => canonicalJson item :: canonicalItems rest

def canonicalFields : List (String × Json) → List (String × String)
  | [] => []
  | (key, value) :: rest => (key, canonicalJson value) :: canonicalFields rest

end

def sha256Hex (bytes : Bytes) : String :=
  String.ofList ((c.sha256 bytes).toList.flatMap fun b => hexDigits 2 b.toNat)

def labelChar (ch : Char) : Bool :=
  ch.isAlphanum || ['_', '.', ':', '#', '/', '-'].contains ch

def safeLabel (raw : String) : String :=
  if !raw.isEmpty && raw.utf8ByteSize ≤ 128 && raw.toList.all labelChar then raw else "redacted"

/-- `substr(.., 1, 19)`. -/
def toSecond (timestamp : String) : String := String.ofList (timestamp.toList.take 19)

def profileAt (log : List (Instant × Profile)) (ts : Instant) : Profile :=
  ((log.reverse.find? fun entry => entry.1 ≤ ts).map Prod.snd).getD .unconfigured

/-- `none` for a malformed log. -/
def profileHistory (db : EgressTables) : Option (List (Instant × Profile)) :=
  db.profileLog.mapM fun row => (c.rfc3339 row.1).map fun ts => (ts, row.2)

def eligible (since : Instant) (history : List (Instant × Profile)) (ts : String) :
    Option String :=
  (c.rfc3339 ts).bind fun parsed =>
    if parsed < since || profileAt history parsed ≠ .personal then none
    else some (c.windowOf parsed)

/-- A row of a staging query: its timestamp, those of the records it depends on, its session and the
fields of its member. -/
structure Candidate where
  objectId : String
  capturedAt : String
  parentsAt : List String
  sessionId : String
  member : List (String × Json)

def field (name value : String) : String × Json := (name, .string value)

def eventCandidate (id : String) (e : AgentEvent) : Candidate where
  objectId := id
  capturedAt := e.observedAt
  parentsAt := []
  sessionId := e.sessionId
  member := [field "id" id, field "session_id" e.sessionId,
      field "provider" (safeLabel e.provider.tag), field "kind" (safeLabel e.kind.tag),
      field "observed_at" e.observedAt] ++
    (e.toolName.map fun t => field "tool_name" (safeLabel t)).toList

def claimCandidate (db : RecordTables) (id : String) (claim : StoredClaim) : Option Candidate :=
  (db.agentEvents.get? claim.sourceEventId.text).map fun parent =>
    { objectId := id
      capturedAt := claim.claimedAt
      parentsAt := [parent.observedAt]
      sessionId := claim.sessionId
      member := [field "id" id, field "session_id" claim.sessionId,
        field "source_event_id" claim.sourceEventId.text,
        field "subject" (safeLabel claim.subject), field "claimed_at" claim.claimedAt] }

def evidenceCandidate (db : RecordTables) (id : String) (ev : StoredEvidence) :
    Option Candidate :=
  (db.agentEvents.get? ev.sourceEventId.text).map fun parent =>
    { objectId := id
      capturedAt := ev.observedAt
      parentsAt := [parent.observedAt]
      sessionId := ev.sessionId
      member := [field "id" id, field "session_id" ev.sessionId,
        field "source_event_id" ev.sourceEventId.text,
        field "kind" (safeLabel ev.kind.tag), field "observed_at" ev.observedAt,
        field "provenance" (safeLabel ev.provenance)] }

def findingCandidate (db : RecordTables) (id : String) (f : Finding) : Option Candidate :=
  (db.claims.get? f.claimId.text).bind fun claim =>
    (db.agentEvents.get? claim.sourceEventId.text).map fun parent =>
      { objectId := id
        capturedAt := f.computedAt
        parentsAt := [claim.claimedAt, parent.observedAt]
        sessionId := claim.sessionId
        member := [field "id" id, field "claim_id" f.claimId.text,
          field "session_id" claim.sessionId, field "verdict" (safeLabel f.verdict.tag),
          field "verifier_name" (safeLabel f.verifierName), field "computed_at" f.computedAt] }

def sessionCandidate (db : RecordTables) (sessionId : String) : Option Candidate :=
  (SortDedup.sortBy AgentEvent.observedAt
      (db.agentEvents.values.filter fun e => e.sessionId == sessionId)).head?.map fun first =>
    { objectId := sessionId
      capturedAt := first.observedAt
      parentsAt := []
      sessionId := sessionId
      member := [field "session_id" sessionId, field "provider" (safeLabel first.provider.tag),
        field "first_seen_at" first.observedAt] }

/-- What the query of a kind joins, before its filters. Sessions have no query of their own. -/
def candidates (db : RecordTables) : MemberKind → List Candidate
  | .events => db.agentEvents.entries.map fun e => eventCandidate e.1 e.2
  | .claims => db.claims.entries.filterMap fun e => claimCandidate db e.1 e.2
  | .evidence => db.evidence.entries.filterMap fun e => evidenceCandidate db e.1 e.2
  | .findings => db.findings.entries.filterMap fun e => findingCandidate db e.1 e.2
  | .sessions => []

end Fornax.Upload
