import Fornax.Lib.OrdMap
import Fornax.Lib.Text

namespace Fornax

inductive AuditActor
  | device (actorId : String)
  | user (actorId : String)
  | serviceToken (actorId : String)
  | system
  | unrecognized
  deriving DecidableEq, Repr

inductive AuditTarget
  | policyBundle (targetId : String)
  | revocationEntry (targetId : String)
  | roleAssignment (targetId : String)
  | permission (targetId : String)
  | device (targetId : String)
  | evidence (targetId : String)
  | organization (targetId : String)
  | complianceReport (targetId : String)
  | goldLabel (targetId : String)
  | egressPolicy (targetId : String)
  | agentEvent (targetId : String)
  | claim (targetId : String)
  | unrecognized
  deriving DecidableEq, Repr

inductive AuditAction
  | permissionCheck
  | breakGlassActivated
  | policyBundleActivated
  | policyRevocationIngested
  | roleAssignmentChanged
  | evidencePurged
  | recordPurged
  | complianceReportGenerated
  | goldLabelFrozen
  | egressProfileChanged
  | egressConsentGranted
  | egressConsentRevoked
  | egressAllowlistChanged
  | uploadBatchSealed
  | uploadBatchAcknowledged
  | uploadBatchPoisoned
  | uploadGapRecorded
  | unrecognized (tag : String)
  deriving DecidableEq, Repr

inductive AuditOutcome
  | granted
  | denied
  | grantedViaBreakGlass
  | breakGlassActivated
  | revoked
  | expired
  | unrecognized (tag : String)
  deriving DecidableEq, Repr

inductive AuditExportClass
  | metadata
  | findingSummary
  | sensitiveEvidenceRef
  | rawContent
  | unrecognized (tag : String)
  deriving DecidableEq, Repr

def AuditExportClass.tag : AuditExportClass → String
  | .metadata => "metadata"
  | .findingSummary => "finding_summary"
  | .sensitiveEvidenceRef => "sensitive_evidence_ref"
  | .rawContent => "raw_content"
  | .unrecognized tag => tag

structure AuditEvent where
  schemaVersion : ℕ
  eventId : String
  occurredAt : String
  actor : AuditActor
  action : AuditAction
  target : AuditTarget
  outcome : AuditOutcome
  exportClass : AuditExportClass
  correlationId : Option String
  attributes : Json
  unknown : OrdMap String Json

def looksLikeGithubToken (s : Text) : Bool :=
  s.startsWith "ghp_" || s.startsWith "gho_" || s.startsWith "ghu_" || s.startsWith "ghs_"

def looksLikeGenericHighEntropySecret (s : Text) : Bool :=
  if s.utf8Len < 20 || s.utf8Len > 200 || s.any isWhitespace then false
  else
    let alnumIsh := s.all fun c =>
      c.isAlphanum || c == '_' || c == '-' || c == '.' || c == '/' || c == '+' || c == '='
    alnumIsh && s.any Char.isDigit && s.any Char.isAlpha

def toUppercase (upper : Char → Text) (s : Text) : Text :=
  s.flatMap fun c => if isAscii c then [c.toUpper] else upper c

def looksLikeEnvSecretAssignment (upper : Char → Text) (s : Text) : Bool :=
  let upperCase := toUppercase upper s
  ["TOKEN=", "API_KEY=", "APIKEY=", "SECRET=", "PASSWORD=", "PRIVATE_KEY="].any fun marker =>
    upperCase.contains marker

def redactToken (tok : Text) : Text :=
  if looksLikeGithubToken tok || looksLikeGenericHighEntropySecret tok then "[REDACTED]".toList
  else tok

def redactLine (upper : Char → Text) (line : Text) : Text :=
  if looksLikeEnvSecretAssignment upper line then
    "[REDACTED: possible secret assignment]".toList
  else [' '].intercalate (line.splitWhitespace.map redactToken)

def redactText (upper : Char → Text) (input : Text) : Text :=
  ['\n'].intercalate (input.lines.map (redactLine upper))

-- `redact_json`, with the loops over the items and the fields.
mutual

def redactJson (upper : Char → Text) : Json → Json
  | .string s => .string (String.ofList (redactText upper s.toList))
  | .array items => .array (redactItems upper items)
  | .object fields => .object (redactFields upper fields)
  | .null => .null
  | .bool b => .bool b
  | .number n => .number n

def redactItems (upper : Char → Text) : List Json → List Json
  | [] => []
  | item :: rest => redactJson upper item :: redactItems upper rest

def redactFields (upper : Char → Text) : List (String × Json) → List (String × Json)
  | [] => []
  | (key, value) :: rest => (key, redactJson upper value) :: redactFields upper rest

end

def AuditEvent.redacted (upper : Char → Text) (event : AuditEvent) : AuditEvent :=
  { event with attributes := redactJson upper event.attributes }

end Fornax
