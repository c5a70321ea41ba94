import Fornax.Lib.Fallible
import Fornax.Lib.Text
import Fornax.Policy.Content

namespace Fornax.Egress

inductive Profile
  | unconfigured
  | personal
  | corporate
  deriving DecidableEq, Repr

inductive Purpose
  | evidenceBatchUpload
  | auditCheckpoint
  | policyFetch
  | semanticJudge
  | uploaderSpoolStream
  deriving DecidableEq, Repr

def Purpose.shipsEvidence : Purpose → Bool
  | .evidenceBatchUpload | .auditCheckpoint | .uploaderSpoolStream => true
  | .policyFetch | .semanticJudge => false

def isUploadableClass : EgressContentClass → Bool
  | .evidenceMetadata | .findingVerdicts | .capabilityDeclarations => true
  | .claimText | .redactedEvidencePayload | .unrecognized _ => false

def classStr : EgressContentClass → String
  | .findingVerdicts => "finding_verdicts"
  | .claimText => "claim_text"
  | .evidenceMetadata => "evidence_metadata"
  | .redactedEvidencePayload => "redacted_evidence_payload"
  | .capabilityDeclarations => "capability_declarations"
  | .unrecognized tag => "unrecognized:" ++ tag

def isUnrecognized : EgressContentClass → Bool
  | .unrecognized _ => true
  | _ => false

inductive EgressDenial
  | invalidDestination
  | insecureDestination
  | stateUnreadable
  | unconfigured
  | corporateLocalOnly
  | killSwitchOff
  | contentClassNotUploadable
  | noAllowlistEntry
  | noConsent
  | consentExpired
  | consentRevoked
  | consentStale
  | consentDoesNotCoverClasses
  | missingAuthorizationRef
  | purposeNotAvailable
  deriving DecidableEq, Repr

structure ParsedUrl where
  username : String
  password : Option String
  query : Option String
  fragment : Option String
  scheme : String
  hostStr : Option String
  portOrKnownDefault : Option ℕ
  path : String
  deriving DecidableEq, Repr

/-- `url::Url::parse` and `DateTime::parse_from_rfc3339`. -/
structure EgressCrates where
  parseUrl : String → Option ParsedUrl
  rfc3339 : String → Option Instant

structure Destination where
  scheme : String
  host : String
  port : ℕ
  pathPrefix : String
  deriving DecidableEq, Repr

def isLoopbackHost (host : String) : Bool :=
  host == "127.0.0.1" || host == "::1" || host == "[::1]" || host == "localhost"

def asciiLowercase (s : String) : String := String.ofList (s.toList.map Char.toLower)

def ParsedUrl.destination (url : ParsedUrl) : Except EgressDenial Destination :=
  if !url.username.isEmpty || url.password.isSome then .error .invalidDestination
  else if url.query.isSome || url.fragment.isSome then .error .invalidDestination
  else if url.scheme != "http" && url.scheme != "https" then .error .invalidDestination
  else match (url.hostStr.filter fun h => !h.isEmpty), url.portOrKnownDefault with
    | some host, some port =>
      if url.scheme == "http" && !isLoopbackHost (asciiLowercase host) then
        .error .insecureDestination
      else .ok ⟨url.scheme, asciiLowercase host, port, if url.path.isEmpty then "/" else url.path⟩
    | _, _ => .error .invalidDestination

def Destination.parse (c : EgressCrates) (raw : String) : Except EgressDenial Destination :=
  match c.parseUrl raw with
  | none => .error .invalidDestination
  | some url => url.destination

def Destination.canonical (d : Destination) : String :=
  d.scheme ++ "://" ++ d.host ++ ":" ++ toString d.port ++ d.pathPrefix

/-- Same scheme, host and port, and a path that continues the prefix at a `/`. -/
def Destination.covers (d request : Destination) : Bool :=
  if d.scheme != request.scheme || d.host != request.host || d.port != request.port then false
  else if d.pathPrefix == "/" then true
  else
    let stem : Text := (d.pathPrefix.toList.reverse.dropWhile (· == '/')).reverse
    let path : Text := request.pathPrefix.toList
    path == stem || stem.isPrefixOf path && (path.drop stem.length).head? == some '/'

structure Consent where
  id : String
  purpose : Purpose
  destination : String
  dataClasses : OrdSet String
  grantedAt : String
  expiresAt : String
  revokedAt : Option String
  profileGeneration : ℤ
  authorizationRef : Option String
  deriving DecidableEq

structure AllowlistEntry where
  id : String
  purpose : Purpose
  destination : String
  removed : Bool
  deriving DecidableEq, Repr

structure EgressState where
  profile : Profile
  generation : ℤ
  consents : List Consent
  allowlist : List AllowlistEntry
  deriving DecidableEq

structure EgressRequest where
  purpose : Purpose
  url : String
  classes : OrdSet EgressContentClass
  legacyCloudSyncGateOpen : Bool
  now : String
  deriving DecidableEq

structure EgressPermit where
  purpose : Purpose
  destination : String
  consentId : Option String
  deriving DecidableEq, Repr

variable (c : EgressCrates)

def coversRequest (stored : String) (request : Destination) : Bool :=
  match Destination.parse c stored with
  | .ok d => d.covers request
  | .error _ => false

def findAllowlist (state : EgressState) (purpose : Purpose) (request : Destination) :
    Option AllowlistEntry :=
  state.allowlist.find? fun e =>
    !e.removed && e.purpose == purpose && coversRequest c e.destination request

/-- Any parse failure is `false`. -/
def isBefore (a b : String) : Bool :=
  match c.rfc3339 a, c.rfc3339 b with
  | some a, some b => a < b
  | _, _ => false

def Consent.coversClasses (consent : Consent) (req : EgressRequest) : Bool :=
  req.classes.toList.all fun cls => consent.dataClasses.contains (classStr cls)

/-- `best` is always a reason so far, and `Err(..).or(Err(r))` is `Err(r)`: the reason of the last
consent stands. -/
def findConsentFrom (state : EgressState) (req : EgressRequest) (best : EgressDenial) :
    List Consent → Except EgressDenial Consent
  | [] => .error best
  | consent :: rest =>
    if consent.revokedAt.isSome then findConsentFrom state req .consentRevoked rest
    else if consent.profileGeneration ≠ state.generation then
      findConsentFrom state req .consentStale rest
    else if !isBefore c req.now consent.expiresAt then
      findConsentFrom state req .consentExpired rest
    else if !consent.coversClasses req then
      findConsentFrom state req .consentDoesNotCoverClasses rest
    else .ok consent

def findConsent (state : EgressState) (req : EgressRequest) (request : Destination) :
    Except EgressDenial Consent :=
  findConsentFrom c state req .noConsent (state.consents.filter fun consent =>
    consent.purpose == req.purpose && coversRequest c consent.destination request)

def permit (purpose : Purpose) (request : Destination) (consent : Option Consent) : EgressPermit :=
  ⟨purpose, request.canonical, consent.map fun consent => consent.id⟩

def Consent.authorized (consent : Consent) : Bool :=
  consent.authorizationRef.any fun r => !(Text.trim r.toList).isEmpty

def decidePolicyFetch (state : EgressState) (req : EgressRequest) (request : Destination) :
    Except EgressDenial EgressPermit :=
  match findAllowlist c state req.purpose request with
  | none => .error .noAllowlistEntry
  | some _ => .ok (permit req.purpose request none)

def decideConsent (state : EgressState) (req : EgressRequest) (request : Destination) :
    Except EgressDenial Consent :=
  match findAllowlist c state req.purpose request with
  | none => .error .noAllowlistEntry
  | some _ => findConsent c state req request

def decideProfile (state : EgressState) (req : EgressRequest) (request : Destination) :
    Except EgressDenial EgressPermit :=
  match state.profile with
  | .corporate =>
    if req.purpose.shipsEvidence then .error .corporateLocalOnly
    else if req.purpose = .policyFetch then decidePolicyFetch c state req request
    else match decideConsent c state req request with
      | .error denial => .error denial
      | .ok consent =>
        if consent.authorized then .ok (permit req.purpose request (some consent))
        else .error .missingAuthorizationRef
  | .unconfigured =>
    if req.purpose = .policyFetch then decidePolicyFetch c state req request
    else .error .unconfigured
  | .personal =>
    if req.purpose = .policyFetch then decidePolicyFetch c state req request
    else if req.purpose.shipsEvidence && !req.legacyCloudSyncGateOpen then .error .killSwitchOff
    else if req.purpose.shipsEvidence && !req.classes.toList.all isUploadableClass then
      .error .contentClassNotUploadable
    else match decideConsent c state req request with
      | .error denial => .error denial
      | .ok consent => .ok (permit req.purpose request (some consent))

protected def decide (state : EgressState) (req : EgressRequest) :
    Except EgressDenial EgressPermit :=
  match Destination.parse c req.url with
  | .error denial => .error denial
  | .ok request =>
    if req.purpose = .uploaderSpoolStream then .error .purposeNotAvailable
    else if req.purpose = .semanticJudge && isLoopbackHost request.host then
      .ok (permit req.purpose request none)
    else if req.classes.toList.any isUnrecognized then .error .contentClassNotUploadable
    else decideProfile c state req request

end Fornax.Egress
