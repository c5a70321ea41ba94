import Fornax.Egress.Decide

namespace Fornax.Egress

def Profile.asStr : Profile → String
  | .unconfigured => "unconfigured"
  | .personal => "personal"
  | .corporate => "corporate"

def EgressDenial.code : EgressDenial → String
  | .invalidDestination => "invalid_destination"
  | .insecureDestination => "insecure_destination"
  | .stateUnreadable => "state_unreadable"
  | .unconfigured => "unconfigured"
  | .corporateLocalOnly => "corporate_local_only"
  | .killSwitchOff => "kill_switch_off"
  | .contentClassNotUploadable => "content_class_not_uploadable"
  | .noAllowlistEntry => "no_allowlist_entry"
  | .noConsent => "no_consent"
  | .consentExpired => "consent_expired"
  | .consentRevoked => "consent_revoked"
  | .consentStale => "consent_stale"
  | .consentDoesNotCoverClasses => "consent_does_not_cover_classes"
  | .missingAuthorizationRef => "missing_authorization_ref"
  | .purposeNotAvailable => "purpose_not_available"

/-- The profile row is missing until a profile is first set. Consents and allowlist entries stand in
the order of their rows. -/
structure EgressTables where
  profileRow : Option (Profile × ℤ)
  consents : List Consent
  allowlist : List AllowlistEntry
  profileLog : List (String × Profile)
  deriving DecidableEq

def EgressTables.fresh : EgressTables := ⟨none, [], [], []⟩

def EgressTables.egressState (db : EgressTables) : EgressState :=
  let (profile, generation) := db.profileRow.getD (.unconfigured, 0)
  ⟨profile, generation, db.consents, db.allowlist⟩

structure EgressStoreCrates extends EgressCrates where
  toRfc3339 : Instant → String

/-- `StoreError::InvalidEgress`, and the violation of a primary key. -/
inductive EgressStoreError
  | invalid (message : String)
  | primaryKey
  deriving DecidableEq, Repr

def nanosPerDay : ℤ := 86400 * 1000000000

variable (c : EgressStoreCrates)

def setEgressProfile (db : EgressTables) (profile : Profile) (confirmLeaveCorporate : Bool)
    (now : Instant) : Except EgressStoreError EgressTables :=
  let (currentProfile, currentGeneration) := db.profileRow.getD (.unconfigured, 0)
  if currentProfile = .corporate && profile ≠ .corporate && !confirmLeaveCorporate then
    .error (.invalid "leaving the corporate profile needs --confirm-leave-corporate")
  else
    let revoked : Consent → Consent := fun consent =>
      if profile = .corporate && consent.revokedAt.isNone then
        { consent with revokedAt := some (c.toRfc3339 now) }
      else consent
    .ok { db with
      profileRow := some (profile, currentGeneration + 1)
      profileLog := db.profileLog ++ [(c.toRfc3339 now, profile)]
      consents := db.consents.map revoked }

def checkGrant (state : EgressState) (purpose : Purpose) (destination : String)
    (classes : OrdSet EgressContentClass) (expiresInDays : ℤ) (authorizationRef : Option String) :
    Except EgressStoreError String :=
  match Destination.parse c.toEgressCrates destination with
  | .error denial => .error (.invalid denial.code)
  | .ok dest =>
    if purpose = .uploaderSpoolStream then
      .error (.invalid "the uploader stream purpose is not available in v0.0.9")
    else if purpose = .policyFetch then
      .error (.invalid "policy fetch needs an allowlist entry, not a consent")
    else if state.profile = .unconfigured then
      .error (.invalid "choose a profile first (fornax egress profile set)")
    else if state.profile = .corporate && purpose ≠ .semanticJudge then
      .error (.invalid ("the corporate profile is local-only: only a semantic-judge " ++
        "authorization can be recorded"))
    else if state.profile = .corporate &&
        !authorizationRef.any (fun r => !(Text.trim r.toList).isEmpty) then
      .error (.invalid "a corporate semantic-judge authorization needs --authorization-ref")
    else if classes.toList.isEmpty then .error (.invalid "at least one data class is required")
    else if (purpose = .evidenceBatchUpload || purpose = .auditCheckpoint) &&
        !classes.toList.all isUploadableClass then
      .error (.invalid ("only metadata classes (evidence_metadata, finding_verdicts, " ++
        "capability_declarations) may be uploaded"))
    else if classes.toList.any isUnrecognized then .error (.invalid "unknown data class")
    else if expiresInDays ≤ 0 then .error (.invalid "consent must expire in the future")
    else .ok dest.canonical

def grantedConsent (state : EgressState) (id : String) (purpose : Purpose) (canonical : String)
    (classes : OrdSet EgressContentClass) (expiresInDays : ℤ) (authorizationRef : Option String)
    (now : Instant) : Consent where
  id := id
  purpose := purpose
  destination := canonical
  dataClasses := OrdSet.ofList (classes.toList.map classStr)
  grantedAt := c.toRfc3339 now
  expiresAt := c.toRfc3339 (now + expiresInDays * nanosPerDay)
  revokedAt := none
  profileGeneration := state.generation
  authorizationRef := authorizationRef

def insertConsent (db : EgressTables) (consent : Consent) : Except EgressStoreError EgressTables :=
  if db.consents.any (fun other => other.id == consent.id) then .error .primaryKey
  else .ok { db with consents := db.consents ++ [consent] }

/-- `id` is the random identifier of the new row. -/
def grantEgressConsent (db : EgressTables) (purpose : Purpose) (destination : String)
    (classes : OrdSet EgressContentClass) (expiresInDays : ℤ) (authorizationRef : Option String)
    (id : String) (now : Instant) : Except EgressStoreError EgressTables :=
  match checkGrant c db.egressState purpose destination classes expiresInDays authorizationRef with
  | .error e => .error e
  | .ok canonical => insertConsent db (grantedConsent c db.egressState id purpose canonical classes
      expiresInDays authorizationRef now)

def revokeEgressConsent (db : EgressTables) (id : String) (now : Instant) : Bool × EgressTables :=
  let live : Consent → Bool := fun consent => consent.id == id && consent.revokedAt.isNone
  let revoked : Consent → Consent := fun consent =>
    if live consent then { consent with revokedAt := some (c.toRfc3339 now) } else consent
  (db.consents.any live, { db with consents := db.consents.map revoked })

def addEgressAllowlist (db : EgressTables) (purpose : Purpose) (destination id : String) :
    Except EgressStoreError EgressTables :=
  if purpose = .uploaderSpoolStream then
    .error (.invalid "the uploader stream purpose is not available in v0.0.9")
  else match Destination.parse c.toEgressCrates destination with
    | .error denial => .error (.invalid denial.code)
    | .ok dest =>
      if db.allowlist.any (fun e => e.id == id) then .error .primaryKey
      else .ok { db with allowlist := db.allowlist ++ [⟨id, purpose, dest.canonical, false⟩] }

def removeEgressAllowlist (db : EgressTables) (id : String) : Bool × EgressTables :=
  let removed : AllowlistEntry → AllowlistEntry := fun e =>
    if e.id == id then { e with removed := true } else e
  (db.allowlist.any fun e => e.id == id && !e.removed,
    { db with allowlist := db.allowlist.map removed })

inductive EgressOp
  | setProfile (profile : Profile) (confirmLeaveCorporate : Bool) (now : Instant)
  | grant (purpose : Purpose) (destination : String) (classes : OrdSet EgressContentClass)
      (expiresInDays : ℤ) (authorizationRef : Option String) (id : String) (now : Instant)
  | revoke (id : String) (now : Instant)
  | allow (purpose : Purpose) (destination id : String)
  | disallow (id : String)

def egressStep (db : EgressTables) : EgressOp → EgressTables
  | .setProfile profile confirm now => (setEgressProfile c db profile confirm now).toOption.getD db
  | .grant purpose destination classes days authorizationRef id now =>
    (grantEgressConsent c db purpose destination classes days authorizationRef id
      now).toOption.getD db
  | .revoke id now => (revokeEgressConsent c db id now).2
  | .allow purpose destination id =>
    (addEgressAllowlist c db purpose destination id).toOption.getD db
  | .disallow id => (removeEgressAllowlist db id).2

end Fornax.Egress
