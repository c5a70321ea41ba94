import Fornax.Policy.Signed

namespace Fornax

open List

def supportedPolicySchemaVersions : List ℕ := [1]

def digestOf (c : Crates) (body : PolicyRevisionBody) : RevisionDigest :=
  "sha256:" ++ c.sha256Hex (c.revisionJson body)

def PublishedPolicyRevision.tryFrom (c : Crates) (wire : PolicyRevisionWire) :
    Except (List PolicyDiagnostic) PublishedPolicyRevision :=
  if wire.body.schemaVersion ∉ supportedPolicySchemaVersions then
    .error [PolicyDiagnostic.new .unsupportedSchemaVersion .error
      ("schema_version " ++ toString wire.body.schemaVersion ++ " is not supported (supported: " ++
        debugList (supportedPolicySchemaVersions.map toString) ++ ")")
      "republish using a supported schema_version, or upgrade this binary"]
  else if digestOf c wire.body ≠ wire.digest then
    .error [PolicyDiagnostic.new .digestMismatch .error
      ("recomputed digest " ++ digestOf c wire.body ++ " does not match wire digest " ++
        wire.digest)
      "the revision body was modified after publishing; republish a fresh revision"]
  else .ok ⟨wire.body, wire.digest⟩

def reportText (diagnostics : List PolicyDiagnostic) : String :=
  "policy validation failed with " ++ toString diagnostics.length ++ " diagnostic(s)"

structure BundlePayload where
  bundleSchemaVersion : ℕ
  bundleId : Uuid
  sequence : ℕ
  issuedAt : String
  notBefore : String
  expiresAt : String
  provenance : BundleProvenance
  revision : PublishedPolicyRevision
  bindings : List PolicyBinding
  deriving DecidableEq

def readBundlePayload (c : Crates) (bytes : Bytes) : Except String BundlePayload :=
  match c.readPayload bytes with
  | .error detail => .error detail
  | .ok w =>
    match PublishedPolicyRevision.tryFrom c w.revision with
    | .error report => .error (c.conversionError bytes (reportText report))
    | .ok revision =>
      .ok ⟨w.bundleSchemaVersion, w.bundleId, w.sequence, w.issuedAt, w.notBefore, w.expiresAt,
        w.provenance, revision, w.bindings⟩

def digestPayloadBytes (c : Crates) (bytes : Bytes) : PayloadDigest :=
  "sha256:" ++ c.sha256Hex bytes

structure VerifiedPolicyBundle where
  payload : BundlePayload
  verifiedBy : KeyId
  payloadDigest : PayloadDigest
  bindings_match : ∀ b ∈ payload.bindings, b.revisionRef.digest = payload.revision.digest
  deriving DecidableEq

namespace VerifiedPolicyBundle

def revision (v : VerifiedPolicyBundle) : PublishedPolicyRevision := v.payload.revision

def issuer (v : VerifiedPolicyBundle) : String := v.payload.provenance.issuer

def policyId (v : VerifiedPolicyBundle) : Uuid := v.payload.revision.body.policyId

def bundleId (v : VerifiedPolicyBundle) : Uuid := v.payload.bundleId

def sequence (v : VerifiedPolicyBundle) : ℕ := v.payload.sequence

/-- `into_bound_revisions`: the first binding that cannot be joined is the error. -/
def intoBoundRevisions (v : VerifiedPolicyBundle) :
    Except (List PolicyDiagnostic) (List BoundRevision) :=
  v.payload.bindings.mapM fun b => BoundRevision.new b v.payload.revision

end VerifiedPolicyBundle

inductive BundleRejection
  | malformedEnvelope (detail : String)
  | unsupportedBundleSchemaVersion (found : ℕ) (supported : List ℕ)
  | schemaVersionMismatch (envelope payload : ℕ)
  | malformedPayloadEncoding (detail : String)
  | payloadTooLarge (found max : ℕ)
  | noSignatures
  | tooManySignatures (found max : ℕ)
  | unknownKeyId (offered : List KeyId)
  | unsupportedAlgorithm (keyId : KeyId) (algorithm : SignatureAlgorithm)
  | malformedSignature (keyId : KeyId)
  | keyNotYetValid (keyId : KeyId) (notBefore : String) (now : Instant)
  | keyRetired (keyId : KeyId) (notAfter : String) (now : Instant)
  | signatureInvalid (keyIds : List KeyId)
  | malformedPayload (detail : String)
  | malformedTimestamp (field value : String)
  | bundleNotYetValid (notBefore : String) (now : Instant) (toleranceSeconds : ℤ)
  | bundleExpired (expiresAt : String) (now : Instant)
  | bindingRevisionMismatch (bindingId : Uuid) (expected actual : String)
  deriving DecidableEq, Repr

namespace BundleRejection

def ofEnvelope : EnvelopeVerificationError → BundleRejection
  | .malformedPayloadEncoding detail => .malformedPayloadEncoding detail
  | .payloadTooLarge found max => .payloadTooLarge found max
  | .noSignatures => .noSignatures
  | .tooManySignatures found max => .tooManySignatures found max
  | .unknownKeyId offered => .unknownKeyId offered
  | .unsupportedAlgorithm keyId algorithm => .unsupportedAlgorithm keyId algorithm
  | .malformedSignature keyId => .malformedSignature keyId
  | .keyNotYetValid keyId notBefore now => .keyNotYetValid keyId notBefore now
  | .keyRetired keyId notAfter now => .keyRetired keyId notAfter now
  | .signatureInvalid keyIds => .signatureInvalid keyIds
  | .malformedKeyTimestamp field value => .malformedTimestamp field value

def debugKey (c : Crates) (id : KeyId) : String := "KeyId(" ++ c.debugStr id ++ ")"

def debugKeys (c : Crates) (ids : List KeyId) : String := debugList (ids.map (debugKey c))

def debugAlgorithm (c : Crates) : SignatureAlgorithm → String
  | .ed25519 => "Ed25519"
  | .unrecognized tag => "Unrecognized(" ++ c.debugStr tag ++ ")"

/-- The `#[error]` texts. -/
def display (c : Crates) : BundleRejection → String
  | malformedEnvelope detail => "envelope is malformed: " ++ detail
  | unsupportedBundleSchemaVersion found supported =>
    "bundle_schema_version " ++ toString found ++ " is not supported (supported: " ++
      debugList (supported.map toString) ++ ")"
  | schemaVersionMismatch envelope payload =>
    "envelope bundle_schema_version " ++ toString envelope ++ " does not match payload's " ++
      toString payload
  | malformedPayloadEncoding detail =>
    "payload_b64 is not valid strict-canonical base64: " ++ detail
  | payloadTooLarge found max =>
    "payload is " ++ toString found ++ " bytes, exceeding the " ++ toString max ++ "-byte limit"
  | noSignatures => "bundle carries no signatures"
  | tooManySignatures found max =>
    "bundle carries " ++ toString found ++ " signatures, exceeding the " ++ toString max ++ " limit"
  | unknownKeyId offered =>
    "no signature names a key_id present in the trust store: offered " ++ debugKeys c offered
  | unsupportedAlgorithm keyId algorithm =>
    "key " ++ debugKey c keyId ++ " uses unsupported algorithm " ++ debugAlgorithm c algorithm
  | malformedSignature keyId => "signature for key " ++ debugKey c keyId ++ " is malformed"
  | keyNotYetValid keyId notBefore now =>
    "key " ++ debugKey c keyId ++ " is not yet valid: not_before=" ++ notBefore ++ ", now=" ++
      c.displayInstant now
  | keyRetired keyId notAfter now =>
    "key " ++ debugKey c keyId ++ " has been retired: not_after=" ++ notAfter ++ ", now=" ++
      c.displayInstant now
  | signatureInvalid keyIds =>
    "signature is invalid for trusted, current key(s): " ++ debugKeys c keyIds
  | malformedPayload detail => "payload is malformed: " ++ detail
  | malformedTimestamp field value =>
    "field " ++ field ++ " has a malformed timestamp: " ++ c.debugStr value
  | bundleNotYetValid notBefore now toleranceSeconds =>
    "bundle not yet valid: not_before=" ++ notBefore ++ ", now=" ++ c.displayInstant now ++
      ", tolerance_seconds=" ++ toString toleranceSeconds
  | bundleExpired expiresAt now =>
    "bundle expired: expires_at=" ++ expiresAt ++ ", now=" ++ c.displayInstant now
  | bindingRevisionMismatch bindingId expected actual =>
    "binding " ++ bindingId.text ++ " references digest " ++ expected ++
      ", but the bundle's revision digest is " ++ actual

end BundleRejection

def supportedBundleSchemaVersions : List ℕ := [1]

def bundleSigningDomain : Bytes := asciiBytes "fornax-policy-bundle/v1\n"

def clockSkewToleranceSeconds : ℤ := 300

def nanosPerSecond : ℤ := 1000000000

def parseTimestamp (c : Crates) (field value : String) : Except BundleRejection Instant :=
  match c.parseRfc3339 value with
  | .ok t => .ok t
  | .error _ => .error (.malformedTimestamp field value)

def payloadWindow (c : Crates) (p : BundlePayload) :
    Except BundleRejection (Instant × Instant) := do
  let notBefore ← parseTimestamp c "not_before" p.notBefore
  let expiresAt ← parseTimestamp c "expires_at" p.expiresAt
  let _ ← parseTimestamp c "issued_at" p.issuedAt
  return (notBefore, expiresAt)

def checkWindow (p : BundlePayload) (window : Instant × Instant) (now : Instant) :
    Except BundleRejection Unit :=
  if now < window.1 - clockSkewToleranceSeconds * nanosPerSecond then
    .error (.bundleNotYetValid p.notBefore now clockSkewToleranceSeconds)
  else if now > window.2 then .error (.bundleExpired p.expiresAt now)
  else .ok ()

def constructBundle (c : Crates) (p : BundlePayload) (env : VerifiedEnvelope) :
    Except BundleRejection VerifiedPolicyBundle :=
  match h : p.bindings.find? fun b => b.revisionRef.digest ≠ p.revision.digest with
  | some b =>
    .error (.bindingRevisionMismatch b.bindingId b.revisionRef.digest p.revision.digest)
  | none =>
    .ok ⟨p, env.verifiedBy, digestPayloadBytes c env.payloadBytes, by simpa using h⟩

def verifyBundle (c : Crates) (envelopeBytes : Bytes) (trusted : TrustedVerificationKeys)
    (now : Instant) : Except BundleRejection VerifiedPolicyBundle := do
  let envelope ← (c.readBundle envelopeBytes).mapError .malformedEnvelope
  if envelope.bundleSchemaVersion ∉ supportedBundleSchemaVersions then
    throw (.unsupportedBundleSchemaVersion envelope.bundleSchemaVersion
      supportedBundleSchemaVersions)
  let verified ← (verifySignedEnvelope c envelope.payloadB64 envelope.signatures
    bundleSigningDomain maxPayloadBytes trusted now).mapError .ofEnvelope
  let payload ← (readBundlePayload c verified.payloadBytes).mapError .malformedPayload
  if payload.bundleSchemaVersion ≠ envelope.bundleSchemaVersion then
    throw (.schemaVersionMismatch envelope.bundleSchemaVersion payload.bundleSchemaVersion)
  let window ← payloadWindow c payload
  checkWindow payload window now
  constructBundle c payload verified

section Accepted

variable {c : Crates} {trusted : TrustedVerificationKeys} {now : Instant}

/-- The bounds that a key states can be read, and `now` lies between them. -/
structure KeyCurrent (c : Crates) (key : TrustedKey) (now : Instant) : Prop where
  notBefore : ∀ text, key.notBefore = some text → ∃ t, c.parseRfc3339 text = .ok t ∧ t ≤ now
  notAfter : ∀ text, key.notAfter = some text → ∃ t, c.parseRfc3339 text = .ok t ∧ now ≤ t

theorem parseBound_ok_iff {bound : Option String} {P : Instant → Prop} :
    (∃ b, parseBound c bound = .ok b ∧ ∀ t, b = some t → P t) ↔
      ∀ text, bound = some text → ∃ t, c.parseRfc3339 text = .ok t ∧ P t := by
  cases bound with
  | none => simp [parseBound]
  | some text => cases ht : c.parseRfc3339 text <;> simp [parseBound, ht]

theorem keyTemporalStatus_valid_iff {key : TrustedKey} :
    keyTemporalStatus c key.notBefore key.notAfter now = .valid ↔ KeyCurrent c key now := by
  have hcurrent : KeyCurrent c key now ↔
      (∃ b, parseBound c key.notBefore = .ok b ∧ ∀ t, b = some t → t ≤ now) ∧
        ∃ b, parseBound c key.notAfter = .ok b ∧ ∀ t, b = some t → now ≤ t := by
    rw [parseBound_ok_iff, parseBound_ok_iff]
    exact ⟨fun h => ⟨h.notBefore, h.notAfter⟩, fun h => ⟨h.1, h.2⟩⟩
  rw [hcurrent, keyTemporalStatus]
  cases parseBound c key.notBefore with
  | error e => simp
  | ok nb =>
    cases parseBound c key.notAfter with
    | error e => simp
    | ok na =>
      simp only [Except.ok.injEq, exists_eq_left', keyTemporalStatusFromParsed]
      cases nb <;> cases na <;> grind

/-- A signature of the message by a key that the trust store holds and whose
window contains `now`. -/
structure SignedBy (c : Crates) (trusted : TrustedVerificationKeys) (now : Instant)
    (message : Bytes) (sig : BundleSignature) : Prop where
  signed : ∃ key keyBytes sigBytes, trusted.get sig.keyId = some key ∧ KeyCurrent c key now ∧
    decodeVerifyingKey c key = some keyBytes ∧ c.decodeBase64 sig.signatureB64 = .ok sigBytes ∧
    c.verifyStrict keyBytes message sigBytes = true

def Checked (c : Crates) (trusted : TrustedVerificationKeys) (now : Instant) (message : Bytes)
    (sig : BundleSignature) (outcome : Bool) : Prop :=
  ∃ key, trusted.get sig.keyId = some key ∧ KeyCurrent c key now ∧
    (sig.algorithm = .ed25519 ∧ key.algorithm = .ed25519) ∧
    ∃ keyBytes, decodeVerifyingKey c key = some keyBytes ∧
    ∃ sigBytes, (c.decodeBase64 sig.signatureB64 = .ok sigBytes ∧ sigBytes.length = 64) ∧
      c.verifyStrict keyBytes message sigBytes = outcome

def SignatureCheck.ofOutcome : Bool → SignatureCheck
  | true => .verified
  | false => .failed

def SignatureCheck.skipReason : SignatureCheck → Option EnvelopeVerificationError
  | .unusable reason => some reason
  | _ => none

section

variable {sig : BundleSignature} {message : Bytes} {outcome : Bool}

theorem checkSignatureBytes_eq_ofOutcome {key : TrustedKey} :
    checkSignatureBytes c key sig message = .ofOutcome outcome ↔
      ∃ keyBytes, decodeVerifyingKey c key = some keyBytes ∧ ∃ sigBytes,
        (c.decodeBase64 sig.signatureB64 = .ok sigBytes ∧ sigBytes.length = 64) ∧
          c.verifyStrict keyBytes message sigBytes = outcome := by
  unfold checkSignatureBytes
  cases hkey : decodeVerifyingKey c key with
  | none => cases outcome <;> simp [SignatureCheck.ofOutcome]
  | some keyBytes =>
    cases hsig : c.decodeBase64 sig.signatureB64 with
    | error e => cases outcome <;> simp [SignatureCheck.ofOutcome]
    | ok sigBytes =>
      by_cases hlength : sigBytes.length = 64
      · cases hv : c.verifyStrict keyBytes message sigBytes <;> cases outcome <;>
          simp [SignatureCheck.ofOutcome, hlength, hv]
      · cases outcome <;> simp [SignatureCheck.ofOutcome, hlength]

theorem checkSignature_eq_ofOutcome :
    checkSignature c trusted message now sig = .ofOutcome outcome ↔
      Checked c trusted now message sig outcome := by
  unfold checkSignature Checked
  cases trusted.get sig.keyId with
  | none => cases outcome <;> simp [SignatureCheck.ofOutcome]
  | some key =>
    simp only [Option.some.injEq, exists_eq_left', ← keyTemporalStatus_valid_iff,
      ← checkSignatureBytes_eq_ofOutcome]
    cases keyTemporalStatus c key.notBefore key.notAfter now with
    | valid =>
      simp only [true_and]
      split
      · next halg => simp [halg]
      · next halg => cases outcome <;> simp [SignatureCheck.ofOutcome, halg]
    | _ => cases outcome <;> simp [SignatureCheck.ofOutcome]

end

/-- What is left when no signature verified: a failed check before the first skip reason,
and that before the offered ids. -/
def refusalOf (check : BundleSignature → SignatureCheck) (sigs : List BundleSignature) :
    EnvelopeVerificationError :=
  let failed := sigs.filter fun sig => check sig = .failed
  if failed ≠ [] then .signatureInvalid (failed.map BundleSignature.keyId)
  else (sigs.findSome? fun sig => (check sig).skipReason).getD
    (.unknownKeyId (sigs.map BundleSignature.keyId))

theorem scanSignatures_append {check : BundleSignature → SignatureCheck}
    (init rest : List BundleSignature) (hinit : ∀ sig ∈ init, check sig ≠ .verified)
    (scan : SignatureScan) :
    scanSignatures check (init ++ rest) scan = scanSignatures check rest
      { scan with
        offered := scan.offered ++ init.map BundleSignature.keyId
        trustedCurrentButFailed := scan.trustedCurrentButFailed ++
          (init.filter fun sig => check sig = .failed).map BundleSignature.keyId
        firstSkipReason :=
          scan.firstSkipReason.or (init.findSome? fun sig => (check sig).skipReason) } := by
  induction init generalizing scan with
  | nil => simp
  | cons sig init ih =>
    have hrest : ∀ s ∈ init, check s ≠ .verified := fun s hs => hinit s (mem_cons_of_mem _ hs)
    have hsig := hinit sig mem_cons_self
    rw [cons_append, scanSignatures]
    cases hcheck : check sig with
    | verified => exact absurd hcheck hsig
    | notTrusted | failed | unusable reason =>
      simp [ih hrest, hcheck, SignatureCheck.skipReason]

theorem verdict_scanSignatures (check : BundleSignature → SignatureCheck)
    (sigs : List BundleSignature) :
    (scanSignatures check sigs .start).verdict =
      match sigs.find? fun sig => check sig = .verified with
      | some sig => .ok sig.keyId
      | none => .error (refusalOf check sigs) := by
  cases hfind : sigs.find? fun sig => check sig = .verified with
  | none =>
    have hall : ∀ sig ∈ sigs, check sig ≠ .verified := by simpa using hfind
    have hscan := scanSignatures_append sigs [] hall .start
    rw [append_nil] at hscan
    rw [hscan]
    simp only [scanSignatures, SignatureScan.start, SignatureScan.verdict, nil_append,
      Option.none_or, refusalOf, ne_eq, map_eq_nil_iff]
    split
    · rfl
    · cases sigs.findSome? fun sig => (check sig).skipReason <;> rfl
  | some sig =>
    obtain ⟨hsig, init, rest, rfl, hinit⟩ := find?_eq_some_iff_append.mp hfind
    have hall : ∀ s ∈ init, check s ≠ .verified := by simpa using hinit
    have hverified : check sig = .verified := by simpa using hsig
    rw [scanSignatures_append init _ hall, scanSignatures, hverified]
    rfl

theorem verifySignedEnvelope_ok {payloadB64 : String} {signatures : List BundleSignature}
    {domain : Bytes} {maxBytes : ℕ} {env : VerifiedEnvelope}
    (h : verifySignedEnvelope c payloadB64 signatures domain maxBytes trusted now = .ok env) :
    c.decodeBase64 payloadB64 = .ok env.payloadBytes ∧
      ∃ sig ∈ signatures, SignedBy c trusted now (domain ++ env.payloadBytes) sig := by
  unfold verifySignedEnvelope at h
  by_cases hnone : signatures = []
  · rw [if_pos hnone] at h
    cases h
  rw [if_neg hnone] at h
  by_cases hmany : signatures.length > maxSignatures
  · rw [if_pos hmany] at h
    cases h
  rw [if_neg hmany] at h
  obtain ⟨payloadBytes, hdecode, h⟩ := Fallible.bind_eq_ok.mp h
  by_cases hlarge : payloadBytes.length > maxBytes
  · rw [if_pos hlarge] at h
    cases h
  rw [if_neg hlarge] at h
  obtain ⟨id, hverdict, h⟩ := Fallible.bind_eq_ok.mp h
  have henv : env = ⟨payloadBytes, id⟩ := (Except.ok.inj h).symm
  subst henv
  refine ⟨Fallible.mapError_eq_ok.mp hdecode, ?_⟩
  rw [verdict_scanSignatures] at hverdict
  split at hverdict
  · next sig hfind =>
    have hverified : checkSignature c trusted (domain ++ payloadBytes) now sig = .verified := by
      simpa using find?_some hfind
    obtain ⟨key, hkey, hcurrent, -, keyBytes, hdecodeKey, sigBytes, hsig, hverify⟩ :=
      checkSignature_eq_ofOutcome.mp (show _ = SignatureCheck.ofOutcome true from hverified)
    exact ⟨sig, mem_of_find?_eq_some hfind, ⟨key, keyBytes, sigBytes, hkey, hcurrent,
      hdecodeKey, hsig.1, hverify⟩⟩
  · cases hverdict

def carriedPayload (c : Crates) (envelopeBytes : Bytes) : Option BundlePayload :=
  match c.readBundle envelopeBytes with
  | .error _ => none
  | .ok envelope =>
    match c.decodeBase64 envelope.payloadB64 with
    | .error _ => none
    | .ok bytes => (readBundlePayload c bytes).toOption

def carriedDigest (c : Crates) (envelopeBytes : Bytes) : Option PayloadDigest :=
  match c.readBundle envelopeBytes with
  | .error _ => none
  | .ok envelope => (c.decodeBase64 envelope.payloadB64).toOption.map (digestPayloadBytes c)

/-- Some signature of the envelope verifies under a trusted key that is current. -/
structure CurrentlySigned (c : Crates) (trusted : TrustedVerificationKeys) (now : Instant)
    (envelopeBytes : Bytes) : Prop where
  signed : ∃ envelope payloadBytes, c.readBundle envelopeBytes = .ok envelope ∧
    c.decodeBase64 envelope.payloadB64 = .ok payloadBytes ∧
    ∃ sig ∈ envelope.signatures, SignedBy c trusted now (bundleSigningDomain ++ payloadBytes) sig

/-- Reached only behind the signature check: acceptance, and the refusal of an expired bundle. -/
def Authenticated : Except BundleRejection VerifiedPolicyBundle → Prop
  | .ok _ => True
  | .error (.bundleExpired _ _) => True
  | .error _ => False

theorem not_authenticated_ofEnvelope (e : EnvelopeVerificationError) :
    ¬ Authenticated (.error (.ofEnvelope e)) := by
  cases e <;> exact id

theorem constructBundle_ok {p : BundlePayload} {env : VerifiedEnvelope}
    {v : VerifiedPolicyBundle} (h : constructBundle c p env = .ok v) :
    v.payload = p ∧ v.payloadDigest = digestPayloadBytes c env.payloadBytes := by
  unfold constructBundle at h
  split at h
  · cases h
  · rw [← Except.ok.inj h]
    exact ⟨rfl, rfl⟩

variable {envelopeBytes : Bytes}

theorem verifyBundle_authenticated (h : Authenticated (verifyBundle c envelopeBytes trusted now)) :
    ∃ payload, carriedPayload c envelopeBytes = some payload ∧
      CurrentlySigned c trusted now envelopeBytes ∧
      ∀ v, verifyBundle c envelopeBytes trusted now = .ok v →
        v.payload = payload ∧ carriedDigest c envelopeBytes = some v.payloadDigest := by
  unfold verifyBundle at h ⊢
  cases hread : c.readBundle envelopeBytes with
  | error e => simp [hread, Except.mapError, bind, Except.bind, Authenticated] at h
  | ok envelope =>
    simp only [hread, Except.mapError, bind, Except.bind] at h ⊢
    by_cases hversion : envelope.bundleSchemaVersion ∉ supportedBundleSchemaVersions
    · rw [if_pos hversion] at h
      exact absurd h id
    rw [if_neg hversion] at h ⊢
    cases henv : verifySignedEnvelope c envelope.payloadB64 envelope.signatures
        bundleSigningDomain maxPayloadBytes trusted now with
    | error e =>
      simp only [henv] at h
      exact absurd h (not_authenticated_ofEnvelope e)
    | ok env =>
      simp only [henv] at h ⊢
      obtain ⟨hdecode, hsigned⟩ := verifySignedEnvelope_ok henv
      cases hpayload : readBundlePayload c env.payloadBytes with
      | error e =>
        simp only [hpayload] at h
        exact absurd h id
      | ok payload =>
        refine ⟨payload, ?_, ⟨envelope, env.payloadBytes, hread, hdecode, hsigned⟩, ?_⟩
        · simp only [carriedPayload, hread, hdecode, hpayload, Except.toOption]
        · intro v hv
          simp only at hv
          by_cases hmatch : payload.bundleSchemaVersion ≠ envelope.bundleSchemaVersion
          · rw [if_pos hmatch] at hv
            cases hv
          · rw [if_neg hmatch] at hv
            obtain ⟨window, -, hv⟩ := Fallible.bind_eq_ok.mp hv
            obtain ⟨-, -, hv⟩ := Fallible.bind_eq_ok.mp hv
            obtain ⟨hv, hdigest⟩ := constructBundle_ok hv
            refine ⟨hv, ?_⟩
            simp only [carriedDigest, hread, hdecode, hdigest, Except.toOption, Option.map_some]

theorem verifyBundle_carried {v : VerifiedPolicyBundle}
    (h : verifyBundle c envelopeBytes trusted now = .ok v) :
    carriedPayload c envelopeBytes = some v.payload ∧
      carriedDigest c envelopeBytes = some v.payloadDigest := by
  have hauth : Authenticated (verifyBundle c envelopeBytes trusted now) := by
    rw [h]
    trivial
  obtain ⟨payload, hcarried, -, hpayload⟩ := verifyBundle_authenticated hauth
  obtain ⟨hv, hdigest⟩ := hpayload v h
  rw [hv]
  exact ⟨hcarried, hdigest⟩

theorem readBundlePayload_tryFrom {bytes : Bytes} {payload : BundlePayload}
    (h : readBundlePayload c bytes = .ok payload) :
    ∃ wire, PublishedPolicyRevision.tryFrom c wire = .ok payload.revision := by
  unfold readBundlePayload at h
  split at h
  · cases h
  · split at h
    · cases h
    · next hfrom =>
      cases h
      exact ⟨_, hfrom⟩

theorem carriedPayload_tryFrom {payload : BundlePayload}
    (h : carriedPayload c envelopeBytes = some payload) :
    ∃ wire, PublishedPolicyRevision.tryFrom c wire = .ok payload.revision := by
  unfold carriedPayload at h
  split at h
  · cases h
  · split at h
    · cases h
    · next bytes _ =>
      cases hpayload : readBundlePayload c bytes with
      | error e =>
        rw [hpayload] at h
        cases h
      | ok payload' =>
        rw [hpayload] at h
        cases h
        exact readBundlePayload_tryFrom hpayload

end Accepted

inductive RevocationRejection
  | malformedEnvelope (detail : String)
  | unsupportedRevocationSchemaVersion (found : ℕ) (supported : List ℕ)
  | schemaVersionMismatch (envelope payload : ℕ)
  | malformedPayloadEncoding (detail : String)
  | payloadTooLarge (found max : ℕ)
  | noSignatures
  | tooManySignatures (found max : ℕ)
  | unknownKeyId (offered : List KeyId)
  | unsupportedAlgorithm (keyId : KeyId) (algorithm : SignatureAlgorithm)
  | malformedSignature (keyId : KeyId)
  | keyNotYetValid (keyId : KeyId) (notBefore : String) (now : Instant)
  | keyRetired (keyId : KeyId) (notAfter : String) (now : Instant)
  | signatureInvalid (keyIds : List KeyId)
  | malformedTimestamp (field value : String)
  | entryTimestampMalformed (index : ℕ) (value : String)
  | malformedPayload (detail : String)
  | tooManyEntries (found max : ℕ)
  | emptyReason (index : ℕ)
  | emptyIssuer
  deriving DecidableEq, Repr

def RevocationRejection.ofEnvelope : EnvelopeVerificationError → RevocationRejection
  | .malformedPayloadEncoding detail => .malformedPayloadEncoding detail
  | .payloadTooLarge found max => .payloadTooLarge found max
  | .noSignatures => .noSignatures
  | .tooManySignatures found max => .tooManySignatures found max
  | .unknownKeyId offered => .unknownKeyId offered
  | .unsupportedAlgorithm keyId algorithm => .unsupportedAlgorithm keyId algorithm
  | .malformedSignature keyId => .malformedSignature keyId
  | .keyNotYetValid keyId notBefore now => .keyNotYetValid keyId notBefore now
  | .keyRetired keyId notAfter now => .keyRetired keyId notAfter now
  | .signatureInvalid keyIds => .signatureInvalid keyIds
  | .malformedKeyTimestamp field value => .malformedTimestamp field value

def supportedRevocationSchemaVersions : List ℕ := [1]

def revocationSigningDomain : Bytes := asciiBytes "fornax-policy-revocation/v1\n"

def maxRevocationEntries : ℕ := 4096

structure VerifiedRevocationList where
  payload : RevocationPayload
  verifiedBy : KeyId
  payloadDigest : PayloadDigest
  deriving DecidableEq, Repr

namespace VerifiedRevocationList

def issuer (v : VerifiedRevocationList) : String := v.payload.issuer

def sequence (v : VerifiedRevocationList) : ℕ := v.payload.sequence

def entries (v : VerifiedRevocationList) : List RevocationEntry := v.payload.entries

end VerifiedRevocationList

def firstBadEntry (bad : RevocationEntry → Bool) (entries : List RevocationEntry) :
    Option (RevocationEntry × ℕ) :=
  entries.zipIdx.find? fun e => bad e.1

def checkRevocationPayload (c : Crates) (p : RevocationPayload) :
    Except RevocationRejection Unit :=
  if !(c.parseRfc3339 p.issuedAt).isOk then .error (.malformedTimestamp "issued_at" p.issuedAt)
  else match firstBadEntry (fun e => !(c.parseRfc3339 e.revokedAt).isOk) p.entries with
    | some (e, index) => .error (.entryTimestampMalformed index e.revokedAt)
    | none =>
      if p.entries.length > maxRevocationEntries then
        .error (.tooManyEntries p.entries.length maxRevocationEntries)
      else match firstBadEntry (fun e => isBlank e.reason) p.entries with
        | some (_, index) => .error (.emptyReason index)
        | none => if isBlank p.issuer then .error .emptyIssuer else .ok ()

def verifyRevocationList (c : Crates) (envelopeBytes : Bytes)
    (trusted : TrustedVerificationKeys) (now : Instant) :
    Except RevocationRejection VerifiedRevocationList := do
  let envelope ← (c.readRevocationList envelopeBytes).mapError .malformedEnvelope
  if envelope.revocationSchemaVersion ∉ supportedRevocationSchemaVersions then
    throw (.unsupportedRevocationSchemaVersion envelope.revocationSchemaVersion
      supportedRevocationSchemaVersions)
  let verified ← (verifySignedEnvelope c envelope.payloadB64 envelope.signatures
    revocationSigningDomain maxPayloadBytes trusted now).mapError .ofEnvelope
  let payload ← (c.readRevocationPayload verified.payloadBytes).mapError .malformedPayload
  if payload.revocationSchemaVersion ≠ envelope.revocationSchemaVersion then
    throw (.schemaVersionMismatch envelope.revocationSchemaVersion
      payload.revocationSchemaVersion)
  checkRevocationPayload c payload
  return ⟨payload, verified.verifiedBy, digestPayloadBytes c verified.payloadBytes⟩

end Fornax
