import Fornax.Policy.Bundle
import Fornax.Receipt.Schema

namespace Fornax.Receipt

open Fallible

def supportedReceiptSchemaVersions : List ℕ := [1]

def receiptSigningDomain : Bytes := asciiBytes "fornax-integrity-receipt/v1\n"

structure AuthenticatedReceiptEnvelope where
  payloadBytes : Bytes
  verifiedBy : KeyId
  deriving DecidableEq

inductive ReceiptEnvelopeRejection
  | malformedEnvelope (detail : String)
  | unsupportedReceiptSchemaVersion (found : ℕ) (supported : List ℕ)
  | malformedPayloadEncoding (detail : String)
  | payloadTooLarge (found max : ℕ)
  | noSignatures
  | tooManySignatures (found max : ℕ)
  | unknownKeyId (offered : List KeyId)
  | unsupportedAlgorithm (keyId : KeyId) (algorithm : SignatureAlgorithm)
  | malformedSignature (keyId : KeyId)
  | keyNotYetValid (keyId : KeyId) (notBefore : String) (now : Instant)
  | keyRetired (keyId : KeyId) (notAfter : String) (now : Instant)
  | signatureInvalid (keyIds : List KeyId)
  | malformedKeyTimestamp (field value : String)
  deriving DecidableEq, Repr

namespace ReceiptEnvelopeRejection

open BundleRejection (debugKey debugKeys debugAlgorithm)

def ofEnvelope : EnvelopeVerificationError → ReceiptEnvelopeRejection
  | .malformedPayloadEncoding detail => .malformedPayloadEncoding detail
  | .payloadTooLarge found max => .payloadTooLarge found max
  | .noSignatures => .noSignatures
  | .tooManySignatures found max => .tooManySignatures found max
  | .unknownKeyId offered => .unknownKeyId offered
  | .unsupportedAlgorithm keyId algorithm => .unsupportedAlgorithm keyId algorithm
  | .malformedSignature keyId => .malformedSignature keyId
  | .keyNotYetValid keyId notBefore now => .keyNotYetValid keyId notBefore now
  | .keyRetired keyId notAfter now => .keyRetired keyId notAfter now
  | .signatureInvalid keyIds => .signatureInvalid keyIds
  | .malformedKeyTimestamp field value => .malformedKeyTimestamp field value

def display (c : Crates) : ReceiptEnvelopeRejection → String
  | malformedEnvelope detail => "envelope is malformed: " ++ detail
  | unsupportedReceiptSchemaVersion found supported =>
    "receipt_schema_version " ++ toString found ++ " is not supported (supported: " ++
      debugList (supported.map toString) ++ ")"
  | malformedPayloadEncoding detail =>
    "payload_b64 is not valid strict-canonical base64: " ++ detail
  | payloadTooLarge found max =>
    "payload is " ++ toString found ++ " bytes, exceeding the " ++ toString max ++ "-byte limit"
  | noSignatures => "receipt carries no signatures"
  | tooManySignatures found max =>
    "receipt carries " ++ toString found ++ " signatures, exceeding the " ++ toString max ++
      " limit"
  | unknownKeyId offered =>
    "no signature names a key_id present in the trust store: offered " ++ debugKeys c offered
  | unsupportedAlgorithm keyId algorithm =>
    "key " ++ debugKey c keyId ++ " uses unsupported algorithm " ++ debugAlgorithm c algorithm
  | malformedSignature keyId => "signature for key " ++ debugKey c keyId ++ " is malformed"
  | keyNotYetValid keyId notBefore now =>
    "key " ++ debugKey c keyId ++ " is not yet valid: not_before=" ++ notBefore ++ ", now=" ++
      c.displayInstant now
  | keyRetired keyId notAfter now =>
    "key " ++ debugKey c keyId ++ " has been retired: not_after=" ++ notAfter ++ ", now=" ++
      c.displayInstant now
  | signatureInvalid keyIds =>
    "signature is invalid for trusted, current key(s): " ++ debugKeys c keyIds
  | malformedKeyTimestamp field value =>
    "field " ++ field ++ " has a malformed timestamp: " ++ c.debugStr value

end ReceiptEnvelopeRejection

variable (c : ReceiptCrates)

def verifyReceiptEnvelope (envelopeBytes : Bytes) (trusted : TrustedVerificationKeys)
    (now : Instant) : Except ReceiptEnvelopeRejection AuthenticatedReceiptEnvelope := do
  let envelope ← (c.readSignedReceipt envelopeBytes).mapError .malformedEnvelope
  if envelope.receiptSchemaVersion ∉ supportedReceiptSchemaVersions then
    throw (.unsupportedReceiptSchemaVersion envelope.receiptSchemaVersion
      supportedReceiptSchemaVersions)
  let verified ← (verifySignedEnvelope c.toCrates envelope.payloadB64 envelope.signatures
    receiptSigningDomain maxPayloadBytes trusted now).mapError .ofEnvelope
  return ⟨verified.payloadBytes, verified.verifiedBy⟩

def defaultReceiptTtlSeconds : ℤ := 24 * 60 * 60

def receiptClockSkewToleranceSeconds : ℤ := 300

inductive Freshness
  | fresh (notAfter : String)
  | expired (notAfter now : String)
  | noExpiryDeclared
  | issuedInFuture (issuedAt now : String)
  | malformedTimestamp (field value : String)
  deriving DecidableEq, Repr

def assessExpiryOf (notAfter : Option String) (now : Instant) : Freshness :=
  match notAfter with
  | none => .noExpiryDeclared
  | some text =>
    match c.parseDateTime text with
    | none => .malformedTimestamp "not_after" text
    | some expiry =>
      if now > expiry + receiptClockSkewToleranceSeconds * nanosPerSecond then
        .expired text (c.toRfc3339 now)
      else .fresh text

def assessFreshnessOf (issuedAt : String) (notAfter : Option String) (now : Instant) :
    Freshness :=
  match c.parseDateTime issuedAt with
  | none => .malformedTimestamp "issued_at" issuedAt
  | some issued =>
    if issued > now + receiptClockSkewToleranceSeconds * nanosPerSecond then
      .issuedInFuture issuedAt (c.toRfc3339 now)
    else assessExpiryOf c notAfter now

def assessFreshness (body : ReceiptBody) (now : Instant) : Freshness :=
  assessFreshnessOf c body.issuedAt body.notAfter now

def readIntegrityReceipt (bytes : Bytes) : Except String (IntegrityReceipt c) := do
  let wire ← c.readReceipt bytes
  (IntegrityReceipt.tryFrom c wire).mapError (c.conversionError bytes)

def integrityReceiptOfValue (value : Json) : Except String (IntegrityReceipt c) := do
  let wire ← c.receiptOfValue value
  IntegrityReceipt.tryFrom c wire

inductive SignatureStatus
  | unsigned
  | unverifiable (reason : String)
  | verified (keyId : KeyId)
  | rejected (rejection : String)
  deriving DecidableEq, Repr

inductive ReceiptRejection
  | malformedJson (detail : String)
  | malformedPayload (detail : String)
  | digestMismatch (text : String)
  deriving DecidableEq, Repr

structure VerifiedReceipt where
  receipt : IntegrityReceipt c
  signature : SignatureStatus
  freshness : Freshness

def decodeUnverified (envelope : SignedIntegrityReceipt) :
    Except ReceiptRejection (IntegrityReceipt c) := do
  let payloadBytes ← (c.decodeStandardBase64 envelope.payloadB64).mapError .malformedPayload
  (readIntegrityReceipt c payloadBytes).mapError .malformedPayload

def readUnverifiable (top : Json) :
    Except ReceiptRejection (IntegrityReceipt c × SignatureStatus) := do
  let envelope ← (c.signedReceiptOfValue top).mapError .malformedJson
  let receipt ← decodeUnverified c envelope
  return (receipt, .unverifiable "no trust store resolvable")

def readJudged (bytes : Bytes) (trusted : TrustedVerificationKeys) (now : Instant) :
    Except ReceiptRejection (IntegrityReceipt c × SignatureStatus) :=
  match verifyReceiptEnvelope c bytes trusted now with
  | .ok authenticated => do
    let receipt ← (readIntegrityReceipt c authenticated.payloadBytes).mapError .malformedPayload
    return (receipt, .verified authenticated.verifiedBy)
  | .error rejection => do
    let envelope ← (c.readSignedReceipt bytes).mapError .malformedJson
    let receipt ← decodeUnverified c envelope
    return (receipt, .rejected (rejection.display c.toCrates))

def readBare (top : Json) : Except ReceiptRejection (IntegrityReceipt c × SignatureStatus) := do
  let receipt ← (integrityReceiptOfValue c top).mapError .malformedPayload
  return (receipt, .unsigned)

def readArtifact (bytes : Bytes) (top : Json) (trusted : Option TrustedVerificationKeys)
    (now : Instant) : Except ReceiptRejection (IntegrityReceipt c × SignatureStatus) :=
  if (top.get? "payload_b64").isSome then
    match trusted with
    | none => readUnverifiable c top
    | some keys => readJudged c bytes keys now
  else readBare c top

def verifyReceiptBytes (bytes : Bytes) (trusted : Option TrustedVerificationKeys)
    (now : Instant) : Except ReceiptRejection (VerifiedReceipt c) := do
  let top ← (c.readValue bytes).mapError .malformedJson
  let (receipt, signature) ← readArtifact c bytes top trusted now
  return ⟨receipt, signature, assessFreshness c receipt.body now⟩

section Verified

variable {c} {bytes : Bytes} {now : Instant}

/-- The gated receipt is the decoding of exactly the bytes that the envelope check
authenticated. -/
structure Authenticated (c : ReceiptCrates) (bytes : Bytes) (keys : TrustedVerificationKeys)
    (now : Instant) (env : AuthenticatedReceiptEnvelope) (receipt : IntegrityReceipt c) : Prop where
  accepted : verifyReceiptEnvelope c bytes keys now = .ok env
  decoded : readIntegrityReceipt c env.payloadBytes = .ok receipt

variable {receipt : IntegrityReceipt c} {status : SignatureStatus}

theorem readUnverifiable_ok {top : Json} (h : readUnverifiable c top = .ok (receipt, status)) :
    status = .unverifiable "no trust store resolvable" := by
  obtain ⟨envelope, -, h⟩ := bind_eq_ok.mp h
  obtain ⟨r, -, h⟩ := bind_eq_ok.mp h
  cases h
  rfl

theorem readBare_ok {top : Json} (h : readBare c top = .ok (receipt, status)) :
    status = .unsigned := by
  obtain ⟨r, -, h⟩ := bind_eq_ok.mp h
  cases h
  rfl

theorem readJudged_ok {keys : TrustedVerificationKeys}
    (h : readJudged c bytes keys now = .ok (receipt, status)) :
    (∃ env, Authenticated c bytes keys now env receipt ∧ status = .verified env.verifiedBy) ∨
      ∃ text, status = .rejected text := by
  unfold readJudged at h
  cases henv : verifyReceiptEnvelope c bytes keys now with
  | ok env =>
    simp only [henv] at h
    obtain ⟨r, hr, h⟩ := bind_eq_ok.mp h
    cases h
    exact .inl ⟨env, ⟨henv, mapError_eq_ok.mp hr⟩, rfl⟩
  | error rejection =>
    simp only [henv] at h
    obtain ⟨envelope, -, h⟩ := bind_eq_ok.mp h
    obtain ⟨r, -, h⟩ := bind_eq_ok.mp h
    cases h
    exact .inr ⟨_, rfl⟩

theorem readArtifact_verified {top : Json} {trusted : Option TrustedVerificationKeys}
    {keyId : KeyId} (h : readArtifact c bytes top trusted now = .ok (receipt, .verified keyId)) :
    ∃ keys env, trusted = some keys ∧ Authenticated c bytes keys now env receipt ∧
      env.verifiedBy = keyId := by
  unfold readArtifact at h
  split at h
  · cases trusted with
    | none => cases readUnverifiable_ok h
    | some keys =>
      rcases readJudged_ok h with ⟨env, hauth, hkey⟩ | ⟨text, htext⟩
      · cases hkey
        exact ⟨keys, env, rfl, hauth, rfl⟩
      · cases htext
  · cases readBare_ok h

theorem verifyReceiptBytes_ok {trusted : Option TrustedVerificationKeys} {v : VerifiedReceipt c}
    (h : verifyReceiptBytes c bytes trusted now = .ok v) : ∃ top, c.readValue bytes = .ok top ∧
      readArtifact c bytes top trusted now = .ok (v.receipt, v.signature) ∧
      v.freshness = assessFreshness c v.receipt.body now := by
  obtain ⟨top, htop, h⟩ := bind_eq_ok.mp h
  obtain ⟨⟨receipt, signature⟩, hread, h⟩ := bind_eq_ok.mp h
  cases h
  exact ⟨top, mapError_eq_ok.mp htop, hread, rfl⟩

end Verified

end Fornax.Receipt
