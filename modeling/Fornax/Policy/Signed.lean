import Fornax.Policy.Target
import Fornax.Lib.Fallible
import Fornax.Lib.Text

namespace Fornax

def debugList (items : List String) : String := "[" ++ ", ".intercalate items ++ "]"

def isBlank (s : String) : Bool := s.toList.all isWhitespace

abbrev KeyId := String

inductive SignatureAlgorithm
  | ed25519
  | unrecognized (tag : String)
  deriving DecidableEq, Repr

structure BundleSignature where
  keyId : KeyId
  algorithm : SignatureAlgorithm
  signatureB64 : String
  deriving DecidableEq, Repr

structure SignedPolicyBundle where
  bundleSchemaVersion : ℕ
  payloadB64 : String
  signatures : List BundleSignature
  deriving DecidableEq, Repr

abbrev PayloadDigest := String

structure BundleProvenance where
  issuer : String
  auditRef : Option String
  authorizedBy : Option String
  deriving DecidableEq, Repr

structure PolicyRevisionWire where
  body : PolicyRevisionBody
  digest : RevisionDigest
  deriving DecidableEq

structure BundlePayloadWire where
  bundleSchemaVersion : ℕ
  bundleId : Uuid
  sequence : ℕ
  issuedAt : String
  notBefore : String
  expiresAt : String
  provenance : BundleProvenance
  revision : PolicyRevisionWire
  bindings : List PolicyBinding
  deriving DecidableEq

structure SignedRevocationList where
  revocationSchemaVersion : ℕ
  payloadB64 : String
  signatures : List BundleSignature
  deriving DecidableEq, Repr

inductive RevocationTarget
  | revisionDigest (digest : RevisionDigest)
  | payloadDigest (digest : PayloadDigest)
  | unrecognized
  deriving DecidableEq, Repr

structure RevocationEntry where
  target : RevocationTarget
  revokedAt : String
  reason : String
  auditRef : Option String
  supersededBy : Option RevisionDigest
  deriving DecidableEq, Repr

structure RevocationPayload where
  revocationSchemaVersion : ℕ
  issuer : String
  sequence : ℕ
  issuedAt : String
  entries : List RevocationEntry
  deriving DecidableEq, Repr

structure Crates where
  -- `DateTime::parse_from_rfc3339`, taken to UTC.
  parseRfc3339 : String → Except String Instant
  -- `str::parse::<DateTime<Utc>>`.
  parseDateTime : String → Option Instant
  -- `DateTime::<Utc>::to_rfc3339`.
  toRfc3339 : Instant → String
  displayInstant : Instant → String
  -- `{:?}` of a string.
  debugStr : String → String
  -- Strict canonical base64.
  decodeBase64 : String → Except String Bytes
  -- Whether `VerifyingKey::from_bytes` accepts 32 bytes.
  isVerifyingKey : Bytes → Bool
  -- `verify_strict` of a key, a message and a signature.
  verifyStrict : Bytes → Bytes → Bytes → Bool
  sha256Hex : Bytes → String
  -- `serde_json::to_vec` of a revision body.
  revisionJson : PolicyRevisionBody → Bytes
  readBundle : Bytes → Except String SignedPolicyBundle
  readPayload : Bytes → Except String BundlePayloadWire
  readRevocationList : Bytes → Except String SignedRevocationList
  readRevocationPayload : Bytes → Except String RevocationPayload
  -- Text of a conversion error raised while reading the given bytes.
  conversionError : Bytes → String → String

structure TrustedKey where
  keyId : KeyId
  algorithm : SignatureAlgorithm
  publicKeyB64 : String
  notBefore : Option String
  notAfter : Option String
  comment : Option String
  deriving DecidableEq, Repr

structure TrustedVerificationKeys where
  schemaVersion : ℕ
  keys : List TrustedKey
  deriving DecidableEq, Repr

def TrustedVerificationKeys.get (t : TrustedVerificationKeys) (id : KeyId) : Option TrustedKey :=
  t.keys.find? fun k => k.keyId == id

def decodeVerifyingKey (c : Crates) (key : TrustedKey) : Option Bytes :=
  match c.decodeBase64 key.publicKeyB64 with
  | .ok bytes => if bytes.length = 32 ∧ c.isVerifyingKey bytes then some bytes else none
  | .error _ => none

inductive KeyTemporalStatus
  | valid
  | notYetValid
  | retired
  | malformedNotBefore
  | malformedNotAfter
  deriving DecidableEq, Repr

def keyTemporalStatusFromParsed (notBefore notAfter : Option Instant) (now : Instant) :
    KeyTemporalStatus :=
  if notBefore.any fun nb => now < nb then .notYetValid
  else if notAfter.any fun na => now > na then .retired
  else .valid

def parseBound (c : Crates) : Option String → Except Unit (Option Instant)
  | none => .ok none
  | some text =>
    match c.parseRfc3339 text with
    | .ok t => .ok (some t)
    | .error _ => .error ()

def keyTemporalStatus (c : Crates) (notBefore notAfter : Option String) (now : Instant) :
    KeyTemporalStatus :=
  match parseBound c notBefore with
  | .error () => .malformedNotBefore
  | .ok nb =>
    match parseBound c notAfter with
    | .error () => .malformedNotAfter
    | .ok na => keyTemporalStatusFromParsed nb na now

def maxPayloadBytes : ℕ := 1024 * 1024

def maxSignatures : ℕ := 8

structure VerifiedEnvelope where
  payloadBytes : Bytes
  verifiedBy : KeyId
  deriving DecidableEq

inductive EnvelopeVerificationError
  | malformedPayloadEncoding (detail : String)
  | payloadTooLarge (found max : ℕ)
  | noSignatures
  | tooManySignatures (found max : ℕ)
  | unknownKeyId (offered : List KeyId)
  | unsupportedAlgorithm (keyId : KeyId) (algorithm : SignatureAlgorithm)
  | malformedSignature (keyId : KeyId)
  | keyNotYetValid (keyId : KeyId) (notBefore : String) (now : Instant)
  | keyRetired (keyId : KeyId) (notAfter : String) (now : Instant)
  | signatureInvalid (keyIds : List KeyId)
  | malformedKeyTimestamp (field value : String)
  deriving DecidableEq, Repr

inductive SignatureCheck
  | notTrusted
  | unusable (reason : EnvelopeVerificationError)
  | failed
  | verified
  deriving DecidableEq, Repr

def checkSignatureBytes (c : Crates) (key : TrustedKey) (sig : BundleSignature)
    (message : Bytes) : SignatureCheck :=
  match decodeVerifyingKey c key, c.decodeBase64 sig.signatureB64 with
  | some keyBytes, .ok sigBytes =>
    if sigBytes.length = 64 then
      if c.verifyStrict keyBytes message sigBytes then .verified else .failed
    else .unusable (.malformedSignature sig.keyId)
  | _, _ => .unusable (.malformedSignature sig.keyId)

def checkSignature (c : Crates) (trusted : TrustedVerificationKeys) (message : Bytes)
    (now : Instant) (sig : BundleSignature) : SignatureCheck :=
  match trusted.get sig.keyId with
  | none => .notTrusted
  | some key =>
    match keyTemporalStatus c key.notBefore key.notAfter now with
    | .notYetValid => .unusable (.keyNotYetValid sig.keyId (key.notBefore.getD "") now)
    | .retired => .unusable (.keyRetired sig.keyId (key.notAfter.getD "") now)
    | .malformedNotBefore =>
      .unusable (.malformedKeyTimestamp "trusted_key.not_before" (key.notBefore.getD ""))
    | .malformedNotAfter =>
      .unusable (.malformedKeyTimestamp "trusted_key.not_after" (key.notAfter.getD ""))
    | .valid =>
      if sig.algorithm = .ed25519 ∧ key.algorithm = .ed25519 then
        checkSignatureBytes c key sig message
      else .unusable (.unsupportedAlgorithm sig.keyId sig.algorithm)

structure SignatureScan where
  offered : List KeyId
  trustedCurrentButFailed : List KeyId
  firstSkipReason : Option EnvelopeVerificationError
  verifiedBy : Option KeyId
  deriving DecidableEq, Repr

def SignatureScan.start : SignatureScan := ⟨[], [], none, none⟩

def scanSignatures (check : BundleSignature → SignatureCheck) :
    List BundleSignature → SignatureScan → SignatureScan
  | [], scan => scan
  | sig :: rest, scan =>
    let scan := { scan with offered := scan.offered ++ [sig.keyId] }
    match check sig with
    | .notTrusted => scanSignatures check rest scan
    | .unusable reason =>
      scanSignatures check rest
        { scan with firstSkipReason := scan.firstSkipReason.or (some reason) }
    | .failed =>
      scanSignatures check rest
        { scan with trustedCurrentButFailed := scan.trustedCurrentButFailed ++ [sig.keyId] }
    | .verified => { scan with verifiedBy := some sig.keyId }

def SignatureScan.verdict (scan : SignatureScan) : Except EnvelopeVerificationError KeyId :=
  match scan.verifiedBy with
  | some id => .ok id
  | none =>
    if scan.trustedCurrentButFailed ≠ [] then
      .error (.signatureInvalid scan.trustedCurrentButFailed)
    else match scan.firstSkipReason with
      | some reason => .error reason
      | none => .error (.unknownKeyId scan.offered)

def verifySignedEnvelope (c : Crates) (payloadB64 : String) (signatures : List BundleSignature)
    (domain : Bytes) (maxBytes : ℕ) (trusted : TrustedVerificationKeys) (now : Instant) :
    Except EnvelopeVerificationError VerifiedEnvelope := do
  if signatures = [] then
    throw .noSignatures
  if signatures.length > maxSignatures then
    throw (.tooManySignatures signatures.length maxSignatures)
  let payloadBytes ← (c.decodeBase64 payloadB64).mapError .malformedPayloadEncoding
  if payloadBytes.length > maxBytes then
    throw (.payloadTooLarge payloadBytes.length maxBytes)
  let message := domain ++ payloadBytes
  let scan := scanSignatures (checkSignature c trusted message now) signatures .start
  let verifiedBy ← scan.verdict
  return ⟨payloadBytes, verifiedBy⟩

end Fornax
