import Fornax.Audit.Event
import Fornax.Contract.Model
import Fornax.Evidence.Decision
import Fornax.Policy.Signed
import Fornax.Store.Records

namespace Fornax

def FamilyBasis.tag : FamilyBasis → FamilyBasisTag
  | .explicitCorrelationGroup g => .explicitCorrelationGroup g
  | .derivationAncestry parent child => .derivationAncestry parent child
  | .sameAgentTurn id => .sameAgentTurn id
  | .unknownProvenance => .unknownProvenance

theorem FamilyBasis.tag_injective : Function.Injective FamilyBasis.tag := by
  intro a b h
  cases a <;> cases b <;> simp_all [FamilyBasis.tag]

instance : LinearOrder FamilyBasis := LinearOrder.lift' FamilyBasis.tag FamilyBasis.tag_injective

def FusionRule.wireTag : FusionRule → String
  | .evidenceUnresolved => "evidence_unresolved"
  | .neutralNotCounted => "neutral_not_counted"
  | .derivedFromCountedParent => "derived_from_counted_parent"
  | .derivedEvidence => "derived_evidence"
  | .staleSupportDemoted => "stale_support_demoted"
  | .staleContradictionRetained => "stale_contradiction_retained"
  | .freshnessIndeterminate => "freshness_indeterminate"
  | .correlationCollapsed => "correlation_collapsed"
  | .commonSourceCollapsed => "common_source_collapsed"
  | .independenceUnverified => "independence_unverified"
  | .allSupportDiscounted => "all_support_discounted"
  | .verdictDecided => "verdict_decided"
  | .independenceBudgetExceeded => "independence_budget_exceeded"

def SourceFamilyMap.familiesAmong (m : SourceFamilyMap) (ids : List Uuid) : List SourceFamily :=
  (OrdSet.ofList (ids.filterMap m.index.get?)).toList.filterMap fun i => m.families[i]?

inductive CollectionMethod
  | hookCallback
  | filePoll
  | httpWebhook
  | httpQuery
  | processObservation
  | reconstructed
  | preProvenance
  | unrecognized (tag : String)
  deriving DecidableEq, Repr

/-- What a receipt reads of an `Evidence` value; sensor and method count only when a source is
recorded. -/
structure SensedEvidence extends ObservedEvidence where
  sensorName : String
  collectionMethod : CollectionMethod

inductive EvidenceGapKind
  | noEvidenceAtAll
  | expectedSignalMissing (signalClass : SignalClass)
  | signalClassUnobservable (signalClass : SignalClass)
  | allVotesDiscounted
  | staleSupport
  | independenceUnverified
  | singleSourceCorroboration
  | unresolvedConflict
  | contractObligationUnmet (requirementId : String) (state : SatisfactionState)
  | independenceBudgetExceeded
  deriving DecidableEq, Repr

structure EvidenceGap where
  kind : EvidenceGapKind
  claimId : Uuid
  linkIds : List Uuid
  missingEvidenceIds : List Uuid
  detail : String
  deriving DecidableEq, Repr

structure CalibrationProvenance where
  schemaVersion : ℕ
  provider : String
  adapterVersion : Option String
  capabilitySchemaVersion : ℕ
  capabilityFingerprint : List (String × String)
  fusionPolicyName : String
  fusionPolicyVersion : ℕ
  decisionPolicyName : String
  decisionPolicyVersion : ℕ
  reliabilityPolicyVersion : ℕ
  disabledSensors : List String
  activePolicyRevisionDigest : Option String
  modelVersion : Option String
  modelFamily : Option String
  deriving DecidableEq, Repr

inductive DriftState
  | stable
  | drifted
  | insufficientDataForComparison
  | notComparable (differingDimensions : List String)
  deriving DecidableEq, Repr

inductive SampleSupport
  | confident (sampleCount : ℕ)
  | insufficientSupport (sampleCount minimumRequired : ℕ)
  deriving DecidableEq, Repr

inductive CalibrationState
  | noActiveCalibration
  | valid
  | stale (changedDimensions : List String)
  | suspect (driftState : DriftState)
  | insufficientSupport (sampleSupport : SampleSupport)
  deriving DecidableEq, Repr

structure CalibrationAssessment where
  state : CalibrationState
  policyVersion : ℕ
  deriving DecidableEq, Repr

namespace Receipt

def receiptPayloadSchemaVersion : ℕ := 1

def exportableEvidenceKinds : List EvidenceKind := [.exitCode, .processObservation]

def maxFingerprintedPayloadBytes : ℕ := 64 * 1024

structure ClaimRef where
  claimId : Uuid
  sessionId : String
  subject : String
  claimTextFingerprint : String
  claimedAt : String
  deriving DecidableEq, Repr

structure FindingSummary where
  verdict : Verdict
  uncertainty : UncertaintyBand
  unresolvedConflict : Bool
  countedLinkCount : ℕ
  discountedLinkCount : ℕ
  firedRules : List FusionRule
  fusionPolicyName : String
  fusionPolicyVersion : ℕ
  computedAt : String
  deriving DecidableEq, Repr

structure RecommendationSummary where
  action : RecommendationAction
  riskClass : DecisionRiskClass
  decisionPolicyName : String
  decisionPolicyVersion : ℕ
  deriving DecidableEq, Repr

structure EvidenceRef where
  evidenceId : Uuid
  kind : EvidenceKind
  relation : EvidenceRelation
  observedAt : String
  trustClass : Option TrustClass
  sensorName : Option String
  collectionMethod : Option CollectionMethod
  payloadFingerprint : String
  evidencePurged : Bool
  deriving DecidableEq, Repr

structure MissingEvidenceRef where
  signalClass : SignalClass
  availability : SignalAvailability
  notedAt : String
  deriving DecidableEq, Repr

structure ReceiptGap where
  kind : EvidenceGapKind
  detail : String
  deriving DecidableEq, Repr

inductive WithheldReason
  | kindNotExportable
  | oversizedPayload (bytes : ℕ)
  | alreadyPurged
  deriving DecidableEq, Repr

structure WithheldRef where
  evidenceId : Uuid
  kind : EvidenceKind
  reason : WithheldReason
  deriving DecidableEq, Repr

inductive EmbedPolicy
  | referenceOnly
  deriving DecidableEq, Repr

structure CoverageSummary where
  evidenceRoot : String
  referencedEvidence : List EvidenceRef
  missingEvidence : List MissingEvidenceRef
  gaps : List ReceiptGap
  sourceFamilyBases : List FamilyBasis
  withheld : List WithheldRef
  deriving DecidableEq, Repr

structure ReceiptBody where
  receiptSchemaVersion : ℕ
  receiptId : Uuid
  issuer : String
  homeIdentity : String
  issuedAt : String
  notAfter : Option String
  embedPolicy : EmbedPolicy
  claim : ClaimRef
  finding : FindingSummary
  recommendation : RecommendationSummary
  coverage : CoverageSummary
  provenance : CalibrationProvenance
  calibration : CalibrationAssessment
  deriving DecidableEq, Repr

abbrev ReceiptDigest := String

structure IntegrityReceiptWire where
  body : ReceiptBody
  digest : ReceiptDigest
  deriving DecidableEq, Repr

structure SignedIntegrityReceipt where
  receiptSchemaVersion : ℕ
  payloadB64 : String
  signatures : List BundleSignature
  deriving DecidableEq, Repr

structure ReceiptCrates extends Crates where
  -- `serde_json::to_vec` of a body, of a list of references and of an evidence payload.
  bodyJson : ReceiptBody → Bytes
  evidenceRefsJson : List EvidenceRef → Bytes
  payloadJson : Json → Bytes
  -- `Uuid::new_v5` in the namespace of receipts, of the SHA-256 of the bytes.
  receiptIdOf : Bytes → Uuid
  -- Upper case outside the ASCII range.
  upper : Char → Text
  -- `serde_json::from_slice` to a value, and the two readers of each artifact.
  readValue : Bytes → Except String Json
  readSignedReceipt : Bytes → Except String SignedIntegrityReceipt
  signedReceiptOfValue : Json → Except String SignedIntegrityReceipt
  readReceipt : Bytes → Except String IntegrityReceiptWire
  receiptOfValue : Json → Except String IntegrityReceiptWire
  -- `general_purpose::STANDARD`.
  decodeStandardBase64 : String → Except String Bytes
  -- Derived debug forms.
  debugGapKind : EvidenceGapKind → String
  debugCalibration : CalibrationState → String

def ReceiptCrates.stub : ReceiptCrates where
  parseRfc3339 _ := .error ""
  parseDateTime _ := none
  toRfc3339 _ := ""
  displayInstant _ := ""
  debugStr s := s
  decodeBase64 _ := .error ""
  isVerifyingKey _ := false
  verifyStrict _ _ _ := false
  sha256Hex _ := ""
  revisionJson _ := []
  readBundle _ := .error ""
  readPayload _ := .error ""
  readRevocationList _ := .error ""
  readRevocationPayload _ := .error ""
  conversionError _ s := s
  bodyJson _ := []
  evidenceRefsJson _ := []
  payloadJson _ := []
  receiptIdOf _ := 0
  upper ch := [ch]
  readValue _ := .error ""
  readSignedReceipt _ := .error ""
  signedReceiptOfValue _ := .error ""
  readReceipt _ := .error ""
  receiptOfValue _ := .error ""
  decodeStandardBase64 _ := .error ""
  debugGapKind _ := ""
  debugCalibration _ := ""

variable (c : ReceiptCrates)

def shortFingerprint (bytes : Bytes) : String :=
  String.ofList ((c.sha256Hex bytes).toList.take 16)

def fullDigest (bytes : Bytes) : String := "sha256:" ++ c.sha256Hex bytes

def digestOf (body : ReceiptBody) : ReceiptDigest := fullDigest c (c.bodyJson body)

def ReceiptBody.deriveId (body : ReceiptBody) : Uuid :=
  c.receiptIdOf (c.bodyJson { body with receiptId := 0 })

def IntegrityReceipt : Type :=
  { wire : IntegrityReceiptWire // wire.digest = digestOf c wire.body }

namespace IntegrityReceipt

variable {c}

def body (r : IntegrityReceipt c) : ReceiptBody := r.1.body

def digest (r : IntegrityReceipt c) : ReceiptDigest := r.1.digest

variable (c)

def newTrusted (body : ReceiptBody) : IntegrityReceipt c := ⟨⟨body, digestOf c body⟩, rfl⟩

@[simp] theorem body_newTrusted (body : ReceiptBody) : (newTrusted c body).body = body := rfl

def digestMismatch (declared recomputed : String) : String :=
  "receipt digest " ++ declared ++ " does not match recomputed digest " ++ recomputed ++
    " -- body was altered after issuance"

/-- `TryFrom<IntegrityReceiptWire>`; the error is the text of the mismatch. -/
def tryFrom (wire : IntegrityReceiptWire) : Except String (IntegrityReceipt c) :=
  if h : wire.digest = digestOf c wire.body then .ok ⟨wire, h⟩
  else .error (digestMismatch wire.digest (digestOf c wire.body))

end IntegrityReceipt

def sortedDedupedRules (rules : List FusionRule) : List FusionRule :=
  SortDedup.sortDedup (fun r => jsonQuote r.wireTag) rules

def sortedDedupedBases (bases : List FamilyBasis) : List FamilyBasis :=
  SortDedup.sortDedup id bases

def evidenceRootOf (refs : List EvidenceRef) : String := fullDigest c (c.evidenceRefsJson refs)

def referencedIds (refs : List EvidenceRef) : OrdSet Uuid :=
  OrdSet.ofList (refs.map EvidenceRef.evidenceId)

end Receipt

end Fornax
