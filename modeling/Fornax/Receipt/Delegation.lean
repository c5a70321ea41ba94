import Fornax.Receipt.Gate
import Fornax.Receipt.Issue

namespace Fornax.Receipt

def delegationSchemaVersion : ℕ := 1

inductive DelegationOutcome
  | fulfilled
  | partiallyFulfilled
  | insufficient
  | unavailable
  deriving DecidableEq, Repr

structure DelegationIdentity where
  agentId : String
  taskId : Uuid
  deriving DecidableEq, Repr

structure DelegationScope where
  claimClass : ClaimClassId
  permittedActionsFingerprint : String
  expectedOutputsFingerprint : String
  deriving DecidableEq, Repr

structure LineageEntry where
  parentEnvelopeDigest : String
  parentTaskId : Uuid
  depth : ℕ
  deriving DecidableEq, Repr

/-- Over receipts of type `R`: their wire form while it is read and printed, checked receipts
afterwards. -/
structure DelegationEnvelopeBody (R : Type) where
  envelopeSchemaVersion : ℕ
  envelopeId : Uuid
  issuedAt : String
  notAfter : Option String
  parent : DelegationIdentity
  child : DelegationIdentity
  scope : DelegationScope
  outcome : DelegationOutcome
  satisfactionOverall : SatisfactionState
  unresolvedRequirementIds : List String
  receipts : List R
  aggregateSourceFamilyBases : List FamilyBasis
  lineage : List LineageEntry

def DelegationEnvelopeBody.withReceipts {R S : Type} (body : DelegationEnvelopeBody R)
    (receipts : List S) : DelegationEnvelopeBody S :=
  { body with receipts := receipts }

abbrev DelegationDigest := String

structure DelegationEnvelopeWire (R : Type) where
  body : DelegationEnvelopeBody R
  digest : DelegationDigest

structure DelegationCrates extends ReceiptCrates where
  envelopeJson : DelegationEnvelopeBody IntegrityReceiptWire → Bytes
  -- `Uuid::new_v5` in the namespace of envelopes, of the SHA-256 of the bytes.
  envelopeIdOf : Bytes → Uuid
  readEnvelope : Bytes → Except String (DelegationEnvelopeWire IntegrityReceiptWire)

variable (c : DelegationCrates)

def envelopeBytes (body : DelegationEnvelopeBody (IntegrityReceipt c.toReceiptCrates)) : Bytes :=
  c.envelopeJson (body.withReceipts (body.receipts.map Subtype.val))

def delegationDigestOf (body : DelegationEnvelopeBody (IntegrityReceipt c.toReceiptCrates)) :
    DelegationDigest :=
  fullDigest c.toReceiptCrates (envelopeBytes c body)

def deriveEnvelopeId (body : DelegationEnvelopeBody (IntegrityReceipt c.toReceiptCrates)) : Uuid :=
  c.envelopeIdOf (envelopeBytes c { body with envelopeId := 0 })

def DelegationEnvelope : Type :=
  { wire : DelegationEnvelopeWire (IntegrityReceipt c.toReceiptCrates) //
    wire.digest = delegationDigestOf c wire.body }

namespace DelegationEnvelope

variable {c}

def body (e : DelegationEnvelope c) : DelegationEnvelopeBody (IntegrityReceipt c.toReceiptCrates) :=
  e.1.body

variable (c)

def digestMismatch (declared recomputed : String) : String :=
  "delegation envelope digest " ++ declared ++ " does not match recomputed digest " ++
    recomputed ++ " -- body was altered after issuance"

/-- `TryFrom<DelegationEnvelopeWire>`; the error is the text of the mismatch. -/
def tryFrom (wire : DelegationEnvelopeWire (IntegrityReceipt c.toReceiptCrates)) :
    Except String (DelegationEnvelope c) :=
  if h : wire.digest = delegationDigestOf c wire.body then .ok ⟨wire, h⟩
  else .error (digestMismatch wire.digest (delegationDigestOf c wire.body))

end DelegationEnvelope

inductive DelegationRejection
  | invalid (detail : String)
  deriving DecidableEq, Repr

def readDelegationEnvelope (bytes : Bytes) : Except String (DelegationEnvelope c) := do
  let wire ← c.readEnvelope bytes
  let receipts ← (wire.body.receipts.mapM (IntegrityReceipt.tryFrom c.toReceiptCrates)).mapError
    (c.conversionError bytes)
  (DelegationEnvelope.tryFrom c ⟨wire.body.withReceipts receipts, wire.digest⟩).mapError
    (c.conversionError bytes)

def verifyDelegationEnvelopeBytes (bytes : Bytes) :
    Except DelegationRejection (DelegationEnvelope c) :=
  (readDelegationEnvelope c bytes).mapError .invalid

def mergedSourceFamilyBases {c : ReceiptCrates} (receipts : List (IntegrityReceipt c)) :
    List FamilyBasis :=
  SortDedup.sortDedup id (receipts.flatMap fun r => r.body.coverage.sourceFamilyBases)

structure DelegationInputs (c : DelegationCrates) where
  parent : DelegationIdentity
  child : DelegationIdentity
  claimClass : ClaimClassId
  permittedActionsText : String
  expectedOutputsText : String
  assessment : ClaimAssessment
  receipts : List (IntegrityReceipt c.toReceiptCrates)
  lineage : List LineageEntry
  childReportedUnavailable : Bool

def isUnresolved (ra : RequirementAssessment) : Bool :=
  ra.level == .required && !(ra.state == .satisfied || ra.state == .notApplicable)

def unresolvedRequirements (assessment : ClaimAssessment) : List String :=
  (assessment.perRequirement.filter isUnresolved).map
    RequirementAssessment.requirementId

def delegationOutcome (assessment : ClaimAssessment) (childReportedUnavailable : Bool) :
    DelegationOutcome :=
  if childReportedUnavailable then .unavailable
  else
    match assessment.overall with
    | .unknown => .insufficient
    | .satisfied =>
      if (unresolvedRequirements assessment).isEmpty then .fulfilled else .partiallyFulfilled
    | _ => .partiallyFulfilled

def redactedFingerprint (text : String) : String :=
  shortFingerprint c.toReceiptCrates (utf8Bytes (String.ofList (redactText c.upper text.toList)))

def unnumberedEnvelope (inputs : DelegationInputs c) (issuedAt : String) (ttlSeconds : Option ℤ) :
    DelegationEnvelopeBody (IntegrityReceipt c.toReceiptCrates) :=
  let receipts := SortDedup.sortBy (fun r => r.body.receiptId) inputs.receipts
  { envelopeSchemaVersion := delegationSchemaVersion
    envelopeId := 0
    issuedAt := issuedAt
    notAfter := notAfterOf c.toReceiptCrates issuedAt ttlSeconds
    parent := inputs.parent
    child := inputs.child
    scope := ⟨inputs.claimClass, redactedFingerprint c inputs.permittedActionsText,
      redactedFingerprint c inputs.expectedOutputsText⟩
    outcome := delegationOutcome inputs.assessment inputs.childReportedUnavailable
    satisfactionOverall := inputs.assessment.overall
    unresolvedRequirementIds := unresolvedRequirements inputs.assessment
    receipts := receipts
    aggregateSourceFamilyBases := mergedSourceFamilyBases receipts
    lineage := inputs.lineage }

def issueDelegationEnvelope (inputs : DelegationInputs c) (issuedAt : String)
    (ttlSeconds : Option ℤ) : DelegationEnvelope c :=
  let unnumbered := unnumberedEnvelope c inputs issuedAt ttlSeconds
  let body := { unnumbered with envelopeId := deriveEnvelopeId c unnumbered }
  ⟨⟨body, delegationDigestOf c body⟩, rfl⟩

structure ExpectedDelegationContext where
  parentAgentId : String
  parentTaskId : Uuid
  expectedClaimClass : ClaimClassId
  deriving DecidableEq, Repr

inductive DelegationGateReasonCode
  | policyUncalibrated
  | wrongParent
  | wrongScope
  | receiptExpired
  | noExpiryDeclared
  | issuedInFuture
  | malformedTimestamp
  | outcomeNotAllowed
  | unresolvedCriticalObligation
  | allChecksSatisfied
  deriving DecidableEq, Repr

structure DelegationGatePolicy where
  calibrated : Bool
  policyName : String
  allowedOutcomes : List DelegationOutcome
  requireExpiry : Bool
  deriving DecidableEq, Repr

def DelegationGatePolicy.requireFulfilledOnly : DelegationGatePolicy where
  calibrated := true
  policyName := "require_fulfilled_only"
  allowedOutcomes := [.fulfilled]
  requireExpiry := true

def DelegationOutcome.debug : DelegationOutcome → String
  | .fulfilled => "Fulfilled"
  | .partiallyFulfilled => "PartiallyFulfilled"
  | .insufficient => "Insufficient"
  | .unavailable => "Unavailable"

def debugClaimClass (id : ClaimClassId) : String :=
  "ClaimClassId \x7b name: " ++ c.debugStr id.name ++ ", version: " ++ toString id.version ++
    " \x7d"

def parentReasons (expected : ExpectedDelegationContext) (parent : DelegationIdentity) :
    List (GateReason DelegationGateReasonCode) :=
  if parent.agentId ≠ expected.parentAgentId ∨ parent.taskId ≠ expected.parentTaskId then
    [⟨.wrongParent, "envelope names parent " ++ c.debugStr parent.agentId ++ "/" ++
      parent.taskId.text ++ ", expected " ++ c.debugStr expected.parentAgentId ++ "/" ++
      expected.parentTaskId.text⟩]
  else []

def scopeReasons (expected : ExpectedDelegationContext) (scope : DelegationScope) :
    List (GateReason DelegationGateReasonCode) :=
  if scope.claimClass ≠ expected.expectedClaimClass then
    [⟨.wrongScope, "envelope scopes claim class " ++ debugClaimClass c scope.claimClass ++
      ", expected " ++ debugClaimClass c expected.expectedClaimClass⟩]
  else []

def delegationFreshnessCodes : FreshnessCodes DelegationGateReasonCode where
  expired := .receiptExpired
  noExpiry := .noExpiryDeclared
  issuedInFuture := .issuedInFuture
  malformed := .malformedTimestamp
  noExpiryDetail := "policy requires a declared expiry; this envelope has none"

def outcomeReasons (policy : DelegationGatePolicy) (outcome : DelegationOutcome) :
    List (GateReason DelegationGateReasonCode) :=
  if !policy.allowedOutcomes.contains outcome then
    [⟨.outcomeNotAllowed, "outcome " ++ outcome.debug ++ " is not in the allowed set " ++
      debugList (policy.allowedOutcomes.map DelegationOutcome.debug)⟩]
  else []

def obligationReasons (outcome : DelegationOutcome) (unresolved : List String) :
    List (GateReason DelegationGateReasonCode) :=
  if !unresolved.isEmpty && outcome == .fulfilled then
    [⟨.unresolvedCriticalObligation, "outcome is Fulfilled but " ++ toString unresolved.length ++
      " requirement(s) remain unresolved: " ++ debugList (unresolved.map c.debugStr)⟩]
  else []

section Gate

variable {R : Type}

def assessDelegationFreshness (body : DelegationEnvelopeBody R) (now : Instant) : Freshness :=
  assessFreshnessOf c.toReceiptCrates body.issuedAt body.notAfter now

def delegationReasons (body : DelegationEnvelopeBody R) (expected : ExpectedDelegationContext)
    (policy : DelegationGatePolicy) (now : Instant) :
    List (GateReason DelegationGateReasonCode) :=
  parentReasons c expected body.parent ++ scopeReasons c expected body.scope ++
    freshnessReasons c.toCrates delegationFreshnessCodes policy.requireExpiry
      (assessDelegationFreshness c body now) ++
    outcomeReasons policy body.outcome ++
    obligationReasons c body.outcome body.unresolvedRequirementIds

end Gate

def delegationOutcomeOf : DelegationGateReasonCode → Option GateOutcome
  | .noExpiryDeclared => some .hold
  | .allChecksSatisfied => none
  | .policyUncalibrated => none
  | _ => some .reject

def evaluateDelegationGate (envelope : DelegationEnvelope c) (expected : ExpectedDelegationContext)
    (policy : DelegationGatePolicy) (now : Instant) :
    Option (GateDecision DelegationGateReasonCode) :=
  if !policy.calibrated || policy.allowedOutcomes.isEmpty then
    some ⟨.untested, [⟨.policyUncalibrated,
      "delegation gate policy is not calibrated (or names no allowed " ++
        "outcomes) -- no threshold exists yet to judge this envelope against"⟩]⟩
  else
    settle delegationOutcomeOf
      ⟨.allChecksSatisfied, "all checks satisfied under policy " ++ c.debugStr policy.policyName⟩
      (delegationReasons c envelope.body expected policy now)

section Acceptance

variable {c} {expected : ExpectedDelegationContext} {policy : DelegationGatePolicy} {now : Instant}

/-- What an accepted envelope has passed; it reads neither the receipts nor the assessment. -/
structure DelegationPassed (c : DelegationCrates) {R : Type} (body : DelegationEnvelopeBody R)
    (expected : ExpectedDelegationContext) (policy : DelegationGatePolicy) (now : Instant) :
    Prop where
  calibrated : policy.calibrated = true
  parent : body.parent = ⟨expected.parentAgentId, expected.parentTaskId⟩
  scope : body.scope.claimClass = expected.expectedClaimClass
  freshness : (assessDelegationFreshness c body now).Passes policy.requireExpiry
  outcome : body.outcome ∈ policy.allowedOutcomes
  obligations : body.outcome = .fulfilled → body.unresolvedRequirementIds = []

theorem parentReasons_eq_nil {parent : DelegationIdentity} : parentReasons c expected parent = [] ↔
      parent = ⟨expected.parentAgentId, expected.parentTaskId⟩ := by
  obtain ⟨agentId, taskId⟩ := parent
  simp [parentReasons]

theorem scopeReasons_eq_nil {scope : DelegationScope} :
    scopeReasons c expected scope = [] ↔ scope.claimClass = expected.expectedClaimClass := by
  simp [scopeReasons]

theorem outcomeReasons_eq_nil {outcome : DelegationOutcome} :
    outcomeReasons policy outcome = [] ↔ outcome ∈ policy.allowedOutcomes := by
  simp [outcomeReasons]

theorem obligationReasons_eq_nil {outcome : DelegationOutcome} {unresolved : List String} :
    obligationReasons c outcome unresolved = [] ↔ (outcome = .fulfilled → unresolved = []) := by
  simp [obligationReasons, not_imp_not]

theorem delegationReasons_adverse {R : Type} (body : DelegationEnvelopeBody R) :
    ∀ r ∈ delegationReasons c body expected policy now, Adverse delegationOutcomeOf r := by
  intro r hr
  simp only [delegationReasons, List.mem_append, or_assoc] at hr
  rcases hr with hr | hr | hr | hr | hr
  · exact adverse_of_check (.inr rfl) r hr
  · exact adverse_of_check (.inr rfl) r hr
  · exact freshnessReasons_adverse ⟨rfl, rfl, rfl, rfl⟩ _ r hr
  · exact adverse_of_check (.inr rfl) r hr
  · exact adverse_of_check (.inr rfl) r hr

theorem delegationReasons_eq_nil_iff {R : Type} {body : DelegationEnvelopeBody R}
    (hcal : policy.calibrated) : delegationReasons c body expected policy now = [] ↔
      DelegationPassed c body expected policy now := by
  simp only [delegationReasons, List.append_eq_nil_iff, parentReasons_eq_nil, scopeReasons_eq_nil,
    freshnessReasons_eq_nil, outcomeReasons_eq_nil, obligationReasons_eq_nil]
  constructor
  · rintro ⟨⟨⟨⟨hparent, hscope⟩, hfresh⟩, houtcome⟩, hobligations⟩
    exact ⟨hcal, hparent, hscope, hfresh, houtcome, hobligations⟩
  · intro h
    exact ⟨⟨⟨⟨h.parent, h.scope⟩, h.freshness⟩, h.outcome⟩, h.obligations⟩

theorem evaluateDelegationGate_spec (envelope : DelegationEnvelope c)
    (expected : ExpectedDelegationContext) (policy : DelegationGatePolicy) (now : Instant) :
    ∃ d, evaluateDelegationGate c envelope expected policy now = some d ∧
      (d.outcome = .accept ↔ DelegationPassed c envelope.body expected policy now) := by
  unfold evaluateDelegationGate
  by_cases hunarmed : (!policy.calibrated || policy.allowedOutcomes.isEmpty) = true
  · rw [if_pos hunarmed]
    refine ⟨_, rfl, ?_⟩
    constructor
    · intro h
      cases h
    · intro h
      have hne := List.ne_nil_of_mem h.outcome
      simp [h.calibrated, hne] at hunarmed
  · rw [if_neg hunarmed]
    have hcal : policy.calibrated := by
      by_contra hfalse
      simp [hfalse] at hunarmed
    obtain ⟨d, hd, haccept⟩ := settle_spec
      ⟨.allChecksSatisfied, "all checks satisfied under policy " ++ c.debugStr policy.policyName⟩
      (delegationReasons_adverse envelope.body)
    exact ⟨d, hd, haccept.trans (delegationReasons_eq_nil_iff hcal)⟩

def DelegationEnvelopeBody.judgement {R : Type} (body : DelegationEnvelopeBody R) :
    DelegationOutcome × SatisfactionState × List String × List FamilyBasis :=
  (body.outcome, body.satisfactionOverall, body.unresolvedRequirementIds,
    body.aggregateSourceFamilyBases)

/-- A judgement that the issuer reaches, from some assessment, over these receipts. -/
def IssuedJudgement (c : DelegationCrates)
    (body : DelegationEnvelopeBody (IntegrityReceipt c.toReceiptCrates)) : Prop :=
  ∃ (inputs : DelegationInputs c) (issuedAt : String) (ttlSeconds : Option ℤ),
    inputs.receipts.Perm body.receipts ∧
      (issueDelegationEnvelope c inputs issuedAt ttlSeconds).body.judgement = body.judgement

theorem mergedSourceFamilyBases_perm {c : ReceiptCrates} {l m : List (IntegrityReceipt c)}
    (h : l.Perm m) : mergedSourceFamilyBases l = mergedSourceFamilyBases m :=
  SortDedup.sortDedup_eq_of_perm (h.flatMap_right _) fun _ _ _ _ heq => heq

section

variable (inputs : DelegationInputs c) (issuedAt : String) (ttlSeconds : Option ℤ)

theorem issued_receipts_perm :
    (issueDelegationEnvelope c inputs issuedAt ttlSeconds).body.receipts.Perm inputs.receipts :=
  List.perm_insertionSort _ _

theorem issued_judgement : (issueDelegationEnvelope c inputs issuedAt ttlSeconds).body.judgement =
      (delegationOutcome inputs.assessment inputs.childReportedUnavailable,
        inputs.assessment.overall, unresolvedRequirements inputs.assessment,
        mergedSourceFamilyBases inputs.receipts) := by
  rw [← mergedSourceFamilyBases_perm (issued_receipts_perm inputs issuedAt ttlSeconds)]
  rfl

end

theorem delegationOutcome_eq_fulfilled {assessment : ClaimAssessment} {unavailable : Bool} :
    delegationOutcome assessment unavailable = .fulfilled ↔
      unavailable = false ∧ assessment.overall = .satisfied ∧
        unresolvedRequirements assessment = [] := by
  unfold delegationOutcome
  cases unavailable with
  | true => simp
  | false =>
    cases hoverall : assessment.overall <;> simp

theorem issuedJudgement_iff {body : DelegationEnvelopeBody (IntegrityReceipt c.toReceiptCrates)}
    (hfulfilled : body.outcome = .fulfilled) (hresolved : body.unresolvedRequirementIds = []) :
    IssuedJudgement c body ↔ body.satisfactionOverall = .satisfied ∧
      body.aggregateSourceFamilyBases = mergedSourceFamilyBases body.receipts := by
  constructor
  · rintro ⟨inputs, issuedAt, ttl, hperm, hjudgement⟩
    rw [issued_judgement, mergedSourceFamilyBases_perm hperm] at hjudgement
    obtain ⟨houtcome, hoverall, -, hbases⟩ : _ ∧ _ ∧ _ ∧ _ := by
      simpa only [DelegationEnvelopeBody.judgement, Prod.mk.injEq] using hjudgement
    rw [hfulfilled] at houtcome
    exact ⟨hoverall ▸ (delegationOutcome_eq_fulfilled.mp houtcome).2.1, hbases.symm⟩
  · rintro ⟨hsatisfied, hbases⟩
    let inputs : DelegationInputs c :=
      ⟨body.parent, body.child, body.scope.claimClass, "", "",
        ⟨body.scope.claimClass, [], .satisfied⟩, body.receipts, body.lineage, false⟩
    refine ⟨inputs, body.issuedAt, none, List.Perm.refl _, ?_⟩
    rw [issued_judgement, DelegationEnvelopeBody.judgement, hfulfilled, hsatisfied, hresolved,
      hbases]
    rfl

end Acceptance

/-! Two envelopes over one receipt, whose evidence all comes from one turn: a consistent one, and
one whose child wrote another assessment and no bases. -/

def labEnvelopeBody (overall : SatisfactionState) (bases : List FamilyBasis) :
    DelegationEnvelopeBody IntegrityReceiptWire where
  envelopeSchemaVersion := 1
  envelopeId := 5
  issuedAt := "t0"
  notAfter := some "t1"
  parent := ⟨"planner", 1⟩
  child := ⟨"worker", 2⟩
  scope := ⟨⟨"deploy", 1⟩, "", ""⟩
  outcome := .fulfilled
  satisfactionOverall := overall
  unresolvedRequirementIds := []
  receipts :=
    [⟨{ labBody with coverage := ⟨"root", [], [], [], [.sameAgentTurn 9], []⟩ }, "sha256:"⟩]
  aggregateSourceFamilyBases := bases
  lineage := []

def labDelegation : DelegationCrates :=
  { labReader with
    envelopeJson := fun _ => []
    envelopeIdOf := fun _ => 5
    readEnvelope := fun bytes =>
      .ok ⟨if bytes.isEmpty then labEnvelopeBody .unsatisfied []
        else labEnvelopeBody .satisfied [.sameAgentTurn 9], "sha256:"⟩ }

def labExpected : ExpectedDelegationContext := ⟨"planner", 1, ⟨"deploy", 1⟩⟩

def labDecision (bytes : Bytes) : Except DelegationRejection
    (Option GateOutcome × SatisfactionState × List FamilyBasis × List FamilyBasis) :=
  (verifyDelegationEnvelopeBytes labDelegation bytes).map fun envelope =>
    ((evaluateDelegationGate labDelegation envelope labExpected .requireFulfilledOnly 0).map
        GateDecision.outcome,
      envelope.body.satisfactionOverall, envelope.body.aggregateSourceFamilyBases,
      mergedSourceFamilyBases envelope.body.receipts)

end Fornax.Receipt
