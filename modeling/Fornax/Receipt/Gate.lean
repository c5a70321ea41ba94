import Fornax.Receipt.Verify

namespace Fornax.Receipt

open List

inductive GateOutcome
  | accept
  | reject
  | hold
  | untested
  deriving DecidableEq, Repr

def GateOutcome.severity : GateOutcome → ℕ
  | .accept => 0
  | .untested => 1
  | .hold => 2
  | .reject => 3

structure GateReason (Code : Type) where
  code : Code
  detail : String
  deriving DecidableEq, Repr

structure GateDecision (Code : Type) where
  outcome : GateOutcome
  reasons : List (GateReason Code)
  deriving DecidableEq, Repr

section Settle

variable {Code : Type}

/-- `max_by_key` by severity; different outcomes differ in it, so it does not matter which of
several worst reasons is taken. -/
def worstOutcome (outcomes : List GateOutcome) : GateOutcome :=
  (outcomes.argmax GateOutcome.severity).getD .reject

def settle (outcomeOf : Code → Option GateOutcome) (accepted : GateReason Code)
    (reasons : List (GateReason Code)) : Option (GateDecision Code) :=
  if reasons.isEmpty then some ⟨.accept, [accepted]⟩
  else
    (reasons.mapM fun r => outcomeOf r.code).map fun outcomes => ⟨worstOutcome outcomes, reasons⟩

def Adverse (outcomeOf : Code → Option GateOutcome) (reason : GateReason Code) : Prop :=
  outcomeOf reason.code = some .hold ∨ outcomeOf reason.code = some .reject

theorem worstOutcome_mem {outcomes : List GateOutcome} (h : outcomes ≠ []) :
    worstOutcome outcomes ∈ outcomes := by
  cases hmax : outcomes.argmax GateOutcome.severity with
  | none => exact absurd (argmax_eq_none.mp hmax) h
  | some o =>
    rw [worstOutcome, hmax]
    exact argmax_mem hmax

variable {outcomeOf : Code → Option GateOutcome}

theorem adverse_outcomes {reasons : List (GateReason Code)} (h : ∀ r ∈ reasons, Adverse outcomeOf r)
    : ∃ outcomes, (reasons.mapM fun r => outcomeOf r.code) = some outcomes ∧
      outcomes.length = reasons.length ∧ GateOutcome.accept ∉ outcomes := by
  induction reasons with
  | nil => exact ⟨[], rfl, rfl, not_mem_nil⟩
  | cons r reasons ih =>
    obtain ⟨outcomes, hmap, hlength, haccept⟩ := ih fun x hx => h x (mem_cons_of_mem _ hx)
    have hr := h r mem_cons_self
    rw [mapM_cons, hmap]
    rcases hr with hr | hr
    · rw [hr]
      exact ⟨.hold :: outcomes, rfl, by simp [hlength], by simp [haccept]⟩
    · rw [hr]
      exact ⟨.reject :: outcomes, rfl, by simp [hlength], by simp [haccept]⟩

theorem adverse_of_check {failed : Prop} [Decidable failed] {reason : GateReason Code}
    (h : Adverse outcomeOf reason) :
    ∀ r ∈ (if failed then [reason] else []), Adverse outcomeOf r := by
  intro r hr
  split at hr
  · rw [mem_singleton.mp hr]
    exact h
  · cases hr

theorem settle_spec (accepted : GateReason Code) {reasons : List (GateReason Code)}
    (h : ∀ r ∈ reasons, Adverse outcomeOf r) :
    ∃ d, settle outcomeOf accepted reasons = some d ∧ (d.outcome = .accept ↔ reasons = []) := by
  obtain ⟨outcomes, hmap, hlength, haccept⟩ := adverse_outcomes h
  cases reasons with
  | nil => exact ⟨⟨.accept, [accepted]⟩, rfl, by simp⟩
  | cons r reasons =>
    refine ⟨⟨worstOutcome outcomes, r :: reasons⟩, ?_, ?_⟩
    · rw [settle, hmap]
      rfl
    · have hne : outcomes ≠ [] := by
        rintro rfl
        simp at hlength
      have hworst : worstOutcome outcomes ≠ .accept := by
        intro heq
        exact haccept (heq ▸ worstOutcome_mem hne)
      simp [hworst]

/-! Both gates report the freshness of what they judge, each under its own codes. -/

structure FreshnessCodes (Code : Type) where
  expired : Code
  noExpiry : Code
  issuedInFuture : Code
  malformed : Code
  noExpiryDetail : String

def freshnessReasons (c : Crates) (codes : FreshnessCodes Code) (requireExpiry : Bool) :
    Freshness → List (GateReason Code)
  | .expired notAfter now => [⟨codes.expired, "expired at " ++ notAfter ++ ", now " ++ now⟩]
  | .noExpiryDeclared => if requireExpiry then [⟨codes.noExpiry, codes.noExpiryDetail⟩] else []
  | .issuedInFuture issuedAt now =>
    [⟨codes.issuedInFuture, "issued_at " ++ issuedAt ++ " is after now " ++ now⟩]
  | .malformedTimestamp field value =>
    [⟨codes.malformed, field ++ " is malformed: " ++ c.debugStr value⟩]
  | .fresh _ => []

def Freshness.Passes (requireExpiry : Bool) : Freshness → Prop
  | .fresh _ => True
  | .noExpiryDeclared => requireExpiry = false
  | _ => False

section

variable {c : Crates} {codes : FreshnessCodes Code} {requireExpiry : Bool}

theorem freshnessReasons_eq_nil {freshness : Freshness} :
    freshnessReasons c codes requireExpiry freshness = [] ↔ freshness.Passes requireExpiry := by
  cases freshness <;> simp [freshnessReasons, Freshness.Passes]

theorem freshnessReasons_adverse
    (hcodes : outcomeOf codes.expired = some .reject ∧ outcomeOf codes.noExpiry = some .hold ∧
      outcomeOf codes.issuedInFuture = some .reject ∧ outcomeOf codes.malformed = some .reject)
    (freshness : Freshness) :
    ∀ r ∈ freshnessReasons c codes requireExpiry freshness, Adverse outcomeOf r := by
  obtain ⟨hexpired, hnone, hfuture, hmalformed⟩ := hcodes
  intro r hr
  cases freshness with
  | fresh t => cases hr
  | expired t now =>
    rw [mem_singleton.mp hr]
    exact .inr hexpired
  | noExpiryDeclared =>
    cases requireExpiry with
    | false => cases hr
    | true =>
      rw [mem_singleton.mp hr]
      exact .inl hnone
  | issuedInFuture t now =>
    rw [mem_singleton.mp hr]
    exact .inr hfuture
  | malformedTimestamp field value =>
    rw [mem_singleton.mp hr]
    exact .inr hmalformed

end

end Settle

inductive GateReasonCode
  | policyUncalibrated
  | signatureRequiredButAbsent
  | signatureUnverifiable
  | signatureRejected
  | receiptExpired
  | noExpiryDeclared
  | issuedInFuture
  | malformedTimestamp
  | verdictNotAllowed
  | recommendationNotAllowed
  | criticalEvidenceGap
  | calibrationNotValid
  | allChecksSatisfied
  deriving DecidableEq, Repr

inductive EvidenceGapKindWire
  | noEvidenceAtAll
  | expectedSignalMissing
  | signalClassUnobservable
  | allVotesDiscounted
  | staleSupport
  | independenceUnverified
  | singleSourceCorroboration
  | unresolvedConflict
  deriving DecidableEq, Repr

def EvidenceGapKindWire.matchesKind : EvidenceGapKindWire → EvidenceGapKind → Bool
  | .noEvidenceAtAll, .noEvidenceAtAll => true
  | .expectedSignalMissing, .expectedSignalMissing _ => true
  | .signalClassUnobservable, .signalClassUnobservable _ => true
  | .allVotesDiscounted, .allVotesDiscounted => true
  | .staleSupport, .staleSupport => true
  | .independenceUnverified, .independenceUnverified => true
  | .singleSourceCorroboration, .singleSourceCorroboration => true
  | .unresolvedConflict, .unresolvedConflict => true
  | _, _ => false

structure ReceiptGatePolicy where
  calibrated : Bool
  policyName : String
  requireSignature : Bool
  allowedVerdicts : List Verdict
  allowedActions : List RecommendationAction
  forbiddenGapKinds : List EvidenceGapKindWire
  requireExpiry : Bool
  maxAgeSeconds : Option ℤ
  requireCalibrationValid : Bool
  deriving DecidableEq, Repr

def ReceiptGatePolicy.requireProceedNoCriticalGaps : ReceiptGatePolicy where
  calibrated := true
  policyName := "require_proceed_no_critical_gaps"
  requireSignature := false
  allowedVerdicts := [.verified]
  allowedActions := [.proceed]
  forbiddenGapKinds := [.noEvidenceAtAll, .unresolvedConflict, .allVotesDiscounted]
  requireExpiry := true
  maxAgeSeconds := some defaultReceiptTtlSeconds
  requireCalibrationValid := false

variable (c : ReceiptCrates)

def signatureReasons (policy : ReceiptGatePolicy) :
    SignatureStatus → List (GateReason GateReasonCode)
  | .unsigned =>
    if policy.requireSignature then
      [⟨.signatureRequiredButAbsent, "policy requires a signature; this receipt is unsigned"⟩]
    else []
  | .unverifiable reason =>
    if policy.requireSignature then [⟨.signatureUnverifiable, reason⟩] else []
  | .rejected rejection => [⟨.signatureRejected, rejection⟩]
  | .verified _ => []

def receiptFreshnessCodes : FreshnessCodes GateReasonCode where
  expired := .receiptExpired
  noExpiry := .noExpiryDeclared
  issuedInFuture := .issuedInFuture
  malformed := .malformedTimestamp
  noExpiryDetail := "policy requires a declared expiry; this receipt has none"

/-- `TimeDelta::num_seconds`, towards zero. -/
def numSeconds (nanos : ℤ) : ℤ := nanos.tdiv nanosPerSecond

def declaredAge (body : ReceiptBody) : Option ℤ :=
  (c.parseDateTime body.issuedAt).bind fun issued =>
    (body.notAfter.bind c.parseDateTime).map fun notAfter => numSeconds (notAfter - issued)

def maxAgeReasons (policy : ReceiptGatePolicy) (body : ReceiptBody) :
    List (GateReason GateReasonCode) :=
  match policy.maxAgeSeconds, declaredAge c body with
  | some maxAge, some age =>
    if age > maxAge then
      [⟨.receiptExpired, "declared TTL " ++ toString age ++ "s exceeds policy max_age_seconds " ++
        toString maxAge⟩]
    else []
  | _, _ => []

def outside {α : Type} [BEq α] (allowed : List α) (value : α) : Bool :=
  !allowed.isEmpty && !allowed.contains value

def verdictReasons (policy : ReceiptGatePolicy) (body : ReceiptBody) :
    List (GateReason GateReasonCode) :=
  if outside policy.allowedVerdicts body.finding.verdict then
    [⟨.verdictNotAllowed, "verdict " ++ body.finding.verdict.debug ++
      " is not in the allowed set " ++ debugList (policy.allowedVerdicts.map Verdict.debug)⟩]
  else []

def actionReasons (policy : ReceiptGatePolicy) (body : ReceiptBody) :
    List (GateReason GateReasonCode) :=
  if outside policy.allowedActions body.recommendation.action then
    [⟨.recommendationNotAllowed, "action " ++ body.recommendation.action.debug ++
      " is not in the allowed set " ++
        debugList (policy.allowedActions.map RecommendationAction.debug)⟩]
  else []

def ReceiptGatePolicy.forbids (policy : ReceiptGatePolicy) (gap : ReceiptGap) : Bool :=
  policy.forbiddenGapKinds.any fun forbidden => forbidden.matchesKind gap.kind

def gapReasons (policy : ReceiptGatePolicy) (body : ReceiptBody) :
    List (GateReason GateReasonCode) :=
  (body.coverage.gaps.filter policy.forbids).map fun gap =>
    ⟨.criticalEvidenceGap, c.debugGapKind gap.kind ++ ": " ++ gap.detail⟩

def calibrationReasons (policy : ReceiptGatePolicy) (body : ReceiptBody) :
    List (GateReason GateReasonCode) :=
  if policy.requireCalibrationValid && body.calibration.state != .valid then
    [⟨.calibrationNotValid, "calibration state is " ++ c.debugCalibration body.calibration.state ++
      ", not Valid"⟩]
  else []

def receiptReasons (verified : VerifiedReceipt c) (policy : ReceiptGatePolicy) :
    List (GateReason GateReasonCode) :=
  signatureReasons policy verified.signature ++
    freshnessReasons c.toCrates receiptFreshnessCodes policy.requireExpiry verified.freshness ++
    maxAgeReasons c policy verified.receipt.body ++
    verdictReasons policy verified.receipt.body ++
    actionReasons policy verified.receipt.body ++
    gapReasons c policy verified.receipt.body ++
    calibrationReasons c policy verified.receipt.body

def outcomeOf : GateReasonCode → Option GateOutcome
  | .signatureRequiredButAbsent => some .hold
  | .signatureUnverifiable => some .hold
  | .noExpiryDeclared => some .hold
  | .allChecksSatisfied => none
  | .policyUncalibrated => none
  | _ => some .reject

def uncalibratedDetail : String :=
  "receipt gate policy is not calibrated (or names no allowed verdicts/actions) " ++
    "-- no threshold exists yet to judge this receipt against, and an empty check " ++
    "set must never silently resolve to Accept"

def evaluateReceiptGate (verified : VerifiedReceipt c) (policy : ReceiptGatePolicy) :
    Option (GateDecision GateReasonCode) :=
  if !policy.calibrated || (policy.allowedVerdicts.isEmpty && policy.allowedActions.isEmpty) then
    some ⟨.untested, [⟨.policyUncalibrated, uncalibratedDetail⟩]⟩
  else
    settle outcomeOf
      ⟨.allChecksSatisfied, "all checks satisfied under policy " ++ c.debugStr policy.policyName⟩
      (receiptReasons c verified policy)

section Acceptance

variable {c} {policy : ReceiptGatePolicy} {verified : VerifiedReceipt c}

structure ReceiptGatePolicy.Armed (policy : ReceiptGatePolicy) : Prop where
  calibrated : policy.calibrated = true
  allows : policy.allowedVerdicts ≠ [] ∨ policy.allowedActions ≠ []

def SignatureStatus.Passes (requireSignature : Bool) : SignatureStatus → Prop
  | .verified _ => True
  | .rejected _ => False
  | _ => requireSignature = false

variable {body : ReceiptBody} {status : SignatureStatus}

theorem SignatureStatus.Passes.not_rejected {requireSignature : Bool}
    (h : status.Passes requireSignature) : ∀ text, status ≠ .rejected text := by
  rintro text rfl
  exact h

theorem SignatureStatus.Passes.verified_of_required {requireSignature : Bool}
    (h : status.Passes requireSignature) (hrequire : requireSignature) :
    ∃ keyId, status = .verified keyId := by
  subst hrequire
  cases status with
  | verified keyId => exact ⟨keyId, rfl⟩
  | unsigned => cases h
  | unverifiable reason => cases h
  | rejected text => exact h.elim

structure Passed (c : ReceiptCrates) (verified : VerifiedReceipt c) (policy : ReceiptGatePolicy) :
    Prop where
  armed : policy.Armed
  signature : verified.signature.Passes policy.requireSignature
  freshness : verified.freshness.Passes policy.requireExpiry
  age : ∀ maxAge age, policy.maxAgeSeconds = some maxAge →
    declaredAge c verified.receipt.body = some age → age ≤ maxAge
  verdict : policy.allowedVerdicts = [] ∨
    verified.receipt.body.finding.verdict ∈ policy.allowedVerdicts
  action : policy.allowedActions = [] ∨
    verified.receipt.body.recommendation.action ∈ policy.allowedActions
  gaps : ∀ gap ∈ verified.receipt.body.coverage.gaps, policy.forbids gap = false
  calibration : policy.requireCalibrationValid = true →
    verified.receipt.body.calibration.state = .valid

theorem signatureReasons_eq_nil :
    signatureReasons policy status = [] ↔ status.Passes policy.requireSignature := by
  cases status <;> simp [signatureReasons, SignatureStatus.Passes]

theorem maxAgeReasons_eq_nil : maxAgeReasons c policy body = [] ↔
      ∀ maxAge age, policy.maxAgeSeconds = some maxAge → declaredAge c body = some age →
        age ≤ maxAge := by
  unfold maxAgeReasons
  cases policy.maxAgeSeconds <;> cases declaredAge c body <;> simp

theorem outside_eq_false {α : Type} [BEq α] [LawfulBEq α] {allowed : List α} {value : α} :
    outside allowed value = false ↔ allowed = [] ∨ value ∈ allowed := by
  rw [outside, Bool.and_eq_false_iff]
  simp

theorem verdictReasons_eq_nil : verdictReasons policy body = [] ↔
      policy.allowedVerdicts = [] ∨ body.finding.verdict ∈ policy.allowedVerdicts := by
  rw [← outside_eq_false]
  simp [verdictReasons]

theorem actionReasons_eq_nil : actionReasons policy body = [] ↔
      policy.allowedActions = [] ∨ body.recommendation.action ∈ policy.allowedActions := by
  rw [← outside_eq_false]
  simp [actionReasons]

theorem gapReasons_eq_nil :
    gapReasons c policy body = [] ↔ ∀ gap ∈ body.coverage.gaps, policy.forbids gap = false := by
  simp [gapReasons, filter_eq_nil_iff]

theorem calibrationReasons_eq_nil : calibrationReasons c policy body = [] ↔
      (policy.requireCalibrationValid → body.calibration.state = .valid) := by
  simp [calibrationReasons]

theorem receiptReasons_adverse (verified : VerifiedReceipt c) (policy : ReceiptGatePolicy) :
    ∀ r ∈ receiptReasons c verified policy, Adverse outcomeOf r := by
  intro r hr
  simp only [receiptReasons, mem_append, or_assoc] at hr
  rcases hr with hr | hr | hr | hr | hr | hr | hr
  · cases hstatus : verified.signature with
    | unsigned =>
      rw [hstatus] at hr
      exact adverse_of_check (.inl rfl) r hr
    | unverifiable reason =>
      rw [hstatus] at hr
      exact adverse_of_check (.inl rfl) r hr
    | verified keyId =>
      rw [hstatus] at hr
      cases hr
    | rejected text =>
      rw [hstatus] at hr
      rw [mem_singleton.mp hr]
      exact .inr rfl
  · exact freshnessReasons_adverse ⟨rfl, rfl, rfl, rfl⟩ _ r hr
  · unfold maxAgeReasons at hr
    split at hr
    · exact adverse_of_check (.inr rfl) r hr
    · cases hr
  · exact adverse_of_check (.inr rfl) r hr
  · exact adverse_of_check (.inr rfl) r hr
  · obtain ⟨gap, -, rfl⟩ := mem_map.mp hr
    exact .inr rfl
  · exact adverse_of_check (.inr rfl) r hr

theorem receiptReasons_eq_nil_iff (harmed : policy.Armed) :
    receiptReasons c verified policy = [] ↔ Passed c verified policy := by
  simp only [receiptReasons, append_eq_nil_iff, signatureReasons_eq_nil,
    freshnessReasons_eq_nil, maxAgeReasons_eq_nil, verdictReasons_eq_nil, actionReasons_eq_nil,
    gapReasons_eq_nil, calibrationReasons_eq_nil]
  constructor
  · rintro ⟨⟨⟨⟨⟨⟨hsig, hfresh⟩, hage⟩, hverdict⟩, haction⟩, hgaps⟩, hcal⟩
    exact ⟨harmed, hsig, hfresh, hage, hverdict, haction, hgaps, hcal⟩
  · intro h
    exact ⟨⟨⟨⟨⟨⟨h.signature, h.freshness⟩, h.age⟩, h.verdict⟩, h.action⟩, h.gaps⟩, h.calibration⟩

theorem not_armed_iff : ¬ policy.Armed ↔
    (!policy.calibrated || (policy.allowedVerdicts.isEmpty && policy.allowedActions.isEmpty)) =
      true := by
  constructor
  · intro h
    by_contra hfalse
    simp only [Bool.not_eq_true, Bool.or_eq_false_iff, Bool.not_eq_false', Bool.and_eq_false_iff,
      isEmpty_eq_false_iff] at hfalse
    exact h ⟨hfalse.1, hfalse.2⟩
  · rintro htrue ⟨hcal, hallows⟩
    rcases hallows with h | h <;> simp [hcal, h] at htrue

theorem evaluateReceiptGate_spec (verified : VerifiedReceipt c) (policy : ReceiptGatePolicy) :
    ∃ d, evaluateReceiptGate c verified policy = some d ∧
      (d.outcome = .accept ↔ Passed c verified policy) := by
  unfold evaluateReceiptGate
  by_cases harmed : policy.Armed
  · rw [if_neg fun htrue => not_armed_iff.mpr htrue harmed]
    obtain ⟨d, hd, haccept⟩ := settle_spec
      ⟨.allChecksSatisfied, "all checks satisfied under policy " ++ c.debugStr policy.policyName⟩
      (receiptReasons_adverse verified policy)
    exact ⟨d, hd, haccept.trans (receiptReasons_eq_nil_iff harmed)⟩
  · rw [if_pos (not_armed_iff.mp harmed)]
    refine ⟨_, rfl, ?_⟩
    constructor
    · intro h
      cases h
    · intro h
      exact absurd h.armed harmed

end Acceptance

/-- An accepted receipt was judged by a policy that says something, its signature was not
rejected, and where a signature is required the receipt is what the authenticated bytes decode
to. -/
theorem accepted_receipt_authenticated (c : ReceiptCrates) (bytes : Bytes)
    (trusted : Option TrustedVerificationKeys) (now : Instant) (policy : ReceiptGatePolicy)
    (verified : VerifiedReceipt c) (decision : GateDecision GateReasonCode)
    (hverify : verifyReceiptBytes c bytes trusted now = .ok verified)
    (hgate : evaluateReceiptGate c verified policy = some decision)
    (haccept : decision.outcome = .accept) :
    policy.calibrated = true ∧
    (policy.allowedVerdicts ≠ [] ∨ policy.allowedActions ≠ []) ∧
    (∀ text, verified.signature ≠ .rejected text) ∧
    (policy.requireSignature = true → ∃ keys env, trusted = some keys ∧
      verifyReceiptEnvelope c bytes keys now = .ok env ∧
      readIntegrityReceipt c env.payloadBytes = .ok verified.receipt ∧
      verified.signature = .verified env.verifiedBy) := by
  obtain ⟨d, hd, hpassed⟩ := evaluateReceiptGate_spec verified policy
  obtain rfl : decision = d := Option.some.inj (hgate.symm.trans hd)
  have hp := hpassed.mp haccept
  refine ⟨hp.armed.calibrated, hp.armed.allows, hp.signature.not_rejected, ?_⟩
  intro hrequire
  obtain ⟨keyId, hstatus⟩ := hp.signature.verified_of_required hrequire
  obtain ⟨top, -, hread, -⟩ := verifyReceiptBytes_ok hverify
  rw [hstatus] at hread
  obtain ⟨keys, env, htrusted, hauth, rfl⟩ := readArtifact_verified hread
  exact ⟨keys, env, htrusted, hauth.accepted, hauth.decoded, hstatus⟩

/-! An envelope that passes: the payload text `p` decodes to one byte, which the key signed. -/

def labBody : ReceiptBody where
  receiptSchemaVersion := 1
  receiptId := 7
  issuer := "fornax"
  homeIdentity := "home"
  issuedAt := "t0"
  notAfter := some "t1"
  embedPolicy := .referenceOnly
  claim := ⟨1, "s1", "command_succeeded", "f", "t0"⟩
  finding := ⟨.verified, .corroborated, false, 1, 0, [], "fusion", 1, "t0"⟩
  recommendation := ⟨.proceed, .balanced, "decision", 1⟩
  coverage := ⟨"root", [], [], [], [], []⟩
  provenance := ⟨1, "codex", none, 1, [], "fusion", 1, "decision", 1, 1, [], none, none, none⟩
  calibration := ⟨.noActiveCalibration, 1⟩

def labEnvelope : SignedIntegrityReceipt := ⟨1, "p", [⟨"k1", .ed25519, "s"⟩]⟩

def labKeys : TrustedVerificationKeys := ⟨1, [⟨"k1", .ed25519, "k", none, none, none⟩]⟩

def labReader : ReceiptCrates :=
  { ReceiptCrates.stub with
    parseDateTime := fun text => if text = "t0" then some 0 else some nanosPerSecond
    decodeBase64 := fun text =>
      .ok (if text = "p" then [1] else replicate (if text = "k" then 32 else 64) 0)
    isVerifyingKey := fun _ => true
    verifyStrict := fun _ message _ => message == receiptSigningDomain ++ [1]
    readValue := fun _ => .ok (.object [("payload_b64", .string "p")])
    readSignedReceipt := fun _ => .ok labEnvelope
    readReceipt := fun _ => .ok ⟨labBody, "sha256:"⟩ }

def labPolicy : ReceiptGatePolicy :=
  { ReceiptGatePolicy.requireProceedNoCriticalGaps with requireSignature := true }

theorem labReader_accepts : ∃ (verified : VerifiedReceipt labReader)
    (d : GateDecision GateReasonCode),
    verifyReceiptBytes labReader [] (some labKeys) 0 = .ok verified ∧
      evaluateReceiptGate labReader verified labPolicy = some d ∧ d.outcome = .accept ∧
        verified.receipt.body = labBody := by
  have h : (verifyReceiptBytes labReader [] (some labKeys) 0).map (fun v =>
      ((evaluateReceiptGate labReader v labPolicy).map GateDecision.outcome, v.receipt.body)) =
        .ok (some .accept, labBody) := by
    decide +kernel
  obtain ⟨verified, hverified, heval⟩ := Fallible.map_eq_ok.mp h
  obtain ⟨hgate, hbody⟩ := Prod.mk.inj heval
  obtain ⟨d, hd, haccept⟩ := Option.map_eq_some_iff.mp hgate
  exact ⟨verified, d, hverified, hd, haccept, hbody⟩

theorem accepted_receipt_authenticated_labReader :
    ∃ verified : VerifiedReceipt labReader,
      verifyReceiptBytes labReader [] (some labKeys) 0 = .ok verified ∧
      verified.receipt.body = labBody ∧
      ∃ keys env, some labKeys = some keys ∧ verifyReceiptEnvelope labReader [] keys 0 = .ok env ∧
        readIntegrityReceipt labReader env.payloadBytes = .ok verified.receipt ∧
        verified.signature = .verified env.verifiedBy := by
  obtain ⟨verified, d, hverified, hd, haccept, hbody⟩ := labReader_accepts
  exact ⟨verified, hverified, hbody, (accepted_receipt_authenticated labReader [] (some labKeys) 0
    labPolicy verified d hverified hd haccept).2.2.2 rfl⟩

theorem Freshness.Passes.window {c : ReceiptCrates} {issuedAt : String} {notAfter : Option String}
    {now : Instant} {requireExpiry : Bool}
    (h : (assessFreshnessOf c issuedAt notAfter now).Passes requireExpiry) :
    ∃ issued, c.parseDateTime issuedAt = some issued ∧
      ((notAfter = none ∧ requireExpiry = false) ∨
        ∃ expiry, notAfter.bind c.parseDateTime = some expiry ∧
          now ≤ expiry + receiptClockSkewToleranceSeconds * nanosPerSecond) := by
  unfold assessFreshnessOf at h
  split at h
  · exact h.elim
  · rename_i issued hissued
    refine ⟨issued, hissued, ?_⟩
    split at h
    · exact h.elim
    · cases notAfter with
      | none => exact .inl ⟨rfl, h⟩
      | some text =>
        simp only [assessExpiryOf] at h
        split at h
        · exact h.elim
        · rename_i expiry hexpiry
          split at h
          · exact h.elim
          · rename_i hpast
            exact .inr ⟨expiry, hexpiry, not_lt.mp hpast⟩

theorem numSeconds_le_add {ttl age m tolerance : ℤ} (hle : numSeconds ttl ≤ m)
    (htolerance : 0 ≤ tolerance) (hage : age ≤ ttl + tolerance * nanosPerSecond) :
    numSeconds age ≤ m + tolerance := by
  have hsign : Int.sign 1000000000 = 1 := rfl
  simp only [numSeconds, nanosPerSecond, Int.tdiv_eq_ediv, hsign] at *
  split_ifs at * <;> omega

/-- The age of an accepted receipt is bounded in whole seconds, as its declared lifetime is, unless
it declares no expiry and none is required. -/
theorem accepted_receipt_age (c : ReceiptCrates) (bytes : Bytes)
    (trusted : Option TrustedVerificationKeys) (now : Instant) (policy : ReceiptGatePolicy)
    (verified : VerifiedReceipt c) (decision : GateDecision GateReasonCode) (m : ℤ)
    (hverify : verifyReceiptBytes c bytes trusted now = .ok verified)
    (hgate : evaluateReceiptGate c verified policy = some decision)
    (haccept : decision.outcome = .accept) (hmax : policy.maxAgeSeconds = some m) :
    ∃ issued, c.parseDateTime verified.receipt.body.issuedAt = some issued ∧
      (policy.requireExpiry = true ∨ verified.receipt.body.notAfter ≠ none →
        numSeconds (now - issued) ≤ m + receiptClockSkewToleranceSeconds) := by
  obtain ⟨d, hd, hpassed⟩ := evaluateReceiptGate_spec verified policy
  obtain rfl : decision = d := Option.some.inj (hgate.symm.trans hd)
  have hp := hpassed.mp haccept
  obtain ⟨top, -, -, hfresh⟩ := verifyReceiptBytes_ok hverify
  have hwindow := hp.freshness
  rw [hfresh] at hwindow
  obtain ⟨issued, hissued, hcases⟩ := Freshness.Passes.window hwindow
  refine ⟨issued, hissued, fun hdeclared => ?_⟩
  rcases hcases with ⟨hnone, hoptional⟩ | ⟨expiry, hexpiry, hnow⟩
  · rw [hnone, hoptional] at hdeclared
    simp at hdeclared
  · have httl : numSeconds (expiry - issued) ≤ m :=
      hp.age m _ hmax (by rw [declaredAge, hissued, hexpiry]; rfl)
    exact numSeconds_le_add httl (by decide) (by linarith)

theorem accepted_receipt_age_labReader :
    numSeconds (0 - 0) ≤ defaultReceiptTtlSeconds + receiptClockSkewToleranceSeconds := by
  obtain ⟨verified, d, hverified, hd, haccept, hbody⟩ := labReader_accepts
  obtain ⟨issued, hissued, hage⟩ := accepted_receipt_age labReader [] (some labKeys) 0 labPolicy
    verified d defaultReceiptTtlSeconds hverified hd haccept rfl
  rw [hbody] at hissued
  cases hissued
  exact hage (.inl rfl)

/-- A receipt without an expiry is accepted a day and six minutes after its issue, under a maximum
age of one day. -/
theorem undeclared_expiry_unbounded :
    let c := { labReader with
      readReceipt := fun _ => .ok ⟨{ labBody with notAfter := none }, "sha256:"⟩ }
    let now := (24 * 60 * 60 + 360) * nanosPerSecond
    (verifyReceiptBytes c [] (some labKeys) now).map (fun v =>
        ((evaluateReceiptGate c v { labPolicy with requireExpiry := false }).map
          GateDecision.outcome, c.parseDateTime v.receipt.body.issuedAt)) =
      .ok (some .accept, some 0) ∧
    numSeconds (now - 0) > defaultReceiptTtlSeconds + receiptClockSkewToleranceSeconds := by
  decide +kernel

end Fornax.Receipt
