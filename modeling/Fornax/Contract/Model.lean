import Fornax.Policy.Content

namespace Fornax

structure ClaimClassId where
  name : String
  version : UInt32
  deriving DecidableEq, Repr

namespace ClaimClassId

def sortKey (c : ClaimClassId) : String ×ₗ ℕ := toLex (c.name, c.version.toNat)

theorem sortKey_injective : Function.Injective sortKey := by
  intro a b h
  obtain ⟨hn, hv⟩ := Prod.mk.inj (congrArg ofLex h)
  obtain ⟨an, av⟩ := a
  obtain ⟨bn, bv⟩ := b
  rw [ClaimClassId.mk.injEq]
  exact ⟨hn, UInt32.toNat_inj.mp hv⟩

instance : LinearOrder ClaimClassId := LinearOrder.lift' sortKey sortKey_injective

end ClaimClassId

inductive SatisfactionState
  | satisfied
  | unsatisfied
  | unavailable
  | stale
  | contradicted
  | notApplicable
  | unknown
  | unrecognized (tag : String)
  deriving DecidableEq, Repr

inductive RequirementLevel
  | required
  | recommended
  | conditional (condition : String)
  deriving DecidableEq, Repr

def RequirementLevel.strictnessRank : RequirementLevel → ℕ
  | .required => 2
  | .recommended | .conditional _ => 1

inductive IndependenceRule
  | none
  | mustBeIndependentOf (otherIds : List String)
  deriving DecidableEq, Repr

structure EvidenceRequirement where
  id : String
  level : RequirementLevel
  evidenceKind : EvidenceKind
  acceptableTrustClasses : List TrustClass
  freshness : FreshnessWindow
  independence : IndependenceRule
  minItems : UInt32
  capabilityPrerequisites : List SignalClass := []
  deriving DecidableEq, Repr

structure EpistemicContract where
  claimClass : ClaimClassId
  parent : Option ClaimClassId
  requirements : List EvidenceRequirement
  deriving DecidableEq, Repr

inductive ContractError
  | weakenedRequirement (claimClass : ClaimClassId) (requirementId reason : String)
  | unsatisfiableRequirement (claimClass : ClaimClassId) (requirementId reason : String)
  | inheritanceCycle (claimClass : ClaimClassId)
  | missingParent (claimClass parent : ClaimClassId)
  deriving DecidableEq, Repr

def validateRequirement (claimClass : ClaimClassId) (req : EvidenceRequirement) :
    Except ContractError Unit :=
  if req.level = .required ∧ req.acceptableTrustClasses = [] then
    .error (.unsatisfiableRequirement claimClass req.id
      "Required requirement names zero acceptable trust classes")
  else if req.minItems = 0 then
    .error (.unsatisfiableRequirement claimClass req.id "min_coverage.min_items must be at least 1")
  else .ok ()

def EpistemicContract.validate (c : EpistemicContract) : Except ContractError Unit :=
  c.requirements.forM (validateRequirement c.claimClass)

structure ContractRegistry where
  contracts : OrdMap ClaimClassId EpistemicContract
  keyed : ∀ k c, contracts.get? k = some c → c.claimClass = k
  valid : ∀ k c, contracts.get? k = some c → c.validate = .ok ()

namespace ContractRegistry

def empty : ContractRegistry := ⟨OrdMap.empty, by simp, by simp⟩

def register (r : ContractRegistry) (c : EpistemicContract) :
    Except ContractError ContractRegistry :=
  match h : c.validate with
  | .error e => .error e
  | .ok () => .ok
    { contracts := r.contracts.insert c.claimClass c
      keyed := by
        intro k d hd
        rw [OrdMap.get?_insert] at hd
        split at hd
        · next hk => rw [← Option.some.inj hd, hk]
        · exact r.keyed k d hd
      valid := by
        intro k d hd
        rw [OrdMap.get?_insert] at hd
        split at hd
        · rw [← Option.some.inj hd, h]
        · exact r.valid k d hd }

def registerAll (r : ContractRegistry) (cs : List EpistemicContract) :
    Except ContractError ContractRegistry :=
  cs.foldlM register r

end ContractRegistry

def checkOverride (claimClass : ClaimClassId) (parentReq req : EvidenceRequirement) :
    Except ContractError Unit :=
  if req.level.strictnessRank < parentReq.level.strictnessRank then
    .error (.weakenedRequirement claimClass req.id
      "child requirement level is weaker than the inherited level")
  else if req.minItems < parentReq.minItems then
    .error (.weakenedRequirement claimClass req.id
      "child min_coverage is lower than the inherited min_coverage")
  else if parentReq.level = .required ∧
      ¬ ∀ t ∈ parentReq.acceptableTrustClasses, t ∈ req.acceptableTrustClasses then
    .error (.weakenedRequirement claimClass req.id
      ("child acceptable_trust_classes drops a trust class the inherited Required requirement " ++
        "accepted"))
  else .ok ()

def mergeRequirement (claimClass : ClaimClassId) (parent : OrdMap String EvidenceRequirement)
    (merged : OrdMap String EvidenceRequirement) (req : EvidenceRequirement) :
    Except ContractError (OrdMap String EvidenceRequirement) :=
  match parent.get? req.id with
  | some parentReq => do
    checkOverride claimClass parentReq req
    return merged.insert req.id req
  | none => .ok (merged.insert req.id req)

def compose (claimClass : ClaimClassId) (parent : OrdMap String EvidenceRequirement)
    (own : List EvidenceRequirement) : Except ContractError (OrdMap String EvidenceRequirement) :=
  own.foldlM (mergeRequirement claimClass parent) parent

namespace ContractRegistry

/-- The chain `[start, .., root]`; it stops when it is longer than the registry, so `size + 1`
iterations suffice. -/
def walkParents (r : ContractRegistry) (start : ClaimClassId) :
    ℕ → ClaimClassId → List ClaimClassId → Except ContractError (List ClaimClassId)
  | 0, _, _ => .error (.inheritanceCycle start)
  | fuel + 1, current, chain =>
    match r.contracts.get? current with
    | none => .error (.missingParent (chain.getLast?.getD start) current)
    | some contract =>
      let chain := chain ++ [current]
      if chain.length > r.contracts.size then .error (.inheritanceCycle start)
      else
        match contract.parent with
        | some parent =>
          if parent ∈ chain then .error (.inheritanceCycle start)
          else walkParents r start fuel parent chain
        | none => .ok chain

def parentChain (r : ContractRegistry) (claimClass : ClaimClassId) :
    Except ContractError (List ClaimClassId) :=
  r.walkParents claimClass (r.contracts.size + 1) claimClass []

def composeClass (r : ContractRegistry) (merged : OrdMap String EvidenceRequirement)
    (cc : ClaimClassId) : Except ContractError (OrdMap String EvidenceRequirement) :=
  match r.contracts.get? cc with
  | some contract => compose cc merged contract.requirements
  | none => .ok merged

def composeChain (r : ContractRegistry) (chain : List ClaimClassId) :
    Except ContractError (OrdMap String EvidenceRequirement) :=
  chain.reverse.foldlM r.composeClass OrdMap.empty

def effectiveRequirements (r : ContractRegistry) (claimClass : ClaimClassId) :
    Except ContractError (List EvidenceRequirement) := do
  let chain ← r.parentChain claimClass
  let merged ← r.composeChain chain
  return merged.values

end ContractRegistry

inductive RejectionReason
  | wrongTrustClass
  | stale
  | indeterminateFreshness
  | claimedByIndependentRequirement
  deriving DecidableEq, Repr

structure RejectedEvidence where
  evidenceId : Uuid
  reason : RejectionReason
  deriving DecidableEq, Repr

structure RequirementAssessment where
  requirementId : String
  level : RequirementLevel
  state : SatisfactionState
  matchedEvidence : List Uuid
  rejectedEvidence : List RejectedEvidence
  deriving DecidableEq, Repr

structure ClaimAssessment where
  claimClass : ClaimClassId
  perRequirement : List RequirementAssessment
  overall : SatisfactionState
  deriving DecidableEq, Repr

/-- What one item of the required kind counts as; `none` for another kind. -/
inductive ItemOutcome
  | qualifies
  | rejected (reason : RejectionReason)
  deriving DecidableEq, Repr

section

variable (rfc3339 : String → Option Instant) (claim : Claim)
  (trustClassOf : Evidence → Option TrustClass)

def classifyItem (req : EvidenceRequirement) (excluded : OrdSet Uuid) (ev : Evidence) :
    Option ItemOutcome :=
  if ev.kind ≠ req.evidenceKind then none
  else if excluded.contains ev.id then some (.rejected .claimedByIndependentRequirement)
  else
    let trustOk := match trustClassOf ev with
      | some tc => decide (tc ∈ req.acceptableTrustClasses)
      | none => false
    if trustOk = false then some (.rejected .wrongTrustClass)
    else match stalenessOf rfc3339 ev claim req.freshness with
      | .stale _ => some (.rejected .stale)
      | .indeterminate _ => some (.rejected .indeterminateFreshness)
      | .fresh _ | .notTimeSensitive => some .qualifies

structure Evaluation where
  state : SatisfactionState
  matched : List Uuid
  rejected : List RejectedEvidence
  deriving DecidableEq, Repr

def qualifyingItems (req : EvidenceRequirement) (evidence : List Evidence)
    (excluded : OrdSet Uuid) : List Evidence :=
  evidence.filter fun ev =>
    classifyItem rfc3339 claim trustClassOf req excluded ev = some .qualifies

def rejectedItems (req : EvidenceRequirement) (evidence : List Evidence)
    (excluded : OrdSet Uuid) : List RejectedEvidence :=
  evidence.filterMap fun ev =>
    match classifyItem rfc3339 claim trustClassOf req excluded ev with
    | some (.rejected reason) => some ⟨ev.id, reason⟩
    | _ => none

/-- The length is compared as a `u32`; only the items needed are matched. -/
def evaluateRequirement (req : EvidenceRequirement) (evidence : List Evidence)
    (excluded : OrdSet Uuid) : Evaluation :=
  let qualifying := qualifyingItems rfc3339 claim trustClassOf req evidence excluded
  let rejected := rejectedItems rfc3339 claim trustClassOf req evidence excluded
  let saw := fun reason => rejected.any fun r => r.reason == reason
  { state :=
      if UInt32.ofNat qualifying.length ≥ req.minItems then .satisfied
      else if saw .stale || saw .indeterminateFreshness then .stale
      else if saw .wrongTrustClass || saw .claimedByIndependentRequirement then .unsatisfied
      else .unavailable
    matched := (qualifying.take (min req.minItems.toNat qualifying.length)).map (·.id)
    rejected }

def RequirementLevel.applicable (conditionsMet : List String) : RequirementLevel → Bool
  | .conditional condition => decide (condition ∈ conditionsMet)
  | .required | .recommended => true

def RequirementLevel.blocking (conditionsMet : List String) : RequirementLevel → Bool
  | .conditional condition => decide (condition ∈ conditionsMet)
  | .required => true
  | .recommended => false

def unconstrainedQualifying (requirements : List EvidenceRequirement) (evidence : List Evidence)
    (conditionsMet : List String) : OrdMap String (List Uuid) :=
  OrdMap.ofList (requirements.filterMap fun req =>
    if req.level.applicable conditionsMet then
      some (req.id, (evaluateRequirement rfc3339 claim trustClassOf req evidence
        OrdSet.empty).matched)
    else none)

def IndependenceRule.excluded (unconstrained : OrdMap String (List Uuid)) :
    IndependenceRule → OrdSet Uuid
  | .none => OrdSet.empty
  | .mustBeIndependentOf otherIds =>
    OrdSet.ofList (otherIds.flatMap fun id => (unconstrained.get? id).getD [])

def assessRequirement (unconstrained : OrdMap String (List Uuid)) (evidence : List Evidence)
    (conditionsMet : List String) (req : EvidenceRequirement) : RequirementAssessment :=
  let result : Evaluation :=
    if req.level.applicable conditionsMet then
      evaluateRequirement rfc3339 claim trustClassOf req evidence
        (req.independence.excluded unconstrained)
    else ⟨.notApplicable, [], []⟩
  { requirementId := req.id
    level := req.level
    state := result.state
    matchedEvidence := result.matched
    rejectedEvidence := result.rejected }

def SatisfactionState.rank : SatisfactionState → ℕ
  | .contradicted => 4
  | .stale => 3
  | .unsatisfied => 2
  | .unavailable => 1
  | _ => 0

def higherRank (best : Option SatisfactionState) (s : SatisfactionState) :
    Option SatisfactionState :=
  match best with
  | none => some s
  | some b => if b.rank ≤ s.rank then some s else some b

def maxByRank : List SatisfactionState → Option SatisfactionState := List.foldl higherRank none

def RequirementAssessment.reportable (ra : RequirementAssessment) : Bool :=
  (match ra.level with
    | .required | .conditional _ => true
    | .recommended => false) && ra.state != .satisfied && ra.state != .notApplicable

/-- `any_required_blocking` is computed from the requirement's own level. -/
def overallState (conditionsMet : List String) (perRequirement : List RequirementAssessment) :
    SatisfactionState :=
  if perRequirement.any fun ra => ra.level.blocking conditionsMet && ra.state != .satisfied then
    (maxByRank ((perRequirement.filter RequirementAssessment.reportable).map (·.state))).getD
      .unsatisfied
  else .satisfied

def assessRequirements (requirements : List EvidenceRequirement) (evidence : List Evidence)
    (conditionsMet : List String) : List RequirementAssessment :=
  let unconstrained :=
    unconstrainedQualifying rfc3339 claim trustClassOf requirements evidence conditionsMet
  requirements.map (assessRequirement rfc3339 claim trustClassOf unconstrained evidence
    conditionsMet)

def assessClaim (registry : ContractRegistry) (claimClass : ClaimClassId)
    (evidence : List Evidence) (conditionsMet : List String) :
    Except ContractError ClaimAssessment :=
  match registry.contracts.get? claimClass with
  | none => .ok ⟨claimClass, [], .unknown⟩
  | some _ => do
    let requirements ← registry.effectiveRequirements claimClass
    let perRequirement :=
      assessRequirements rfc3339 claim trustClassOf requirements evidence conditionsMet
    return ⟨claimClass, perRequirement, overallState conditionsMet perRequirement⟩

end

end Fornax
