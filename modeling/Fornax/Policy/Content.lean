import Fornax.Evidence.Types
import Fornax.Lib.SortDedup

namespace Fornax

def jsonEscape (c : Char) : List Char :=
  if c = '"' then ['\\', '"']
  else if c = '\\' then ['\\', '\\']
  else if c.toNat = 8 then ['\\', 'b']
  else if c.toNat = 9 then ['\\', 't']
  else if c.toNat = 10 then ['\\', 'n']
  else if c.toNat = 12 then ['\\', 'f']
  else if c.toNat = 13 then ['\\', 'r']
  else if c.toNat < 32 then ['\\', 'u', '0', '0'] ++ hexDigits 2 c.toNat
  else [c]

def jsonQuote (s : String) : String :=
  String.ofList ('"' :: (s.toList.flatMap jsonEscape ++ ['"']))

inductive SignalClass
  | toolInvocation
  | toolTrace
  | toolResultPayload
  | processResult
  | sessionLifecycle
  | subagentLifecycle
  | finalResponse
  | reasoningSummary
  | rawReasoning
  | tokenLogprobs
  | internalModelSignals
  | unrecognized (tag : String)
  deriving DecidableEq, Repr

def SignalClass.wireTag : SignalClass → String
  | .toolInvocation => "tool_invocation"
  | .toolTrace => "tool_trace"
  | .toolResultPayload => "tool_result_payload"
  | .processResult => "process_result"
  | .sessionLifecycle => "session_lifecycle"
  | .subagentLifecycle => "subagent_lifecycle"
  | .finalResponse => "final_response"
  | .reasoningSummary => "reasoning_summary"
  | .rawReasoning => "raw_reasoning"
  | .tokenLogprobs => "token_logprobs"
  | .internalModelSignals => "internal_model_signals"
  | .unrecognized tag => tag

def signalClassSortKey (c : SignalClass) : String := jsonQuote c.wireTag

inductive ActionClass
  | codeEdit
  | shellCommand
  | versionControlWrite
  | networkFetch
  | packageInstall
  | credentialAccess
  | infrastructureMutation
  | dataEgress
  | unrecognized (tag : String)
  deriving Repr

namespace ActionClass

def sortKey : ActionClass → ℕ ×ₗ String
  | .codeEdit => toLex (0, "")
  | .shellCommand => toLex (1, "")
  | .versionControlWrite => toLex (2, "")
  | .networkFetch => toLex (3, "")
  | .packageInstall => toLex (4, "")
  | .credentialAccess => toLex (5, "")
  | .infrastructureMutation => toLex (6, "")
  | .dataEgress => toLex (7, "")
  | .unrecognized tag => toLex (8, tag)

theorem sortKey_injective : Function.Injective sortKey := by
  intro a b h
  cases a <;> cases b <;> simp_all [sortKey]

instance : LinearOrder ActionClass := LinearOrder.lift' sortKey sortKey_injective

end ActionClass

inductive RiskClass
  | low
  | elevated
  | high
  | critical
  deriving Repr

namespace RiskClass

def rank : RiskClass → ℕ
  | .low => 0
  | .elevated => 1
  | .high => 2
  | .critical => 3

theorem rank_injective : Function.Injective rank := by
  intro a b h
  cases a <;> cases b <;> first | rfl | cases h

instance : LinearOrder RiskClass := LinearOrder.lift' rank rank_injective

end RiskClass

/-- Strictness order `Allow < ObserveOnly < Warn < Block`. -/
inductive EnforcementOutcome
  | allow
  | observeOnly
  | warn
  | block
  deriving Repr

namespace EnforcementOutcome

def rank : EnforcementOutcome → ℕ
  | .allow => 0
  | .observeOnly => 1
  | .warn => 2
  | .block => 3

theorem rank_injective : Function.Injective rank := by
  intro a b h
  cases a <;> cases b <;> first | rfl | cases h

instance : LinearOrder EnforcementOutcome := LinearOrder.lift' rank rank_injective

end EnforcementOutcome

structure VerdictOutcomes where
  verified : EnforcementOutcome
  unverified : EnforcementOutcome
  contradicted : EnforcementOutcome
  review : EnforcementOutcome
  unavailable : EnforcementOutcome
  deriving DecidableEq, Repr

def VerdictOutcomes.uniform (o : EnforcementOutcome) : VerdictOutcomes := ⟨o, o, o, o, o⟩

def VerdictOutcomes.meet (a b : VerdictOutcomes) : VerdictOutcomes where
  verified := max a.verified b.verified
  unverified := max a.unverified b.unverified
  contradicted := max a.contradicted b.contradicted
  review := max a.review b.review
  unavailable := max a.unavailable b.unavailable

inductive RedactionProfile
  | standard
  | strict
  deriving Repr

namespace RedactionProfile

def rank : RedactionProfile → ℕ
  | .standard => 0
  | .strict => 1

theorem rank_injective : Function.Injective rank := by
  intro a b h
  cases a <;> cases b <;> first | rfl | cases h

instance : LinearOrder RedactionProfile := LinearOrder.lift' rank rank_injective

end RedactionProfile

inductive EgressContentClass
  | findingVerdicts
  | claimText
  | evidenceMetadata
  | redactedEvidencePayload
  | capabilityDeclarations
  | unrecognized (tag : String)
  deriving Repr

namespace EgressContentClass

def sortKey : EgressContentClass → ℕ ×ₗ String
  | .findingVerdicts => toLex (0, "")
  | .claimText => toLex (1, "")
  | .evidenceMetadata => toLex (2, "")
  | .redactedEvidencePayload => toLex (3, "")
  | .capabilityDeclarations => toLex (4, "")
  | .unrecognized tag => toLex (5, tag)

theorem sortKey_injective : Function.Injective sortKey := by
  intro a b h
  cases a <;> cases b <;> simp_all [sortKey]

instance : LinearOrder EgressContentClass := LinearOrder.lift' sortKey sortKey_injective

end EgressContentClass

structure EnforcementRule where
  actionClass : ActionClass
  riskClass : RiskClass
  outcomes : VerdictOutcomes
  deriving DecidableEq, Repr

structure RiskClassSeconds where
  low : ℕ
  elevated : ℕ
  high : ℕ
  critical : ℕ
  deriving DecidableEq, Repr

def RiskClassSeconds.meet (a b : RiskClassSeconds) : RiskClassSeconds where
  low := min a.low b.low
  elevated := min a.elevated b.elevated
  high := min a.high b.high
  critical := min a.critical b.critical

/-- `none` means that the layer does not speak to the field. -/
structure PolicyContent where
  longitudinalAggregationAllowed : Option Bool
  cloudSyncAllowed : Option Bool
  redactionProfile : Option RedactionProfile
  allowedContent : Option (OrdSet EgressContentClass)
  sensorsDisabled : Option (OrdSet String)
  requiredSignals : Option (List SignalClass)
  enforcementRules : Option (List EnforcementRule)
  maxAgeSecondsByRisk : Option RiskClassSeconds
  offlineGraceSeconds : Option ℕ
  deriving DecidableEq

structure ResolvedValues where
  longitudinalAggregationAllowed : Bool
  cloudSyncAllowed : Bool
  redactionProfile : RedactionProfile
  allowedContent : OrdSet EgressContentClass
  sensorsDisabled : OrdSet String
  sensorsRequiredSignals : List SignalClass
  enforcementRules : List EnforcementRule
  cacheMaxAgeSecondsByRisk : RiskClassSeconds
  cacheOfflineGraceSeconds : ℕ
  deriving DecidableEq

def PolicyContent.unset : PolicyContent :=
  ⟨none, none, none, none, none, none, none, none, none⟩

def PolicyContent.baseline : ResolvedValues where
  longitudinalAggregationAllowed := false
  cloudSyncAllowed := false
  redactionProfile := .standard
  allowedContent := OrdSet.empty
  sensorsDisabled := OrdSet.empty
  sensorsRequiredSignals := []
  enforcementRules := []
  cacheMaxAgeSecondsByRisk := ⟨86400, 21600, 3600, 900⟩
  cacheOfflineGraceSeconds := 604800

def normalizeSignalClasses (classes : List SignalClass) : List SignalClass :=
  SortDedup.sortDedup signalClassSortKey classes

def unionSignalClasses (a b : List SignalClass) : List SignalClass :=
  normalizeSignalClasses (a ++ b)

inductive PolicyFieldId
  | collectionLongitudinalAggregationAllowed
  | egressCloudSyncAllowed
  | egressRedactionProfile
  | egressAllowedContent
  | sensorsDisabled
  | sensorsRequiredSignals
  | enforcementRules
  | cacheMaxAgeByRisk
  | cacheOfflineGraceSeconds
  | unrecognized (tag : String)
  deriving Repr

namespace PolicyFieldId

def sortKey : PolicyFieldId → ℕ ×ₗ String
  | .collectionLongitudinalAggregationAllowed => toLex (0, "")
  | .egressCloudSyncAllowed => toLex (1, "")
  | .egressRedactionProfile => toLex (2, "")
  | .egressAllowedContent => toLex (3, "")
  | .sensorsDisabled => toLex (4, "")
  | .sensorsRequiredSignals => toLex (5, "")
  | .enforcementRules => toLex (6, "")
  | .cacheMaxAgeByRisk => toLex (7, "")
  | .cacheOfflineGraceSeconds => toLex (8, "")
  | .unrecognized tag => toLex (9, tag)

theorem sortKey_injective : Function.Injective sortKey := by
  intro a b h
  cases a <;> cases b <;> simp_all [sortKey]

instance : LinearOrder PolicyFieldId := LinearOrder.lift' sortKey sortKey_injective

def all : List PolicyFieldId :=
  [.collectionLongitudinalAggregationAllowed, .egressCloudSyncAllowed, .egressRedactionProfile,
    .egressAllowedContent, .sensorsDisabled, .sensorsRequiredSignals, .enforcementRules,
    .cacheMaxAgeByRisk, .cacheOfflineGraceSeconds]

def debug : PolicyFieldId → String
  | .collectionLongitudinalAggregationAllowed => "CollectionLongitudinalAggregationAllowed"
  | .egressCloudSyncAllowed => "EgressCloudSyncAllowed"
  | .egressRedactionProfile => "EgressRedactionProfile"
  | .egressAllowedContent => "EgressAllowedContent"
  | .sensorsDisabled => "SensorsDisabled"
  | .sensorsRequiredSignals => "SensorsRequiredSignals"
  | .enforcementRules => "EnforcementRules"
  | .cacheMaxAgeByRisk => "CacheMaxAgeByRisk"
  | .cacheOfflineGraceSeconds => "CacheOfflineGraceSeconds"
  | .unrecognized tag => "Unrecognized(" ++ jsonQuote tag ++ ")"

def isAccumulate : PolicyFieldId → Bool
  | .sensorsDisabled | .sensorsRequiredSignals => true
  | _ => false

end PolicyFieldId

inductive FieldValue
  | bool (b : Bool)
  | redactionProfile (r : RedactionProfile)
  | allowedContent (s : OrdSet EgressContentClass)
  | sensorsDisabled (s : OrdSet String)
  | requiredSignals (l : List SignalClass)
  | enforcementRules (l : List EnforcementRule)
  | cacheMaxAgeByRisk (s : RiskClassSeconds)
  | cacheOfflineGraceSeconds (n : ℕ)
  deriving DecidableEq

def sortRules (rules : List EnforcementRule) : List EnforcementRule :=
  rules.insertionSort fun a b => a.actionClass ≤ b.actionClass

def getField (content : PolicyContent) : PolicyFieldId → Option FieldValue
  | .collectionLongitudinalAggregationAllowed =>
    content.longitudinalAggregationAllowed.map .bool
  | .egressCloudSyncAllowed => content.cloudSyncAllowed.map .bool
  | .egressRedactionProfile => content.redactionProfile.map .redactionProfile
  | .egressAllowedContent => content.allowedContent.map .allowedContent
  | .sensorsDisabled => content.sensorsDisabled.map .sensorsDisabled
  | .sensorsRequiredSignals =>
    content.requiredSignals.map fun v => .requiredSignals (normalizeSignalClasses v)
  | .enforcementRules => content.enforcementRules.map fun v => .enforcementRules (sortRules v)
  | .cacheMaxAgeByRisk => content.maxAgeSecondsByRisk.map .cacheMaxAgeByRisk
  | .cacheOfflineGraceSeconds => content.offlineGraceSeconds.map .cacheOfflineGraceSeconds
  | .unrecognized _ => none

def applyFieldToResolved (values : ResolvedValues) : PolicyFieldId → FieldValue → ResolvedValues
  | .collectionLongitudinalAggregationAllowed, .bool b =>
    { values with longitudinalAggregationAllowed := b }
  | .egressCloudSyncAllowed, .bool b => { values with cloudSyncAllowed := b }
  | .egressRedactionProfile, .redactionProfile r => { values with redactionProfile := r }
  | .egressAllowedContent, .allowedContent s => { values with allowedContent := s }
  | .sensorsDisabled, .sensorsDisabled s => { values with sensorsDisabled := s }
  | .sensorsRequiredSignals, .requiredSignals l => { values with sensorsRequiredSignals := l }
  | .enforcementRules, .enforcementRules l => { values with enforcementRules := l }
  | .cacheMaxAgeByRisk, .cacheMaxAgeByRisk s => { values with cacheMaxAgeSecondsByRisk := s }
  | .cacheOfflineGraceSeconds, .cacheOfflineGraceSeconds n =>
    { values with cacheOfflineGraceSeconds := n }
  | _, _ => values

def ResolvedValues.field (values : ResolvedValues) : PolicyFieldId → Option FieldValue
  | .collectionLongitudinalAggregationAllowed => some (.bool values.longitudinalAggregationAllowed)
  | .egressCloudSyncAllowed => some (.bool values.cloudSyncAllowed)
  | .egressRedactionProfile => some (.redactionProfile values.redactionProfile)
  | .egressAllowedContent => some (.allowedContent values.allowedContent)
  | .sensorsDisabled => some (.sensorsDisabled values.sensorsDisabled)
  | .sensorsRequiredSignals => some (.requiredSignals values.sensorsRequiredSignals)
  | .enforcementRules => some (.enforcementRules values.enforcementRules)
  | .cacheMaxAgeByRisk => some (.cacheMaxAgeByRisk values.cacheMaxAgeSecondsByRisk)
  | .cacheOfflineGraceSeconds => some (.cacheOfflineGraceSeconds values.cacheOfflineGraceSeconds)
  | .unrecognized _ => none

def EnforcementRule.merge (existing rule : EnforcementRule) : EnforcementRule where
  actionClass := existing.actionClass
  riskClass := max existing.riskClass rule.riskClass
  outcomes := existing.outcomes.meet rule.outcomes

def mergeRule (merged : OrdMap ActionClass EnforcementRule) (rule : EnforcementRule) :
    OrdMap ActionClass EnforcementRule :=
  merged.alter rule.actionClass fun old => match old with
    | some existing => existing.merge rule
    | none => rule

def meetEnforcementRules (a b : List EnforcementRule) : List EnforcementRule :=
  ((a ++ b).foldl mergeRule OrdMap.empty).values

def meetField : PolicyFieldId → FieldValue → FieldValue → FieldValue
  | .collectionLongitudinalAggregationAllowed, .bool a, .bool b => .bool (a && b)
  | .egressCloudSyncAllowed, .bool a, .bool b => .bool (a && b)
  | .egressRedactionProfile, .redactionProfile a, .redactionProfile b =>
    .redactionProfile (max a b)
  | .egressAllowedContent, .allowedContent a, .allowedContent b => .allowedContent (a.inter b)
  | .sensorsDisabled, .sensorsDisabled a, .sensorsDisabled b => .sensorsDisabled (a.union b)
  | .sensorsRequiredSignals, .requiredSignals a, .requiredSignals b =>
    .requiredSignals (unionSignalClasses a b)
  | .enforcementRules, .enforcementRules a, .enforcementRules b =>
    .enforcementRules (meetEnforcementRules a b)
  | .cacheMaxAgeByRisk, .cacheMaxAgeByRisk a, .cacheMaxAgeByRisk b =>
    .cacheMaxAgeByRisk (a.meet b)
  | .cacheOfflineGraceSeconds, .cacheOfflineGraceSeconds a, .cacheOfflineGraceSeconds b =>
    .cacheOfflineGraceSeconds (min a b)
  | _, a, _ => a

def EnforcementRule.covers (cr floor : EnforcementRule) : Bool :=
  decide (floor.riskClass ≤ cr.riskClass) &&
    decide (floor.outcomes.verified ≤ cr.outcomes.verified) &&
    decide (floor.outcomes.unverified ≤ cr.outcomes.unverified) &&
    decide (floor.outcomes.contradicted ≤ cr.outcomes.contradicted) &&
    decide (floor.outcomes.review ≤ cr.outcomes.review) &&
    decide (floor.outcomes.unavailable ≤ cr.outcomes.unavailable)

def rulesAtLeast (c f : List EnforcementRule) : Bool :=
  f.all fun floorRule =>
    match c.find? fun cr => cr.actionClass == floorRule.actionClass with
    | some cr => cr.covers floorRule
    | none => false

def isAtLeastAsStrict : PolicyFieldId → FieldValue → FieldValue → Bool
  | .collectionLongitudinalAggregationAllowed, .bool c, .bool f => f || !c
  | .egressCloudSyncAllowed, .bool c, .bool f => f || !c
  | .egressRedactionProfile, .redactionProfile c, .redactionProfile f => decide (f ≤ c)
  | .egressAllowedContent, .allowedContent c, .allowedContent f => c.subset f
  | .sensorsDisabled, .sensorsDisabled c, .sensorsDisabled f => f.subset c
  | .sensorsRequiredSignals, .requiredSignals c, .requiredSignals f =>
    f.all fun fs => c.any fun cs => cs == fs
  | .enforcementRules, .enforcementRules c, .enforcementRules f => rulesAtLeast c f
  | .cacheMaxAgeByRisk, .cacheMaxAgeByRisk c, .cacheMaxAgeByRisk f =>
    decide (c.low ≤ f.low) && decide (c.elevated ≤ f.elevated) && decide (c.high ≤ f.high) &&
      decide (c.critical ≤ f.critical)
  | .cacheOfflineGraceSeconds, .cacheOfflineGraceSeconds c, .cacheOfflineGraceSeconds f =>
    decide (c ≤ f)
  | _, _, _ => true

end Fornax
