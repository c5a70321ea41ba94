import Fornax.Policy.Content

namespace Fornax

abbrev RevisionDigest := String

structure PolicyRevisionRef where
  policyId : Uuid
  revision : ℕ
  digest : RevisionDigest
  deriving DecidableEq, Repr

structure PolicyRevisionBody where
  schemaVersion : ℕ
  policyId : Uuid
  revision : ℕ
  supersedes : Option RevisionDigest
  publishedAt : String
  displayName : String
  content : PolicyContent
  pinnedFields : OrdSet PolicyFieldId
  deriving DecidableEq

structure PublishedPolicyRevision where
  body : PolicyRevisionBody
  digest : RevisionDigest
  deriving DecidableEq

namespace PublishedPolicyRevision

def reference (r : PublishedPolicyRevision) : PolicyRevisionRef where
  policyId := r.body.policyId
  revision := r.body.revision
  digest := r.digest

def field (r : PublishedPolicyRevision) (f : PolicyFieldId) : Option FieldValue :=
  getField r.body.content f

def pins (r : PublishedPolicyRevision) (f : PolicyFieldId) : Bool :=
  r.body.pinnedFields.contains f

end PublishedPolicyRevision

inductive DiagnosticSeverity
  | error
  | warning
  | info
  deriving DecidableEq, Repr

inductive DiagnosticCode
  | unsupportedSchemaVersion
  | digestMismatch
  | duplicateActionClassRule
  | unsortedEnforcementRules
  | pinAtLocalUserLayer
  | pinNamesUnsetField
  | emptyDisplayName
  | supersedesSelf
  | revisionNotMonotonic
  | conflictingBindingsAtLevel
  | pinViolation
  | selectorNotUnderstood
  | requiredSignalUnavailable
  | unrecognizedEnvValue
  | noApplicablePolicy
  | policyCacheStale
  | policyCacheExpired
  | policyCacheUnverifiable
  | policyCacheUnavailable
  | policyRollbackRejected
  | policyIssuerMismatch
  | trustStoreUnavailable
  | policyCacheRevoked
  | policyRevocationEntryNotUnderstood
  | policyRevocationRejected
  | policyRefreshUnavailable
  deriving DecidableEq, Repr

structure PolicyDiagnostic where
  code : DiagnosticCode
  severity : DiagnosticSeverity
  field : Option PolicyFieldId
  bindings : List Uuid
  revisions : List PolicyRevisionRef
  message : String
  remediation : String
  deriving DecidableEq, Repr

namespace PolicyDiagnostic

def new (code : DiagnosticCode) (severity : DiagnosticSeverity) (message remediation : String) :
    PolicyDiagnostic :=
  ⟨code, severity, none, [], [], message, remediation⟩

def withField (d : PolicyDiagnostic) (f : PolicyFieldId) : PolicyDiagnostic :=
  { d with field := some f }

def withBindings (d : PolicyDiagnostic) (ids : List Uuid) : PolicyDiagnostic :=
  { d with bindings := ids }

def withRevisions (d : PolicyDiagnostic) (refs : List PolicyRevisionRef) : PolicyDiagnostic :=
  { d with revisions := refs }

end PolicyDiagnostic

inductive TargetLevel
  | org
  | team
  | project
  | device
  | localUser
  deriving Repr

namespace TargetLevel

def rank : TargetLevel → ℕ
  | .org => 0
  | .team => 1
  | .project => 2
  | .device => 3
  | .localUser => 4

theorem rank_injective : Function.Injective rank := by
  intro a b h
  cases a <;> cases b <;> first | rfl | cases h

instance : LinearOrder TargetLevel := LinearOrder.lift' rank rank_injective

def debug : TargetLevel → String
  | .org => "Org"
  | .team => "Team"
  | .project => "Project"
  | .device => "Device"
  | .localUser => "LocalUser"

def all : List TargetLevel := [.org, .team, .project, .device, .localUser]

end TargetLevel

inductive OsFamily
  | macOs
  | linux
  | windows
  | unrecognized (tag : String)
  deriving DecidableEq, Repr

inductive Provider
  | claudeCode
  | codex
  | openCode
  | unknown
  deriving DecidableEq, Repr

structure CapabilitySignal where
  signalClass : SignalClass
  state : SignalAvailability
  deriving DecidableEq, Repr

structure DeviceContext where
  orgId : Option String
  teamIds : OrdSet String
  projectIds : OrdSet String
  deviceId : String
  provider : Provider
  capabilities : List CapabilitySignal
  osFamily : OsFamily
  deriving DecidableEq

namespace DeviceContext

def stateOf (ctx : DeviceContext) (c : SignalClass) : SignalAvailability :=
  ((ctx.capabilities.find? fun s => s.signalClass == c).map fun s => s.state).getD .unknown

def isObservable (ctx : DeviceContext) (c : SignalClass) : Bool := ctx.stateOf c == .available

end DeviceContext

inductive TargetScope
  | org (orgId : String)
  | team (orgId teamId : String)
  | project (orgId projectId : String)
  | device (deviceId : String)
  | localUser
  deriving DecidableEq, Repr

namespace TargetScope

def level : TargetScope → TargetLevel
  | .org _ => .org
  | .team _ _ => .team
  | .project _ _ => .project
  | .device _ => .device
  | .localUser => .localUser

def «matches» (ctx : DeviceContext) : TargetScope → Bool
  | .org o => ctx.orgId == some o
  | .team o t => ctx.orgId == some o && ctx.teamIds.contains t
  | .project o p => ctx.orgId == some o && ctx.projectIds.contains p
  | .device d => ctx.deviceId == d
  | .localUser => true

end TargetScope

structure TargetSelector where
  providers : Option (List Provider)
  osFamilies : Option (List OsFamily)
  requiresSignals : Option (List SignalClass)
  deriving DecidableEq, Repr

def TargetSelector.any : TargetSelector := ⟨none, none, none⟩

def SignalClass.isUnrecognized : SignalClass → Bool
  | .unrecognized _ => true
  | _ => false

def OsFamily.isUnrecognized : OsFamily → Bool
  | .unrecognized _ => true
  | _ => false

def SignalClass.debug : SignalClass → String
  | .toolInvocation => "ToolInvocation"
  | .toolTrace => "ToolTrace"
  | .toolResultPayload => "ToolResultPayload"
  | .processResult => "ProcessResult"
  | .sessionLifecycle => "SessionLifecycle"
  | .subagentLifecycle => "SubagentLifecycle"
  | .finalResponse => "FinalResponse"
  | .reasoningSummary => "ReasoningSummary"
  | .rawReasoning => "RawReasoning"
  | .tokenLogprobs => "TokenLogprobs"
  | .internalModelSignals => "InternalModelSignals"
  -- never printed: a selector that names an unrecognized class is not evaluated
  | .unrecognized tag => "Unrecognized(" ++ jsonQuote tag ++ ")"

def requiredSignalUnavailable (bindingId : Uuid) (c : SignalClass) : PolicyDiagnostic :=
  (PolicyDiagnostic.new .requiredSignalUnavailable .warning
    ("binding requires signal " ++ c.debug ++ ", which this device does not report as available")
    ("publish a binding whose requires_signals matches what this device can observe, " ++
      "or drop the requirement")).withBindings [bindingId]

def selectorNotUnderstood (bindingId : Uuid) : PolicyDiagnostic :=
  (PolicyDiagnostic.new .selectorNotUnderstood .warning
    ("selector names a value this binary does not recognize; applying the binding rather " ++
      "than silently dropping it")
    "upgrade this binary to a version that understands the newer selector value").withBindings
    [bindingId]

namespace TargetSelector

def providerMatches (sel : TargetSelector) (ctx : DeviceContext) : Bool :=
  match sel.providers with
  | some ps => ps.contains ctx.provider
  | none => true

def osUnderstood (sel : TargetSelector) : Bool :=
  match sel.osFamilies with
  | some os => !os.any OsFamily.isUnrecognized
  | none => true

def osMatches (sel : TargetSelector) (ctx : DeviceContext) : Bool :=
  match sel.osFamilies with
  | some os => os.any OsFamily.isUnrecognized || os.contains ctx.osFamily
  | none => true

def signalsUnderstood (sel : TargetSelector) : Bool :=
  match sel.requiresSignals with
  | some cs => !cs.any SignalClass.isUnrecognized
  | none => true

def missingSignal (sel : TargetSelector) (ctx : DeviceContext) : Option SignalClass :=
  match sel.requiresSignals with
  | some cs =>
    if cs.any SignalClass.isUnrecognized then none
    else cs.find? fun c => !ctx.isObservable c
  | none => none

def «matches» (sel : TargetSelector) (ctx : DeviceContext) (bindingId : Uuid) :
    Bool × List PolicyDiagnostic :=
  if !sel.providerMatches ctx then (false, [])
  else if !sel.osMatches ctx then (false, [])
  else match sel.missingSignal ctx with
    | some c => (false, [requiredSignalUnavailable bindingId c])
    | none =>
      (true, if sel.osUnderstood && sel.signalsUnderstood then []
        else [selectorNotUnderstood bindingId])

end TargetSelector

structure PolicyBinding where
  bindingId : Uuid
  scope : TargetScope
  selector : TargetSelector
  revisionRef : PolicyRevisionRef
  deriving DecidableEq, Repr

def PolicyBinding.matches (b : PolicyBinding) (ctx : DeviceContext) :
    Bool × List PolicyDiagnostic :=
  if b.scope.matches ctx then b.selector.matches ctx b.bindingId else (false, [])

/-- A binding joined with its revision; the two checks of the constructor are fields. -/
structure BoundRevision where
  binding : PolicyBinding
  revision : PublishedPolicyRevision
  digest_matches : binding.revisionRef.digest = revision.digest
  no_pin_at_localUser : binding.scope.level = .localUser → revision.body.pinnedFields = OrdSet.empty
  deriving DecidableEq

namespace BoundRevision

def digestMismatch (b : PolicyBinding) : PolicyDiagnostic :=
  (PolicyDiagnostic.new .digestMismatch .error
    "binding.revision_ref.digest does not match the joined revision's digest"
    "re-fetch the revision the binding actually references, or update the binding").withBindings
    [b.bindingId]

def pinAtLocalUserLayer (b : PolicyBinding) : PolicyDiagnostic :=
  (PolicyDiagnostic.new .pinAtLocalUserLayer .error
    "a pin at TargetLevel::LocalUser is a no-op -- nothing is more specific than this level"
    "remove pinned_fields from a revision bound at LocalUser scope").withBindings [b.bindingId]

def new (b : PolicyBinding) (r : PublishedPolicyRevision) :
    Except (List PolicyDiagnostic) BoundRevision :=
  if hd : b.revisionRef.digest = r.digest then
    if hp : b.scope.level = .localUser → r.body.pinnedFields = OrdSet.empty then
      .ok ⟨b, r, hd, hp⟩
    else .error [pinAtLocalUserLayer b]
  else .error [digestMismatch b]

def id (b : BoundRevision) : Uuid := b.binding.bindingId

def level (b : BoundRevision) : TargetLevel := b.binding.scope.level

def reference (b : BoundRevision) : PolicyRevisionRef := b.revision.reference

def field (b : BoundRevision) (f : PolicyFieldId) : Option FieldValue := b.revision.field f

def pins (b : BoundRevision) (f : PolicyFieldId) : Bool := b.revision.pins f

def applies (ctx : DeviceContext) (b : BoundRevision) : Bool := (b.binding.matches ctx).1

end BoundRevision

end Fornax
