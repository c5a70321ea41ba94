import Fornax.Lib.OrdMap

namespace Fornax

abbrev Uuid := Fin (2 ^ 128)

instance Uuid.instLawfulBEq : LawfulBEq Uuid := inferInstance

instance Uuid.instOfNat (n : ℕ) : OfNat Uuid n := ⟨Fin.ofNat (2 ^ 128) n⟩

abbrev Instant := Int

def hexDigit (n : ℕ) : Char :=
  ['0', '1', '2', '3', '4', '5', '6', '7', '8', '9', 'a', 'b', 'c', 'd', 'e', 'f'].getD (n % 16) '0'

/-- The low `width` hexadecimal digits of `n`, most significant first. -/
def hexDigits : ℕ → ℕ → List Char
  | 0, _ => []
  | width + 1, n => hexDigits width (n / 16) ++ [hexDigit n]

def Uuid.text (u : Uuid) : String :=
  let d := hexDigits 32 u.val
  let part := fun (start len : ℕ) => (d.drop start).take len
  String.ofList (part 0 8 ++ ['-'] ++ part 8 4 ++ ['-'] ++ part 12 4 ++ ['-'] ++ part 16 4 ++
    ['-'] ++ part 20 12)

def Uuid.listText (l : List Uuid) : String :=
  "[" ++ ", ".intercalate (l.map Uuid.text) ++ "]"

inductive Verdict
  | verified
  | unverified
  | contradicted
  | review
  | unavailable
  deriving DecidableEq, Repr

inductive EvidenceKind
  | toolResult
  | exitCode
  | fileDiff
  | processObservation
  | transcriptExcerpt
  deriving DecidableEq, Repr

inductive TrustClass
  | agentAdjacent
  | hostObserved
  | independentExternal
  | humanReviewed
  | modelInternal
  | unrecognized (tag : String)
  deriving DecidableEq, Repr

inductive SignalAvailability
  | available
  | unsupported
  | unavailable
  | redacted
  | collectionFailed
  | unknown
  | disabled
  | unrecognized (tag : String)
  deriving DecidableEq, Repr

structure EvidenceSource where
  trustClass : TrustClass
  correlationGroup : Option Uuid
  derivedFrom : List Uuid
  deriving DecidableEq, Repr

structure Evidence where
  id : Uuid
  sourceEventId : Uuid
  kind : EvidenceKind
  observedAt : String
  source : Option EvidenceSource
  deriving DecidableEq, Repr

structure Claim where
  id : Uuid
  claimedAt : String
  deriving DecidableEq, Repr

def Evidence.parents (e : Evidence) : List Uuid :=
  match e.source with
  | some s => s.derivedFrom
  | none => []

def Evidence.group (e : Evidence) : Option Uuid := e.source.bind (·.correlationGroup)

inductive EvidenceRelation
  | supports
  | contradicts
  | neutral
  deriving DecidableEq, Repr

structure EvidenceLink where
  id : Uuid
  evidenceId : Uuid
  relation : EvidenceRelation
  deriving DecidableEq, Repr

structure MissingEvidence where
  id : Uuid
  availability : SignalAvailability
  deriving DecidableEq, Repr

structure EvidenceGraph where
  links : List EvidenceLink
  missing : List MissingEvidence
  deriving DecidableEq, Repr

inductive FreshnessWindow
  | durable
  | perishable (maxAgeSeconds : Int)
  deriving DecidableEq, Repr

def defaultExitCodeFreshnessSeconds : Int := 3600

def EvidenceKind.defaultFreshnessWindow : EvidenceKind → FreshnessWindow
  | .exitCode => .perishable defaultExitCodeFreshnessSeconds
  | .toolResult | .fileDiff | .processObservation | .transcriptExcerpt => .durable

inductive StalenessAssessment
  | notTimeSensitive
  | fresh (ageSeconds : Int)
  | stale (ageSeconds : Int)
  | indeterminate (reason : String)
  deriving DecidableEq, Repr

def numSeconds (d : Int) : Int := d.tdiv 1000000000

def stalenessOf (rfc3339 : String → Option Instant) (evidence : Evidence) (claim : Claim) :
    FreshnessWindow → StalenessAssessment
  | .durable => .notTimeSensitive
  | .perishable maxAgeSeconds =>
    match rfc3339 evidence.observedAt with
    | none => .indeterminate "evidence.observed_at is not valid RFC3339"
    | some observedAt =>
      match rfc3339 claim.claimedAt with
      | none => .indeterminate "claim.claimed_at is not valid RFC3339"
      | some claimedAt =>
        let ageSeconds := numSeconds (claimedAt - observedAt)
        if ageSeconds < 0 then .indeterminate "evidence.observed_at is after claim.claimed_at"
        else if ageSeconds > maxAgeSeconds then .stale ageSeconds
        else .fresh ageSeconds

def stalenessOfDefault (rfc3339 : String → Option Instant) (evidence : Evidence) (claim : Claim) :
    StalenessAssessment :=
  stalenessOf rfc3339 evidence claim evidence.kind.defaultFreshnessWindow

end Fornax
