import Fornax.Evidence.Independence

namespace Fornax

structure FusionInput where
  claim : Claim
  graph : EvidenceGraph
  evidence : List Evidence
  deriving DecidableEq, Repr

inductive UncertaintyBand
  | corroborated
  | qualified
  | undetermined
  | conflicted
  deriving DecidableEq, Repr

inductive FusionRule
  | evidenceUnresolved
  | neutralNotCounted
  | derivedFromCountedParent
  | derivedEvidence
  | staleSupportDemoted
  | staleContradictionRetained
  | freshnessIndeterminate
  | correlationCollapsed
  | commonSourceCollapsed
  | independenceUnverified
  | allSupportDiscounted
  | verdictDecided
  | independenceBudgetExceeded
  deriving DecidableEq, Repr

inductive RuleEffect
  | counted
  | discounted
  | caveat
  | decided
  deriving DecidableEq, Repr

structure RationaleEntry where
  rule : FusionRule
  effect : RuleEffect
  linkIds : List Uuid
  missingEvidenceIds : List Uuid
  evidenceIds : List Uuid
  detail : String
  deriving DecidableEq, Repr

structure FusedFinding where
  claimId : Uuid
  verdict : Verdict
  uncertainty : UncertaintyBand
  rationale : List RationaleEntry
  countedLinkIds : List Uuid
  discountedLinkIds : List Uuid
  missingEvidenceIds : List Uuid
  unresolvedConflict : Bool
  policyName : String
  policyVersion : ℕ
  computedAt : String
  deriving DecidableEq, Repr

def SignalAvailability.isConcerning : SignalAvailability → Bool
  | .unsupported | .unavailable | .collectionFailed | .redacted | .disabled => true
  | .available | .unknown | .unrecognized _ => false

def EvidenceRelation.key : EvidenceRelation → ℕ
  | .supports => 0
  | .contradicts => 1
  | .neutral => 2

structure Candidate where
  link : EvidenceLink
  evidence : Evidence
  deriving DecidableEq, Repr

structure PhaseStep (α : Type) where
  kept : Option α
  discounted : List Uuid
  entry : Option RationaleEntry

structure FusionLog where
  rationale : List RationaleEntry
  discounted : List Uuid
  deriving DecidableEq, Repr

def FusionLog.add {α : Type} (log : FusionLog) (s : PhaseStep α) : FusionLog where
  rationale := log.rationale ++ s.entry.toList
  discounted := log.discounted ++ s.discounted

def runPhase {α β : Type} (step : α → PhaseStep β) (items : List α) (log : FusionLog) :
    List β × FusionLog :=
  (items.filterMap fun a => (step a).kept, items.foldl (fun log a => log.add (step a)) log)

def resolveLink (evidenceById : OrdMap Uuid Evidence) (l : EvidenceLink) : PhaseStep Candidate :=
  match evidenceById.get? l.evidenceId with
  | none =>
    { kept := none
      discounted := [l.id]
      entry := some
        { rule := .evidenceUnresolved, effect := .discounted, linkIds := [l.id]
          missingEvidenceIds := [], evidenceIds := []
          detail := "link " ++ l.id.text ++ " references evidence " ++ l.evidenceId.text ++
            " not present in the fusion input; treated as unresolvable, never counted, never " ++
            "treated as a contradiction" } }
  | some ev =>
    if l.relation = .neutral then
      { kept := none
        discounted := []
        entry := some
          { rule := .neutralNotCounted, effect := .caveat, linkIds := [l.id]
            missingEvidenceIds := [], evidenceIds := [l.evidenceId]
            detail := "link " ++ l.id.text ++ " is Neutral; it never votes either way" } }
    else { kept := some ⟨l, ev⟩, discounted := [], entry := none }

def excludeDerived (evidenceIndex : OrdMap Uuid Evidence) (candidateEvidenceIds : OrdSet Uuid)
    (c : Candidate) : PhaseStep Candidate :=
  let ancestry := (ancestorsOfIndexed c.evidence.id evidenceIndex).toList
  if ancestry = [] then { kept := some c, discounted := [], entry := none }
  else
    let parentHits := ancestry.filter fun p => candidateEvidenceIds.contains p
    if parentHits = [] then
      { kept := some c
        discounted := []
        entry := some
          { rule := .derivedEvidence, effect := .caveat, linkIds := [c.link.id]
            missingEvidenceIds := [], evidenceIds := [c.link.evidenceId]
            detail := "link " ++ c.link.id.text ++ "'s evidence is derived from other evidence " ++
              "not itself linked on this claim; counted, with a derived-evidence caveat" } }
    else
      { kept := none
        discounted := [c.link.id]
        entry := some
          { rule := .derivedFromCountedParent, effect := .discounted, linkIds := [c.link.id]
            missingEvidenceIds := [], evidenceIds := c.link.evidenceId :: parentHits
            detail := "link " ++ c.link.id.text ++ "'s evidence is derived from evidence " ++
              Uuid.listText parentHits ++ ", which already has its own counted link on this " ++
              "claim; discounted to avoid a derived fact double-corroborating its own source" } }

def assessStaleness (rfc3339 : String → Option Instant) (claim : Claim) (c : Candidate) :
    PhaseStep Candidate :=
  match stalenessOfDefault rfc3339 c.evidence claim with
  | .notTimeSensitive | .fresh _ => { kept := some c, discounted := [], entry := none }
  | .stale ageSeconds =>
    if c.link.relation = .supports then
      { kept := none
        discounted := [c.link.id]
        entry := some
          { rule := .staleSupportDemoted, effect := .discounted, linkIds := [c.link.id]
            missingEvidenceIds := [], evidenceIds := [c.link.evidenceId]
            detail := "link " ++ c.link.id.text ++ " supports the claim with evidence " ++
              toString ageSeconds ++ "s stale; stale evidence must never silently support a " ++
              "time-sensitive claim, so it does not count" } }
    else
      { kept := some c
        discounted := []
        entry := some
          { rule := .staleContradictionRetained, effect := .caveat, linkIds := [c.link.id]
            missingEvidenceIds := [], evidenceIds := [c.link.evidenceId]
            detail := "link " ++ c.link.id.text ++ " contradicts the claim with evidence " ++
              toString ageSeconds ++ "s stale; retained -- discarding a stale contradiction is " ++
              "the unsafe direction" } }
  | .indeterminate reason =>
    { kept := some c
      discounted := []
      entry := some
        { rule := .freshnessIndeterminate, effect := .caveat, linkIds := [c.link.id]
          missingEvidenceIds := [], evidenceIds := [c.link.evidenceId]
          detail := "link " ++ c.link.id.text ++ "'s freshness could not be determined (" ++
            reason ++ "); counted, never silently coerced to fresh" } }

def collapse {α : Type} (link : α → EvidenceLink) (rule : FusionRule)
    (detail : List Uuid → Uuid → String) (bucket : List α) : PhaseStep α :=
  match bucket.insertionSort fun a b => (link a).id ≤ (link b).id with
  | [] => { kept := none, discounted := [], entry := none }
  | [only] => { kept := some only, discounted := [], entry := none }
  | rep :: sibling :: rest =>
    let siblingIds := (sibling :: rest).map fun a => (link a).id
    { kept := some rep
      discounted := siblingIds
      entry := some
        { rule, effect := .discounted
          linkIds := (siblingIds ++ [(link rep).id]).insertionSort (· ≤ ·)
          missingEvidenceIds := []
          evidenceIds := (rep :: sibling :: rest).map fun a => (link a).evidenceId
          detail := detail siblingIds (link rep).id } }

structure Survivor where
  candidate : Candidate
  hadGroup : Bool
  deriving DecidableEq, Repr

def Candidate.groupKey (c : Candidate) : Option (ℕ ×ₗ Uuid) :=
  c.evidence.group.map fun g => toLex (c.link.relation.key, g)

def collapseGroup (bucket : (ℕ ×ₗ Uuid) × List Candidate) : PhaseStep Candidate :=
  let group := (ofLex bucket.1).2
  collapse Candidate.link .correlationCollapsed (fun siblingIds rep =>
    "links " ++ Uuid.listText siblingIds ++ " share correlation group " ++ group.text ++
      " and relation with link " ++ rep.text ++ "; collapsed to one effective vote " ++
      "(representative: link " ++ rep.text ++ ")") bucket.2

def Survivor.familyKey (familyMap : SourceFamilyMap) (s : Survivor) : Option (ℕ ×ₗ Uuid) :=
  match familyMap.familyOf s.candidate.link.evidenceId with
  | some family =>
    if family.evidenceIds.length > 1 then
      family.evidenceIds.head?.map fun k => toLex (s.candidate.link.relation.key, k)
    else none
  | none => none

def collapseFamily (bucket : (ℕ ×ₗ Uuid) × List Survivor) : PhaseStep Survivor :=
  let familyKey := (ofLex bucket.1).2
  collapse (fun s => s.candidate.link) .commonSourceCollapsed (fun siblingIds rep =>
    "links " ++ Uuid.listText siblingIds ++ " share source family " ++ familyKey.text ++
      " (independent of any per-link correlation_group value) and relation with link " ++
      rep.text ++ "; collapsed to one effective vote (representative: link " ++ rep.text ++ ")")
    bucket.2

def noteIndependence (s : Survivor) : PhaseStep Candidate where
  kept := some s.candidate
  discounted := []
  entry :=
    if s.hadGroup then none
    else some
      { rule := .independenceUnverified, effect := .caveat, linkIds := [s.candidate.link.id]
        missingEvidenceIds := [], evidenceIds := [s.candidate.link.evidenceId]
        detail := "link " ++ s.candidate.link.id.text ++ "'s evidence carries no recorded " ++
          "correlation group; counted as an independent vote, but 'no group recorded' is not " ++
          "the same as 'proven independent'" }

structure Decision where
  verdict : Verdict
  rule : FusionRule
  detail : String
  missingIds : List Uuid
  linkIds : List Uuid
  deriving DecidableEq, Repr

def decideVerdict (supporting contradicting : ℕ) (countedLinkIds : List Uuid)
    (links : List EvidenceLink) (missing : List MissingEvidence) : Decision :=
  if supporting > 0 ∧ contradicting > 0 then
    { verdict := .review, rule := .verdictDecided
      detail := toString supporting ++ " distinct supporting vote(s) and " ++
        toString contradicting ++ " distinct contradicting vote(s) survived fusion; unresolved " ++
        "conflict, not auto-resolved"
      missingIds := [], linkIds := countedLinkIds }
  else if contradicting > 0 then
    { verdict := .contradicted, rule := .verdictDecided
      detail := toString contradicting ++ " distinct contradicting vote(s) survived fusion, no " ++
        "supporting votes"
      missingIds := [], linkIds := countedLinkIds }
  else if supporting > 0 then
    { verdict := .verified, rule := .verdictDecided
      detail := toString supporting ++ " distinct supporting vote(s) survived fusion, no " ++
        "contradicting votes"
      missingIds := [], linkIds := countedLinkIds }
  else
    let concerningMissing := (missing.filter fun m => m.availability.isConcerning).map (·.id)
    if concerningMissing ≠ [] then
      { verdict := .unavailable, rule := .verdictDecided
        detail := "no supporting or contradicting evidence survived fusion; " ++
          toString concerningMissing.length ++
          " expected signal(s) explicitly noted missing/unavailable"
        missingIds := concerningMissing, linkIds := [] }
    else if missing ≠ [] then
      { verdict := .unverified, rule := .verdictDecided
        detail := "no supporting or contradicting evidence survived fusion; " ++
          toString missing.length ++ " missing-evidence note(s) present but only " ++
          "Unknown/Unrecognized availability, not treated as a confirmed absence"
        missingIds := missing.map (·.id), linkIds := [] }
    else if links ≠ [] then
      { verdict := .unverified, rule := .allSupportDiscounted
        detail := toString links.length ++ " link(s) existed on this claim but none survived " ++
          "fusion as a counted vote (unresolved, neutral, or discounted); not treated as a " ++
          "contradiction"
        missingIds := [], linkIds := links.map (·.id) }
    else
      { verdict := .unverified, rule := .verdictDecided
        detail := "no evidence links and no missing-evidence notes recorded for this claim -- " ++
          "nobody has looked yet, distinct from evidence having been sought and found absent"
        missingIds := [], linkIds := [] }

def FusionRule.isBandingCaveat : FusionRule → Bool
  | .derivedEvidence | .staleContradictionRetained | .freshnessIndeterminate
  | .independenceUnverified => true
  | _ => false

def uncertaintyBand (supporting contradicting : ℕ) (log : FusionLog)
    (missing : List MissingEvidence) : UncertaintyBand :=
  if supporting > 0 ∧ contradicting > 0 then .conflicted
  else if supporting = 0 ∧ contradicting = 0 then .undetermined
  else if log.rationale.any (fun r => r.rule.isBandingCaveat) || log.discounted ≠ [] ||
      missing ≠ [] then .qualified
  else .corroborated

namespace BaselineFusionPolicy

def name : String := "deterministic_baseline_v1"

def policyVersion : ℕ := 3

def sortLinks (links : List EvidenceLink) : List EvidenceLink :=
  links.insertionSort fun a b => a.id ≤ b.id

def sortMissing (missing : List MissingEvidence) : List MissingEvidence :=
  missing.insertionSort fun a b => a.id ≤ b.id

def filterCandidates (rfc3339 : String → Option Instant) (input : FusionInput) :
    List Candidate × FusionLog :=
  let index := indexById input.evidence
  let (candidates, log) := runPhase (resolveLink index) (sortLinks input.graph.links) ⟨[], []⟩
  let candidateEvidenceIds := OrdSet.ofList (candidates.map fun c => c.link.evidenceId)
  let (afterR3, log) := runPhase (excludeDerived index candidateEvidenceIds) candidates log
  runPhase (assessStaleness rfc3339 input.claim) afterR3 log

def collapseGroups (afterR4 : List Candidate) (log : FusionLog) : List Survivor × FusionLog :=
  let grouped := OrdMap.groupBy Candidate.groupKey id afterR4
  let ungrouped := afterR4.filter fun c => c.groupKey.isNone
  let (representatives, log) := runPhase collapseGroup grouped.entries log
  (representatives.map (⟨·, true⟩) ++ ungrouped.map (⟨·, false⟩), log)

def collapseFamilies (familyMap : SourceFamilyMap) (survivors : List Survivor)
    (log : FusionLog) : List Candidate × FusionLog :=
  let byFamily := OrdMap.groupBy (Survivor.familyKey familyMap) id survivors
  let solo := survivors.filter fun s => (s.familyKey familyMap).isNone
  let (representatives, log) := runPhase collapseFamily byFamily.entries log
  runPhase noteIndependence (solo ++ representatives) log

def countRelation (r : EvidenceRelation) (counted : List Candidate) : ℕ :=
  (counted.filter fun c => c.link.relation == r).length

def budgetEntry (err : BudgetExceeded) : RationaleEntry where
  rule := .independenceBudgetExceeded
  effect := .decided
  linkIds := []
  missingEvidenceIds := []
  evidenceIds := []
  detail := "source-family construction over " ++ toString err.evidenceCount ++
    " evidence record(s) exceeded its work budget (" ++ toString err.workUnitsAtAbort ++
    " work unit(s) at abort, limit " ++ toString err.limit ++ "); this claim's fusion result " ++
    "cannot verify evidence independence and fails safe to Review rather than completing"

def budgetFinding (input : FusionInput) (computedAt : String) (log : FusionLog)
    (err : BudgetExceeded) : FusedFinding where
  claimId := input.claim.id
  verdict := .review
  uncertainty := .undetermined
  rationale := log.rationale ++ [budgetEntry err]
  countedLinkIds := []
  discountedLinkIds := log.discounted
  missingEvidenceIds := (sortMissing input.graph.missing).map (·.id)
  unresolvedConflict := false
  policyName := name
  policyVersion := policyVersion
  computedAt := computedAt

def decidedFinding (input : FusionInput) (computedAt : String) (finalCounted : List Candidate)
    (log : FusionLog) : FusedFinding :=
  let links := sortLinks input.graph.links
  let missing := sortMissing input.graph.missing
  let s := countRelation .supports finalCounted
  let c := countRelation .contradicts finalCounted
  let countedLinkIds := (finalCounted.map fun c => c.link.id).insertionSort (· ≤ ·)
  let decision := decideVerdict s c countedLinkIds links missing
  let log : FusionLog :=
    { rationale := log.rationale ++
        [{ rule := decision.rule, effect := .decided, linkIds := decision.linkIds
           missingEvidenceIds := decision.missingIds, evidenceIds := []
           detail := decision.detail }]
      discounted := log.discounted.insertionSort (· ≤ ·) }
  { claimId := input.claim.id
    verdict := decision.verdict
    uncertainty := uncertaintyBand s c log missing
    rationale := log.rationale
    countedLinkIds
    discountedLinkIds := log.discounted
    missingEvidenceIds := missing.map (·.id)
    unresolvedConflict := decide (s > 0 ∧ c > 0)
    policyName := name
    policyVersion := policyVersion
    computedAt }

def fuse (rfc3339 : String → Option Instant) (input : FusionInput) (computedAt : String) :
    FusedFinding :=
  let (afterR4, log) := filterCandidates rfc3339 input
  let (survivors, log) := collapseGroups afterR4 log
  match SourceFamilyMap.tryBuild input.evidence FamilyBudget.defaultBudget with
  | .error err => budgetFinding input computedAt log err
  | .ok familyMap =>
    let (finalCounted, log) := collapseFamilies familyMap survivors log
    decidedFinding input computedAt finalCounted log

end BaselineFusionPolicy

end Fornax
