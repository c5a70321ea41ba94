import Fornax.Evidence.Votes
import Fornax.Receipt.Schema

namespace Fornax

open BaselineFusionPolicy List

structure NotedGraph where
  links : List EvidenceLink
  missing : List StoredMissing

def NotedGraph.graph (g : NotedGraph) : EvidenceGraph :=
  ⟨g.links, g.missing.map StoredMissing.toMissingEvidence⟩

/-- A signal of `RuntimeCapabilities` with its detail. -/
structure DeclaredSignal extends CapabilitySignal where
  detail : Option String

def conflictGap (claim : Claim) (fused : FusedFinding) : Option EvidenceGap :=
  if fused.unresolvedConflict then
    some ⟨.unresolvedConflict, claim.id, fused.countedLinkIds, [],
      "fusion reports an unresolved supports/contradicts conflict"⟩
  else none

def FusionRule.gapKind : FusionRule → Option EvidenceGapKind
  | .staleSupportDemoted => some .staleSupport
  | .allSupportDiscounted => some .allVotesDiscounted
  | .independenceUnverified => some .independenceUnverified
  | _ => none

def rationaleGap (claim : Claim) (entry : RationaleEntry) : Option EvidenceGap :=
  entry.rule.gapKind.map fun kind => ⟨kind, claim.id, entry.linkIds, [], entry.detail⟩

def countedEvidenceIds (graph : NotedGraph) (fused : FusedFinding) : List Uuid :=
  fused.countedLinkIds.filterMap fun linkId =>
    (graph.links.find? fun l => l.id == linkId).map EvidenceLink.evidenceId

def familyGap (claim : Claim) (graph : NotedGraph) (evidence : List Evidence)
    (fused : FusedFinding) : Option EvidenceGap :=
  match SourceFamilyMap.tryBuild evidence FamilyBudget.defaultBudget with
  | .ok familyMap =>
    if (familyMap.familiesAmong (countedEvidenceIds graph fused)).length = 1 ∧
        fused.countedLinkIds.length ≥ 2 then
      some ⟨.singleSourceCorroboration, claim.id, fused.countedLinkIds, [],
        "every counted vote traces back to one source family"⟩
    else none
  | .error _ =>
    some ⟨.independenceBudgetExceeded, claim.id, fused.countedLinkIds, [],
      "source-family construction exceeded its work budget; independence " ++
        "could not be verified for this claim's evidence pool"⟩

def missingGap (claim : Claim) (missing : StoredMissing) : Option EvidenceGap :=
  if missing.availability.isConcerning then
    some ⟨.expectedSignalMissing missing.signalClass, claim.id, [], [missing.id],
      missing.detail.getD "signal explicitly noted missing"⟩
  else none

/-- The loop over the declared signals; `covered` holds the wire tags already reported. -/
def capabilityGaps (claim : Claim) : List String → List DeclaredSignal → List EvidenceGap
  | _, [] => []
  | covered, signal :: rest =>
    if signal.state.isConcerning ∧ signal.signalClass.wireTag ∉ covered then
      ⟨.signalClassUnobservable signal.signalClass, claim.id, [], [],
        signal.detail.getD "runtime capability state marks this unobservable"⟩ ::
        capabilityGaps claim (signal.signalClass.wireTag :: covered) rest
    else capabilityGaps claim covered rest

def coveredClasses (graph : NotedGraph) : List String :=
  (graph.missing.filter fun m => m.availability.isConcerning).map fun m => m.signalClass.wireTag

def emptyGap (claim : Claim) (graph : NotedGraph) : Option EvidenceGap :=
  if graph.links = [] ∧ graph.missing = [] then
    some ⟨.noEvidenceAtAll, claim.id, [], [],
      "no evidence link or missing-evidence note exists for this claim"⟩
  else none

def deriveGaps (claim : Claim) (graph : NotedGraph) (evidence : List Evidence)
    (fused : FusedFinding) (capabilities : List (List DeclaredSignal)) : List EvidenceGap :=
  (conflictGap claim fused).toList ++ fused.rationale.filterMap (rationaleGap claim) ++
    (familyGap claim graph evidence fused).toList ++ graph.missing.filterMap (missingGap claim) ++
    capabilityGaps claim (coveredClasses graph) capabilities.flatten ++
    (emptyGap claim graph).toList

theorem covered_of_capabilityGaps {claim : Claim} {signals : List DeclaredSignal}
    {covered : List String} (h : capabilityGaps claim covered signals = []) :
    ∀ s ∈ signals, s.state.isConcerning → s.signalClass.wireTag ∈ covered := by
  induction signals with
  | nil =>
    intro s hs
    cases hs
  | cons signal rest ih =>
    unfold capabilityGaps at h
    split at h
    · cases h
    · next hquiet =>
      intro s hs hconcerning
      rcases mem_cons.mp hs with rfl | hs
      · by_contra hnot
        exact hquiet ⟨hconcerning, hnot⟩
      · exact ih h s hs hconcerning

structure Silent (graph : NotedGraph) (evidence : List Evidence) (fused : FusedFinding)
    (capabilities : List (List DeclaredSignal)) : Prop where
  entries : ∀ r ∈ fused.rationale, r.rule.gapKind = none
  built : ∃ m, SourceFamilyMap.tryBuild evidence FamilyBudget.defaultBudget = .ok m
  notes : ∀ n ∈ graph.missing, n.availability.isConcerning = false
  signals : ∀ s ∈ capabilities.flatten, s.state.isConcerning = false
  looked : graph.links = [] → graph.missing ≠ []

theorem silent_of_deriveGaps {claim : Claim} {graph : NotedGraph} {evidence : List Evidence}
    {fused : FusedFinding} {capabilities : List (List DeclaredSignal)}
    (h : deriveGaps claim graph evidence fused capabilities = []) :
    Silent graph evidence fused capabilities := by
  simp only [deriveGaps, append_eq_nil_iff, Option.toList_eq_nil_iff, filterMap_eq_nil_iff] at h
  obtain ⟨⟨⟨⟨⟨-, hentries⟩, hfamily⟩, hnotes⟩, hsignals⟩, hempty⟩ := h
  have hquiet : ∀ n ∈ graph.missing, n.availability.isConcerning = false := by
    intro n hn
    by_contra hconcerning
    have hgap := hnotes n hn
    rw [missingGap, if_pos (Bool.not_eq_false _ ▸ hconcerning)] at hgap
    cases hgap
  refine ⟨fun r hr => Option.map_eq_none_iff.mp (hentries r hr), ?_, hquiet, ?_, ?_⟩
  · unfold familyGap at hfamily
    split at hfamily
    · next m hm => exact ⟨m, hm⟩
    · cases hfamily
  · intro s hs
    by_contra hconcerning
    have hmem := covered_of_capabilityGaps hsignals s hs (Bool.not_eq_false _ ▸ hconcerning)
    obtain ⟨n, hn, -⟩ := mem_map.mp hmem
    have hn' := mem_filter.mp hn
    rw [hquiet n hn'.1] at hn'
    cases hn'.2
  · intro hlinks hmissing
    rw [emptyGap, if_pos ⟨hlinks, hmissing⟩] at hempty
    cases hempty

theorem entry_of_runPhase {α β : Type} {step : α → PhaseStep β} {items : List α} {a : α}
    {r : RationaleEntry} (ha : a ∈ items) (hr : (step a).entry = some r) (log : FusionLog) :
    r ∈ (runPhase step items log).2.rationale := by
  rw [runPhase_log]
  exact mem_append_right _ (mem_filterMap.mpr ⟨a, ha, hr⟩)

theorem evidence_of_candidate {rfc3339 : String → Option Instant} {input : FusionInput}
    {c : Candidate} (hc : c ∈ (filterCandidates rfc3339 input).1) : c.evidence ∈ input.evidence :=
  (get?_indexById_some (record_of_resolved (mem_filterCandidates.mp hc).1).1).1

section

variable {rfc3339 : String → Option Instant} {input : FusionInput} {m : SourceFamilyMap}
  {c : Candidate} (hungrouped : ∀ e ∈ input.evidence, e.group = none)

include hungrouped

theorem hadGroup_of_ungrouped {s : Survivor} {log : FusionLog}
    (hs : s ∈ (collapseGroups (filterCandidates rfc3339 input).1 log).1) : s.hadGroup = false := by
  rcases mem_append.mp hs with hs | hs
  · obtain ⟨c, hc, -⟩ := mem_map.mp hs
    obtain ⟨b, -, -, hkey, hin⟩ := bucket_of_kept (fun _ _ => collapse_kept_mem) hc
    rw [Candidate.groupKey, hungrouped _ (evidence_of_candidate hin)] at hkey
    cases hkey
  · obtain ⟨c, -, rfl⟩ := mem_map.mp hs
    rfl

theorem entry_of_counted (hc : c ∈ (countedCandidates rfc3339 input m).1) :
    ∃ r ∈ (countedCandidates rfc3339 input m).2.rationale, r.rule = .independenceUnverified := by
  obtain ⟨s, hs, -⟩ := mem_filterMap.mp hc
  have hsurvivor : s ∈ (collapseGroups (filterCandidates rfc3339 input).1
      (filterCandidates rfc3339 input).2).1 := by
    rcases mem_append.mp hs with h | h
    · exact (mem_filter.mp h).1
    · obtain ⟨b, -, -, -, hin⟩ := bucket_of_kept (fun _ _ => collapse_kept_mem) h
      exact hin
  refine ⟨_, entry_of_runPhase hs (if_neg ?_) _, rfl⟩
  rw [hadGroup_of_ungrouped hungrouped hsurvivor]
  decide

end

theorem entry_of_uncounted (input : FusionInput) {computedAt : String} {log : FusionLog}
    (hmissing : input.graph.missing = []) (hlinks : input.graph.links ≠ []) :
    ∃ r ∈ (decidedFinding input computedAt [] log).rationale, r.rule = .allSupportDiscounted := by
  refine ⟨_, mem_append_right _ (.head _), ?_⟩
  have hsorted : sortLinks input.graph.links ≠ [] := fun h => hlinks (insertionSort_eq_nil h)
  have hnone : sortMissing input.graph.missing = [] := by
    rw [hmissing]
    rfl
  simp [decideVerdict, countRelation, hnone, hsorted]

/-- Inputs for which some gap is reported whatever fusion finds. -/
def GapEvident (graph : NotedGraph) (evidence : List Evidence)
    (capabilities : List (List DeclaredSignal)) : Prop :=
  (∃ n ∈ graph.missing, n.availability.isConcerning = true) ∨
    (∃ signals ∈ capabilities, ∃ s ∈ signals, s.state.isConcerning = true) ∨
    graph.missing = [] ∧ ∀ e ∈ evidence, e.group = none

def hostRecord (group : Option Uuid) : Evidence :=
  ⟨5, 6, .toolResult, "", some ⟨.hostObserved, group, []⟩⟩

def contradictedGraph : NotedGraph := ⟨[⟨10, 5, .contradicts⟩], []⟩

def unprobedGraph : NotedGraph :=
  ⟨[], [{ id := 20, availability := .unknown, sessionId := "s", claimId := 1
          signalClass := .processResult, detail := none, notedAt := "" }]⟩

end Fornax
