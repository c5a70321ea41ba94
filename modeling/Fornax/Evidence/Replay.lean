import Fornax.Evidence.Budget
import Fornax.Evidence.Fusion

namespace Fornax

open BaselineFusionPolicy List SortDedup

variable {pool pool' : List Evidence}

theorem sortById_eq_of_perm (hperm : pool.Perm pool') (hids : (pool.map Evidence.id).Nodup) :
    sortById pool = sortById pool' := by
  have hsort : sortBy Evidence.id pool = sortBy Evidence.id pool' :=
    sortBy_eq_of_perm hperm hids
  exact hsort

theorem indexById_congr (h : sortById pool = sortById pool') :
    indexById pool = indexById pool' := by
  rw [← indexById_sortById pool, h, indexById_sortById]

theorem find?_id_sortById (pool : List Evidence) (x : Uuid) :
    ((sortById pool).find? fun e => e.id = x) = pool.find? fun e => e.id = x := by
  rw [← head?_filter, ← head?_filter]
  have hword : word Evidence.id x (sortBy Evidence.id pool) =
      word Evidence.id x pool := word_sortBy Evidence.id x pool
  exact congrArg head? hword

theorem isNoSource_congr (h : sortById pool = sortById pool') :
    isNoSource pool = isNoSource pool' := by
  apply OrdMap.ext_get?
  intro x
  rw [get?_isNoSource, get?_isNoSource, ← find?_id_sortById pool, h, find?_id_sortById]

theorem tryBuild_congr (h : sortById pool = sortById pool') (hlen : pool.length = pool'.length)
    (budget : FamilyBudget) :
    SourceFamilyMap.tryBuild pool budget = SourceFamilyMap.tryBuild pool' budget := by
  unfold SourceFamilyMap.tryBuild
  simp only [assembleFamilies, h, hlen, isNoSource_congr h]

structure SameRows (input input' : FusionInput) : Prop where
  claim_eq : input.claim = input'.claim
  links_perm : input.graph.links.Perm input'.graph.links
  missing_perm : input.graph.missing.Perm input'.graph.missing
  evidence_perm : input.evidence.Perm input'.evidence

structure DistinctIds (input : FusionInput) : Prop where
  links : (input.graph.links.map EvidenceLink.id).Nodup
  missing : (input.graph.missing.map MissingEvidence.id).Nodup
  evidence : (input.evidence.map Evidence.id).Nodup

theorem sortLinks_eq_of_perm {links links' : List EvidenceLink} (hperm : links.Perm links')
    (hids : (links.map EvidenceLink.id).Nodup) : sortLinks links = sortLinks links' := by
  have hsort : sortBy EvidenceLink.id links = sortBy EvidenceLink.id links' :=
    sortBy_eq_of_perm hperm hids
  exact hsort

theorem sortMissing_eq_of_perm {missing missing' : List MissingEvidence}
    (hperm : missing.Perm missing') (hids : (missing.map MissingEvidence.id).Nodup) :
    sortMissing missing = sortMissing missing' := by
  have hsort : sortBy MissingEvidence.id missing =
      sortBy MissingEvidence.id missing' := sortBy_eq_of_perm hperm hids
  exact hsort

/-- Permuting the rows of an input with distinct ids leaves the whole finding
unchanged. -/
theorem fuse_order_free (rfc3339 : String → Option Instant) (input input' : FusionInput)
    (computedAt : String) (hids : DistinctIds input) (hrows : SameRows input input') :
    fuse rfc3339 input computedAt = fuse rfc3339 input' computedAt := by
  have hlinks := sortLinks_eq_of_perm hrows.links_perm hids.links
  have hmissing := sortMissing_eq_of_perm hrows.missing_perm hids.missing
  have hsort := sortById_eq_of_perm hrows.evidence_perm hids.evidence
  have hbuild := tryBuild_congr hsort hrows.evidence_perm.length_eq FamilyBudget.defaultBudget
  have hfilter : filterCandidates rfc3339 input = filterCandidates rfc3339 input' := by
    simp only [filterCandidates, hlinks, indexById_congr hsort, hrows.claim_eq]
  unfold fuse
  simp only [hfilter, hbuild, budgetFinding, decidedFinding, hlinks, hmissing, hrows.claim_eq]

def sharedTurnInput : FusionInput where
  claim := ⟨0, "2026-09-20T12:00:00Z"⟩
  graph := ⟨[⟨10, 1, .supports⟩, ⟨11, 2, .supports⟩], [⟨20, .unknown⟩, ⟨21, .redacted⟩]⟩
  evidence := [agentRecord 1 100 none [], agentRecord 2 100 none []]

def sharedTurnReversed : FusionInput where
  claim := sharedTurnInput.claim
  graph := ⟨sharedTurnInput.graph.links.reverse, sharedTurnInput.graph.missing.reverse⟩
  evidence := sharedTurnInput.evidence.reverse

theorem fuse_order_free_reversed :
    (fuse (fun _ => none) sharedTurnReversed "").discountedLinkIds = [11] := by
  have hids : DistinctIds sharedTurnInput := ⟨by decide, by decide, by decide⟩
  have hrows : SameRows sharedTurnInput sharedTurnReversed :=
    ⟨rfl, (reverse_perm _).symm, (reverse_perm _).symm, (reverse_perm _).symm⟩
  rw [← fuse_order_free (fun _ => none) sharedTurnInput sharedTurnReversed "" hids hrows]
  decide

end Fornax
