import Fornax.Evidence.Families
import Fornax.Evidence.Fusion

namespace Fornax

open BaselineFusionPolicy List

variable {c d : Candidate}

theorem resolveLink_kept {index : OrdMap Uuid Evidence} {l : EvidenceLink} :
    (resolveLink index l).kept = some c ↔
      l = c.link ∧ index.get? l.evidenceId = some c.evidence ∧ l.relation ≠ .neutral := by
  obtain ⟨link, evidence⟩ := c
  unfold resolveLink
  cases hget : index.get? l.evidenceId with
  | none => simp
  | some ev =>
    by_cases hn : l.relation = .neutral
    · simp [hn]
    · simp [hn]

theorem excludeDerived_kept {index : OrdMap Uuid Evidence} {ids : OrdSet Uuid} :
    (excludeDerived index ids c).kept = some d ↔
      c = d ∧ ∀ p, (ancestorsOfIndexed c.evidence.id index).contains p →
        ids.contains p = false := by
  have hhits : ((ancestorsOfIndexed c.evidence.id index).toList.filter
      fun p => ids.contains p) = [] ↔
      ∀ p, (ancestorsOfIndexed c.evidence.id index).contains p = true → ids.contains p = false := by
    simp [filter_eq_nil_iff, OrdSet.mem_toList]
  rw [← hhits]
  unfold excludeDerived
  by_cases hnil : (ancestorsOfIndexed c.evidence.id index).toList = []
  · simp [hnil]
  · by_cases hh : ((ancestorsOfIndexed c.evidence.id index).toList.filter
        fun p => ids.contains p) = []
    · simp only [hnil, hh, if_true, if_false, and_true, Option.some.injEq]
    · simp only [hnil, hh, if_false, and_false, reduceCtorEq]

theorem assessStaleness_kept {rfc3339 : String → Option Instant} {claim : Claim}
    (h : (assessStaleness rfc3339 claim c).kept = some d) : c = d := by
  unfold assessStaleness at h
  split at h
  · exact Option.some.inj h
  · exact Option.some.inj h
  · split at h
    · cases h
    · exact Option.some.inj h
  · exact Option.some.inj h

theorem assessStaleness_keeps_contradiction (rfc3339 : String → Option Instant) (claim : Claim)
    (hc : c.link.relation = .contradicts) : (assessStaleness rfc3339 claim c).kept = some c := by
  unfold assessStaleness
  split
  · rfl
  · rfl
  · simp [hc]
  · rfl

section Collapse

variable {α : Type} {link : α → EvidenceLink} {rule : FusionRule}
  {detail : List Uuid → Uuid → String} {bucket : List α}

theorem insertionSort_eq_nil {r : α → α → Prop} [DecidableRel r] {l : List α}
    (h : l.insertionSort r = []) : l = [] := by
  have hperm := perm_insertionSort r l
  rw [h] at hperm
  exact nil_perm.mp hperm

theorem collapse_kept : (collapse link rule detail bucket).kept =
    (bucket.insertionSort fun a b => (link a).id ≤ (link b).id).head? := by
  unfold collapse
  split
  all_goals
    rename_i hs
    rw [hs]
    rfl

theorem collapse_kept_mem {x : α} (h : (collapse link rule detail bucket).kept = some x) :
    x ∈ bucket := by
  rw [collapse_kept] at h
  exact (mem_insertionSort _).mp (mem_of_head? h)

theorem collapse_kept_isSome (hb : bucket ≠ []) :
    (collapse link rule detail bucket).kept.isSome := by
  rw [collapse_kept, isSome_head?]
  exact fun hs => hb (insertionSort_eq_nil hs)

end Collapse

theorem relationKey_inj {r s : EvidenceRelation} (h : r.key = s.key) : r = s := by
  cases r <;> cases s <;> first | rfl | cases h

theorem groupKey_relation {k : ℕ ×ₗ Uuid} (hc : c.groupKey = some k) (hd : d.groupKey = some k) :
    c.link.relation = d.link.relation := by
  obtain ⟨g, -, rfl⟩ := Option.map_eq_some_iff.mp hc
  obtain ⟨g', -, hk⟩ := Option.map_eq_some_iff.mp hd
  exact relationKey_inj (congrArg (fun k => (ofLex k).1) hk).symm

theorem familyKey_fst {m : SourceFamilyMap} {s : Survivor} {k : ℕ ×ₗ Uuid}
    (h : s.familyKey m = some k) : (ofLex k).1 = s.candidate.link.relation.key := by
  unfold Survivor.familyKey at h
  split at h
  · split at h
    · obtain ⟨x, -, rfl⟩ := Option.map_eq_some_iff.mp h
      rfl
    · cases h
  · cases h

theorem collapseGroups_relation (afterR4 : List Candidate) (log : FusionLog)
    (r : EvidenceRelation) : (∃ s ∈ (collapseGroups afterR4 log).1, s.candidate.link.relation = r) ↔
      ∃ c ∈ afterR4, c.link.relation = r := by
  have hrep := OrdMap.exists_representative Candidate.groupKey (fun b => (collapseGroup b).kept)
    (fun c => c.link.relation = r) (fun _ _ h => collapse_kept_mem h)
    (fun _ h => collapse_kept_isSome h)
    (fun _ _ _ ha hb hr => (groupKey_relation ha hb).symm.trans hr) afterR4
  rw [← hrep]
  simp only [collapseGroups, runPhase, mem_append, mem_map, or_and_right, exists_or,
    exists_exists_and_eq_and]

theorem collapseFamilies_relation (m : SourceFamilyMap) (survivors : List Survivor)
    (log : FusionLog) (r : EvidenceRelation) :
    (∃ c ∈ (collapseFamilies m survivors log).1, c.link.relation = r) ↔
      ∃ s ∈ survivors, s.candidate.link.relation = r := by
  have hsame : ∀ a b k, Survivor.familyKey m a = some k → Survivor.familyKey m b = some k →
      a.candidate.link.relation = r → b.candidate.link.relation = r := by
    intro a b k ha hb hr
    rw [← hr]
    exact relationKey_inj ((familyKey_fst hb).symm.trans (familyKey_fst ha))
  have hrep := OrdMap.exists_representative (Survivor.familyKey m)
    (fun b => (collapseFamily b).kept) (fun s => s.candidate.link.relation = r)
    (fun _ _ h => collapse_kept_mem h) (fun _ h => collapse_kept_isSome h) hsame survivors
  rw [← hrep, or_comm]
  simp only [collapseFamilies, runPhase, noteIndependence, mem_filterMap,
    Option.some.injEq, exists_exists_and_eq_and, mem_append, or_and_right, exists_or]

theorem countRelation_pos {r : EvidenceRelation} {counted : List Candidate} :
    0 < countRelation r counted ↔ ∃ c ∈ counted, c.link.relation = r := by
  simp [countRelation, length_pos_iff_exists_mem]

theorem decideVerdict_against (s c : ℕ) (ids : List Uuid) (links : List EvidenceLink)
    (missing : List MissingEvidence) :
    ((decideVerdict s c ids links missing).verdict = .contradicted ∨
      (decideVerdict s c ids links missing).verdict = .review) ↔ 0 < c := by
  unfold decideVerdict
  by_cases hc : 0 < c
  · by_cases hs : 0 < s
    · simp [hc, hs]
    · simp [hc, hs]
  · simp only [gt_iff_lt, hc, and_false, if_false, iff_false]
    split
    · simp
    · split
      · simp
      · split
        · simp
        · split
          · simp
          · simp

theorem fuse_against (rfc3339 : String → Option Instant) (input : FusionInput)
    (computedAt : String) : ((fuse rfc3339 input computedAt).verdict = .contradicted ∨
      (fuse rfc3339 input computedAt).verdict = .review) ↔
      (∃ c ∈ (filterCandidates rfc3339 input).1, c.link.relation = .contradicts) ∨
      ∃ err, SourceFamilyMap.tryBuild input.evidence FamilyBudget.defaultBudget = .error err := by
  unfold fuse
  cases hb : SourceFamilyMap.tryBuild input.evidence FamilyBudget.defaultBudget with
  | error err => simp [budgetFinding]
  | ok m =>
    simp only [decidedFinding, decideVerdict_against, countRelation_pos,
      collapseFamilies_relation, collapseGroups_relation, reduceCtorEq, exists_false, or_false]

def Resolves (input : FusionInput) (l : EvidenceLink) : Prop :=
  ∃ e ∈ input.evidence, e.id = l.evidenceId

/-- No other resolved voting link's record is an ancestor of the link's record. -/
def NotDerivedFromVote (input : FusionInput) (l : EvidenceLink) : Prop :=
  ∀ v ∈ input.graph.links, v.relation ≠ .neutral → Resolves input v →
    v.evidenceId ≠ l.evidenceId → ¬ Ancestor input.evidence l.evidenceId v.evidenceId

def resolvedCandidates (input : FusionInput) : List Candidate :=
  (runPhase (resolveLink (indexById input.evidence)) (sortLinks input.graph.links) ⟨[], []⟩).1

def resolvedIds (input : FusionInput) : OrdSet Uuid :=
  OrdSet.ofList ((resolvedCandidates input).map fun c => c.link.evidenceId)

theorem mem_filterCandidates {rfc3339 : String → Option Instant} {input : FusionInput} :
    c ∈ (filterCandidates rfc3339 input).1 ↔ c ∈ resolvedCandidates input ∧
      (excludeDerived (indexById input.evidence) (resolvedIds input) c).kept = some c ∧
      (assessStaleness rfc3339 input.claim c).kept = some c := by
  constructor
  · intro h
    obtain ⟨d, hd, hs⟩ := mem_filterMap.mp h
    obtain rfl := assessStaleness_kept hs
    obtain ⟨e, he, hx⟩ := mem_filterMap.mp hd
    obtain rfl := (excludeDerived_kept.mp hx).1
    exact ⟨he, hx, hs⟩
  · intro ⟨hc, hx, hs⟩
    exact mem_filterMap.mpr ⟨c, mem_filterMap.mpr ⟨c, hc, hx⟩, hs⟩

section

variable {input : FusionInput} (hidx : Indexes (indexById input.evidence) input.evidence)
include hidx

theorem mem_resolvedCandidates {c : Candidate} :
    c ∈ resolvedCandidates input ↔ c.link ∈ input.graph.links ∧ c.evidence ∈ input.evidence ∧
      c.evidence.id = c.link.evidenceId ∧ c.link.relation ≠ .neutral := by
  rw [resolvedCandidates, runPhase, mem_filterMap]
  constructor
  · rintro ⟨l, hl, hk⟩
    obtain ⟨rfl, hget, hr⟩ := resolveLink_kept.mp hk
    obtain ⟨hev, hid⟩ := (hidx _ _).mp hget
    exact ⟨(mem_insertionSort _).mp hl, hev, hid, hr⟩
  · intro ⟨hl, hev, hid, hr⟩
    exact ⟨c.link, (mem_insertionSort _).mpr hl,
      resolveLink_kept.mpr ⟨rfl, (hidx _ _).mpr ⟨hev, hid⟩, hr⟩⟩

theorem contains_resolvedIds {x : Uuid} : (resolvedIds input).contains x ↔
      ∃ v ∈ input.graph.links, v.relation ≠ .neutral ∧ Resolves input v ∧ v.evidenceId = x := by
  rw [resolvedIds, OrdSet.contains_ofList, mem_map]
  constructor
  · rintro ⟨c, hc, rfl⟩
    obtain ⟨hl, hev, hid, hr⟩ := (mem_resolvedCandidates hidx).mp hc
    exact ⟨c.link, hl, hr, ⟨c.evidence, hev, hid⟩, rfl⟩
  · rintro ⟨v, hv, hr, ⟨e, he, hid⟩, rfl⟩
    exact ⟨⟨v, e⟩, (mem_resolvedCandidates hidx).mpr ⟨hv, he, hid, hr⟩, rfl⟩

theorem excludeDerived_keeps_iff {c : Candidate} (hid : c.evidence.id = c.link.evidenceId) :
    (excludeDerived (indexById input.evidence) (resolvedIds input) c).kept = some c ↔
      NotDerivedFromVote input c.link := by
  rw [excludeDerived_kept]
  simp only [true_and, contains_ancestorsOfIndexed hidx, hid, Bool.eq_false_iff, ne_eq,
    contains_resolvedIds hidx]
  constructor
  · intro h v hv hr hres hne hanc
    exact h v.evidenceId ⟨hne, hanc⟩ ⟨v, hv, hr, hres, rfl⟩
  · rintro h p ⟨hne, hanc⟩ ⟨v, hv, hr, hres, rfl⟩
    exact h v hv hr hres hne hanc

theorem filterCandidates_contradiction (rfc3339 : String → Option Instant) :
    (∃ c ∈ (filterCandidates rfc3339 input).1, c.link.relation = .contradicts) ↔
      ∃ l ∈ input.graph.links, l.relation = .contradicts ∧ Resolves input l ∧
        NotDerivedFromVote input l := by
  constructor
  · rintro ⟨c, hc, hrel⟩
    obtain ⟨hres, hx, -⟩ := mem_filterCandidates.mp hc
    obtain ⟨hl, hev, hid, -⟩ := (mem_resolvedCandidates hidx).mp hres
    exact ⟨c.link, hl, hrel, ⟨c.evidence, hev, hid⟩, (excludeDerived_keeps_iff hidx hid).mp hx⟩
  · rintro ⟨l, hl, hrel, ⟨e, he, hid⟩, hnot⟩
    have hr : l.relation ≠ .neutral := by
      rw [hrel]
      decide
    refine ⟨⟨l, e⟩, mem_filterCandidates.mpr ⟨?_, ?_, ?_⟩, hrel⟩
    · exact (mem_resolvedCandidates hidx).mpr ⟨hl, he, hid, hr⟩
    · exact (excludeDerived_keeps_iff hidx hid).mpr hnot
    · exact assessStaleness_keeps_contradiction rfc3339 input.claim hrel

end

/-- The verdict is `Contradicted` or `Review` exactly when some resolved
contradiction is not derived from another vote, or the family construction runs
out of budget. -/
theorem contradiction_survives_iff (rfc3339 : String → Option Instant) (input : FusionInput)
    (computedAt : String) (hids : (input.evidence.map Evidence.id).Nodup) :
    ((fuse rfc3339 input computedAt).verdict = .contradicted ∨
      (fuse rfc3339 input computedAt).verdict = .review) ↔
      (∃ l ∈ input.graph.links, l.relation = .contradicts ∧ Resolves input l ∧
        NotDerivedFromVote input l) ∨
      ∃ err, SourceFamilyMap.tryBuild input.evidence FamilyBudget.defaultBudget = .error err := by
  rw [fuse_against, filterCandidates_contradiction (indexes_indexById hids)]

def derivedContradiction : FusionInput where
  claim := ⟨0, "2026-09-20T12:00:00Z"⟩
  graph := ⟨[⟨10, 1, .supports⟩, ⟨11, 2, .contradicts⟩], []⟩
  evidence := [agentRecord 1 100 none [], agentRecord 2 101 none [1]]

def cyclicContradictions : FusionInput where
  claim := ⟨0, "2026-09-20T12:00:00Z"⟩
  graph := ⟨[⟨10, 1, .contradicts⟩, ⟨11, 2, .contradicts⟩], []⟩
  evidence := [agentRecord 1 100 none [2], agentRecord 2 101 none [1]]

theorem derived_contradiction_lost :
    (fuse (fun _ => none) derivedContradiction "").verdict = .verified ∧
    (fuse (fun _ => none) cyclicContradictions "").verdict = .unverified := by
  decide

def derivedFromUnlinked : FusionInput where
  claim := ⟨0, "2026-09-20T12:00:00Z"⟩
  graph := ⟨[⟨11, 2, .contradicts⟩], []⟩
  evidence := [agentRecord 1 100 none [], agentRecord 2 101 none [1]]

theorem contradiction_survives_derivedFromUnlinked :
    (fuse (fun _ => none) derivedFromUnlinked "").verdict = .contradicted ∨
      (fuse (fun _ => none) derivedFromUnlinked "").verdict = .review := by
  have hres : Resolves derivedFromUnlinked ⟨11, 2, .contradicts⟩ :=
    ⟨agentRecord 2 101 none [1], by decide, rfl⟩
  refine (contradiction_survives_iff (fun _ => none) derivedFromUnlinked "" (by decide)).mpr
    (Or.inl ⟨⟨11, 2, .contradicts⟩, by decide, rfl, hres, ?_⟩)
  intro v hv hr hres hne
  rw [mem_singleton.mp hv] at hne
  exact absurd rfl hne

end Fornax
