import Fornax.Contract.Inheritance

namespace Fornax

open List

variable {rfc3339 : String → Option Instant} {claim : Claim}
  {trustClassOf : Evidence → Option TrustClass} {req : EvidenceRequirement}
  {evidence : List Evidence} {excluded : OrdSet Uuid} {reqs : List EvidenceRequirement}
  {conditions : List String}

theorem take_filter {α : Type} {p : α → Bool} {n : ℕ} {l : List α}
    (h : ∀ x ∈ l.take n, p x) : (l.filter p).take n = l.take n := by
  induction l generalizing n with
  | nil => rfl
  | cons x l ih =>
    cases n with
    | zero => rfl
    | succ n =>
      rw [take_succ_cons] at h
      rw [filter_cons_of_pos (h x mem_cons_self), take_succ_cons,
        take_succ_cons, ih fun y hy => h y (mem_cons_of_mem x hy)]

theorem qualifyingItems_eq : qualifyingItems rfc3339 claim trustClassOf req evidence excluded =
    (evidence.filter (req.accepts rfc3339 claim trustClassOf)).filter
      fun ev => !excluded.contains ev.id := by
  rw [filter_filter, qualifyingItems]
  refine filter_congr fun ev _ => ?_
  rw [Bool.eq_iff_iff, decide_eq_true_iff, classifyItem_qualifies, Bool.and_eq_true,
    Bool.not_eq_true', and_comm]

def ownMatches (rfc3339 : String → Option Instant) (claim : Claim)
    (trustClassOf : Evidence → Option TrustClass) (evidence : List Evidence)
    (req : EvidenceRequirement) : List Uuid :=
  (evaluateRequirement rfc3339 claim trustClassOf req evidence OrdSet.empty).matched

/-- Nothing that the requirement would match on its own is also what one that applies and that it
names would match on its own. -/
def Unpushed (rfc3339 : String → Option Instant) (claim : Claim)
    (trustClassOf : Evidence → Option TrustClass) (reqs : List EvidenceRequirement)
    (evidence : List Evidence) (conditions : List String) (req : EvidenceRequirement) : Prop :=
  ∀ other ∈ reqs, other.id ∈ req.independence.others → other.level.applicable conditions = true →
    List.Disjoint (ownMatches rfc3339 claim trustClassOf evidence req)
      (ownMatches rfc3339 claim trustClassOf evidence other)

theorem not_excluded_of_matched {i : Uuid}
    (h : i ∈ (evaluateRequirement rfc3339 claim trustClassOf req evidence excluded).matched) :
    excluded.contains i = false := by
  rw [matched_eq, qualifyingItems_eq, mem_map] at h
  obtain ⟨ev, hev, rfl⟩ := h
  exact (Bool.not_eq_true' _).mp (mem_filter.mp (mem_of_mem_take hev)).2

theorem matched_of_not_excluded
    (h : ∀ i ∈ ownMatches rfc3339 claim trustClassOf evidence req, excluded.contains i = false) :
    (evaluateRequirement rfc3339 claim trustClassOf req evidence excluded).matched =
      ownMatches rfc3339 claim trustClassOf evidence req := by
  have hnone : ∀ l : List Evidence,
      (l.filter fun ev => !(OrdSet.empty : OrdSet Uuid).contains ev.id) = l :=
    fun l => filter_eq_self.mpr fun ev _ => by simp [OrdSet.contains_empty]
  unfold ownMatches at h ⊢
  rw [matched_eq, qualifyingItems_eq, hnone] at h
  rw [matched_eq, matched_eq, qualifyingItems_eq, qualifyingItems_eq, hnone, take_filter]
  intro ev hev
  rw [h ev.id (mem_map_of_mem hev)]
  rfl

section

variable (hids : (reqs.map EvidenceRequirement.id).Nodup)

include hids

theorem excluded_iff {rule : IndependenceRule} {i : Uuid} :
    (rule.excluded (unconstrainedQualifying rfc3339 claim trustClassOf reqs evidence
      conditions)).contains i ↔
      ∃ other ∈ reqs, other.id ∈ rule.others ∧ other.level.applicable conditions ∧
        i ∈ ownMatches rfc3339 claim trustClassOf evidence other := by
  rw [contains_excluded]
  constructor
  · rintro ⟨id, hid, ids, hget, hi⟩
    obtain ⟨other, hother, rfl, happlies, rfl⟩ := (get?_unconstrained rfc3339 hids).mp hget
    exact ⟨other, hother, hid, happlies, hi⟩
  · rintro ⟨other, hother, hid, happlies, hi⟩
    exact ⟨other.id, hid, _, (get?_unconstrained rfc3339 hids).mpr
      ⟨other, hother, rfl, happlies, rfl⟩, hi⟩

theorem assessed_disjoint {r s : EvidenceRequirement} (hs : s ∈ reqs)
    (hnamed : s.id ∈ r.independence.others)
    (hkept : Unpushed rfc3339 claim trustClassOf reqs evidence conditions s) :
    let unconstrained := unconstrainedQualifying rfc3339 claim trustClassOf reqs evidence conditions
    List.Disjoint
      (assessRequirement rfc3339 claim trustClassOf unconstrained evidence conditions
        r).matchedEvidence
      (assessRequirement rfc3339 claim trustClassOf unconstrained evidence conditions
        s).matchedEvidence := by
  intro unconstrained i hr hi
  simp only [assessRequirement] at hr hi
  split_ifs at hr hi with hrapplies hsapplies
  · have hown : (evaluateRequirement rfc3339 claim trustClassOf s evidence
        (s.independence.excluded unconstrained)).matched =
        ownMatches rfc3339 claim trustClassOf evidence s := by
      refine matched_of_not_excluded fun j hj => ?_
      rw [← Bool.not_eq_true, excluded_iff hids]
      rintro ⟨other, hother, hid, happlies, hj'⟩
      exact hkept other hother hid happlies hj hj'
    rw [hown] at hi
    have hexcluded : (r.independence.excluded unconstrained).contains i :=
      (excluded_iff hids).mpr ⟨s, hs, hnamed, hsapplies, hi⟩
    rw [not_excluded_of_matched hr] at hexcluded
    cases hexcluded
  · cases hi
  · cases hr
  · cases hr

end

section

variable {registry : ContractRegistry} {claimClass : ClaimClassId}
  (hreqs : registry.effectiveRequirements claimClass = .ok reqs)

include hreqs

theorem assessClaim_of_effective :
    assessClaim rfc3339 claim trustClassOf registry claimClass evidence conditions =
      .ok ⟨claimClass, assessRequirements rfc3339 claim trustClassOf reqs evidence conditions,
        overallState conditions
          (assessRequirements rfc3339 claim trustClassOf reqs evidence conditions)⟩ := by
  obtain ⟨contract, hcontract⟩ := registered_of_effective hreqs
  simp only [assessClaim, hcontract, hreqs]
  rfl

theorem nodup_ids_of_effective : (reqs.map EvidenceRequirement.id).Nodup := by
  obtain ⟨-, m, -, rfl, -, hkeyed, -⟩ := effectiveRequirements_ancestor .refl hreqs
  exact hkeyed.nodup_ids

theorem assessed_ok {result : ClaimAssessment}
    (h : assessClaim rfc3339 claim trustClassOf registry claimClass evidence conditions =
      .ok result) : (reqs.map EvidenceRequirement.id).Nodup ∧ result = ⟨claimClass,
      assessRequirements rfc3339 claim trustClassOf reqs evidence conditions, overallState
        conditions (assessRequirements rfc3339 claim trustClassOf reqs evidence conditions)⟩ := by
  rw [assessClaim_of_effective hreqs] at h
  exact ⟨nodup_ids_of_effective hreqs, (Except.ok.inj h).symm⟩

end

theorem entry_of_id (hids : (reqs.map EvidenceRequirement.id).Nodup) {r : EvidenceRequirement}
    (hr : r ∈ reqs) {ra : RequirementAssessment}
    (hra : ra ∈ assessRequirements rfc3339 claim trustClassOf reqs evidence conditions)
    (hid : ra.requirementId = r.id) :
    ra = assessRequirement rfc3339 claim trustClassOf (unconstrainedQualifying rfc3339 claim
      trustClassOf reqs evidence conditions) evidence conditions r := by
  obtain ⟨r', hr', rfl⟩ := mem_map.mp hra
  rw [inj_on_of_nodup_map hids hr' hr hid]

def requirementNaming (id : String) (others : List String) : EvidenceRequirement :=
  { exitCodeRequirement with id, independence := .mustBeIndependentOf others }

def registryOf (requirements : List EvidenceRequirement) : ContractRegistry :=
  match ContractRegistry.empty.register ⟨baseClass, none, requirements⟩ with
  | .ok r => r
  | .error _ => ContractRegistry.empty

def matchesOf (requirements : List EvidenceRequirement) : Except ContractError (List (List Uuid)) :=
  (assessClaim noonRfc3339 ⟨0, "2026-09-20T12:00:00Z"⟩ recordedTrust (registryOf requirements)
    baseClass [noonExitCode 1, noonExitCode 3] []).map
      fun res => res.perRequirement.map (·.matchedEvidence)

end Fornax
