import Fornax.Contract.Independence

namespace Fornax

open List

variable {rfc3339 : String → Option Instant} {claim : Claim}
  {trustClassOf : Evidence → Option TrustClass} {evidence evidence' : List Evidence}
  {reqs : List EvidenceRequirement} {conditions : List String} {r o : EvidenceRequirement}
  {registry : ContractRegistry} {claimClass : ClaimClassId} {unc : OrdMap String (List Uuid)}

/-- A record that an applicable requirement named by `r` would match on its own. -/
def EvidenceRequirement.takenFrom (rfc3339 : String → Option Instant) (claim : Claim)
    (trustClassOf : Evidence → Option TrustClass) (reqs : List EvidenceRequirement)
    (evidence : List Evidence) (conditions : List String) (r : EvidenceRequirement)
    (ev : Evidence) : Bool :=
  reqs.any fun o => decide (o.id ∈ r.independence.others) && o.level.applicable conditions &&
    decide (ev.id ∈ ownMatches rfc3339 claim trustClassOf evidence o)

def EvidenceRequirement.available (rfc3339 : String → Option Instant) (claim : Claim)
    (trustClassOf : Evidence → Option TrustClass) (reqs : List EvidenceRequirement)
    (evidence : List Evidence) (conditions : List String) (r : EvidenceRequirement) :
    List Evidence :=
  (evidence.filter (r.accepts rfc3339 claim trustClassOf)).filter fun ev =>
    !r.takenFrom rfc3339 claim trustClassOf reqs evidence conditions ev

section

variable (hids : (reqs.map EvidenceRequirement.id).Nodup)

include hids

theorem contains_excluded_eq_takenFrom (r : EvidenceRequirement) (ev : Evidence) :
    (r.independence.excluded (unconstrainedQualifying rfc3339 claim trustClassOf reqs evidence
      conditions)).contains ev.id =
      r.takenFrom rfc3339 claim trustClassOf reqs evidence conditions ev := by
  rw [Bool.eq_iff_iff, excluded_iff hids, EvidenceRequirement.takenFrom, any_eq_true]
  simp only [Bool.and_eq_true, decide_eq_true_eq, and_assoc]

theorem qualifyingItems_eq_available (r : EvidenceRequirement) :
    qualifyingItems rfc3339 claim trustClassOf r evidence (r.independence.excluded
      (unconstrainedQualifying rfc3339 claim trustClassOf reqs evidence conditions)) =
      r.available rfc3339 claim trustClassOf reqs evidence conditions := by
  rw [qualifyingItems_eq, EvidenceRequirement.available]
  simp only [contains_excluded_eq_takenFrom hids]

theorem satisfied_iff_available : overallState conditions
      (assessRequirements rfc3339 claim trustClassOf reqs evidence conditions) = .satisfied ↔
    ∀ r ∈ reqs, r.level.blocking conditions → r.minItems.toNat ≤
      (r.available rfc3339 claim trustClassOf reqs evidence conditions).length % 2 ^ 32 := by
  rw [assessRequirements_satisfied_iff]
  simp only [qualifyingItems_eq_available hids]

end

def RequirementAssessment.Agrees (ra : RequirementAssessment) (minItems : ℕ) : Prop :=
  (ra.state = .satisfied ↔ ra.matchedEvidence.length = minItems) ∧
    (ra.state ≠ .satisfied → ra.matchedEvidence = [])

theorem agrees_of_not_applicable (happ : r.level.applicable conditions = false) {n : ℕ}
    (hn : 0 < n) :
    (assessRequirement rfc3339 claim trustClassOf unc evidence conditions r).Agrees n := by
  simp only [assessRequirement, happ, Bool.false_eq_true, if_false, RequirementAssessment.Agrees,
    length_nil, hn.ne, reduceCtorEq, implies_true, and_self]

theorem agrees_iff (happ : r.level.applicable conditions) (hpos : 0 < r.minItems.toNat) {q : ℕ}
    (hq : (qualifyingItems rfc3339 claim trustClassOf r evidence
      (r.independence.excluded unc)).length = q) :
    (assessRequirement rfc3339 claim trustClassOf unc evidence conditions r).Agrees
      r.minItems.toNat ↔ q = 0 ∨ r.minItems.toNat ≤ q % 2 ^ 32 := by
  have hlen : (evaluateRequirement rfc3339 claim trustClassOf r evidence
      (r.independence.excluded unc)).matched.length = min r.minItems.toNat q := by
    rw [matched_eq, length_map, length_take, hq]
  simp only [assessRequirement, happ, if_true, RequirementAssessment.Agrees, ne_eq,
    evaluateRequirement_satisfied_iff, hq, ← length_eq_zero_iff, hlen]
  have hmod : q % 2 ^ 32 ≤ q := Nat.mod_le q (2 ^ 32)
  constructor
  · rintro ⟨-, hempty⟩
    by_cases hs : r.minItems.toNat ≤ q % 2 ^ 32
    · exact .inr hs
    · have := hempty hs
      omega
  · rintro (rfl | hs)
    · rw [Nat.zero_mod]
      omega
    · omega

/-- Matched evidence and state agree in a whole assessment exactly when no applicable requirement
is left with some, but too few, records (as counted in a `u32`). -/
theorem matched_agrees_iff {result : ClaimAssessment}
    (h : assessClaim rfc3339 claim trustClassOf registry claimClass evidence conditions =
      .ok result)
    (hreqs : registry.effectiveRequirements claimClass = .ok reqs) :
    (∀ r ∈ reqs, ∀ ra ∈ result.perRequirement, ra.requirementId = r.id →
      (ra.state = .satisfied ↔ ra.matchedEvidence.length = r.minItems.toNat) ∧
      (ra.state ≠ .satisfied → ra.matchedEvidence = [])) ↔
    ∀ r ∈ reqs, r.level.applicable conditions = true →
      r.available rfc3339 claim trustClassOf reqs evidence conditions = [] ∨
      r.minItems.toNat ≤
        (r.available rfc3339 claim trustClassOf reqs evidence conditions).length % 2 ^ 32 := by
  obtain ⟨hids, rfl⟩ := assessed_ok hreqs h
  refine forall₂_congr fun r hr => ?_
  have hcount := congrArg length (qualifyingItems_eq_available hids r :
    _ = r.available rfc3339 claim trustClassOf reqs evidence conditions)
  have hpos := minItems_pos hreqs r hr
  rw [← length_eq_zero_iff]
  constructor
  · intro hagree happ
    exact (agrees_iff happ hpos hcount).mp (hagree _ (mem_map_of_mem hr) rfl)
  · intro hcond ra hra hid
    rw [entry_of_id hids hr hra hid]
    cases happ : r.level.applicable conditions with
    | true => exact (agrees_iff happ hpos hcount).mpr (hcond happ)
    | false => exact agrees_of_not_applicable happ hpos

/-- One record where two are needed: it is matched, and the requirement is not satisfied. -/
theorem matched_without_satisfied :
    (assessClaim noonRfc3339 ⟨0, "2026-09-20T12:00:00Z"⟩ recordedTrust
      (registryOf [{ exitCodeRequirement with minItems := 2 }]) baseClass [noonExitCode 1] []).map
        (fun res => res.perRequirement.map fun ra => (ra.state, ra.matchedEvidence)) =
      .ok [(.unavailable, [1])] := by
  decide

theorem matched_agrees_two :
    ∃ result, assessClaim noonRfc3339 ⟨0, "2026-09-20T12:00:00Z"⟩ recordedTrust
        (registryOf [{ exitCodeRequirement with minItems := 2 }]) baseClass
        [noonExitCode 1, noonExitCode 3, noonExitCode 4] [] = .ok result ∧
      ∀ ra ∈ result.perRequirement, ra.requirementId = "tests_ran" →
        (ra.state = .satisfied ↔ ra.matchedEvidence.length = 2) := by
  obtain ⟨result, hresult⟩ := Fallible.exists_of_isOk (x := assessClaim noonRfc3339
    ⟨0, "2026-09-20T12:00:00Z"⟩ recordedTrust
    (registryOf [{ exitCodeRequirement with minItems := 2 }]) baseClass
    [noonExitCode 1, noonExitCode 3, noonExitCode 4] []) (by decide)
  have hreqs : (registryOf [{ exitCodeRequirement with minItems := 2 }]).effectiveRequirements
      baseClass = .ok [{ exitCodeRequirement with minItems := 2 }] := by decide
  refine ⟨result, hresult, fun ra hra hid => ?_⟩
  refine ((matched_agrees_iff hresult hreqs).mpr ?_ _ mem_cons_self ra hra hid).1
  intro r hr _
  rw [mem_singleton.mp hr]
  exact .inr (by decide)

theorem mem_ownMatches_append {ev : Evidence} (hev : ev ∈ evidence)
    (hnodup : ((evidence ++ evidence').map Evidence.id).Nodup) (o : EvidenceRequirement) :
    ev.id ∈ ownMatches rfc3339 claim trustClassOf (evidence ++ evidence') o ↔
      ev.id ∈ ownMatches rfc3339 claim trustClassOf evidence o := by
  unfold ownMatches
  rw [mem_matched, mem_matched, filter_append, take_append]
  refine exists_congr fun x => and_congr_left fun hx => ?_
  rw [mem_append, or_iff_left]
  intro hlater
  have hx' : x ∈ evidence' := (mem_filter.mp (mem_of_mem_take hlater)).1
  rw [map_append, nodup_append] at hnodup
  exact hnodup.2.2 ev.id (mem_map_of_mem hev) x.id (mem_map_of_mem hx') hx.symm

theorem available_prefix_append (hnodup : ((evidence ++ evidence').map Evidence.id).Nodup)
    (r : EvidenceRequirement) : r.available rfc3339 claim trustClassOf reqs evidence conditions <+:
      r.available rfc3339 claim trustClassOf reqs (evidence ++ evidence') conditions := by
  rw [EvidenceRequirement.available, EvidenceRequirement.available, filter_append, filter_append]
  refine ⟨_, congrArg (· ++ _) (filter_congr fun ev hev => ?_)⟩
  simp only [EvidenceRequirement.takenFrom, mem_ownMatches_append (mem_of_mem_filter hev) hnodup]

theorem exists_distinct_ids (n : ℕ) (h : n < 2 ^ 128) :
    ∃ later : List Uuid, later.length = n ∧ ((0 : Uuid) :: later).Nodup := by
  refine ⟨(finRange n).map fun k => k.succ.castLE h, by simp, nodup_cons.mpr ⟨?_, ?_⟩⟩
  · intro hmem
    obtain ⟨k, -, hk⟩ := mem_map.mp hmem
    have hval := congrArg Fin.val hk
    rw [Fin.val_castLE, Fin.val_succ] at hval
    exact Nat.succ_ne_zero _ hval
  · exact (nodup_finRange n).map ((Fin.castLE_injective h).comp (Fin.succ_injective n))

/-- An applicable requirement named by a binding one can match no more of its kind than it needs, so
nothing is left to the order of the records. -/
def NoSurplus (rfc3339 : String → Option Instant) (claim : Claim)
    (trustClassOf : Evidence → Option TrustClass) (reqs : List EvidenceRequirement)
    (evidence : List Evidence) (conditions : List String) : Prop :=
  ∀ r ∈ reqs, r.level.blocking conditions = true →
    ∀ o ∈ reqs, o.id ∈ r.independence.others → o.level.applicable conditions = true →
      o.evidenceKind = r.evidenceKind →
        evidence.countP (o.accepts rfc3339 claim trustClassOf) ≤ o.minItems.toNat

theorem mem_ownMatches_of_noSurplus {i : Uuid}
    (h : evidence.countP (o.accepts rfc3339 claim trustClassOf) ≤ o.minItems.toNat) :
    i ∈ ownMatches rfc3339 claim trustClassOf evidence o ↔
      ∃ ev ∈ evidence, o.accepts rfc3339 claim trustClassOf ev ∧ ev.id = i := by
  rw [countP_eq_length_filter] at h
  rw [ownMatches, mem_matched, take_of_length_le h]
  simp only [mem_filter, and_assoc]

section

variable (hperm : evidence.Perm evidence') (hnodup : (evidence.map Evidence.id).Nodup)
  (hsurplus : NoSurplus rfc3339 claim trustClassOf reqs evidence conditions)

include hperm hnodup hsurplus

theorem takenFrom_perm (hr : r ∈ reqs) (hblock : r.level.blocking conditions)
    {ev : Evidence} (hev : ev ∈ evidence) (hkind : ev.kind = r.evidenceKind) :
    r.takenFrom rfc3339 claim trustClassOf reqs evidence conditions ev =
      r.takenFrom rfc3339 claim trustClassOf reqs evidence' conditions ev := by
  have hmem : ∀ o ∈ reqs, o.id ∈ r.independence.others → o.level.applicable conditions = true →
      (ev.id ∈ ownMatches rfc3339 claim trustClassOf evidence o ↔
        ev.id ∈ ownMatches rfc3339 claim trustClassOf evidence' o) := by
    intro o ho hid happ
    by_cases hsame : o.evidenceKind = r.evidenceKind
    · have hle := hsurplus r hr hblock o ho hid happ hsame
      rw [mem_ownMatches_of_noSurplus hle, mem_ownMatches_of_noSurplus (hperm.countP_eq _ ▸ hle)]
      simp only [hperm.mem_iff]
    · -- a record of another kind that shares the id would be the same record
      have hnot : ∀ l : List Evidence, (∀ x ∈ l, x ∈ evidence) →
          ev.id ∉ ownMatches rfc3339 claim trustClassOf l o := by
        intro l hl hmem
        obtain ⟨x, hx, hxid⟩ := (mem_matched rfc3339).mp hmem
        obtain ⟨hxl, hacc⟩ := mem_filter.mp (mem_of_mem_take hx)
        rw [inj_on_of_nodup_map hnodup (hl x hxl) hev hxid, accepts_iff] at hacc
        exact hsame (hacc.1.symm.trans hkind)
      exact iff_of_false (hnot _ fun x hx => hx) (hnot _ fun x hx => hperm.mem_iff.mpr hx)
  rw [Bool.eq_iff_iff, EvidenceRequirement.takenFrom, EvidenceRequirement.takenFrom,
    any_eq_true, any_eq_true]
  refine exists_congr fun o => and_congr_right fun ho => ?_
  simp only [Bool.and_eq_true, decide_eq_true_eq]
  exact and_congr_right fun h => hmem o ho h.1 h.2

theorem classifyItem_perm (hids : (reqs.map EvidenceRequirement.id).Nodup) (hr : r ∈ reqs)
    (hblock : r.level.blocking conditions) {ev : Evidence} (hev : ev ∈ evidence) :
    classifyItem rfc3339 claim trustClassOf r (r.independence.excluded
      (unconstrainedQualifying rfc3339 claim trustClassOf reqs evidence conditions)) ev =
    classifyItem rfc3339 claim trustClassOf r (r.independence.excluded
      (unconstrainedQualifying rfc3339 claim trustClassOf reqs evidence' conditions)) ev := by
  unfold classifyItem
  split
  · rfl
  · next hkind =>
    rw [contains_excluded_eq_takenFrom hids, contains_excluded_eq_takenFrom hids,
      takenFrom_perm hperm hnodup hsurplus hr hblock hev (not_not.mp hkind)]

end

theorem state_perm {excluded excluded' : OrdSet Uuid} (hperm : evidence.Perm evidence')
    (h : ∀ ev ∈ evidence, classifyItem rfc3339 claim trustClassOf r excluded ev =
      classifyItem rfc3339 claim trustClassOf r excluded' ev) :
    (evaluateRequirement rfc3339 claim trustClassOf r evidence excluded).state =
      (evaluateRequirement rfc3339 claim trustClassOf r evidence' excluded').state := by
  have hq : (qualifyingItems rfc3339 claim trustClassOf r evidence excluded).Perm
      (qualifyingItems rfc3339 claim trustClassOf r evidence' excluded') := by
    unfold qualifyingItems
    rw [filter_congr fun ev hev => by rw [h ev hev]]
    exact hperm.filter _
  have hrej : (rejectedItems rfc3339 claim trustClassOf r evidence excluded).Perm
      (rejectedItems rfc3339 claim trustClassOf r evidence' excluded') := by
    unfold rejectedItems
    rw [filterMap_congr fun ev hev => by rw [h ev hev]]
    exact hperm.filterMap _
  simp only [evaluateRequirement, hq.length_eq, hrej.any_eq]

section

variable {ra : RequirementAssessment}
  (hra : ra = assessRequirement rfc3339 claim trustClassOf unc evidence conditions r)

include hra

theorem assessed_state :
    if ra.level.applicable conditions then ra.state = .satisfied ∨ 0 < ra.state.rank
    else ra.state = .notApplicable := by
  subst hra
  simp only [assessRequirement]
  split
  · unfold evaluateRequirement
    simp only
    split_ifs <;> simp [SatisfactionState.rank]
  · rfl

theorem assessed_reportable :
    ra.reportable = (ra.level.blocking conditions && ra.state != .satisfied) ∧
      (ra.reportable → 0 < ra.state.rank) := by
  have hstate := assessed_state hra
  clear hra
  obtain ⟨_, level, state, _, _⟩ := ra
  cases level <;> cases state <;> simp_all [RequirementAssessment.reportable,
    RequirementLevel.blocking, RequirementLevel.applicable, SatisfactionState.rank]

end

theorem maxByRank_some {l : List SatisfactionState} (h : l ≠ []) : ∃ s, maxByRank l = some s := by
  obtain ⟨l, x, rfl⟩ := (eq_nil_or_concat l).resolve_left h
  rw [maxByRank, concat_eq_append, foldl_concat]
  unfold higherRank
  split
  · exact ⟨x, rfl⟩
  · split <;> exact ⟨_, rfl⟩

theorem overallState_eq {per : List RequirementAssessment}
    (h : ∀ ra ∈ per, ra.reportable = (ra.level.blocking conditions && ra.state != .satisfied)) :
    overallState conditions per =
      (maxByRank ((per.filter RequirementAssessment.reportable).map (·.state))).getD
        .satisfied := by
  have hblocks : (per.any fun ra => ra.level.blocking conditions && ra.state != .satisfied) =
      per.any RequirementAssessment.reportable := by
    rw [Bool.eq_iff_iff, any_eq_true, any_eq_true]
    exact exists_congr fun ra => and_congr_right fun hra => by rw [h ra hra]
  unfold overallState
  rw [hblocks]
  split
  · next hany =>
    obtain ⟨ra, hra, hrep⟩ := any_eq_true.mp hany
    obtain ⟨s, hs⟩ := maxByRank_some (ne_nil_of_mem (mem_map_of_mem (f := (·.state))
      (mem_filter.mpr ⟨hra, hrep⟩)))
    rw [hs]
    rfl
  · next hany =>
    rw [Bool.not_eq_true, any_eq_false] at hany
    rw [filter_eq_nil_iff.mpr hany]
    rfl

theorem overallState_congr {f g : EvidenceRequirement → RequirementAssessment}
    (hf : ∀ r, (f r).reportable = (r.level.blocking conditions && (f r).state != .satisfied))
    (hg : ∀ r, (g r).reportable = (r.level.blocking conditions && (g r).state != .satisfied))
    (hlevels : ∀ r, (f r).level = r.level ∧ (g r).level = r.level)
    (hstate : ∀ r ∈ reqs, r.level.blocking conditions → (f r).state = (g r).state) :
    overallState conditions (reqs.map f) = overallState conditions (reqs.map g) := by
  have hreport : ∀ r ∈ reqs, (RequirementAssessment.reportable ∘ f) r =
      (RequirementAssessment.reportable ∘ g) r := by
    intro r hr
    rw [Function.comp_apply, Function.comp_apply, hf, hg, Bool.eq_iff_iff, Bool.and_eq_true,
      Bool.and_eq_true]
    exact and_congr_right fun hb => by rw [hstate r hr hb]
  rw [overallState_eq (by simp [hf, hlevels]), overallState_eq (by simp [hg, hlevels]),
    filter_map, filter_map, map_map, map_map, filter_congr hreport]
  refine congrArg (fun l => (maxByRank l).getD _) (map_congr_left fun r hr => ?_)
  obtain ⟨hmem, hrep⟩ := mem_filter.mp hr
  rw [Function.comp_apply, hg, Bool.and_eq_true] at hrep
  exact hstate r hmem hrep.1

theorem overall_perm (hperm : evidence.Perm evidence')
    (hnodup : (evidence.map Evidence.id).Nodup) (hids : (reqs.map EvidenceRequirement.id).Nodup)
    (hsurplus : NoSurplus rfc3339 claim trustClassOf reqs evidence conditions) :
    overallState conditions
        (assessRequirements rfc3339 claim trustClassOf reqs evidence conditions) =
      overallState conditions
        (assessRequirements rfc3339 claim trustClassOf reqs evidence' conditions) := by
  refine overallState_congr (fun _ => (assessed_reportable rfl).1)
    (fun _ => (assessed_reportable rfl).1) (fun _ => ⟨rfl, rfl⟩) fun r hr hblock => ?_
  simp only [assessRequirement, applicable_of_blocking hblock, if_true]
  exact state_perm hperm fun ev hev =>
    classifyItem_perm hperm hnodup hsurplus hids hr hblock hev

def eitherTrust : EvidenceRequirement :=
  { exitCodeRequirement with id := "a", acceptableTrustClasses := [.hostObserved, .agentAdjacent] }

def apartFromEither : EvidenceRequirement := requirementNaming "b" ["a"]

def reportedExitCode (id : Uuid) : Evidence :=
  { noonExitCode id with source := some ⟨.agentAdjacent, none, []⟩ }

def overallFor (requirements : List EvidenceRequirement) (evidence : List Evidence) :
    Except ContractError SatisfactionState :=
  (assessClaim noonRfc3339 ⟨0, "2026-09-20T12:00:00Z"⟩ recordedTrust (registryOf requirements)
    baseClass evidence []).map ClaimAssessment.overall

end Fornax
