import Fornax.Contract.Assessment
import Fornax.Evidence.Budget

namespace Fornax

open List FamilyBudget

def worseOf (worst : Option SatisfactionState) (s : SatisfactionState) :
    Option SatisfactionState :=
  match worst with
  | some w => if s.rank ≤ w.rank then some w else some s
  | none => some s

def recomputeOverall (perRequirement : List RequirementAssessment) : SatisfactionState :=
  (((perRequirement.filter RequirementAssessment.reportable).map (·.state)).foldl worseOf
    none).getD .satisfied

def trustClassOf (evidence : Evidence) : Option TrustClass := evidence.source.map (·.trustClass)

def dedupeFrom (seen : OrdSet Uuid) : List Evidence → List Evidence
  | [] => []
  | e :: rest =>
    if seen.contains e.id then dedupeFrom seen rest
    else e :: dedupeFrom (seen.add e.id) rest

def dedupeById : List Evidence → List Evidence := dedupeFrom OrdSet.empty

structure FamilyIndependenceViolation where
  requirementId : String
  sharedWithRequirementId : String
  evidenceId : Uuid
  deriving DecidableEq, Repr

structure SatisfactionReport where
  assessment : ClaimAssessment
  familyViolations : List FamilyIndependenceViolation
  deriving DecidableEq, Repr

def SourceFamilyMap.meets (families : SourceFamilyMap) (others : List Uuid) (id : Uuid) : Bool :=
  match families.familyOf id with
  | some family => others.any fun o => decide (o ∈ family.evidenceIds)
  | none => false

def violationsOf (families : SourceFamilyMap) (matchedById : OrdMap String (List Uuid))
    (req : EvidenceRequirement) : List FamilyIndependenceViolation :=
  match matchedById.get? req.id with
  | none => []
  | some mine => req.independence.others.flatMap fun otherId =>
    match matchedById.get? otherId with
    | none => []
    | some otherMatched => (mine.filter (families.meets otherMatched)).map fun id =>
      ⟨req.id, otherId, id⟩

def stripIds (violations : List FamilyIndependenceViolation) (requirementId : String) :
    OrdSet Uuid :=
  OrdSet.ofList ((violations.filter fun v => v.requirementId = requirementId).map (·.evidenceId))

/-- The stripped ids are appended in ascending order; the source iterates a `HashSet`. -/
def hardenEntry (violations : List FamilyIndependenceViolation)
    (minItems : OrdMap String UInt32) (ra : RequirementAssessment) : RequirementAssessment :=
  let strip := stripIds violations ra.requirementId
  if strip.toList = [] then ra
  else
    let kept := ra.matchedEvidence.filter fun id => !strip.contains id
    { ra with
      matchedEvidence := kept
      rejectedEvidence := ra.rejectedEvidence ++
        strip.toList.map fun id => ⟨id, .claimedByIndependentRequirement⟩
      state :=
        if UInt32.ofNat kept.length < (minItems.get? ra.requirementId).getD 1 ∧
          ra.state = .satisfied then .unsatisfied else ra.state }

def ClaimAssessment.withEntries (a : ClaimAssessment) (entries : List RequirementAssessment) :
    ClaimAssessment :=
  { a with perRequirement := entries, overall := recomputeOverall entries }

def harden (families : SourceFamilyMap) (requirements : List EvidenceRequirement)
    (a : ClaimAssessment) : SatisfactionReport :=
  let matchedById := OrdMap.ofList
    (a.perRequirement.map fun ra => (ra.requirementId, ra.matchedEvidence))
  let violations := requirements.flatMap (violationsOf families matchedById)
  if violations = [] then ⟨a, []⟩
  else
    let minItems := OrdMap.ofList (requirements.map fun r => (r.id, r.minItems))
    ⟨a.withEntries (a.perRequirement.map (hardenEntry violations minItems)), violations⟩

def unknownEntry (requirements : List EvidenceRequirement) (ra : RequirementAssessment) :
    RequirementAssessment :=
  if (requirements.any fun req => req.independence != .none && req.id == ra.requirementId) ∧
      ra.state = .satisfied then
    { ra with state := .unknown }
  else ra

section

variable (rfc3339 : String → Option Instant) (registry : ContractRegistry)
  (claimClass : ClaimClassId) (claim : Claim) (evidence : List Evidence)
  (conditions : List String)

def assess : Except ContractError SatisfactionReport := do
  let deduped := dedupeById evidence
  let assessment ←
    assessClaim rfc3339 claim trustClassOf registry claimClass deduped conditions
  match registry.contracts.get? claimClass with
  | none => return ⟨assessment, []⟩
  | some _ =>
    let requirements ← registry.effectiveRequirements claimClass
    match SourceFamilyMap.tryBuild deduped defaultBudget with
    | .error _ =>
      let entries := assessment.perRequirement.map (unknownEntry requirements)
      return ⟨assessment.withEntries entries, []⟩
    | .ok families => return harden families requirements assessment

end

structure CapabilityViolation where
  requirementId : String
  missingCapabilities : List SignalClass
  deriving DecidableEq, Repr

def EvidenceRequirement.missing (available : List SignalClass) (req : EvidenceRequirement) :
    List SignalClass :=
  req.capabilityPrerequisites.filter fun c => decide (c ∉ available)

def RequirementAssessment.cleared (ra : RequirementAssessment) : RequirementAssessment :=
  if ra.state = .satisfied then { ra with matchedEvidence := [], state := .unavailable } else ra

def clearFirst (id : String) : List RequirementAssessment → List RequirementAssessment × Bool
  | [] => ([], false)
  | ra :: rest =>
    if ra.requirementId = id then (ra.cleared :: rest, decide (ra.state = .satisfied))
    else (ra :: (clearFirst id rest).1, (clearFirst id rest).2)

structure CapabilityPass where
  entries : List RequirementAssessment
  changed : Bool
  violations : List CapabilityViolation

def capabilityStep (available : List SignalClass) (pass : CapabilityPass)
    (req : EvidenceRequirement) : CapabilityPass :=
  if req.missing available = [] then pass
  else
    { entries := (clearFirst req.id pass.entries).1
      changed := pass.changed || (clearFirst req.id pass.entries).2
      violations := pass.violations ++ [⟨req.id, req.missing available⟩] }

def assessWithCapabilities (rfc3339 : String → Option Instant) (registry : ContractRegistry)
    (claimClass : ClaimClassId) (claim : Claim) (evidence : List Evidence)
    (conditions : List String) (available : List SignalClass) :
    Except ContractError (SatisfactionReport × List CapabilityViolation) := do
  let report ← assess rfc3339 registry claimClass claim evidence conditions
  match registry.contracts.get? claimClass with
  | none => return (report, [])
  | some _ =>
    let requirements ← registry.effectiveRequirements claimClass
    let pass := requirements.foldl (capabilityStep available)
      ⟨report.assessment.perRequirement, false, []⟩
    let assessment :=
      if pass.changed then report.assessment.withEntries pass.entries
      else { report.assessment with perRequirement := pass.entries }
    return ({ report with assessment }, pass.violations)

theorem SatisfactionState.eq_of_rank {s t : SatisfactionState} (hs : 0 < s.rank)
    (h : s.rank = t.rank) : s = t := by
  cases s <;> cases t <;> simp [rank] at hs h ⊢

theorem maxByRank_eq_foldl {l : List SatisfactionState} (hl : ∀ s ∈ l, 0 < s.rank) :
    maxByRank l = l.foldl worseOf none := by
  induction l using reverseRecOn with
  | nil => rfl
  | append_singleton l x ih =>
    have hmax : maxByRank (l ++ [x]) = higherRank (maxByRank l) x := foldl_concat ..
    rw [hmax, foldl_concat, ← ih fun s hs => hl s (mem_append_left _ hs)]
    cases maxByRank l with
    | none => rfl
    | some w =>
      simp only [worseOf, higherRank]
      rcases lt_trichotomy x.rank w.rank with hlt | heq | hgt
      · rw [if_pos hlt.le, if_neg hlt.not_ge]
      · rw [if_pos heq.le, if_pos heq.ge, SatisfactionState.eq_of_rank (hl x (by simp)) heq]
      · rw [if_neg hgt.not_ge, if_pos hgt.le]

theorem worseOf_choice (o : Option SatisfactionState) (x : SatisfactionState) :
    ∃ s, worseOf o x = some s ∧ (s = x ∨ o = some s) := by
  unfold worseOf
  split
  · split
    · exact ⟨_, rfl, .inr rfl⟩
    · exact ⟨_, rfl, .inl rfl⟩
  · exact ⟨_, rfl, .inl rfl⟩

theorem foldl_worseOf_some {l : List SatisfactionState} (h : l ≠ []) :
    ∃ s ∈ l, l.foldl worseOf none = some s := by
  obtain ⟨s, hs⟩ : ∃ s, l.foldl worseOf none = some s := by
    obtain ⟨l, x, rfl⟩ := (eq_nil_or_concat l).resolve_left h
    rw [concat_eq_append, foldl_concat]
    exact (worseOf_choice _ x).imp fun _ hs => hs.1
  refine ⟨s, (mem_of_foldl_choice ?_ hs).resolve_right (fun hn => nomatch hn), hs⟩
  intro o x s hx
  obtain ⟨t, ht, hchoice⟩ := worseOf_choice o x
  rw [Option.some.inj (hx.symm.trans ht)]
  exact hchoice

theorem ne_satisfied_of_reportable {ra : RequirementAssessment} (h : ra.reportable) :
    ra.state ≠ .satisfied := by
  intro hs
  simp [RequirementAssessment.reportable, hs] at h

theorem recomputeOverall_satisfied {per : List RequirementAssessment} :
    recomputeOverall per = .satisfied ↔ ∀ ra ∈ per, ra.reportable = false := by
  unfold recomputeOverall
  by_cases hl : (per.filter RequirementAssessment.reportable).map (·.state) = []
  · rw [hl]
    simpa [filter_eq_nil_iff] using hl
  · obtain ⟨s, hs, hfold⟩ := foldl_worseOf_some hl
    obtain ⟨ra, hra, rfl⟩ := mem_map.mp hs
    obtain ⟨hmem, hrep⟩ := mem_filter.mp hra
    rw [hfold, Option.getD_some]
    refine iff_of_false (ne_satisfied_of_reportable hrep) fun h => ?_
    rw [h ra hmem] at hrep
    cases hrep

section

variable {rfc3339 : String → Option Instant} {claim : Claim}
  {trustClassOf : Evidence → Option TrustClass} {evidence : List Evidence}
  {reqs : List EvidenceRequirement} {conditions : List String} {r : EvidenceRequirement}
  {registry : ContractRegistry} {claimClass : ClaimClassId}

theorem recomputeOverall_eq :
    recomputeOverall (assessRequirements rfc3339 claim trustClassOf reqs evidence conditions) =
      overallState conditions
        (assessRequirements rfc3339 claim trustClassOf reqs evidence conditions) := by
  rw [overallState_eq, recomputeOverall, maxByRank_eq_foldl]
  · intro s hs
    obtain ⟨ra, hra, rfl⟩ := mem_map.mp hs
    obtain ⟨hmem, hrep⟩ := mem_filter.mp hra
    obtain ⟨r, -, rfl⟩ := mem_map.mp hmem
    exact (assessed_reportable rfl).2 hrep
  · intro ra hra
    obtain ⟨r, -, rfl⟩ := mem_map.mp hra
    exact (assessed_reportable rfl).1

end

/-- A pass may clear what was `Satisfied`, and drop matches. -/
structure Lowered (before after : RequirementAssessment) : Prop where
  requirementId : after.requirementId = before.requirementId
  level : after.level = before.level
  state : after.state = before.state ∨
    before.state = .satisfied ∧ after.state ≠ .satisfied ∧ after.state ≠ .notApplicable
  matched : after.matchedEvidence ⊆ before.matchedEvidence

section

variable {before after ra : RequirementAssessment} {l : List RequirementAssessment}

theorem Lowered.refl (ra : RequirementAssessment) : Lowered ra ra :=
  ⟨rfl, rfl, .inl rfl, fun _ h => h⟩

theorem Lowered.satisfied (h : Lowered before after) (hs : after.state = .satisfied) :
    before.state = .satisfied := by
  rcases h.state with heq | ⟨hb, -, -⟩
  · rw [← heq, hs]
  · exact hb

theorem Lowered.reportable (h : Lowered before after) (hrep : before.reportable) :
    after.reportable := by
  rcases h.state with heq | ⟨hb, -, -⟩
  · rw [RequirementAssessment.reportable, heq, h.level]
    exact hrep
  · exact absurd hb (ne_satisfied_of_reportable hrep)

theorem overall_lowered {f g : RequirementAssessment → RequirementAssessment}
    (hf : ∀ ra, Lowered (g ra) (f ra)) (h : recomputeOverall (l.map f) = .satisfied) :
    recomputeOverall (l.map g) = .satisfied := by
  rw [recomputeOverall_satisfied] at h ⊢
  intro ra hra
  obtain ⟨x, hx, rfl⟩ := mem_map.mp hra
  rw [Bool.eq_false_iff]
  intro hrep
  have hafter := h (f x) (mem_map_of_mem hx)
  rw [(hf x).reportable hrep] at hafter
  cases hafter

theorem unknownEntry_lowered (reqs : List EvidenceRequirement) (ra : RequirementAssessment) :
    Lowered ra (unknownEntry reqs ra) := by
  unfold unknownEntry
  split
  · next h => exact ⟨rfl, rfl, .inr ⟨h.2, by simp, by simp⟩, fun _ hi => hi⟩
  · exact .refl ra

theorem cleared_lowered (ra : RequirementAssessment) : Lowered ra ra.cleared := by
  unfold RequirementAssessment.cleared
  split
  · next h => exact ⟨rfl, rfl, .inr ⟨h, by simp, by simp⟩, nil_subset _⟩
  · exact .refl ra

variable {violations : List FamilyIndependenceViolation} {minItems : OrdMap String UInt32}

theorem hardenEntry_lowered (violations : List FamilyIndependenceViolation)
    (minItems : OrdMap String UInt32) (ra : RequirementAssessment) :
    Lowered ra (hardenEntry violations minItems ra) := by
  unfold hardenEntry
  simp only
  split
  · exact .refl ra
  · refine ⟨rfl, rfl, ?_, filter_sublist.subset⟩
    simp only
    split
    · next h => exact .inr ⟨h.2, by simp, by simp⟩
    · exact .inl rfl

theorem not_violated_of_kept {x : Uuid}
    (hx : x ∈ (hardenEntry violations minItems ra).matchedEvidence) :
    ∀ v ∈ violations, v.requirementId = ra.requirementId → v.evidenceId ≠ x := by
  intro v hv hid heq
  have hstrip : (stripIds violations ra.requirementId).contains x := by
    rw [stripIds, OrdSet.contains_ofList, mem_map]
    exact ⟨v, mem_filter.mpr ⟨hv, by simpa using hid⟩, heq⟩
  unfold hardenEntry at hx
  simp only at hx
  split at hx
  · next hnil =>
    rw [← OrdSet.mem_toList, hnil] at hstrip
    cases hstrip
  · have hkept := (mem_filter.mp hx).2
    rw [hstrip] at hkept
    cases hkept

def familyViolations (families : SourceFamilyMap) (reqs : List EvidenceRequirement)
    (entries : List RequirementAssessment) : List FamilyIndependenceViolation :=
  reqs.flatMap (violationsOf families
    (OrdMap.ofList (entries.map fun ra => (ra.requirementId, ra.matchedEvidence))))

theorem harden_assessment (families : SourceFamilyMap) (reqs : List EvidenceRequirement)
    (cc : ClaimClassId) : ∃ minItems,
    (harden families reqs ⟨cc, l, recomputeOverall l⟩).assessment =
      ClaimAssessment.withEntries ⟨cc, l, recomputeOverall l⟩
        (l.map (hardenEntry (familyViolations families reqs l) minItems)) := by
  refine ⟨OrdMap.ofList (reqs.map fun r => (r.id, r.minItems)), ?_⟩
  have hkeep : l.map (hardenEntry [] (OrdMap.ofList (reqs.map fun r => (r.id, r.minItems)))) = l :=
    map_id' l
  unfold harden
  simp only
  split
  · next hnone => rw [familyViolations, hnone, hkeep, ClaimAssessment.withEntries]
  · rfl

end

theorem mem_dedupeFrom {seen : OrdSet Uuid} {evidence : List Evidence} {e : Evidence}
    (h : e ∈ dedupeFrom seen evidence) : ¬ seen.contains e.id := by
  induction evidence generalizing seen with
  | nil => cases h
  | cons x rest ih =>
    rw [dedupeFrom] at h
    split at h
    · exact ih h
    · next hx =>
      rcases mem_cons.mp h with rfl | hrest
      · exact hx
      · exact fun hin => ih hrest ((OrdSet.contains_add _ _ _).mpr (.inr hin))

theorem nodup_dedupeById (evidence : List Evidence) :
    ((dedupeById evidence).map Evidence.id).Nodup := by
  suffices h : ∀ seen, ((dedupeFrom seen evidence).map Evidence.id).Nodup from h _
  induction evidence with
  | nil => exact fun _ => nodup_nil
  | cons x rest ih =>
    intro seen
    rw [dedupeFrom]
    split
    · exact ih seen
    · refine nodup_cons.mpr ⟨?_, ih _⟩
      intro hmem
      obtain ⟨e, he, hid⟩ := mem_map.mp hmem
      exact mem_dedupeFrom he ((OrdSet.contains_add _ _ _).mpr (.inl hid))

theorem meets_of_sameFamily {pool : List Evidence} (hids : (pool.map Evidence.id).Nodup)
    {e : Evidence} (he : e ∈ pool) {others : List Uuid} {y : Uuid} (hy : y ∈ others)
    (h : SameFamily (SourceFamilyMap.build pool) e.id y) :
    (SourceFamilyMap.build pool).meets others e.id := by
  obtain ⟨fam, hfam, hxfam, hyfam⟩ := h
  obtain ⟨own, hown⟩ := exists_familyOf he
  obtain ⟨i, -, hi⟩ := Option.bind_eq_some_iff.mp hown
  have hsame : own = fam := (existsUnique_family hids he).unique
    ⟨mem_of_getElem? hi, familyOf_mem hown⟩ ⟨hfam, hxfam⟩
  unfold SourceFamilyMap.meets
  rw [hown, hsame]
  exact any_eq_true.mpr ⟨y, hy, decide_eq_true hyfam⟩

section

variable {rfc3339 : String → Option Instant} {registry : ContractRegistry}
  {claimClass : ClaimClassId} {claim : Claim} {evidence : List Evidence}
  {conditions : List String} {reqs : List EvidenceRequirement} {report : SatisfactionReport}
  {families : SourceFamilyMap} {entries : List RequirementAssessment}

section Effective

variable (hreqs : registry.effectiveRequirements claimClass = .ok reqs)
  (hentries : entries = assessRequirements rfc3339 claim trustClassOf reqs (dedupeById evidence)
    conditions)

include hreqs hentries

theorem assess_of_effective : assess rfc3339 registry claimClass claim evidence conditions =
      .ok (match SourceFamilyMap.tryBuild (dedupeById evidence) defaultBudget with
        | .error _ => ⟨ClaimAssessment.withEntries ⟨claimClass, entries, .unknown⟩
          (entries.map (unknownEntry reqs)), []⟩
        | .ok families =>
          harden families reqs ⟨claimClass, entries, recomputeOverall entries⟩) := by
  obtain ⟨contract, hcontract⟩ := registered_of_effective hreqs
  simp only [assess, assessClaim_of_effective hreqs, hcontract, hreqs, hentries,
    recomputeOverall_eq]
  cases SourceFamilyMap.tryBuild (dedupeById evidence) defaultBudget <;> rfl

theorem assess_lowers
    (h : assess rfc3339 registry claimClass claim evidence conditions = .ok report) :
    ∃ f, (∀ ra, Lowered ra (f ra)) ∧ report.assessment =
      ⟨claimClass, entries.map f, recomputeOverall (entries.map f)⟩ := by
  rw [assess_of_effective hreqs hentries] at h
  rw [← Except.ok.inj h]
  split
  · exact ⟨_, unknownEntry_lowered reqs, rfl⟩
  · next families _ =>
    obtain ⟨minItems, hharden⟩ := harden_assessment (l := entries) families reqs claimClass
    exact ⟨_, hardenEntry_lowered _ minItems, hharden⟩

end Effective

variable {trust : Evidence → Option TrustClass}

theorem matched_in_pool {ra : RequirementAssessment}
    (hra : ra ∈ assessRequirements rfc3339 claim trust reqs evidence conditions) {x : Uuid}
    (hx : x ∈ ra.matchedEvidence) : ∃ e ∈ evidence, e.id = x := by
  obtain ⟨r, -, rfl⟩ := mem_map.mp hra
  simp only [assessRequirement] at hx
  split at hx
  · rw [matched_eq, mem_map] at hx
    obtain ⟨e, he, hid⟩ := hx
    exact ⟨e, (mem_filter.mp (mem_of_mem_take he)).1, hid⟩
  · cases hx

theorem entries_ids : (assessRequirements rfc3339 claim trust reqs evidence conditions).map
      RequirementAssessment.requirementId = reqs.map EvidenceRequirement.id := by
  rw [assessRequirements, map_map]
  rfl

theorem violation_of_sameFamily
    (hentries : entries = assessRequirements rfc3339 claim trust reqs evidence conditions)
    (hids : (reqs.map EvidenceRequirement.id).Nodup) (hpool : (evidence.map Evidence.id).Nodup)
    {r : EvidenceRequirement} (hr : r ∈ reqs) {ra sa : RequirementAssessment} (hra : ra ∈ entries)
    (hid : ra.requirementId = r.id) (hsa : sa ∈ entries)
    (hnamed : sa.requirementId ∈ r.independence.others) {x y : Uuid} (hx : x ∈ ra.matchedEvidence)
    (hy : y ∈ sa.matchedEvidence) (h : SameFamily (SourceFamilyMap.build evidence) x y) :
    ∃ v ∈ familyViolations (SourceFamilyMap.build evidence) reqs entries,
      v.requirementId = r.id ∧ v.evidenceId = x := by
  have hkeys : ((entries.map fun ra => (ra.requirementId, ra.matchedEvidence)).map
      Prod.fst).Nodup := by
    rw [map_map, hentries]
    exact entries_ids.symm ▸ hids
  have hget : ∀ e ∈ entries, (OrdMap.ofList (entries.map fun ra =>
      (ra.requirementId, ra.matchedEvidence))).get? e.requirementId = some e.matchedEvidence :=
    fun e he => (OrdMap.get?_ofList hkeys).mpr (mem_map_of_mem he)
  obtain ⟨e, he, rfl⟩ := matched_in_pool (hentries ▸ hra) hx
  refine ⟨⟨r.id, sa.requirementId, e.id⟩, mem_flatMap.mpr ⟨r, hr, ?_⟩, rfl, rfl⟩
  unfold violationsOf
  rw [← hid, hget ra hra]
  refine mem_flatMap.mpr ⟨sa.requirementId, hnamed, ?_⟩
  rw [hget sa hsa]
  exact mem_map.mpr ⟨e.id, mem_filter.mpr ⟨hx, meets_of_sameFamily hpool he hy h⟩, rfl⟩

theorem assess_unresolved {e : ContractError}
    (hreqs : registry.effectiveRequirements claimClass = .error e)
    (h : assess rfc3339 registry claimClass claim evidence conditions = .ok report) :
    registry.contracts.get? claimClass = none ∧ report = ⟨⟨claimClass, [], .unknown⟩, []⟩ := by
  unfold assess assessClaim at h
  cases hget : registry.contracts.get? claimClass with
  | none =>
    simp only [hget] at h
    exact ⟨rfl, (Except.ok.inj h).symm⟩
  | some contract =>
    simp only [hget, hreqs] at h
    cases h

theorem hardened_apart (hreqs : registry.effectiveRequirements claimClass = .ok reqs)
    (hbuild : SourceFamilyMap.tryBuild (dedupeById evidence) defaultBudget = .ok families)
    (h : assess rfc3339 registry claimClass claim evidence conditions = .ok report)
    {r : EvidenceRequirement} (hr : r ∈ reqs) {ra sa : RequirementAssessment}
    (hra : ra ∈ report.assessment.perRequirement) (hid : ra.requirementId = r.id)
    (hsa : sa ∈ report.assessment.perRequirement)
    (hnamed : sa.requirementId ∈ r.independence.others) {x y : Uuid}
    (hx : x ∈ ra.matchedEvidence) (hy : y ∈ sa.matchedEvidence) : ¬ SameFamily families x y := by
  have hfamilies : families = SourceFamilyMap.build (dedupeById evidence) := by
    rw [tryBuild_of_ancestry] at hbuild
    split at hbuild
    · exact (Except.ok.inj hbuild).symm
    · cases hbuild
  intro hsame
  rw [assess_of_effective hreqs rfl, hbuild] at h
  obtain ⟨minItems, hharden⟩ := harden_assessment (l := assessRequirements rfc3339 claim
    trustClassOf reqs (dedupeById evidence) conditions) families reqs claimClass
  rw [← Except.ok.inj h, hharden] at hra hsa
  obtain ⟨rb, hrb, rfl⟩ := mem_map.mp hra
  obtain ⟨sb, hsb, rfl⟩ := mem_map.mp hsa
  have hlow := hardenEntry_lowered (familyViolations families reqs (assessRequirements rfc3339
    claim trustClassOf reqs (dedupeById evidence) conditions)) minItems
  rw [(hlow rb).requirementId] at hid
  rw [(hlow sb).requirementId] at hnamed
  rw [hfamilies] at hsame
  obtain ⟨v, hv, hvid, hvx⟩ := violation_of_sameFamily rfl (nodup_ids_of_effective hreqs)
    (nodup_dedupeById evidence) hr hrb hid hsb hnamed ((hlow rb).matched hx)
    ((hlow sb).matched hy) hsame
  rw [← hfamilies] at hv
  exact not_violated_of_kept hx v hv (hvid.trans hid.symm) hvx

theorem assess_never_raises
    (h : assess rfc3339 registry claimClass claim evidence conditions = .ok report) :
    ∃ base, assessClaim rfc3339 claim trustClassOf registry claimClass (dedupeById evidence)
        conditions = .ok base ∧ (∀ before ∈ base.perRequirement, before.state ≠ .satisfied →
        ∀ after ∈ report.assessment.perRequirement,
          after.requirementId = before.requirementId → after.state ≠ .satisfied) ∧
      (report.assessment.overall = .satisfied → base.overall = .satisfied) := by
  cases hreqs : registry.effectiveRequirements claimClass with
  | error e =>
    obtain ⟨hget, rfl⟩ := assess_unresolved hreqs h
    refine ⟨⟨claimClass, [], .unknown⟩, by simp only [assessClaim, hget], ?_, ?_⟩
    · intro before hbefore
      cases hbefore
    · intro hs
      cases hs
  | ok reqs =>
    obtain ⟨f, hlow, hreport⟩ := assess_lowers hreqs rfl h
    refine ⟨_, assessClaim_of_effective hreqs, ?_, ?_⟩
    · intro before hbefore hne after hafter hid hs
      rw [hreport] at hafter
      obtain ⟨x, hx, rfl⟩ := mem_map.mp hafter
      rw [(hlow x).requirementId] at hid
      have hsame : x = before := by
        have hids := nodup_ids_of_effective hreqs
        rw [← entries_ids] at hids
        exact inj_on_of_nodup_map hids hx hbefore hid
      exact hne (hsame ▸ (hlow x).satisfied hs)
    · intro hs
      rw [hreport] at hs
      rw [← recomputeOverall_eq, ← map_id' (assessRequirements _ _ _ _ _ _)]
      exact overall_lowered hlow hs

/-- No record matched for a requirement is in the family of one matched for a requirement that it
names, and no state is raised. -/
theorem hardened_independence
    (hbuild : SourceFamilyMap.tryBuild (dedupeById evidence) defaultBudget = .ok families)
    (h : assess rfc3339 registry claimClass claim evidence conditions = .ok report) :
    (∀ reqs, registry.effectiveRequirements claimClass = .ok reqs → ∀ r ∈ reqs,
      ∀ ra ∈ report.assessment.perRequirement, ra.requirementId = r.id →
      ra.state = .satisfied → ∀ sa ∈ report.assessment.perRequirement,
      sa.requirementId ∈ r.independence.others →
      ∀ x ∈ ra.matchedEvidence, ∀ y ∈ sa.matchedEvidence, ¬ SameFamily families x y) ∧
    ∃ base, assessClaim rfc3339 claim trustClassOf registry claimClass (dedupeById evidence)
        conditions = .ok base ∧
      (∀ before ∈ base.perRequirement, before.state ≠ .satisfied →
        ∀ after ∈ report.assessment.perRequirement,
          after.requirementId = before.requirementId → after.state ≠ .satisfied) ∧
      (report.assessment.overall = .satisfied → base.overall = .satisfied) := by
  refine ⟨?_, assess_never_raises h⟩
  intro reqs hreqs r hr ra hra hid _ sa hsa hnamed x hx y hy
  exact hardened_apart hreqs hbuild h hr hra hid hsa hnamed hx hy

theorem hardened_independence_shared : ∃ report, assess noonRfc3339
    (registryOf [requirementNaming "a" ["b"], requirementNaming "b" []]) baseClass
      ⟨0, "2026-09-20T12:00:00Z"⟩ [noonExitCode 1, noonExitCode 3] [] = .ok report ∧
    ∃ base, assessClaim noonRfc3339 ⟨0, "2026-09-20T12:00:00Z"⟩ trustClassOf
        (registryOf [requirementNaming "a" ["b"], requirementNaming "b" []]) baseClass
        (dedupeById [noonExitCode 1, noonExitCode 3]) [] = .ok base ∧
      (report.assessment.overall = .satisfied → base.overall = .satisfied) := by
  have hreqs : (registryOf [requirementNaming "a" ["b"],
      requirementNaming "b" []]).effectiveRequirements baseClass =
      .ok [requirementNaming "a" ["b"], requirementNaming "b" []] := by decide
  have hbuild : SourceFamilyMap.tryBuild (dedupeById [noonExitCode 1, noonExitCode 3])
      defaultBudget = .ok _ :=
    (tryBuild_of_ancestry _ _).trans (if_pos (by decide +kernel))
  obtain ⟨report, hassess⟩ : ∃ report, assess noonRfc3339
      (registryOf [requirementNaming "a" ["b"], requirementNaming "b" []]) baseClass
      ⟨0, "2026-09-20T12:00:00Z"⟩ [noonExitCode 1, noonExitCode 3] [] = .ok report :=
    ⟨_, assess_of_effective hreqs rfl⟩
  obtain ⟨-, base, hbase, -, hlower⟩ := hardened_independence hbuild hassess
  exact ⟨report, hassess, base, hbase, hlower⟩

variable {available A B : List SignalClass}
  {pass : CapabilityPass}

def clearedBy (available : List SignalClass) (reqs : List EvidenceRequirement)
    (ra : RequirementAssessment) : RequirementAssessment :=
  if ∃ req ∈ reqs, req.id = ra.requirementId ∧ req.missing available ≠ [] then ra.cleared else ra

theorem cleared_cleared (ra : RequirementAssessment) : ra.cleared.cleared = ra.cleared := by
  unfold RequirementAssessment.cleared
  split
  · rfl
  · rfl

theorem clearFirst_eq_map {id : String}
    (h : (entries.map RequirementAssessment.requirementId).Nodup) : (clearFirst id entries).1 =
      entries.map fun ra => if ra.requirementId = id then ra.cleared else ra := by
  induction entries with
  | nil => rfl
  | cons ra rest ih =>
    obtain ⟨hnew, hrest⟩ := nodup_cons.mp h
    rw [clearFirst, map_cons]
    split
    · next hid =>
      refine congrArg (ra.cleared :: ·) ((map_id' rest).symm.trans (map_congr_left ?_))
      intro x hx
      rw [if_neg]
      rintro rfl
      exact hnew (hid ▸ mem_map_of_mem hx)
    · rw [ih hrest]

theorem clearFirst_unchanged {id : String} (h : (clearFirst id entries).2 = false) :
    (clearFirst id entries).1 = entries := by
  induction entries with
  | nil => rfl
  | cons ra rest ih =>
    rw [clearFirst] at h ⊢
    split at h
    · next hid =>
      rw [if_pos hid, RequirementAssessment.cleared, if_neg (of_decide_eq_false h)]
    · next hid => rw [if_neg hid, ih h]

theorem clearedBy_cons (req : EvidenceRequirement) (ra : RequirementAssessment) :
    clearedBy available (req :: reqs) ra =
      clearedBy available reqs (if req.id = ra.requirementId ∧ req.missing available ≠ [] then
        ra.cleared else ra) := by
  have hkeep : ra.cleared.requirementId = ra.requirementId := (cleared_lowered ra).requirementId
  by_cases h : req.id = ra.requirementId ∧ req.missing available ≠ []
  · rw [if_pos h, clearedBy, clearedBy, hkeep, cleared_cleared, ite_self,
      if_pos ⟨req, mem_cons_self, h⟩]
  · rw [if_neg h]
    simp only [clearedBy, exists_mem_cons_iff, h, false_or]

theorem capabilityPass_entries (h : (pass.entries.map RequirementAssessment.requirementId).Nodup) :
    (reqs.foldl (capabilityStep available) pass).entries =
      pass.entries.map (clearedBy available reqs) := by
  induction reqs generalizing pass with
  | nil =>
    refine ((map_id' pass.entries).symm.trans (map_congr_left fun ra _ => ?_))
    simp [clearedBy]
  | cons req reqs ih =>
    have hstep : (capabilityStep available pass req).entries = pass.entries.map fun ra =>
        if req.id = ra.requirementId ∧ req.missing available ≠ [] then ra.cleared else ra := by
      unfold capabilityStep
      split
      · next hm => simp [hm]
      · next hm =>
        rw [clearFirst_eq_map h]
        simp only [hm, ne_eq, not_false_eq_true, and_true, eq_comm]
    have hids : (capabilityStep available pass req).entries.map
        RequirementAssessment.requirementId = pass.entries.map
          RequirementAssessment.requirementId := by
      rw [hstep, map_map]
      refine map_congr_left fun ra _ => ?_
      rw [Function.comp_apply]
      split
      · exact (cleared_lowered ra).requirementId
      · rfl
    rw [foldl_cons, ih (hids.symm ▸ h), hstep, map_map]
    exact map_congr_left fun ra _ => (clearedBy_cons req ra).symm

theorem capabilityPass_unchanged
    (h : (reqs.foldl (capabilityStep available) pass).changed = false) : pass.changed = false ∧
      (reqs.foldl (capabilityStep available) pass).entries = pass.entries := by
  induction reqs generalizing pass with
  | nil => exact ⟨h, rfl⟩
  | cons req reqs ih =>
    rw [foldl_cons] at h ⊢
    obtain ⟨hstep, hentries⟩ := ih h
    rw [hentries]
    unfold capabilityStep at hstep ⊢
    split at hstep
    · next hm => rw [if_pos hm]; exact ⟨hstep, rfl⟩
    · next hm =>
      rw [if_neg hm]
      obtain ⟨hbefore, hfirst⟩ := Bool.or_eq_false_iff.mp hstep
      exact ⟨hbefore, clearFirst_unchanged hfirst⟩

theorem finishedPass {a : ClaimAssessment}
    (hids : (a.perRequirement.map RequirementAssessment.requirementId).Nodup)
    (hoverall : a.overall = recomputeOverall a.perRequirement)
    (hpass : pass = reqs.foldl (capabilityStep available) ⟨a.perRequirement, false, []⟩) :
    (if pass.changed then a.withEntries pass.entries
      else { a with perRequirement := pass.entries }) =
      a.withEntries (a.perRequirement.map (clearedBy available reqs)) := by
  have hentries : pass.entries = a.perRequirement.map (clearedBy available reqs) := by
    rw [hpass]
    exact capabilityPass_entries hids
  rw [← hentries]
  split
  · rfl
  · next hchanged =>
    rw [hpass] at hchanged
    rw [ClaimAssessment.withEntries, hpass,
      (capabilityPass_unchanged (Bool.eq_false_iff.mpr hchanged)).2, ← hoverall]

theorem assessWithCapabilities_of_effective
    (hreqs : registry.effectiveRequirements claimClass = .ok reqs)
    (h : assess rfc3339 registry claimClass claim evidence conditions = .ok report)
    (available : List SignalClass) : ∃ violations,
    assessWithCapabilities rfc3339 registry claimClass claim evidence conditions available =
      .ok (⟨report.assessment.withEntries
        (report.assessment.perRequirement.map (clearedBy available reqs)),
        report.familyViolations⟩, violations) := by
  obtain ⟨contract, hcontract⟩ := registered_of_effective hreqs
  obtain ⟨f, hlow, hreport⟩ := assess_lowers hreqs rfl h
  have hids : (report.assessment.perRequirement.map
      RequirementAssessment.requirementId).Nodup := by
    have hkeep : RequirementAssessment.requirementId ∘ f = RequirementAssessment.requirementId :=
      funext fun ra => (hlow ra).requirementId
    rw [hreport, map_map, hkeep, entries_ids]
    exact nodup_ids_of_effective hreqs
  have hoverall : report.assessment.overall =
      recomputeOverall report.assessment.perRequirement := by rw [hreport]
  rw [← finishedPass hids hoverall rfl]
  simp only [assessWithCapabilities, h, hcontract, hreqs]
  exact ⟨_, rfl⟩

theorem missing_eq_nil {req : EvidenceRequirement} :
    req.missing available = [] ↔ req.capabilityPrerequisites ⊆ available := by
  rw [EvidenceRequirement.missing, filter_eq_nil_iff]
  simp only [decide_eq_true_eq, not_not]
  rfl

theorem clearedBy_anti (hsub : A ⊆ B) (ra : RequirementAssessment) :
    Lowered (clearedBy B reqs ra) (clearedBy A reqs ra) := by
  by_cases hB : ∃ req ∈ reqs, req.id = ra.requirementId ∧ req.missing B ≠ []
  · have hA : ∃ req ∈ reqs, req.id = ra.requirementId ∧ req.missing A ≠ [] := by
      obtain ⟨req, hreq, hid, hmissing⟩ := hB
      refine ⟨req, hreq, hid, fun hnone => hmissing ?_⟩
      exact missing_eq_nil.mpr (List.Subset.trans (missing_eq_nil.mp hnone) hsub)
    rw [clearedBy, clearedBy, if_pos hB, if_pos hA]
    exact .refl _
  · rw [clearedBy, if_neg hB, clearedBy]
    split
    · exact cleared_lowered ra
    · exact .refl ra

theorem cleared_state_ne (ra : RequirementAssessment) : ra.cleared.state ≠ .satisfied := by
  unfold RequirementAssessment.cleared
  split
  · simp
  · next h => exact h

end

end Fornax
