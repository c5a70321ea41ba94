import Fornax.Evidence.Accounting

namespace Fornax

open BaselineFusionPolicy List OrdMap SourceFamilyMap

inductive RecommendationAction
  | proceed
  | review
  | block
  deriving DecidableEq, Repr

/-- `decision::RiskClass`, the context a caller supplies. -/
inductive DecisionRiskClass
  | strict
  | balanced
  | lenient
  deriving DecidableEq, Repr

structure Recommendation where
  claimId : Uuid
  action : RecommendationAction
  riskClass : DecisionRiskClass
  policyName : String
  policyVersion : ℕ
  rationaleSummary : String
  deriving DecidableEq, Repr

/-! Debug forms of the enumerations in the summary. -/

def Verdict.debug : Verdict → String
  | .verified => "Verified"
  | .unverified => "Unverified"
  | .contradicted => "Contradicted"
  | .review => "Review"
  | .unavailable => "Unavailable"

def UncertaintyBand.debug : UncertaintyBand → String
  | .corroborated => "Corroborated"
  | .qualified => "Qualified"
  | .undetermined => "Undetermined"
  | .conflicted => "Conflicted"

def DecisionRiskClass.debug : DecisionRiskClass → String
  | .strict => "Strict"
  | .balanced => "Balanced"
  | .lenient => "Lenient"

def RecommendationAction.debug : RecommendationAction → String
  | .proceed => "Proceed"
  | .review => "Review"
  | .block => "Block"

namespace DefaultRiskPolicy

def name : String := "default_risk_policy_v1"

def policyVersion : ℕ := 1

def actionFor : Verdict → UncertaintyBand → DecisionRiskClass → RecommendationAction
  | .verified, .corroborated, _ => .proceed
  | .verified, .qualified, _ => .review
  | .verified, .undetermined, _ => .review
  | .verified, .conflicted, _ => .review
  | .contradicted, .corroborated, .strict => .block
  | .contradicted, .corroborated, .balanced => .block
  | .contradicted, .corroborated, .lenient => .review
  | .contradicted, .qualified, .strict => .block
  | .contradicted, .qualified, .balanced => .review
  | .contradicted, .qualified, .lenient => .review
  | .contradicted, .undetermined, _ => .block
  | .contradicted, .conflicted, _ => .block
  | .unverified, _, .strict => .block
  | .unverified, _, .balanced => .review
  | .unverified, _, .lenient => .review
  | .unavailable, _, .strict => .block
  | .unavailable, _, .balanced => .block
  | .unavailable, _, .lenient => .review
  | .review, _, _ => .block

def decide (fused : FusedFinding) (risk : DecisionRiskClass) : Recommendation :=
  let action := actionFor fused.verdict fused.uncertainty risk
  { claimId := fused.claimId
    action
    riskClass := risk
    policyName := name
    policyVersion := policyVersion
    rationaleSummary := "verdict=" ++ fused.verdict.debug ++ " uncertainty=" ++
      fused.uncertainty.debug ++ " risk=" ++ risk.debug ++ " -> " ++ action.debug ++
      " under policy " ++ name ++ " v" ++ toString policyVersion ++ "; see the referenced " ++
      "FusedFinding (claim " ++ fused.claimId.text ++ ") for the full evidence rationale trail" }

end DefaultRiskPolicy

theorem actionFor_proceed {v : Verdict} {b : UncertaintyBand} {r : DecisionRiskClass} :
    DefaultRiskPolicy.actionFor v b r = .proceed ↔ v = .verified ∧ b = .corroborated := by
  cases v <;> cases b <;> cases r <;> simp [DefaultRiskPolicy.actionFor]

structure Clean (log : FusionLog) : Prop where
  undiscounted : log.discounted = []
  uncaveated : ∀ r ∈ log.rationale, r.rule.isBandingCaveat = false

structure CleanStep {α : Type} (s : PhaseStep α) : Prop where
  undiscounted : s.discounted = []
  uncaveated : ∀ r, s.entry = some r → r.rule.isBandingCaveat = false

variable {α : Type} {log : FusionLog} {input : FusionInput} {c : Candidate}
  {rfc3339 : String → Option Instant} {cs : List Candidate}

theorem clean_runPhase {β : Type} {step : α → PhaseStep β} {items : List α}
    (h : Clean (runPhase step items log).2) : Clean log ∧ ∀ a ∈ items, CleanStep (step a) := by
  rw [runPhase_log] at h
  obtain ⟨hlog, hsteps⟩ := append_eq_nil_iff.mp h.undiscounted
  obtain ⟨hentries, hnew⟩ := forall_mem_append.mp h.uncaveated
  refine ⟨⟨hlog, hentries⟩, fun a ha => ⟨flatMap_eq_nil_iff.mp hsteps a ha, fun r hr => ?_⟩⟩
  exact hnew r (mem_filterMap.mpr ⟨a, ha, hr⟩)

theorem cleanStep_resolveLink {l : EvidenceLink}
    (h : CleanStep (resolveLink (indexById input.evidence) l)) : Resolves input l := by
  rw [resolves_iff_indexed]
  have hd := h.undiscounted
  unfold resolveLink at hd
  cases hget : (indexById input.evidence).get? l.evidenceId with
  | none =>
    rw [hget] at hd
    cases hd
  | some e => exact ⟨e, rfl⟩

theorem cleanStep_excludeDerived {index : OrdMap Uuid Evidence} {ids : OrdSet Uuid}
    (h : CleanStep (excludeDerived index ids c)) : (excludeDerived index ids c).kept = some c ∧
      (ancestorsOfIndexed c.evidence.id index).toList = [] := by
  obtain ⟨hd, hr⟩ := h
  simp only [excludeDerived] at hd hr ⊢
  split at hd
  · next hnil => exact ⟨by rw [if_pos hnil], hnil⟩
  · next hne =>
    split at hd
    · next hhits =>
      have := hr _ (by rw [if_neg hne, if_pos hhits])
      cases this
    · cases hd

theorem cleanStep_assessStaleness {claim : Claim}
    (h : CleanStep (assessStaleness rfc3339 claim c)) :
    (assessStaleness rfc3339 claim c).kept = some c ∧
      (∀ age, stalenessOfDefault rfc3339 c.evidence claim ≠ .stale age) ∧
      ∀ reason, stalenessOfDefault rfc3339 c.evidence claim ≠ .indeterminate reason := by
  obtain ⟨hd, hr⟩ := h
  unfold assessStaleness at hd hr ⊢
  cases hs : stalenessOfDefault rfc3339 c.evidence claim with
  | notTimeSensitive => simp
  | fresh age => simp
  | stale age =>
    simp only [hs] at hd hr
    split at hd
    · cases hd
    · next hrel =>
      have := hr _ (by rw [if_neg hrel])
      cases this
  | indeterminate reason =>
    simp only [hs] at hr
    have := hr _ rfl
    cases this

theorem cleanStep_collapse {link : α → EvidenceLink} {rule : FusionRule}
    {detail : List Uuid → Uuid → String} {bucket : List α}
    (h : CleanStep (collapse link rule detail bucket)) :
    bucket.length ≤ 1 ∧ (collapse link rule detail bucket).kept.toList = bucket := by
  have hlen := length_insertionSort (fun a b => (link a).id ≤ (link b).id) bucket
  have hperm := perm_insertionSort (fun a b => (link a).id ≤ (link b).id) bucket
  have hd := h.undiscounted
  unfold collapse at hd ⊢
  split at hd
  · next hs =>
    rw [hs] at hlen hperm
    exact ⟨hlen ▸ Nat.zero_le 1, (nil_perm.mp hperm).symm⟩
  · next only hs =>
    rw [hs] at hlen hperm
    exact ⟨hlen ▸ le_refl 1, singleton_perm.mp hperm⟩
  · cases hd

theorem cleanStep_noteIndependence {s : Survivor} (h : CleanStep (noteIndependence s)) :
    s.hadGroup := by
  have hr := h.uncaveated
  by_contra hno
  have := hr _ (by simp only [noteIndependence]; rw [if_neg hno])
  cases this

theorem runPhase_keeps {step : α → PhaseStep α} {items : List α}
    (h : ∀ a ∈ items, (step a).kept = some a) (log : FusionLog) :
    (runPhase step items log).1 = items := by
  have hall : (items.filterMap fun a => (step a).kept) = items.filterMap some :=
    filterMap_congr h
  rw [runPhase, hall, filterMap_some]

theorem clean_filterCandidates (h : Clean (filterCandidates rfc3339 input).2) :
    (∀ l ∈ input.graph.links, Resolves input l) ∧
      (filterCandidates rfc3339 input).1 = resolvedCandidates input ∧
      ∀ c ∈ resolvedCandidates input,
        (ancestorsOfIndexed c.evidence.id (indexById input.evidence)).toList = [] ∧
        (∀ age, stalenessOfDefault rfc3339 c.evidence input.claim ≠ .stale age) ∧
        ∀ reason, stalenessOfDefault rfc3339 c.evidence input.claim ≠ .indeterminate reason := by
  obtain ⟨h3, hstale⟩ := clean_runPhase h
  obtain ⟨h2, hderived⟩ := clean_runPhase h3
  obtain ⟨-, hresolve⟩ := clean_runPhase h2
  have hR3 : (runPhase (excludeDerived (indexById input.evidence) (resolvedIds input))
      (resolvedCandidates input) (runPhase (resolveLink (indexById input.evidence))
        (sortLinks input.graph.links) ⟨[], []⟩).2).1 = resolvedCandidates input :=
    runPhase_keeps (fun c hc => (cleanStep_excludeDerived (hderived c hc)).1) _
  have hstale' : ∀ c ∈ resolvedCandidates input,
      CleanStep (assessStaleness rfc3339 input.claim c) := by
    intro c hc
    rw [← hR3] at hc
    exact hstale c hc
  refine ⟨?_, ?_, ?_⟩
  · intro l hl
    exact cleanStep_resolveLink (hresolve l ((mem_insertionSort _).mpr hl))
  · have hR4 := runPhase_keeps (fun c hc => (cleanStep_assessStaleness (hstale' c hc)).1)
      (runPhase (excludeDerived (indexById input.evidence) (resolvedIds input))
        (resolvedCandidates input) (runPhase (resolveLink (indexById input.evidence))
          (sortLinks input.graph.links) ⟨[], []⟩).2).2
    nth_rewrite 1 [← hR3] at hR4
    exact hR4
  · intro c hc
    exact ⟨(cleanStep_excludeDerived (hderived c hc)).2,
      (cleanStep_assessStaleness (hstale' c hc)).2⟩

theorem pairwise_of_buckets {K W : Type} [LinearOrder K] {key : W → Option K} {l : List W}
    (h : ∀ k, (l.filter fun w => key w == some k).length ≤ 1) :
    l.Pairwise fun a b => ∀ k, key a = some k → key b ≠ some k := by
  induction l with
  | nil => exact List.Pairwise.nil
  | cons a l ih =>
    refine pairwise_cons.mpr ⟨?_, ih fun k => ?_⟩
    · intro b hb k ha hbk
      have hk := h k
      have hmem : b ∈ l.filter fun w => key w == some k :=
        mem_filter.mpr ⟨hb, by simp [hbk]⟩
      have hpos := length_pos_of_mem hmem
      simp only [filter_cons, ha, beq_self_eq_true, if_true, length_cons] at hk
      omega
    · exact (((sublist_cons_self a l).filter _).length_le).trans (h k)

theorem clean_buckets {K W : Type} [LinearOrder K] (key : W → Option K)
    (step : K × List W → PhaseStep W)
    (hstep : ∀ b, CleanStep (step b) → b.2.length ≤ 1 ∧ (step b).kept.toList = b.2) {l : List W}
    (h : Clean (runPhase step (groupBy key id l).entries log).2) :
    Clean log ∧ (l.Pairwise fun a b => ∀ k, key a = some k → key b ≠ some k) ∧
      ((runPhase step (groupBy key id l).entries log).1 ++
        l.filter fun w => (key w).isNone).Perm l := by
  obtain ⟨hlog, hclean⟩ := clean_runPhase h
  refine ⟨hlog, pairwise_of_buckets ?_, ?_⟩
  · intro k
    by_cases hnil : (l.filter fun w => key w == some k) = []
    · rw [hnil]
      exact Nat.zero_le 1
    · have hget : (groupBy key id l).get? k = some ((l.filter fun w => key w == some k).map id) :=
        get?_groupBy.mpr ⟨rfl, by simpa using hnil⟩
      have hone := (hstep _ (hclean _ (mem_entries.mpr hget))).1
      simpa using hone
  · have hkept : (runPhase step (groupBy key id l).entries log).1 =
        (groupBy key id l).entries.flatMap Prod.snd := by
      rw [runPhase, filterMap_eq_flatMap_toList]
      exact flatMap_congr fun b hb => (hstep b (hclean b hb)).2
    rw [hkept]
    exact groupBy_perm key l

theorem clean_collapseGroups (h : Clean (collapseGroups cs log).2) :
    Clean log ∧ (cs.Pairwise fun a b => ∀ k, a.groupKey = some k → b.groupKey ≠ some k) ∧
      ((collapseGroups cs log).1.map Survivor.candidate).Perm cs := by
  obtain ⟨hlog, hone, hperm⟩ :=
    clean_buckets Candidate.groupKey collapseGroup (fun _ hb => cleanStep_collapse hb) h
  refine ⟨hlog, hone, ?_⟩
  simpa [collapseGroups, map_append, map_map, Function.comp_def] using hperm

theorem clean_collapseFamilies {m : SourceFamilyMap} {ss : List Survivor}
    (h : Clean (collapseFamilies m ss log).2) :
    Clean log ∧ (ss.Pairwise fun a b => ∀ k, a.familyKey m = some k → b.familyKey m ≠ some k) ∧
      ((collapseFamilies m ss log).1).Perm (ss.map Survivor.candidate) ∧ ∀ s ∈ ss, s.hadGroup := by
  obtain ⟨hfam, hnote⟩ := clean_runPhase h
  obtain ⟨hlog, hone, hperm⟩ :=
    clean_buckets (Survivor.familyKey m) collapseFamily (fun _ hb => cleanStep_collapse hb) hfam
  have hall := perm_append_comm.trans hperm
  have hkept : (collapseFamilies m ss log).1 = ((ss.filter fun s => (s.familyKey m).isNone) ++
      (runPhase collapseFamily (groupBy (Survivor.familyKey m) id ss).entries log).1).map
        Survivor.candidate := congrFun filterMap_eq_map' _
  refine ⟨hlog, hone, ?_, ?_⟩
  · rw [hkept]
    exact hall.map Survivor.candidate
  · intro s hs
    exact cleanStep_noteIndependence (hnote s (hall.mem_iff.mpr hs))

theorem group_of_hadGroup (h : ∀ s ∈ (collapseGroups cs log).1, s.hadGroup) :
    ∀ c ∈ cs, ∃ g, c.evidence.group = some g := by
  intro c hc
  cases hg : c.evidence.group with
  | some g => exact ⟨g, rfl⟩
  | none =>
    have hkey : c.groupKey.isNone := by simp [Candidate.groupKey, hg]
    have hmem : (⟨c, false⟩ : Survivor) ∈ (collapseGroups cs log).1 :=
      mem_append_right _ (mem_map.mpr ⟨c, mem_filter.mpr ⟨hc, hkey⟩, rfl⟩)
    cases h _ hmem

def linkedRecord (input : FusionInput) (l : EvidenceLink) : Option Evidence :=
  (indexById input.evidence).get? l.evidenceId

def countedLinks (input : FusionInput) (f : FusedFinding) : List EvidenceLink :=
  input.graph.links.filter fun l => l.relation ≠ .neutral ∧ l.id ∈ f.countedLinkIds

/-- A counted record: grouped, neither stale nor of indeterminate freshness, and
not derived from another record of the pool. -/
structure SoundRecord (rfc3339 : String → Option Instant) (input : FusionInput) (e : Evidence) :
    Prop where
  grouped : ∃ g, e.group = some g
  not_stale : ∀ age, stalenessOfDefault rfc3339 e input.claim ≠ .stale age
  determinate : ∀ reason, stalenessOfDefault rfc3339 e input.claim ≠ .indeterminate reason
  underived : ∀ p ∈ e.parents, p ≠ e.id → ¬ ∃ q ∈ input.evidence, q.id = p

structure ProceedGrounds (rfc3339 : String → Option Instant) (input : FusionInput)
    (f : FusedFinding) : Prop where
  supported : ∃ l ∈ countedLinks input f, l.relation = .supports
  uncontradicted : ∀ l ∈ input.graph.links, l.relation = .contradicts → l.id ∉ f.countedLinkIds
  undiscounted : f.discountedLinkIds = []
  nothing_missing : input.graph.missing = []
  records_sound : ∀ l ∈ countedLinks input f, ∃ e, linkedRecord input l = some e ∧
    SoundRecord rfc3339 input e
  distinct_groups : (countedLinks input f).Pairwise fun a b =>
    (linkedRecord input a).bind Evidence.group ≠ (linkedRecord input b).bind Evidence.group
  distinct_families : (countedLinks input f).Pairwise fun a b =>
    (build input.evidence).familyOf a.evidenceId ≠ (build input.evidence).familyOf b.evidenceId

theorem decideVerdict_verified {s c : ℕ} {ids : List Uuid} {links : List EvidenceLink}
    {missing : List MissingEvidence}
    (h : (decideVerdict s c ids links missing).verdict = .verified) : 0 < s ∧ c = 0 := by
  unfold decideVerdict at h
  split at h
  · cases h
  · split at h
    · cases h
    · next hc =>
      split at h
      · next hs => exact ⟨hs, by omega⟩
      · simp only at h
        split at h
        · cases h
        · split at h
          · cases h
          · split at h
            · cases h
            · cases h

theorem uncertaintyBand_corroborated {s c : ℕ} {missing : List MissingEvidence}
    (h : uncertaintyBand s c log missing = .corroborated) :
    log.discounted = [] ∧ (∀ r ∈ log.rationale, r.rule.isBandingCaveat = false) ∧ missing = [] := by
  unfold uncertaintyBand at h
  split at h
  · cases h
  · split at h
    · cases h
    · split at h
      · cases h
      · next hclean =>
        simp only [ne_eq, Bool.or_eq_true, decide_eq_true_eq, not_or, not_not,
          any_eq_true, not_exists, not_and, Bool.not_eq_true] at hclean
        exact ⟨hclean.1.2, hclean.1.1, hclean.2⟩

theorem build_of_verified {computedAt : String}
    (h : (fuse rfc3339 input computedAt).verdict = .verified) :
    tryBuild input.evidence FamilyBudget.defaultBudget = .ok (build input.evidence) := by
  have hbuild := tryBuild_of_ancestry input.evidence FamilyBudget.defaultBudget
  split at hbuild
  · exact hbuild
  · simp only [fuse, hbuild, budgetFinding] at h
    cases h

theorem corroborated_of_proceed {computedAt : String}
    (hverdict : (decidedFinding input computedAt cs log).verdict = .verified)
    (hband : (decidedFinding input computedAt cs log).uncertainty = .corroborated) :
    Clean log ∧ (∃ c ∈ cs, c.link.relation = .supports) ∧
      (∀ c ∈ cs, c.link.relation ≠ .contradicts) ∧ input.graph.missing = [] := by
  obtain ⟨hs, hc⟩ := decideVerdict_verified hverdict
  obtain ⟨hdisc, hrat, hmiss⟩ := uncertaintyBand_corroborated hband
  refine ⟨⟨insertionSort_eq_nil hdisc, ?_⟩, countRelation_pos.mp hs, ?_, insertionSort_eq_nil hmiss⟩
  · exact fun r hr => hrat r (mem_append_left _ hr)
  · intro c hmem hrel
    have hpos := countRelation_pos.mpr ⟨c, hmem, hrel⟩
    omega

theorem record_of_resolved (hc : c ∈ resolvedCandidates input) :
    linkedRecord input c.link = some c.evidence ∧ c.link.relation ≠ .neutral := by
  obtain ⟨l, -, hk⟩ := mem_filterMap.mp hc
  obtain ⟨rfl, hget, hrel⟩ := resolveLink_kept.mp hk
  exact ⟨hget, hrel⟩

theorem underived_of_no_ancestors {pool : List Evidence} {e : Evidence} {x : Uuid}
    (hget : (indexById pool).get? x = some e)
    (hanc : (ancestorsOfIndexed e.id (indexById pool)).toList = []) :
    ∀ p ∈ e.parents, p ≠ e.id → ¬ ∃ q ∈ pool, q.id = p := by
  intro p hp hne hq
  have hx : e.id = x := (get?_indexById_some hget).2
  have hedge : p ∈ parentEdges (indexById pool) e.id e.id := by
    unfold parentEdges
    rw [hx, hget]
    refine mem_filter.mpr ⟨hp, ?_⟩
    rw [Bool.and_eq_true, decide_eq_true_iff, ← hx]
    exact ⟨hne, (contains_indexById pool p).mpr hq⟩
  have hreach : (ancestorsOfIndexed e.id (indexById pool)).contains p :=
    (Worklist.contains_reached (indexById pool).nodup_keys
      (parentEdges_off_keys (indexById pool) e.id) e.id p).mpr (.single hedge)
  have hmem := OrdSet.mem_toList.mpr hreach
  rw [hanc] at hmem
  cases hmem

structure CleanVotes (rfc3339 : String → Option Instant) (input : FusionInput)
    (m : SourceFamilyMap) : Prop where
  resolved : ∀ l ∈ input.graph.links, Resolves input l
  counted : (countedCandidates rfc3339 input m).1.Perm (resolvedCandidates input)
  sound : ∀ c ∈ resolvedCandidates input, SoundRecord rfc3339 input c.evidence
  groups : (resolvedCandidates input).Pairwise fun a b =>
    ∀ k, a.groupKey = some k → b.groupKey ≠ some k
  families : (resolvedCandidates input).Pairwise fun a b =>
    ∀ k, Survivor.familyKey m ⟨a, true⟩ = some k → Survivor.familyKey m ⟨b, true⟩ ≠ some k

theorem cleanVotes_of_clean {m : SourceFamilyMap}
    (h : Clean (countedCandidates rfc3339 input m).2) : CleanVotes rfc3339 input m := by
  obtain ⟨hG, hfam, hcounted, hhad⟩ := clean_collapseFamilies h
  obtain ⟨hF, hgroups, hsurvivors⟩ := clean_collapseGroups hG
  obtain ⟨hres, hkeep, hsound⟩ := clean_filterCandidates hF
  have hgrouped := group_of_hadGroup hhad
  rw [hkeep] at hgroups hgrouped
  have hperm := hsurvivors.trans (List.Perm.of_eq hkeep)
  refine ⟨hres, hcounted.trans hperm, ?_, hgroups, ?_⟩
  · intro c hc
    obtain ⟨hanc, hstale, hdet⟩ := hsound c hc
    exact ⟨hgrouped c hc, hstale, hdet, underived_of_no_ancestors (record_of_resolved hc).1 hanc⟩
  · -- the key reads the candidate only, so the survivors' list transfers
    refine (hperm.pairwise_iff ?_).mp (pairwise_map.mpr hfam)
    intro a b hab k hb ha
    exact hab k ha hb

theorem evidence_of_record {d : Candidate} (hc : c ∈ resolvedCandidates input)
    (hd : d ∈ resolvedCandidates input) (h : c.link.evidenceId = d.link.evidenceId) :
    c.evidence = d.evidence := by
  have hrecord := (record_of_resolved hc).1
  rw [linkedRecord, h, ← linkedRecord, (record_of_resolved hd).1] at hrecord
  exact (Option.some.inj hrecord).symm

theorem sole_record {s : Survivor} (hs : s.candidate ∈ resolvedCandidates input)
    (hkey : s.familyKey (build input.evidence) = none) {x : Uuid}
    (hfamily : (build input.evidence).familyOf s.candidate.link.evidenceId =
      (build input.evidence).familyOf x) : s.candidate.link.evidenceId = x ∧
      ∀ fam, (build input.evidence).familyOf x = some fam → fam.evidenceIds.length ≤ 1 := by
  obtain ⟨hpool, hid⟩ := get?_indexById_some (record_of_resolved hs).1
  obtain ⟨fam, hfam⟩ := exists_familyOf hpool
  rw [hid] at hfam
  have hfam' := hfamily.symm.trans hfam
  have hmem := familyOf_mem hfam
  have hmem' := familyOf_mem hfam'
  have hone : fam.evidenceIds.length ≤ 1 := by
    by_contra hlen
    simp only [Survivor.familyKey, hfam, if_pos (not_le.mp hlen),
      head?_eq_some_head (ne_nil_of_mem hmem), Option.map_some] at hkey
    cases hkey
  refine ⟨?_, fun _ h => Option.some.inj (hfam'.symm.trans h) ▸ hone⟩
  obtain ⟨y, hy⟩ := length_eq_one_iff.mp (le_antisymm hone (length_pos_of_mem hmem))
  rw [hy] at hmem hmem'
  rw [mem_singleton.mp hmem, mem_singleton.mp hmem']

theorem CleanVotes.distinct (h : CleanVotes rfc3339 input (build input.evidence))
    (hsup : ∀ c ∈ resolvedCandidates input, c.link.relation = .supports) :
    (resolvedCandidates input).Pairwise fun a b => a.evidence.group ≠ b.evidence.group ∧
        (build input.evidence).familyOf a.link.evidenceId ≠
          (build input.evidence).familyOf b.link.evidenceId := by
  refine List.Pairwise.imp_of_mem ?_ (h.groups.and h.families)
  rintro a b ha hb ⟨hgroup, hfamily⟩
  have hrelation : a.link.relation = b.link.relation := (hsup a ha).trans (hsup b hb).symm
  have hdiff : a.evidence.group ≠ b.evidence.group := by
    intro he
    have hkeys : a.groupKey = b.groupKey := by rw [Candidate.groupKey, he, hrelation]; rfl
    obtain ⟨g, hg⟩ := (h.sound a ha).grouped
    have hkey : a.groupKey = some _ := Option.map_eq_some_iff.mpr ⟨g, hg, rfl⟩
    exact hgroup _ hkey (hkeys ▸ hkey)
  refine ⟨hdiff, fun he => ?_⟩
  have hkeys : Survivor.familyKey (build input.evidence) ⟨a, true⟩ =
      Survivor.familyKey (build input.evidence) ⟨b, true⟩ := by
    simp only [Survivor.familyKey, he, hrelation]
  cases hkey : Survivor.familyKey (build input.evidence) ⟨a, true⟩ with
  | some k => exact hfamily k hkey (hkeys ▸ hkey)
  | none =>
    have hsame := (sole_record (s := ⟨a, true⟩) ha hkey he).1
    exact hdiff (congrArg Evidence.group (evidence_of_record ha hb hsame))

theorem map_link_resolvedCandidates (h : ∀ l ∈ input.graph.links, Resolves input l) :
    ((resolvedCandidates input).map Candidate.link).Perm
      (input.graph.links.filter fun l => l.relation ≠ .neutral) := by
  have heq : (resolvedCandidates input).map Candidate.link =
      (sortLinks input.graph.links).filter fun l => l.relation ≠ .neutral := by
    rw [resolvedCandidates, runPhase, map_filterMap, ← filterMap_eq_filter]
    refine filterMap_congr ?_
    intro l hl
    obtain ⟨e, he⟩ := resolves_iff_indexed.mp (h l ((mem_insertionSort _).mp hl))
    by_cases hn : l.relation = .neutral
    · simp [resolveLink, he, hn, Option.guard]
    · simp [resolveLink, he, hn, Option.guard]
  rw [heq]
  exact (perm_insertionSort _ input.graph.links).filter _

theorem CleanVotes.distinct_links (h : CleanVotes rfc3339 input (build input.evidence))
    (hsup : ∀ c ∈ resolvedCandidates input, c.link.relation = .supports) :
    (input.graph.links.filter fun l => l.relation ≠ .neutral).Pairwise fun a b =>
      (linkedRecord input a).bind Evidence.group ≠ (linkedRecord input b).bind Evidence.group ∧
        (build input.evidence).familyOf a.evidenceId ≠
          (build input.evidence).familyOf b.evidenceId := by
  refine ((map_link_resolvedCandidates h.resolved).pairwise_iff ?_).mp ?_
  · intro a b hab
    exact ⟨hab.1.symm, hab.2.symm⟩
  · refine pairwise_map.mpr ((h.distinct hsup).imp_of_mem ?_)
    intro a b ha hb hab
    rw [(record_of_resolved ha).1, (record_of_resolved hb).1]
    exact hab

/-- A recommendation to proceed, in any risk class, rests on at least one counted
supporting link, no counted contradiction, no discounted link, nothing missing,
and counted records that are grouped, fresh, underived and pairwise of different
groups and source families. -/
theorem proceed_needs_corroboration (rfc3339 : String → Option Instant) (input : FusionInput)
    (computedAt : String) (risk : DecisionRiskClass)
    (h : (DefaultRiskPolicy.decide (fuse rfc3339 input computedAt) risk).action = .proceed) :
    ProceedGrounds rfc3339 input (fuse rfc3339 input computedAt) := by
  obtain ⟨hverdict, hband⟩ := actionFor_proceed.mp h
  have hfuse := fuse_of_build rfc3339 (build_of_verified hverdict) computedAt
  rw [hfuse] at hverdict hband ⊢
  obtain ⟨hclean, ⟨v, hv, hvrel⟩, hcon, hmiss⟩ := corroborated_of_proceed hverdict hband
  have hvotes := cleanVotes_of_clean hclean
  have hsup : ∀ c ∈ resolvedCandidates input, c.link.relation = .supports := by
    intro c hc
    have hcontra := hcon c (hvotes.counted.mem_iff.mpr hc)
    have hneutral := (record_of_resolved hc).2
    cases hrel : c.link.relation with
    | supports => rfl
    | contradicts => exact absurd hrel hcontra
    | neutral => exact absurd hrel hneutral
  have hlinks := map_link_resolvedCandidates hvotes.resolved
  -- a voting link of the graph is the link of a resolved candidate
  have hcandidate : ∀ l ∈ input.graph.links, l.relation ≠ .neutral →
      ∃ c ∈ resolvedCandidates input, c.link = l := by
    intro l hl hn
    exact mem_map.mp (hlinks.mem_iff.mpr (mem_filter.mpr ⟨hl, decide_eq_true hn⟩))
  have hsub : (countedLinks input (decidedFinding input computedAt
      (countedCandidates rfc3339 input (build input.evidence)).1
      (countedCandidates rfc3339 input (build input.evidence)).2)).Sublist
        (input.graph.links.filter fun l => l.relation ≠ .neutral) := by
    apply monotone_filter_right
    intro l hl
    exact decide_eq_true (of_decide_eq_true hl).1
  have hdistinct := (hvotes.distinct_links hsup).sublist hsub
  refine ⟨?_, ?_, ?_, hmiss, ?_, ?_, ?_⟩
  · refine ⟨v.link, mem_filter.mpr ⟨(countedCandidates_of v hv).1, ?_⟩, hvrel⟩
    refine decide_eq_true ⟨by rw [hvrel]; decide, ?_⟩
    exact (mem_insertionSort _).mpr (mem_map.mpr ⟨v, hv, rfl⟩)
  · intro l hl hrel
    obtain ⟨c, hc, rfl⟩ := hcandidate l hl (by rw [hrel]; decide)
    rw [hsup c hc] at hrel
    cases hrel
  · change insertionSort _ _ = []
    rw [hclean.undiscounted]
    rfl
  · intro l hl
    obtain ⟨hmem, hcounted⟩ := mem_filter.mp hl
    obtain ⟨c, hc, rfl⟩ := hcandidate l hmem (of_decide_eq_true hcounted).1
    exact ⟨c.evidence, (record_of_resolved hc).1, hvotes.sound c hc⟩
  · exact hdistinct.imp fun hab => hab.1
  · exact hdistinct.imp fun hab => hab.2

def groupedSupport : FusionInput where
  claim := ⟨0, "2026-09-20T12:00:00Z"⟩
  graph := ⟨[⟨10, 1, .supports⟩, ⟨11, 2, .supports⟩], []⟩
  evidence := [agentRecord 1 100 (some 40) [], agentRecord 2 101 (some 41) []]

theorem proceed_needs_corroboration_grouped :
    (DefaultRiskPolicy.decide (fuse (fun _ => none) groupedSupport "") .strict).action = .proceed ∧
      ProceedGrounds (fun _ => none) groupedSupport (fuse (fun _ => none) groupedSupport "") :=
  ⟨by decide, proceed_needs_corroboration (fun _ => none) groupedSupport "" .strict (by decide)⟩

end Fornax
