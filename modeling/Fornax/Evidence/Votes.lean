import Fornax.Evidence.Decision

namespace Fornax

open BaselineFusionPolicy List OrdMap

variable {rfc3339 : String → Option Instant} {input : FusionInput} {m : SourceFamilyMap}
  {c d : Candidate}

section

variable {K W : Type} [LinearOrder K] {key : W → Option K} {step : K × List W → PhaseStep W}
  {l : List W} {x y : W} (hstep : ∀ b x, (step b).kept = some x → x ∈ b.2)
  (hx : x ∈ (groupBy key id l).entries.filterMap fun b => (step b).kept)

include hstep hx

theorem bucket_of_kept : ∃ b ∈ (groupBy key id l).entries,
    (step b).kept = some x ∧ key x = some b.1 ∧ x ∈ l := by
  obtain ⟨b, hb, hkept⟩ := mem_filterMap.mp hx
  obtain ⟨w, hw, hkey, rfl⟩ := (mem_bucket (mem_entries.mp hb)).mp (hstep b x hkept)
  exact ⟨b, hb, hkept, hkey, hw⟩

theorem kept_unique (hy : y ∈ (groupBy key id l).entries.filterMap fun b => (step b).kept)
    (h : key x = key y) : x = y := by
  obtain ⟨b, hb, hbx, hkey, -⟩ := bucket_of_kept hstep hx
  obtain ⟨b', hb', hby, hkey', -⟩ := bucket_of_kept hstep hy
  rw [hkey, hkey', Option.some.injEq] at h
  have hget := mem_entries.mp hb
  rw [h, mem_entries.mp hb', Option.some.injEq] at hget
  rw [Prod.ext h hget.symm, hby] at hbx
  exact (Option.some.inj hbx).symm

end

def SourceFamilyMap.Alone (m : SourceFamilyMap) (x : Uuid) : Prop :=
  ∀ fam, m.familyOf x = some fam → fam.evidenceIds.length ≤ 1

structure Admissible (rfc3339 : String → Option Instant) (input : FusionInput) (l : EvidenceLink)
    (e : Evidence) : Prop where
  linked : l ∈ input.graph.links
  resolved : e ∈ input.evidence ∧ e.id = l.evidenceId
  voting : l.relation ≠ .neutral
  underived : NotDerivedFromVote input l
  fresh : l.relation = .supports → ∀ age, stalenessOfDefault rfc3339 e input.claim ≠ .stale age

/-- Two links of one relation to one record that names no group and is alone in its family. -/
structure Repeats (m : SourceFamilyMap) (e : Evidence) (a b : EvidenceLink) : Prop where
  relation : a.relation = b.relation
  record : a.evidenceId = b.evidenceId
  ungrouped : e.group = none
  alone : m.Alone a.evidenceId

def Sole (rfc3339 : String → Option Instant) (input : FusionInput) (s : Survivor) : Prop :=
  s ∈ (collapseGroups (filterCandidates rfc3339 input).1 (filterCandidates rfc3339 input).2).1 ∧
    s.familyKey (SourceFamilyMap.build input.evidence) = none

def Chosen (rfc3339 : String → Option Instant) (input : FusionInput) (s : Survivor) : Prop :=
  let survivors :=
    collapseGroups (filterCandidates rfc3339 input).1 (filterCandidates rfc3339 input).2
  s ∈ (runPhase collapseFamily (groupBy
    (Survivor.familyKey (SourceFamilyMap.build input.evidence)) id survivors.1).entries
    survivors.2).1

theorem group_same_source {cs : List Candidate} {log : FusionLog} {s t : Survivor}
    (hs : s ∈ (collapseGroups cs log).1) (ht : t ∈ (collapseGroups cs log).1)
    (h : s.candidate.groupKey = t.candidate.groupKey) :
    s.candidate ∈ cs ∧ (s.candidate = t.candidate ∨ s.candidate.groupKey = none) := by
  have hmem : ∀ {s}, s ∈ (collapseGroups cs log).1 → s.candidate ∈
        (runPhase collapseGroup (groupBy Candidate.groupKey id cs).entries log).1 ∨
        s.candidate ∈ cs ∧ s.candidate.groupKey = none := by
    intro s hs
    rcases mem_append.mp hs with hs | hs
    · obtain ⟨c, hc, rfl⟩ := mem_map.mp hs
      exact .inl hc
    · obtain ⟨c, hc, rfl⟩ := mem_map.mp hs
      exact .inr ⟨(mem_filter.mp hc).1, Option.isNone_iff_eq_none.mp (mem_filter.mp hc).2⟩
  rcases hmem hs with hs | hs
  · obtain ⟨b, -, -, hkey, hin⟩ := bucket_of_kept (fun _ _ => collapse_kept_mem) hs
    refine ⟨hin, ?_⟩
    rcases hmem ht with ht | ht
    · exact .inl (kept_unique (fun _ _ => collapse_kept_mem) hs ht h)
    · exact .inr (h.trans ht.2)
  · exact ⟨hs.1, .inr hs.2⟩

theorem assessStaleness_keeps_iff {claim : Claim} :
    (assessStaleness rfc3339 claim c).kept = some c ↔ (c.link.relation = .supports →
      ∀ age, stalenessOfDefault rfc3339 c.evidence claim ≠ .stale age) := by
  unfold assessStaleness
  split
  · next h => simp [h]
  · next h => simp [h]
  · next age h =>
    by_cases hrelation : c.link.relation = .supports
    · simp [hrelation, h]
    · simp [hrelation]
  · next h => simp [h]

theorem mem_filterCandidates_iff (hidx : Indexes (indexById input.evidence) input.evidence) :
    c ∈ (filterCandidates rfc3339 input).1 ↔ Admissible rfc3339 input c.link c.evidence := by
  rw [mem_filterCandidates, mem_resolvedCandidates hidx, assessStaleness_keeps_iff]
  constructor
  · rintro ⟨⟨hlink, hpool, hid, hvoting⟩, hkept, hfresh⟩
    exact ⟨hlink, ⟨hpool, hid⟩, hvoting, (excludeDerived_keeps_iff hidx hid).mp hkept, hfresh⟩
  · intro h
    exact ⟨⟨h.linked, h.resolved.1, h.resolved.2, h.voting⟩,
      (excludeDerived_keeps_iff hidx h.resolved.2).mpr h.underived, h.fresh⟩

theorem sole_same_source {s t : Survivor} (hs : Sole rfc3339 input s) (ht : Sole rfc3339 input t)
    (hrelation : s.candidate.link.relation = t.candidate.link.relation)
    (hfamily : (SourceFamilyMap.build input.evidence).familyOf s.candidate.link.evidenceId =
      (SourceFamilyMap.build input.evidence).familyOf t.candidate.link.evidenceId) :
    s.candidate = t.candidate ∨ s.candidate ∈ (filterCandidates rfc3339 input).1 ∧
      t.candidate ∈ (filterCandidates rfc3339 input).1 ∧
        Repeats (SourceFamilyMap.build input.evidence) s.candidate.evidence s.candidate.link
          t.candidate.link := by
  have hsin := (group_same_source hs.1 hs.1 rfl).1
  have htin := (group_same_source ht.1 ht.1 rfl).1
  have hsres := (mem_filterCandidates.mp hsin).1
  obtain ⟨hsame, halone⟩ := sole_record hsres hs.2 hfamily
  have hevidence := evidence_of_record hsres (mem_filterCandidates.mp htin).1 hsame
  have hgroup : s.candidate.groupKey = t.candidate.groupKey := by
    simp only [Candidate.groupKey, hevidence, hrelation]
  exact (group_same_source hs.1 ht.1 hgroup).2.imp_right fun hnone =>
    ⟨hsin, htin, hrelation, hsame, Option.map_eq_none_iff.mp hnone, hsame ▸ halone⟩

theorem counted_same_source
    (hc : c ∈ (countedCandidates rfc3339 input (SourceFamilyMap.build input.evidence)).1)
    (hd : d ∈ (countedCandidates rfc3339 input (SourceFamilyMap.build input.evidence)).1)
    (hrelation : c.link.relation = d.link.relation)
    (hfamily : (SourceFamilyMap.build input.evidence).familyOf c.link.evidenceId =
      (SourceFamilyMap.build input.evidence).familyOf d.link.evidenceId) :
    c = d ∨ c ∈ (filterCandidates rfc3339 input).1 ∧ d ∈ (filterCandidates rfc3339 input).1 ∧
      Repeats (SourceFamilyMap.build input.evidence) c.evidence c.link d.link := by
  have hcounted : ∀ {c}, c ∈ (countedCandidates rfc3339 input
      (SourceFamilyMap.build input.evidence)).1 → ∃ s : Survivor, s.candidate = c ∧
        (Sole rfc3339 input s ∨ Chosen rfc3339 input s) := by
    intro c hc
    obtain ⟨s, hs, hk⟩ := mem_filterMap.mp hc
    refine ⟨s, Option.some.inj hk, (mem_append.mp hs).imp_left fun h => ?_⟩
    exact ⟨(mem_filter.mp h).1, Option.isNone_iff_eq_none.mp (mem_filter.mp h).2⟩
  obtain ⟨s, rfl, hs⟩ := hcounted hc
  obtain ⟨t, rfl, ht⟩ := hcounted hd
  have hkey : s.familyKey (SourceFamilyMap.build input.evidence) =
      t.familyKey (SourceFamilyMap.build input.evidence) := by
    simp only [Survivor.familyKey, hfamily, hrelation]
  have hchosen : ∀ {u}, Chosen rfc3339 input u →
      u.familyKey (SourceFamilyMap.build input.evidence) ≠ none := by
    intro u hu hnone
    obtain ⟨b, -, -, hsome, -⟩ := bucket_of_kept (fun _ _ => collapse_kept_mem) hu
    rw [hnone] at hsome
    cases hsome
  rcases hs with hs | hs <;> rcases ht with ht | ht
  · exact sole_same_source hs ht hrelation hfamily
  · exact absurd (hkey.symm.trans hs.2) (hchosen ht)
  · exact absurd (hkey.trans ht.2) (hchosen hs)
  · exact .inl (congrArg Survivor.candidate (kept_unique (fun _ _ => collapse_kept_mem) hs ht hkey))

theorem counted_of_ungrouped (hc : c ∈ (filterCandidates rfc3339 input).1)
    (hungrouped : c.evidence.group = none) (halone : m.Alone c.link.evidenceId) :
    c ∈ (countedCandidates rfc3339 input m).1 := by
  have hkey : c.groupKey.isNone := by rw [Candidate.groupKey, hungrouped]; rfl
  have hsurvivor : (⟨c, false⟩ : Survivor) ∈ (collapseGroups (filterCandidates rfc3339 input).1
      (filterCandidates rfc3339 input).2).1 :=
    mem_append_right _ (mem_map.mpr ⟨c, mem_filter.mpr ⟨hc, hkey⟩, rfl⟩)
  have hfamilyKey : (Survivor.familyKey m ⟨c, false⟩).isNone := by
    unfold Survivor.familyKey
    split
    · next fam hfam => rw [if_neg (not_lt.mpr (halone fam hfam))]; rfl
    · rfl
  exact mem_filterMap.mpr ⟨⟨c, false⟩,
    mem_append_left _ (mem_filter.mpr ⟨hsurvivor, hfamilyKey⟩), rfl⟩

/-- The counted links of one relation are all of different source families exactly when no two
links that can vote repeat a record without a group that is alone in its family. -/
theorem one_source_one_vote_iff (hids : (input.graph.links.map EvidenceLink.id).Nodup)
    (hevidence : (input.evidence.map Evidence.id).Nodup)
    (hbuild : SourceFamilyMap.tryBuild input.evidence FamilyBudget.defaultBudget = .ok m)
    (computedAt : String) :
    (∀ a ∈ input.graph.links, ∀ b ∈ input.graph.links,
      a.id ∈ (fuse rfc3339 input computedAt).countedLinkIds →
      b.id ∈ (fuse rfc3339 input computedAt).countedLinkIds →
      a ≠ b → a.relation = b.relation → m.familyOf a.evidenceId ≠ m.familyOf b.evidenceId) ↔
    ¬ ∃ a b e, Admissible rfc3339 input a e ∧ Admissible rfc3339 input b e ∧ a ≠ b ∧
      Repeats m e a b := by
  have hidx := indexes_indexById hevidence
  have hm : m = SourceFamilyMap.build input.evidence := by
    have htry := tryBuild_of_ancestry input.evidence FamilyBudget.defaultBudget
    rw [hbuild] at htry
    split_ifs at htry
    exact Except.ok.inj htry
  have hcounted : ∀ l ∈ input.graph.links, l.id ∈ (fuse rfc3339 input computedAt).countedLinkIds ↔
      ∃ c ∈ (countedCandidates rfc3339 input m).1, c.link = l := by
    intro l hl
    rw [fuse_of_build rfc3339 hbuild]
    change l.id ∈ ((countedCandidates rfc3339 input m).1.map fun c => c.link.id).insertionSort _ ↔ _
    rw [mem_insertionSort, mem_map]
    refine exists_congr fun c => and_congr_right fun hc => ⟨fun hid => ?_, fun h => by rw [h]⟩
    exact inj_on_of_nodup_map hids (countedCandidates_of c hc).1 hl hid
  constructor
  · rintro h ⟨a, b, e, ha, hb, hne, hrepeats⟩
    have hain : (⟨a, e⟩ : Candidate) ∈ (countedCandidates rfc3339 input m).1 :=
      counted_of_ungrouped ((mem_filterCandidates_iff hidx).mpr ha) hrepeats.ungrouped
        hrepeats.alone
    have hbin : (⟨b, e⟩ : Candidate) ∈ (countedCandidates rfc3339 input m).1 :=
      counted_of_ungrouped ((mem_filterCandidates_iff hidx).mpr hb) hrepeats.ungrouped
        (hrepeats.record ▸ hrepeats.alone)
    exact h a ha.linked b hb.linked ((hcounted a ha.linked).mpr ⟨_, hain, rfl⟩)
      ((hcounted b hb.linked).mpr ⟨_, hbin, rfl⟩) hne hrepeats.relation (by rw [hrepeats.record])
  · intro h a ha b hb hca hcb hne hrelation hfamily
    obtain ⟨c, hc, rfl⟩ := (hcounted a ha).mp hca
    obtain ⟨d, hd, rfl⟩ := (hcounted b hb).mp hcb
    subst hm
    rcases counted_same_source hc hd hrelation hfamily with rfl | ⟨hcin, hdin, hrepeats⟩
    · exact hne rfl
    · refine h ⟨c.link, d.link, c.evidence, (mem_filterCandidates_iff hidx).mp hcin, ?_, hne,
        hrepeats⟩
      rw [evidence_of_record (mem_filterCandidates.mp hcin).1 (mem_filterCandidates.mp hdin).1
        hrepeats.record]
      exact (mem_filterCandidates_iff hidx).mp hdin

def linkedTwice (group : Option Uuid) : FusionInput where
  claim := ⟨1, ""⟩
  graph := ⟨[⟨10, 5, .supports⟩, ⟨11, 5, .supports⟩], []⟩
  evidence := [⟨5, 6, .toolResult, "", some ⟨.hostObserved, group, []⟩⟩]

theorem one_source_one_vote_grouped :
    ¬ (10 ∈ (fuse (fun _ => none) (linkedTwice (some 7)) "").countedLinkIds ∧
      11 ∈ (fuse (fun _ => none) (linkedTwice (some 7)) "").countedLinkIds) := by
  have hgrouped : ∀ e ∈ (linkedTwice (some 7)).evidence, e.group ≠ none := by decide
  have hbuild := tryBuild_of_ancestry (linkedTwice (some 7)).evidence FamilyBudget.defaultBudget
  rw [if_pos (by decide +kernel)] at hbuild
  rintro ⟨hfirst, hsecond⟩
  refine (one_source_one_vote_iff (by decide) (by decide) hbuild "").mpr ?_ ⟨10, 5, .supports⟩
    (by decide) ⟨11, 5, .supports⟩ (by decide) hfirst hsecond (by decide) rfl rfl
  rintro ⟨a, b, e, ha, -, -, hrepeats⟩
  exact hgrouped e ha.resolved.1 hrepeats.ungrouped

/-- Without a group both links count, as two distinct votes. -/
theorem one_source_two_votes :
    ((linkedTwice none).graph.links.map EvidenceLink.id).Nodup ∧
      ((linkedTwice none).evidence.map Evidence.id).Nodup ∧
      familyWork (linkedTwice none).evidence ≤ FamilyBudget.defaultBudget.maxWorkUnits ∧
      (linkedTwice none).graph.links = [⟨10, 5, .supports⟩, ⟨11, 5, .supports⟩] ∧
      (fuse (fun _ => none) (linkedTwice none) "").countedLinkIds = [10, 11] ∧
      (fuse (fun _ => none) (linkedTwice none) "").verdict = .verified := by
  decide +kernel

end Fornax
