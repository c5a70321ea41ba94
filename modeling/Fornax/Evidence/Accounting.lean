import Fornax.Evidence.Budget
import Fornax.Evidence.Contradictions

namespace Fornax

open BaselineFusionPolicy List SourceFamilyMap

variable {α β : Type} {log : FusionLog} {input : FusionInput} {c : Candidate} {r : RationaleEntry}
  {l : EvidenceLink} {rfc3339 : String → Option Instant} {cs : List Candidate} {m : SourceFamilyMap}

theorem runPhase_log (step : α → PhaseStep β) (items : List α) (log : FusionLog) :
    (runPhase step items log).2 = ⟨log.rationale ++ items.filterMap fun a => (step a).entry,
      log.discounted ++ items.flatMap fun a => (step a).discounted⟩ := by
  induction items generalizing log with
  | nil => simp [runPhase]
  | cons a items ih =>
    have hstep : (runPhase step (a :: items) log).2 =
        (runPhase step items (log.add (step a))).2 := rfl
    rw [hstep, ih]
    cases hentry : (step a).entry <;> simp [FusionLog.add, hentry]

theorem runPhase_conserves {step : α → PhaseStep β} {ids : α → List Uuid} {idOf : β → Uuid}
    (items : List α)
    (hstep : ∀ a ∈ items, ((step a).kept.toList.map idOf ++ (step a).discounted).Perm (ids a))
    (log : FusionLog) :
    ((runPhase step items log).1.map idOf ++ (runPhase step items log).2.discounted).Perm
      (items.flatMap ids ++ log.discounted) := by
  have hkept : (runPhase step items log).1.map idOf =
      items.flatMap fun a => (step a).kept.toList.map idOf := by
    rw [runPhase, filterMap_eq_flatMap_toList, map_flatMap]
  rw [runPhase_log, hkept]
  refine (perm_append_comm.append_left _).trans ?_
  rw [← append_assoc]
  exact ((flatMap_append_perm items _ _).trans (Perm.flatMap_left _ hstep)).append_right _

theorem runPhase_rationale {step : α → PhaseStep β} {P : RationaleEntry → Prop} {items : List α}
    (hstep : ∀ a ∈ items, ∀ r, (step a).entry = some r → P r) (hlog : ∀ r ∈ log.rationale, P r) :
    ∀ r ∈ (runPhase step items log).2.rationale, P r := by
  rw [runPhase_log]
  refine forall_mem_append.mpr ⟨hlog, fun r hr => ?_⟩
  obtain ⟨a, ha, hentry⟩ := mem_filterMap.mp hr
  exact hstep a ha r hentry

instance (input : FusionInput) (l : EvidenceLink) : Decidable (Resolves input l) :=
  inferInstanceAs (Decidable (∃ e ∈ input.evidence, e.id = l.evidenceId))

def resolvableNeutral (input : FusionInput) : List EvidenceLink :=
  input.graph.links.filter fun l => l.relation = .neutral ∧ Resolves input l

structure Grounded (input : FusionInput) (r : RationaleEntry) : Prop where
  linkIds : ∀ x ∈ r.linkIds, x ∈ input.graph.links.map EvidenceLink.id
  evidenceIds : ∀ x ∈ r.evidenceIds, x ∈ input.evidence.map Evidence.id
  missingEvidenceIds : ∀ x ∈ r.missingEvidenceIds, x ∈ input.graph.missing.map MissingEvidence.id

def CandidateOf (input : FusionInput) (c : Candidate) : Prop :=
  c.link ∈ input.graph.links ∧ Resolves input c.link

theorem CandidateOf.linkId_mem (h : CandidateOf input c) :
    c.link.id ∈ input.graph.links.map EvidenceLink.id :=
  mem_map_of_mem h.1

theorem CandidateOf.evidenceId_mem (h : CandidateOf input c) :
    c.link.evidenceId ∈ input.evidence.map Evidence.id := by
  obtain ⟨e, he, hid⟩ := h.2
  exact mem_map.mpr ⟨e, he, hid⟩

theorem CandidateOf.grounded (h : CandidateOf input c) {others : List Uuid}
    (hlinks : r.linkIds = [c.link.id]) (hevidence : r.evidenceIds = c.link.evidenceId :: others)
    (hmissing : r.missingEvidenceIds = [])
    (hothers : ∀ x ∈ others, x ∈ input.evidence.map Evidence.id) : Grounded input r where
  linkIds := hlinks ▸ forall_mem_singleton.mpr h.linkId_mem
  evidenceIds := hevidence ▸ forall_mem_cons.mpr ⟨h.evidenceId_mem, hothers⟩
  missingEvidenceIds := hmissing ▸ nofun

theorem resolves_iff_indexed :
    Resolves input l ↔ ∃ e, (indexById input.evidence).get? l.evidenceId = some e := by
  rw [← Option.isSome_iff_exists]
  exact (contains_indexById _ _).symm

def votingId (input : FusionInput) (l : EvidenceLink) : List Uuid :=
  if l.relation = .neutral ∧ Resolves input l then [] else [l.id]

theorem resolveLink_conserves (input : FusionInput) (l : EvidenceLink) :
    ((resolveLink (indexById input.evidence) l).kept.toList.map (fun c => c.link.id) ++
      (resolveLink (indexById input.evidence) l).discounted).Perm (votingId input l) := by
  have hres : Resolves input l ↔ _ := resolves_iff_indexed
  unfold resolveLink votingId
  cases hget : (indexById input.evidence).get? l.evidenceId with
  | none =>
    rw [hget] at hres
    simp [hres]
  | some e =>
    rw [hget] at hres
    by_cases hn : l.relation = .neutral
    · simp [hn, hres]
    · simp [hn]

theorem resolveLink_candidateOf (hl : l ∈ input.graph.links)
    (h : (resolveLink (indexById input.evidence) l).kept = some c) : CandidateOf input c := by
  obtain ⟨rfl, hget, -⟩ := resolveLink_kept.mp h
  exact ⟨hl, resolves_iff_indexed.mpr ⟨_, hget⟩⟩

theorem resolveLink_grounded (hl : l ∈ input.graph.links)
    (h : (resolveLink (indexById input.evidence) l).entry = some r) : Grounded input r := by
  unfold resolveLink at h
  cases hget : (indexById input.evidence).get? l.evidenceId with
  | none =>
    rw [hget] at h
    rw [← Option.some.inj h]
    exact ⟨forall_mem_singleton.mpr (mem_map_of_mem hl), nofun, nofun⟩
  | some e =>
    have hc : CandidateOf input ⟨l, e⟩ := ⟨hl, resolves_iff_indexed.mpr ⟨e, hget⟩⟩
    simp only [hget] at h
    split at h
    · rw [← Option.some.inj h]
      exact hc.grounded rfl rfl rfl (forall_mem_nil _)
    · cases h

theorem excludeDerived_conserves (index : OrdMap Uuid Evidence) (ids : OrdSet Uuid)
    (c : Candidate) : ((excludeDerived index ids c).kept.toList.map (fun c => c.link.id) ++
      (excludeDerived index ids c).discounted).Perm [c.link.id] := by
  simp only [excludeDerived]
  split
  · exact List.Perm.refl _
  · split <;> exact List.Perm.refl _

theorem excludeDerived_grounded {index : OrdMap Uuid Evidence} {ids : OrdSet Uuid}
    (hids : ∀ x, ids.contains x → x ∈ input.evidence.map Evidence.id)
    (hc : CandidateOf input c) (h : (excludeDerived index ids c).entry = some r) :
    Grounded input r := by
  simp only [excludeDerived] at h
  split at h
  · cases h
  · split at h
    · rw [← Option.some.inj h]
      exact hc.grounded rfl rfl rfl (forall_mem_nil _)
    · rw [← Option.some.inj h]
      exact hc.grounded rfl rfl rfl fun x hx => hids x (mem_filter.mp hx).2

theorem assessStaleness_conserves (rfc3339 : String → Option Instant) (claim : Claim)
    (c : Candidate) : ((assessStaleness rfc3339 claim c).kept.toList.map (fun c => c.link.id) ++
      (assessStaleness rfc3339 claim c).discounted).Perm [c.link.id] := by
  unfold assessStaleness
  split
  · exact List.Perm.refl _
  · exact List.Perm.refl _
  · split <;> exact List.Perm.refl _
  · exact List.Perm.refl _

theorem assessStaleness_grounded (hc : CandidateOf input c)
    (h : (assessStaleness rfc3339 input.claim c).entry = some r) : Grounded input r := by
  unfold assessStaleness at h
  split at h
  · cases h
  · cases h
  · split at h
    · rw [← Option.some.inj h]
      exact hc.grounded rfl rfl rfl (forall_mem_nil _)
    · rw [← Option.some.inj h]
      exact hc.grounded rfl rfl rfl (forall_mem_nil _)
  · rw [← Option.some.inj h]
    exact hc.grounded rfl rfl rfl (forall_mem_nil _)

theorem collapse_conserves (link : α → EvidenceLink) (rule : FusionRule)
    (detail : List Uuid → Uuid → String) (bucket : List α) :
    ((collapse link rule detail bucket).kept.toList.map (fun a => (link a).id) ++
      (collapse link rule detail bucket).discounted).Perm (bucket.map fun a => (link a).id) := by
  have hperm := (perm_insertionSort (fun a b => (link a).id ≤ (link b).id) bucket).map
    fun a => (link a).id
  refine List.Perm.trans ?_ hperm
  unfold collapse
  split
  · next hs => simp [hs]
  · next only hs => simp [hs]
  · next rep sibling rest hs => simp [hs]

theorem collapse_grounded {link : α → EvidenceLink} {rule : FusionRule}
    {detail : List Uuid → Uuid → String} {bucket : List α}
    (hlinks : ∀ a ∈ bucket, (link a).id ∈ input.graph.links.map EvidenceLink.id)
    (hevidence : ∀ a ∈ bucket, (link a).evidenceId ∈ input.evidence.map Evidence.id)
    (h : (collapse link rule detail bucket).entry = some r) : Grounded input r := by
  have hmem : ∀ a, a ∈ bucket.insertionSort (fun a b => (link a).id ≤ (link b).id) →
      a ∈ bucket := fun a ha => (mem_insertionSort _).mp ha
  unfold collapse at h
  split at h
  · cases h
  · cases h
  · next rep sibling rest hs =>
    rw [hs] at hmem
    rw [← Option.some.inj h]
    refine ⟨?_, ?_, fun x hx => (by cases hx)⟩
    · intro x hx
      have hx' : x ∈ (sibling :: rest).map (fun a => (link a).id) ++ [(link rep).id] :=
        (mem_insertionSort _).mp hx
      rcases mem_append.mp hx' with hx' | hx'
      · obtain ⟨a, ha, rfl⟩ := mem_map.mp hx'
        exact hlinks a (hmem a (mem_cons_of_mem _ ha))
      · rw [mem_singleton.mp hx']
        exact hlinks rep (hmem rep mem_cons_self)
    · intro x hx
      obtain ⟨a, ha, rfl⟩ := mem_map.mp hx
      exact hevidence a (hmem a ha)

/-- `ids` and the discounted ids are the ids of the voting links, and the
rationale is about the input. -/
structure Books (input : FusionInput) (ids : List Uuid) (log : FusionLog) : Prop where
  balance : (ids ++ log.discounted).Perm (input.graph.links.flatMap (votingId input))
  grounded : ∀ r ∈ log.rationale, Grounded input r

theorem Books.phase (step : α → PhaseStep β) (idOf : β → Uuid) {ids : α → List Uuid}
    {items : List α} {aside : List Uuid} (h : Books input (items.flatMap ids ++ aside) log)
    (hstep : ∀ a ∈ items, ((step a).kept.toList.map idOf ++ (step a).discounted).Perm (ids a))
    (hentry : ∀ a ∈ items, ∀ r, (step a).entry = some r → Grounded input r) :
    Books input ((runPhase step items log).1.map idOf ++ aside) (runPhase step items log).2 where
  balance := by
    have hphase := runPhase_conserves items hstep log
    refine List.Perm.trans ?_ h.balance
    rw [perm_iff_count] at hphase ⊢
    intro x
    have hx := hphase x
    simp only [count_append] at hx ⊢
    omega
  grounded := runPhase_rationale hentry h.grounded

theorem Books.congr {ids ids' : List Uuid} (h : Books input ids log) (hperm : ids'.Perm ids) :
    Books input ids' log where
  balance := (hperm.append_right _).trans h.balance
  grounded := h.grounded

theorem flatMap_linkId (cs : List Candidate) :
    (cs.flatMap fun c => [c.link.id]) = cs.map fun c => c.link.id :=
  map_eq_flatMap.symm

theorem resolvedCandidates_of (hc : c ∈ resolvedCandidates input) : CandidateOf input c := by
  obtain ⟨l, hl, hk⟩ := mem_filterMap.mp hc
  exact resolveLink_candidateOf ((mem_insertionSort _).mp hl) hk

theorem resolvedIds_in_pool {x : Uuid} (hx : (resolvedIds input).contains x) :
    x ∈ input.evidence.map Evidence.id := by
  rw [resolvedIds, OrdSet.contains_ofList] at hx
  obtain ⟨c, hc, rfl⟩ := mem_map.mp hx
  exact (resolvedCandidates_of hc).evidenceId_mem

theorem filterCandidates_of (hc : c ∈ (filterCandidates rfc3339 input).1) : CandidateOf input c :=
  resolvedCandidates_of (mem_filterCandidates.mp hc).1

theorem filterCandidates_books (rfc3339 : String → Option Instant) (input : FusionInput) :
    Books input ((filterCandidates rfc3339 input).1.map fun c => c.link.id)
      (filterCandidates rfc3339 input).2 := by
  have hstart : Books input ((sortLinks input.graph.links).flatMap (votingId input) ++ [])
      ⟨[], []⟩ := by
    refine ⟨?_, fun r hr => by cases hr⟩
    simp only [append_nil]
    exact (perm_insertionSort _ input.graph.links).flatMap_right _
  have hR2 := hstart.phase _ _ (fun l _ => resolveLink_conserves input l)
    (fun l hl r hr => resolveLink_grounded ((mem_insertionSort _).mp hl) hr)
  rw [← flatMap_linkId] at hR2
  have hR3 := hR2.phase _ _
    (fun c _ => excludeDerived_conserves (indexById input.evidence) (resolvedIds input) c)
    (fun c hc r hr => excludeDerived_grounded (fun x hx => resolvedIds_in_pool hx)
      (resolvedCandidates_of hc) hr)
  rw [← flatMap_linkId] at hR3
  have hR4 := hR3.phase _ _ (fun c _ => assessStaleness_conserves rfc3339 input.claim c)
    (fun c hc r hr => assessStaleness_grounded (by
      obtain ⟨d, hd, hk⟩ := mem_filterMap.mp hc
      rw [← (excludeDerived_kept.mp hk).1]
      exact resolvedCandidates_of hd) hr)
  rw [append_nil] at hR4
  exact hR4

theorem mem_of_bucket {K W : Type} [LinearOrder K] {key : W → Option K} {l : List W}
    {bucket : K × List W} (hb : bucket ∈ (OrdMap.groupBy key id l).entries) {w : W}
    (hw : w ∈ bucket.2) : w ∈ l := by
  obtain ⟨v, hv, -, rfl⟩ := (OrdMap.mem_bucket (OrdMap.mem_entries.mp hb)).mp hw
  exact hv

theorem bucketIds_perm {K W : Type} [LinearOrder K] (key : W → Option K) (idOf : W → Uuid)
    (l : List W) : (((OrdMap.groupBy key id l).entries.flatMap fun b => b.2.map idOf) ++
      (l.filter fun w => (key w).isNone).map idOf).Perm (l.map idOf) := by
  have hperm := (OrdMap.groupBy_perm key l).map idOf
  rw [map_append, map_flatMap] at hperm
  exact hperm

theorem collapseGroups_of (hcs : ∀ c ∈ cs, CandidateOf input c) :
    ∀ s ∈ (collapseGroups cs log).1, CandidateOf input s.candidate := by
  intro s hs
  rcases mem_append.mp hs with hs | hs
  · obtain ⟨c, hc, rfl⟩ := mem_map.mp hs
    obtain ⟨b, hb, hk⟩ := mem_filterMap.mp hc
    exact hcs c (mem_of_bucket hb (collapse_kept_mem hk))
  · obtain ⟨c, hc, rfl⟩ := mem_map.mp hs
    exact hcs c (mem_filter.mp hc).1

theorem collapseGroups_books (hcs : ∀ c ∈ cs, CandidateOf input c)
    (h : Books input (cs.map fun c => c.link.id) log) :
    Books input ((collapseGroups cs log).1.map fun s => s.candidate.link.id)
      (collapseGroups cs log).2 := by
  have hphase := (h.congr (bucketIds_perm Candidate.groupKey (fun c => c.link.id) cs)).phase
    collapseGroup _ (fun b _ => collapse_conserves _ _ _ b.2)
    (fun b hb r hr => collapse_grounded
      (fun c hc => (hcs c (mem_of_bucket hb hc)).linkId_mem)
      (fun c hc => (hcs c (mem_of_bucket hb hc)).evidenceId_mem) hr)
  simpa [collapseGroups, map_append, map_map, Function.comp_def] using hphase

theorem collapseFamilies_of {ss : List Survivor} (hss : ∀ s ∈ ss, CandidateOf input s.candidate) :
    ∀ c ∈ (collapseFamilies m ss log).1, CandidateOf input c := by
  intro c hc
  obtain ⟨s, hs, hk⟩ := mem_filterMap.mp hc
  rw [← Option.some.inj hk]
  rcases mem_append.mp hs with hs | hs
  · exact hss s (mem_filter.mp hs).1
  · obtain ⟨b, hb, hrep⟩ := mem_filterMap.mp hs
    exact hss s (mem_of_bucket hb (collapse_kept_mem hrep))

theorem noteIndependence_grounded {s : Survivor} (hs : CandidateOf input s.candidate)
    (h : (noteIndependence s).entry = some r) : Grounded input r := by
  simp only [noteIndependence] at h
  split at h
  · cases h
  · rw [← Option.some.inj h]
    exact hs.grounded rfl rfl rfl (forall_mem_nil _)

theorem collapseFamilies_books {ss : List Survivor} (hss : ∀ s ∈ ss, CandidateOf input s.candidate)
    (h : Books input (ss.map fun s => s.candidate.link.id) log) :
    Books input ((collapseFamilies m ss log).1.map fun c => c.link.id)
      (collapseFamilies m ss log).2 := by
  have hfamilies := (h.congr (bucketIds_perm (Survivor.familyKey m)
    (fun s => s.candidate.link.id) ss)).phase collapseFamily _
    (fun b _ => collapse_conserves _ _ _ b.2)
    (fun b hb r hr => collapse_grounded
      (fun s hs => (hss s (mem_of_bucket hb hs)).linkId_mem)
      (fun s hs => (hss s (mem_of_bucket hb hs)).evidenceId_mem) hr)
  -- the representatives follow the survivors outside any shared family
  have hsolo := hfamilies.congr perm_append_comm
  rw [← map_append, ← append_nil (map _ _), map_eq_flatMap] at hsolo
  have hnote := hsolo.phase noteIndependence (fun c => c.link.id) (fun s _ => List.Perm.refl _) ?_
  · rw [append_nil] at hnote
    exact hnote
  · intro s hs r hr
    refine noteIndependence_grounded (hss s ?_) hr
    rcases mem_append.mp hs with hs | hs
    · exact (mem_filter.mp hs).1
    · obtain ⟨b, hb, hrep⟩ := mem_filterMap.mp hs
      exact mem_of_bucket hb (collapse_kept_mem hrep)

theorem decideVerdict_grounded {s c : ℕ} {counted : List Uuid}
    (hcounted : ∀ x ∈ counted, x ∈ input.graph.links.map EvidenceLink.id) :
    (∀ x ∈ (decideVerdict s c counted (sortLinks input.graph.links)
        (sortMissing input.graph.missing)).linkIds, x ∈ input.graph.links.map EvidenceLink.id) ∧
      ∀ x ∈ (decideVerdict s c counted (sortLinks input.graph.links)
        (sortMissing input.graph.missing)).missingIds,
          x ∈ input.graph.missing.map MissingEvidence.id := by
  have hlinks : ∀ x ∈ (sortLinks input.graph.links).map (·.id),
      x ∈ input.graph.links.map EvidenceLink.id := by
    intro x hx
    obtain ⟨l, hl, rfl⟩ := mem_map.mp hx
    exact mem_map_of_mem ((mem_insertionSort _).mp hl)
  have hmissing : ∀ m ∈ sortMissing input.graph.missing,
      m.id ∈ input.graph.missing.map MissingEvidence.id := fun m hm =>
    mem_map_of_mem ((mem_insertionSort _).mp hm)
  have hnone : ∀ (P : Uuid → Prop), ∀ x ∈ ([] : List Uuid), P x := by simp
  simp only [decideVerdict]
  split
  · exact ⟨hcounted, hnone _⟩
  · split
    · exact ⟨hcounted, hnone _⟩
    · split
      · exact ⟨hcounted, hnone _⟩
      · split
        · refine ⟨hnone _, ?_⟩
          intro x hx
          obtain ⟨m, hm, rfl⟩ := mem_map.mp hx
          exact hmissing m (mem_filter.mp hm).1
        · split
          · refine ⟨hnone _, ?_⟩
            intro x hx
            obtain ⟨m, hm, rfl⟩ := mem_map.mp hx
            exact hmissing m hm
          · split
            · exact ⟨hlinks, hnone _⟩
            · exact ⟨hnone _, hnone _⟩

theorem flatMap_ite_append_filter (p : α → Prop) [DecidablePred p] (f : α → β) (l : List α) :
    ((l.flatMap fun a => if p a then [] else [f a]) ++ (l.filter fun a => p a).map f).Perm
      (l.map f) := by
  induction l with
  | nil => exact List.Perm.refl _
  | cons a l ih =>
    by_cases ha : p a
    · simp only [flatMap_cons, nil_append, filter_cons, ha, decide_true, if_true, map_cons]
      exact perm_middle.trans (ih.cons _)
    · simp only [flatMap_cons, filter_cons, ha, decide_false, Bool.false_eq_true,
        if_false, map_cons, cons_append]
      exact ih.cons _

theorem votingIds_append_neutral (input : FusionInput) :
    (input.graph.links.flatMap (votingId input) ++
      (resolvableNeutral input).map EvidenceLink.id).Perm (input.graph.links.map EvidenceLink.id) :=
  flatMap_ite_append_filter (fun l : EvidenceLink => l.relation = .neutral ∧ Resolves input l)
    EvidenceLink.id input.graph.links

def countedCandidates (rfc3339 : String → Option Instant) (input : FusionInput)
    (m : SourceFamilyMap) : List Candidate × FusionLog :=
  let survivors := collapseGroups (filterCandidates rfc3339 input).1
    (filterCandidates rfc3339 input).2
  collapseFamilies m survivors.1 survivors.2

theorem fuse_of_build (rfc3339 : String → Option Instant)
    (hbuild : tryBuild input.evidence FamilyBudget.defaultBudget = .ok m) (computedAt : String) :
    fuse rfc3339 input computedAt =
      decidedFinding input computedAt (countedCandidates rfc3339 input m).1
        (countedCandidates rfc3339 input m).2 := by
  simp only [fuse, hbuild, countedCandidates]

theorem countedCandidates_of : ∀ c ∈ (countedCandidates rfc3339 input m).1, CandidateOf input c :=
  collapseFamilies_of (collapseGroups_of fun _ => filterCandidates_of)

theorem countedCandidates_books (rfc3339 : String → Option Instant) (input : FusionInput)
    (m : SourceFamilyMap) :
    Books input ((countedCandidates rfc3339 input m).1.map fun c => c.link.id)
      (countedCandidates rfc3339 input m).2 :=
  collapseFamilies_books (collapseGroups_of fun _ => filterCandidates_of)
    (collapseGroups_books (fun _ => filterCandidates_of) (filterCandidates_books rfc3339 input))

theorem decidedFinding_grounded (hcs : ∀ c ∈ cs, CandidateOf input c)
    (hlog : ∀ r ∈ log.rationale, Grounded input r) (computedAt : String) :
    ∀ r ∈ (decidedFinding input computedAt cs log).rationale, Grounded input r := by
  intro r hr
  rcases mem_append.mp hr with hr | hr
  · exact hlog r hr
  · have hcounted : ∀ x ∈ (cs.map fun c => c.link.id).insertionSort (· ≤ ·),
        x ∈ input.graph.links.map EvidenceLink.id := by
      intro x hx
      obtain ⟨c, hc, rfl⟩ := mem_map.mp ((mem_insertionSort _).mp hx)
      exact (hcs c hc).linkId_mem
    rw [mem_singleton.mp hr]
    exact ⟨(decideVerdict_grounded hcounted).1, fun x hx => (by cases hx),
      (decideVerdict_grounded hcounted).2⟩

/-- Within the family budget the counted ids, the discounted ids and the ids of the
resolvable neutral links hold every link id of the graph exactly once, the first
two in increasing order, and every id of the rationale is an id of the input. -/
theorem fuse_accounts_for_links (rfc3339 : String → Option Instant) (input : FusionInput)
    (computedAt : String) (m : SourceFamilyMap)
    (hids : (input.graph.links.map EvidenceLink.id).Nodup)
    (hbuild : tryBuild input.evidence FamilyBudget.defaultBudget = .ok m) :
    ((fuse rfc3339 input computedAt).countedLinkIds ++
        (fuse rfc3339 input computedAt).discountedLinkIds ++
        (resolvableNeutral input).map EvidenceLink.id).Perm
          (input.graph.links.map EvidenceLink.id) ∧
      ((fuse rfc3339 input computedAt).countedLinkIds ++
        (fuse rfc3339 input computedAt).discountedLinkIds ++
        (resolvableNeutral input).map EvidenceLink.id).Nodup ∧
      (fuse rfc3339 input computedAt).countedLinkIds.Pairwise (· ≤ ·) ∧
      (fuse rfc3339 input computedAt).discountedLinkIds.Pairwise (· ≤ ·) ∧
      ∀ r ∈ (fuse rfc3339 input computedAt).rationale, Grounded input r := by
  have hbooks := countedCandidates_books rfc3339 input m
  rw [fuse_of_build rfc3339 hbuild]
  have hsorted := ((perm_insertionSort (· ≤ ·) _).append (perm_insertionSort (· ≤ ·) _)).trans
    hbooks.balance
  have hperm := (hsorted.append_right _).trans (votingIds_append_neutral input)
  refine ⟨hperm, hperm.nodup_iff.mpr hids, ?_, ?_, ?_⟩
  · exact pairwise_insertionSort _ _
  · exact pairwise_insertionSort _ _
  · exact decidedFinding_grounded countedCandidates_of hbooks.grounded computedAt

def mixedLinks : FusionInput where
  claim := ⟨0, "2026-09-20T12:00:00Z"⟩
  graph := ⟨[⟨13, 2, .supports⟩, ⟨10, 1, .supports⟩, ⟨11, 1, .neutral⟩, ⟨12, 7, .contradicts⟩], []⟩
  evidence := [agentRecord 1 100 none [], agentRecord 2 100 none []]

theorem fuse_accounts_for_mixedLinks :
    ((fuse (fun _ => none) mixedLinks "").countedLinkIds ++
        (fuse (fun _ => none) mixedLinks "").discountedLinkIds ++ [11]).Perm [13, 10, 11, 12] := by
  have hwork : familyWork mixedLinks.evidence ≤ FamilyBudget.defaultBudget.maxWorkUnits := by
    decide
  have hbuild : tryBuild mixedLinks.evidence FamilyBudget.defaultBudget =
      .ok (build mixedLinks.evidence) := by
    rw [tryBuild_of_ancestry, if_pos (Or.inl hwork)]
  exact (fuse_accounts_for_links (fun _ => none) mixedLinks "" _ (by decide) hbuild).1

end Fornax
