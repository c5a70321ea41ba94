import Fornax.Policy.Order

namespace Fornax

variable {f : PolicyFieldId} {a b c : FieldValue} {m : OrdMap ActionClass EnforcementRule}

theorem EnforcementRule.covers_merge {cr r s : EnforcementRule} (hr : cr.covers r)
    (hs : cr.covers s) : cr.covers (r.merge s) := by
  rw [covers_iff] at hr hs ⊢
  simp only [merge, VerdictOutcomes.meet, max_le_iff]
  tauto

def CoveredBy (l : List EnforcementRule) (m : OrdMap ActionClass EnforcementRule) : Prop :=
  ∀ k e, m.get? k = some e → ∃ cr, firstRule l k = some cr ∧ cr.covers e = true

theorem CoveredBy.foldl_mergeRule {l rules : List EnforcementRule} (h : CoveredBy l m)
    (hrules : rulesAtLeast l rules) : CoveredBy l (rules.foldl mergeRule m) := by
  rw [rulesAtLeast_iff] at hrules
  refine List.foldlRecOn rules mergeRule h fun m hm r hr k e he => ?_
  obtain ⟨cr, hcr, hcov⟩ := hrules r hr
  rw [get?_mergeRule] at he
  split at he
  · rename_i hk
    subst hk
    refine ⟨cr, hcr, ?_⟩
    cases hold : m.get? r.actionClass with
    | none =>
      rw [hold, Option.some.injEq] at he
      rwa [← he]
    | some old =>
      obtain ⟨cr', hcr', hcov'⟩ := hm _ old hold
      rw [hcr, Option.some.injEq] at hcr'
      rw [hold, Option.some.injEq] at he
      rw [← he]
      exact EnforcementRule.covers_merge (hcr' ▸ hcov') hcov
  · exact hm k e he

theorem rulesAtLeast_meet {x y z : List EnforcementRule} (hx : rulesAtLeast z x)
    (hy : rulesAtLeast z y) : rulesAtLeast z (meetEnforcementRules x y) := by
  have hempty : CoveredBy z OrdMap.empty := fun k e he => nomatch he
  have hcovered : CoveredBy z ((x ++ y).foldl mergeRule OrdMap.empty) := by
    rw [List.foldl_append]
    exact (hempty.foldl_mergeRule hx).foldl_mergeRule hy
  rw [rulesAtLeast_iff]
  intro r hr
  obtain ⟨k, hk⟩ := OrdMap.mem_values.mp hr
  rw [rulesKeyed_foldl_mergeRule (x ++ y) k r hk]
  exact hcovered k r hk

theorem isAtLeastAsStrict_meetField (ha : Fits f a) (hb : Fits f b) (hc : Fits f c)
    (hca : isAtLeastAsStrict f c a) (hcb : isAtLeastAsStrict f c b) :
    isAtLeastAsStrict f c (meetField f a b) := by
  cases ha <;> cases hb <;> cases hc
  case longitudinalAggregation x y z | cloudSync x y z =>
    cases x <;> cases y <;> first | exact hca | exact hcb
  case redactionProfile x y z =>
    exact decide_eq_true (max_le (of_decide_eq_true hca) (of_decide_eq_true hcb))
  case allowedContent x y z =>
    have hca := OrdSet.subset_iff.mp hca
    have hcb := OrdSet.subset_iff.mp hcb
    exact OrdSet.subset_iff.mpr fun k hk => (OrdSet.contains_inter x y k).mpr ⟨hca k hk, hcb k hk⟩
  case sensorsDisabled x y z =>
    have hca := OrdSet.subset_iff.mp hca
    have hcb := OrdSet.subset_iff.mp hcb
    exact OrdSet.subset_iff.mpr fun k hk =>
      ((OrdSet.contains_union x y k).mp hk).elim (hca k) (hcb k)
  case requiredSignals x y z =>
    simp only [isAtLeastAsStrict, meetField, List.all_eq_true, List.any_eq_true, beq_iff_eq,
      exists_eq_right, mem_unionSignalClasses] at hca hcb ⊢
    exact fun s hs => hs.elim (hca s) (hcb s)
  case enforcementRules x y z => exact rulesAtLeast_meet hca hcb
  case maxAge x y z =>
    simp only [isAtLeastAsStrict, meetField, RiskClassSeconds.meet, Bool.and_eq_true,
      decide_eq_true_eq] at hca hcb ⊢
    omega
  case offlineGrace x y z =>
    exact decide_eq_true (le_min (of_decide_eq_true hca) (of_decide_eq_true hcb))

theorem meetField_assoc (ha : Fits f a) (hb : Fits f b) (hc : Fits f c) :
    meetField f (meetField f a b) c = meetField f a (meetField f b c) := by
  by_cases hf : f = .sensorsRequiredSignals
  · subst hf
    cases ha
    cases hb
    cases hc
    exact congrArg FieldValue.requiredSignals (unionSignalClasses_assoc _ _ _)
  · rw [meetField_comm ha (meetField_fits hb hc) (meetCommutes_of_ne hf ha),
      meetField_right_comm hb hc ha (meetCommutes_of_ne hf hc),
      meetField_comm hb ha (meetCommutes_of_ne hf hb)]

theorem mergeRule_self {r : EnforcementRule} (h : m.get? r.actionClass = some r) :
    mergeRule m r = m := by
  refine OrdMap.ext_get? fun k => ?_
  rw [get?_mergeRule, h]
  by_cases hk : k = r.actionClass
  · simp [hk, h, EnforcementRule.merge, VerdictOutcomes.meet]
  · rw [if_neg hk]

theorem meetEnforcementRules_self {l : List EnforcementRule} (hl : RulesOnce l)
    (hsorted : l.Pairwise fun r s => r.actionClass ≤ s.actionClass) :
    meetEnforcementRules l l = l := by
  let m := l.foldl mergeRule OrdMap.empty
  have hget : ∀ k, m.get? k = firstRule l k := get?_foldl_mergeRule hl
  have hagain : l.foldl mergeRule m = m := by
    refine List.foldlRecOn l (motive := fun n : OrdMap ActionClass EnforcementRule => n = m)
      mergeRule rfl fun n hn r hr => ?_
    rw [hn]
    exact mergeRule_self ((hget _).trans (firstRule_of_mem hl hr))
  have hmeet : meetEnforcementRules l l = m.values := by
    rw [meetEnforcementRules, List.foldl_append, hagain]
  have hkeyed : RulesKeyed m := rulesKeyed_foldl_mergeRule l
  have hperm : m.values.Perm l := by
    refine (List.perm_ext_iff_of_nodup (.of_map _ (rulesOnce_values hkeyed)) (.of_map _ hl)).mpr ?_
    intro r
    rw [OrdMap.mem_values]
    constructor
    · rintro ⟨k, hk⟩
      exact (firstRule_some ((hget k).symm.trans hk)).1
    · intro hr
      exact ⟨_, (hget _).trans (firstRule_of_mem hl hr)⟩
  have hle : m.values.Pairwise fun r s => r.actionClass ≤ s.actionClass := by
    rw [← List.pairwise_map (f := fun r : EnforcementRule => r.actionClass),
      actionClass_values hkeyed]
    exact m.sorted.imp le_of_lt
  rw [hmeet]
  refine hperm.eq_of_pairwise (fun r s hr hs hrs hsr => ?_) hle hsorted
  exact List.inj_on_of_nodup_map hl (hperm.mem_iff.mp hr) hs (le_antisymm hrs hsr)

def DistinctTags : FieldValue → FieldValue → Prop
  | .requiredSignals x, .requiredSignals y =>
    ∀ s ∈ x ++ y, ∀ s' ∈ x ++ y, signalClassSortKey s = signalClassSortKey s' → s = s'
  | _, _ => True

theorem MeetCommutes.of_distinctTags (h : DistinctTags a b) : MeetCommutes a b := by
  cases a <;> cases b
  case requiredSignals.requiredSignals =>
    exact SortDedup.sortDedup_eq_of_perm List.perm_append_comm h
  all_goals exact trivial

theorem unionSignalClasses_self {x : List SignalClass}
    (h : ∀ s ∈ x, ∀ s' ∈ x, signalClassSortKey s = signalClassSortKey s' → s = s') :
    unionSignalClasses x x = normalizeSignalClasses x := by
  have hrepeat : ∀ (s : SignalClass) (w : List SignalClass), (∀ s' ∈ w, s' = s) →
      w.destutter' (· ≠ ·) s = [s] := by
    intro s w hw
    induction w with
    | nil => rfl
    | cons s' w ih => simp_all
  refine (SortDedup.sortDedup_eq_iff _ _ _).mpr fun k => ?_
  rw [SortDedup.word_append]
  cases hw : SortDedup.word signalClassSortKey k x with
  | nil => rfl
  | cons s w =>
    have hword : ∀ s' ∈ w, s' = s := by
      intro s' hs'
      have hmem : ∀ r ∈ s :: w, r ∈ x ∧ signalClassSortKey r = k := by
        rw [← hw]
        simp [SortDedup.word]
      obtain ⟨hx, hk⟩ := hmem s List.mem_cons_self
      obtain ⟨hx', hk'⟩ := hmem s' (List.mem_cons_of_mem _ hs')
      exact h s' hx' s hx (hk'.trans hk.symm)
    have htwice : ∀ s' ∈ w ++ s :: w, s' = s := by simpa [or_imp, forall_and] using hword
    exact (hrepeat s _ htwice).trans (hrepeat s w hword).symm

theorem meetField_self {content : PolicyContent} (ha : getField content f = some a)
    (honce : SelfStrict a) (htags : DistinctTags a a) : meetField f a a = a := by
  cases getField_fits ha
  case requiredSignals x =>
    obtain ⟨v, -, hv⟩ := Option.map_eq_some_iff.mp ha
    obtain rfl : normalizeSignalClasses v = x := FieldValue.requiredSignals.inj hv
    have hself := unionSignalClasses_self fun s hs s' hs' =>
      htags s (List.mem_append_left _ hs) s' (List.mem_append_left _ hs')
    refine congrArg FieldValue.requiredSignals (hself.trans ?_)
    have hagain := SortDedup.sortDedup_append_left signalClassSortKey v []
    rwa [List.append_nil, List.append_nil] at hagain
  case enforcementRules l =>
    obtain ⟨v, -, hv⟩ := Option.map_eq_some_iff.mp ha
    obtain rfl : sortRules v = l := FieldValue.enforcementRules.inj hv
    exact congrArg FieldValue.enforcementRules (meetEnforcementRules_self honce
      (SortDedup.sorted_sortBy (fun r : EnforcementRule => r.actionClass) v))
  case allowedContent s =>
    exact congrArg FieldValue.allowedContent (OrdSet.ext_contains fun k => by
      rw [OrdSet.contains_inter, and_self])
  case sensorsDisabled s =>
    exact congrArg FieldValue.sensorsDisabled (OrdSet.ext_contains fun k => by
      rw [OrdSet.contains_union, or_self])
  all_goals simp [meetField, RiskClassSeconds.meet]

def requiring (signals : List SignalClass) : PolicyContent :=
  { PolicyContent.unset with requiredSignals := some signals }

end Fornax
