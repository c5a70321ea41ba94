import Fornax.Policy.Content

namespace Fornax

open List OrdSet

/-! ### Shapes

The two functions fall through to a default when a value does not have the shape
of its field. `getField` only produces fitting values. -/

inductive Fits : PolicyFieldId → FieldValue → Prop
  | longitudinalAggregation (b : Bool) :
    Fits .collectionLongitudinalAggregationAllowed (.bool b)
  | cloudSync (b : Bool) : Fits .egressCloudSyncAllowed (.bool b)
  | redactionProfile (r : RedactionProfile) : Fits .egressRedactionProfile (.redactionProfile r)
  | allowedContent (s : OrdSet EgressContentClass) :
    Fits .egressAllowedContent (.allowedContent s)
  | sensorsDisabled (s : OrdSet String) : Fits .sensorsDisabled (.sensorsDisabled s)
  | requiredSignals (l : List SignalClass) : Fits .sensorsRequiredSignals (.requiredSignals l)
  | enforcementRules (l : List EnforcementRule) : Fits .enforcementRules (.enforcementRules l)
  | maxAge (s : RiskClassSeconds) : Fits .cacheMaxAgeByRisk (.cacheMaxAgeByRisk s)
  | offlineGrace (n : ℕ) : Fits .cacheOfflineGraceSeconds (.cacheOfflineGraceSeconds n)

variable {f : PolicyFieldId} {v a b : FieldValue} {l : List EnforcementRule} {r : EnforcementRule}
  {m : OrdMap ActionClass EnforcementRule}

theorem getField_fits {content : PolicyContent} (h : getField content f = some v) : Fits f v := by
  cases f with
  | unrecognized tag => cases h
  | _ =>
    obtain ⟨x, -, hx⟩ := Option.map_eq_some_iff.mp h
    rw [← hx]
    constructor

theorem meetField_fits (ha : Fits f a) (hb : Fits f b) : Fits f (meetField f a b) := by
  cases ha <;> cases hb <;> constructor

theorem field_applyFieldToResolved (h : Fits f v) (values : ResolvedValues) :
    (applyFieldToResolved values f v).field f = some v := by
  cases h <;> rfl

theorem field_applyFieldToResolved_ne {g : PolicyFieldId} (hfg : f ≠ g) (h : Fits g v)
    (values : ResolvedValues) : (applyFieldToResolved values g v).field f = values.field f := by
  cases h <;> cases f <;> first
    | rfl
    | exact absurd rfl hfg

theorem EnforcementRule.covers_iff (c f : EnforcementRule) :
    c.covers f ↔ f.riskClass ≤ c.riskClass ∧ f.outcomes.verified ≤ c.outcomes.verified ∧
      f.outcomes.unverified ≤ c.outcomes.unverified ∧
      f.outcomes.contradicted ≤ c.outcomes.contradicted ∧ f.outcomes.review ≤ c.outcomes.review ∧
      f.outcomes.unavailable ≤ c.outcomes.unavailable := by
  simp only [covers, Bool.and_eq_true, decide_eq_true_eq, and_assoc]

theorem EnforcementRule.covers_refl (r : EnforcementRule) : r.covers r := by
  rw [covers_iff]
  exact ⟨le_rfl, le_rfl, le_rfl, le_rfl, le_rfl, le_rfl⟩

theorem EnforcementRule.covers_trans {a b c : EnforcementRule} (hab : a.covers b)
    (hbc : b.covers c) : a.covers c := by
  rw [covers_iff] at hab hbc ⊢
  obtain ⟨h1, h2, h3, h4, h5, h6⟩ := hab
  obtain ⟨g1, g2, g3, g4, g5, g6⟩ := hbc
  exact ⟨g1.trans h1, g2.trans h2, g3.trans h3, g4.trans h4, g5.trans h5, g6.trans h6⟩

theorem EnforcementRule.merge_covers_left (a b : EnforcementRule) : (a.merge b).covers a := by
  rw [covers_iff]
  exact ⟨le_max_left _ _, le_max_left _ _, le_max_left _ _, le_max_left _ _, le_max_left _ _,
    le_max_left _ _⟩

theorem EnforcementRule.merge_covers_right (a b : EnforcementRule) : (a.merge b).covers b := by
  rw [covers_iff]
  exact ⟨le_max_right _ _, le_max_right _ _, le_max_right _ _, le_max_right _ _,
    le_max_right _ _, le_max_right _ _⟩

def firstRule (l : List EnforcementRule) (k : ActionClass) : Option EnforcementRule :=
  l.find? fun r => r.actionClass == k

theorem firstRule_some {k : ActionClass} (h : firstRule l k = some r) :
    r ∈ l ∧ r.actionClass = k := by
  have hclass := find?_some h
  exact ⟨mem_of_find?_eq_some h, eq_of_beq hclass⟩

theorem rulesAtLeast_iff {c f : List EnforcementRule} : rulesAtLeast c f ↔
      ∀ r ∈ f, ∃ cr, firstRule c r.actionClass = some cr ∧ cr.covers r := by
  rw [rulesAtLeast, all_eq_true]
  refine forall_congr' fun r => imp_congr_right fun _ => ?_
  unfold firstRule
  cases c.find? fun cr => cr.actionClass == r.actionClass with
  | none => simp
  | some cr => simp

theorem rulesAtLeast_trans {a b c : List EnforcementRule} (hab : rulesAtLeast a b)
    (hbc : rulesAtLeast b c) : rulesAtLeast a c := by
  rw [rulesAtLeast_iff] at hab hbc ⊢
  intro r hr
  obtain ⟨br, hbr, hcov⟩ := hbc r hr
  obtain ⟨hmem, hclass⟩ := firstRule_some hbr
  obtain ⟨ar, har, hcov'⟩ := hab br hmem
  rw [hclass] at har
  exact ⟨ar, har, EnforcementRule.covers_trans hcov' hcov⟩

def RulesOnce (l : List EnforcementRule) : Prop := (l.map fun r => r.actionClass).Nodup

instance (l : List EnforcementRule) : Decidable (RulesOnce l) :=
  inferInstanceAs (Decidable (List.Nodup _))

theorem firstRule_of_mem (hl : RulesOnce l) (hr : r ∈ l) : firstRule l r.actionClass = some r := by
  cases hf : firstRule l r.actionClass with
  | none =>
    have hno := find?_eq_none.mp hf r hr
    simp at hno
  | some q =>
    obtain ⟨hq, hclass⟩ := firstRule_some hf
    rw [inj_on_of_nodup_map hl hq hr hclass]

theorem rulesAtLeast_refl (hl : RulesOnce l) : rulesAtLeast l l := by
  rw [rulesAtLeast_iff]
  intro r hr
  exact ⟨r, firstRule_of_mem hl hr, r.covers_refl⟩

def RulesKeyed (m : OrdMap ActionClass EnforcementRule) : Prop :=
  ∀ k r, m.get? k = some r → r.actionClass = k

theorem get?_mergeRule (m : OrdMap ActionClass EnforcementRule) (r : EnforcementRule)
    (k : ActionClass) : (mergeRule m r).get? k = if k = r.actionClass then
        some (match m.get? r.actionClass with
          | some existing => existing.merge r
          | none => r)
      else m.get? k :=
  OrdMap.get?_alter m r.actionClass k _

theorem RulesKeyed.mergeRule (h : RulesKeyed m) (r : EnforcementRule) :
    RulesKeyed (mergeRule m r) := by
  intro k s hs
  rw [get?_mergeRule] at hs
  split at hs
  · next hk =>
    rw [← Option.some.inj hs, hk]
    cases hm : m.get? r.actionClass with
    | none => rfl
    | some e => exact h _ e hm
  · exact h k s hs

theorem rulesKeyed_foldl_mergeRule (l : List EnforcementRule) :
    RulesKeyed (l.foldl mergeRule OrdMap.empty) := by
  have hempty : RulesKeyed OrdMap.empty := fun k r h => by cases h
  exact foldlRecOn l _ hempty fun _ h r _ => h.mergeRule r

def Absorbs (m : OrdMap ActionClass EnforcementRule) (r : EnforcementRule) : Prop :=
  ∃ e, m.get? r.actionClass = some e ∧ e.covers r = true

theorem absorbs_mergeRule (m : OrdMap ActionClass EnforcementRule) (r : EnforcementRule) :
    Absorbs (mergeRule m r) r := by
  rw [Absorbs, get?_mergeRule, if_pos rfl]
  cases m.get? r.actionClass with
  | none => exact ⟨r, rfl, r.covers_refl⟩
  | some e => exact ⟨e.merge r, rfl, e.merge_covers_right r⟩

theorem Absorbs.mergeRule {q : EnforcementRule} (h : Absorbs m q) (r : EnforcementRule) :
    Absorbs (mergeRule m r) q := by
  obtain ⟨e, he, hcov⟩ := h
  rw [Absorbs, get?_mergeRule]
  by_cases hk : q.actionClass = r.actionClass
  · rw [if_pos hk, ← hk, he]
    exact ⟨e.merge r, rfl, EnforcementRule.covers_trans (e.merge_covers_left r) hcov⟩
  · rw [if_neg hk]
    exact ⟨e, he, hcov⟩

theorem absorbs_foldl_mergeRule (hr : r ∈ l) : Absorbs (l.foldl mergeRule OrdMap.empty) r := by
  induction l using reverseRecOn with
  | nil => cases hr
  | append_singleton l q ih =>
    rw [foldl_concat]
    rcases mem_append.mp hr with hin | hlast
    · exact (ih hin).mergeRule q
    · rw [mem_singleton.mp hlast]
      exact absorbs_mergeRule _ q

theorem firstRule_values (h : RulesKeyed m) (k : ActionClass) : firstRule m.values k = m.get? k :=
  OrdMap.find?_values (fun r : EnforcementRule => r.actionClass) h fun _ => beq_iff_eq

theorem meetEnforcementRules_covers {a b : List EnforcementRule} (hr : r ∈ a ++ b) :
    ∃ e, firstRule (meetEnforcementRules a b) r.actionClass = some e ∧ e.covers r := by
  rw [meetEnforcementRules, firstRule_values (rulesKeyed_foldl_mergeRule _)]
  exact absorbs_foldl_mergeRule hr

theorem actionClass_values (h : RulesKeyed m) : m.values.map (fun r => r.actionClass) = m.keys := by
  rw [OrdMap.values, OrdMap.keys, map_map]
  exact map_congr_left fun e he => h e.1 e.2 (OrdMap.mem_entries.mp he)

theorem rulesOnce_values (h : RulesKeyed m) : RulesOnce m.values := by
  rw [RulesOnce, actionClass_values h]
  exact m.nodup_keys

theorem rulesOnce_meetEnforcementRules (a b : List EnforcementRule) :
    RulesOnce (meetEnforcementRules a b) :=
  rulesOnce_values (rulesKeyed_foldl_mergeRule _)

theorem isAtLeastAsStrict_trans (f : PolicyFieldId) (a b c : FieldValue) (hb : Fits f b)
    (hab : isAtLeastAsStrict f a b) (hbc : isAtLeastAsStrict f b c) : isAtLeastAsStrict f a c := by
  -- a mismatched outer value makes the comparison true; one case is left for each shape
  cases hb <;> cases a <;> cases c <;> first | rfl | skip
  case longitudinalAggregation b x z | cloudSync b x z =>
    cases x <;> cases b <;> cases z <;> first | rfl | exact hab | exact hbc
  case redactionProfile =>
    exact decide_eq_true ((of_decide_eq_true hbc).trans (of_decide_eq_true hab))
  case allowedContent =>
    have hab' := subset_iff.mp hab
    have hbc' := subset_iff.mp hbc
    exact subset_iff.mpr fun k hk => hbc' k (hab' k hk)
  case sensorsDisabled =>
    have hab' := subset_iff.mp hab
    have hbc' := subset_iff.mp hbc
    exact subset_iff.mpr fun k hk => hab' k (hbc' k hk)
  case requiredSignals =>
    simp only [isAtLeastAsStrict, all_eq_true, any_eq_true, beq_iff_eq,
      exists_eq_right] at hab hbc ⊢
    exact fun k hk => hab k (hbc k hk)
  case enforcementRules =>
    exact rulesAtLeast_trans hab hbc
  case maxAge =>
    simp only [isAtLeastAsStrict, Bool.and_eq_true, decide_eq_true_eq] at hab hbc ⊢
    omega
  case offlineGrace =>
    exact decide_eq_true ((of_decide_eq_true hab).trans (of_decide_eq_true hbc))

def SelfStrict : FieldValue → Prop
  | .enforcementRules l => RulesOnce l
  | _ => True

theorem isAtLeastAsStrict_refl (hv : Fits f v) (h : SelfStrict v) : isAtLeastAsStrict f v v := by
  cases hv with
  | longitudinalAggregation b => cases b <;> rfl
  | cloudSync b => cases b <;> rfl
  | redactionProfile r => exact decide_eq_true le_rfl
  | allowedContent s => exact subset_iff.mpr fun k hk => hk
  | sensorsDisabled s => exact subset_iff.mpr fun k hk => hk
  | requiredSignals l => simp [isAtLeastAsStrict]
  | enforcementRules l => exact rulesAtLeast_refl h
  | maxAge s => simp [isAtLeastAsStrict]
  | offlineGrace n => exact decide_eq_true le_rfl

theorem mem_unionSignalClasses {a b : List SignalClass} {c : SignalClass} :
    c ∈ unionSignalClasses a b ↔ c ∈ a ∨ c ∈ b := by
  rw [unionSignalClasses, normalizeSignalClasses, SortDedup.mem_sortDedup, mem_append]

theorem meetField_strict (ha : Fits f a) (hb : Fits f b) : isAtLeastAsStrict f (meetField f a b) a ∧
      isAtLeastAsStrict f (meetField f a b) b := by
  cases ha <;> cases hb
  case longitudinalAggregation x y | cloudSync x y => cases x <;> cases y <;> exact ⟨rfl, rfl⟩
  case redactionProfile x y =>
    exact ⟨decide_eq_true (le_max_left x y), decide_eq_true (le_max_right x y)⟩
  case allowedContent x y =>
    have hinter := contains_inter x y
    constructor <;> refine subset_iff.mpr fun k hk => ?_
    · exact ((hinter k).mp hk).1
    · exact ((hinter k).mp hk).2
  case sensorsDisabled x y =>
    have hunion := contains_union x y
    constructor <;> refine subset_iff.mpr fun k hk => (hunion k).mpr ?_
    · exact .inl hk
    · exact .inr hk
  case requiredSignals x y =>
    simp only [isAtLeastAsStrict, meetField, all_eq_true, any_eq_true, beq_iff_eq,
      exists_eq_right, mem_unionSignalClasses]
    exact ⟨fun c => Or.inl, fun c => Or.inr⟩
  case enforcementRules x y =>
    constructor <;> refine rulesAtLeast_iff.mpr fun r hr => meetEnforcementRules_covers ?_
    · exact mem_append_left y hr
    · exact mem_append_right x hr
  case maxAge x y => simp [isAtLeastAsStrict, meetField, RiskClassSeconds.meet]
  case offlineGrace x y =>
    exact ⟨decide_eq_true (min_le_left x y), decide_eq_true (min_le_right x y)⟩

theorem selfStrict_meetField (ha : Fits f a) (hb : Fits f b) : SelfStrict (meetField f a b) := by
  cases ha <;> cases hb <;> first
    | exact rulesOnce_meetEnforcementRules _ _
    | exact trivial

end Fornax
