import Fornax.Policy.Resolve

namespace Fornax

open List Layers OrdSet Option TargetLevel

def throughLevel (level : TargetLevel) : List TargetLevel :=
  all.filter fun l => l ≤ level

def beforeLevel (level : TargetLevel) : List TargetLevel :=
  all.filter fun l => l < level

theorem levels_sorted : all.Pairwise (· < ·) := by decide

theorem beforeLevel_of_split {pre post : List TargetLevel} {level : TargetLevel}
    (h : TargetLevel.all = pre ++ level :: post) : beforeLevel level = pre := by
  have hsorted := levels_sorted
  rw [h, pairwise_append, pairwise_cons] at hsorted
  obtain ⟨-, ⟨hpost, -⟩, hpre⟩ := hsorted
  have hkeep : pre.filter (fun l => l < level) = pre :=
    filter_eq_self.mpr fun l hl => decide_eq_true (hpre l hl level mem_cons_self)
  have hle : ∀ l ∈ level :: post, level ≤ l :=
    forall_mem_cons.mpr ⟨le_rfl, fun l hl => (hpost l hl).le⟩
  have hdrop : (level :: post).filter (fun l => l < level) = [] :=
    filter_eq_nil_iff.mpr fun l hl => by simpa using hle l hl
  rw [beforeLevel, h, filter_append, hkeep, hdrop, append_nil]

theorem throughLevel_eq (level : TargetLevel) :
    throughLevel level = beforeLevel level ++ [level] := by
  cases level <;> decide

theorem exists_level_split (level : TargetLevel) :
    ∃ post, TargetLevel.all = beforeLevel level ++ level :: post := by
  cases level <;> exact ⟨_, rfl⟩

variable {l : Layer FieldValue FieldProvenance} {bound : List BoundRevision}
  {ctx : DeviceContext} {f : PolicyFieldId} {b : BoundRevision} {v : FieldValue}
  {d : PolicyDiagnostic}

theorem fieldLayers_split (bound : List BoundRevision) (ctx : DeviceContext) (f : PolicyFieldId)
    {level : TargetLevel} (hl : fieldLayer (levelBindings bound ctx level) f level = some l) :
    ∃ post, fieldLayers bound ctx f all =
      fieldLayers bound ctx f (beforeLevel level) ++ l :: post := by
  obtain ⟨post, h⟩ := exists_level_split level
  refine ⟨fieldLayers bound ctx f post, ?_⟩
  rw [h, fieldLayers, filterMap_append, filterMap_cons, hl]
  rfl

theorem fieldLayers_split_inv {pre post : List (Layer FieldValue FieldProvenance)}
    (h : fieldLayers bound ctx f all = pre ++ l :: post) :
    ∃ level, fieldLayer (levelBindings bound ctx level) f level = some l ∧
      fieldLayers bound ctx f (beforeLevel level) = pre := by
  obtain ⟨l₁, l₂, hall, hpre, hpost⟩ := filterMap_eq_append_iff.mp h
  obtain ⟨m₁, level, m₂, hl₂, hnone, hlevel, hrest⟩ := filterMap_eq_cons_iff.mp hpost
  refine ⟨level, hlevel, ?_⟩
  have hsplit : TargetLevel.all = (l₁ ++ m₁) ++ level :: m₂ := by
    rw [hall, hl₂, append_assoc]
  rw [beforeLevel_of_split hsplit, fieldLayers, filterMap_append,
    filterMap_eq_nil_iff.mpr hnone, append_nil]
  exact hpre

section FieldLayer

variable {bs : List BoundRevision} {level : TargetLevel}

theorem fieldCandidates_mem_of_field (hb : b ∈ bs) (hv : b.field f = some v) :
    ⟨v, b.id, b.reference⟩ ∈ fieldCandidates bs f := by
  refine mem_filterMap.mpr ⟨b, hb, ?_⟩
  rw [hv]
  rfl

theorem fieldLayer_of_field (hb : b ∈ bs) (hv : b.field f = some v) :
    ∃ l, fieldLayer bs f level = some l := by
  have hmem := fieldCandidates_mem_of_field hb hv
  rw [fieldLayer]
  cases hc : fieldCandidates bs f with
  | nil =>
    rw [hc] at hmem
    cases hmem
  | cons first rest => exact ⟨_, rfl⟩

theorem fieldLayer_pinned (h : fieldLayer bs f level = some l) (hb : b ∈ bs)
    (hpin : b.pins f) : l.pinned := by
  obtain ⟨first, rest, -, -, hp, -⟩ := fieldLayer_cons h
  have hmem : b ∈ bs.filter fun b => b.pins f := mem_filter.mpr ⟨hb, hpin⟩
  have hlast : (lastPin bs f).isSome := by
    rw [lastPin, getLast?_isSome]
    exact ne_nil_of_mem hmem
  rw [Layer.pinned, hp, isSome_map]
  exact hlast

theorem mergedValue_strict {first : FieldCandidate} {rest : List FieldCandidate}
    (hfits : ∀ c ∈ first :: rest, Fits f c.value) {c : FieldCandidate} (hc : c ∈ first :: rest)
    (hself : SelfStrict c.value) : isAtLeastAsStrict f (mergedValue f first rest) c.value := by
  induction rest using reverseRecOn with
  | nil =>
    rw [mem_singleton.mp hc] at hself ⊢
    exact isAtLeastAsStrict_refl (hfits first mem_cons_self) hself
  | append_singleton rest d ih =>
    rw [mergedValue, foldl_append, foldl_cons, foldl_nil]
    rw [← cons_append] at hfits hc
    have hfront : ∀ e ∈ first :: rest, Fits f e.value := (forall_mem_append.mp hfits).1
    have hm : Fits f (mergedValue f first rest) := mergedValue_fits hfront
    have hd : Fits f d.value := hfits d (by simp)
    rcases mem_append.mp hc with hin | hlast
    · have hmc := ih hfront hin
      exact isAtLeastAsStrict_trans _ _ _ _ hm (meetField_strict hm hd).1 hmc
    · rw [mem_singleton.mp hlast]
      exact (meetField_strict hm hd).2

theorem fieldLayer_strict (h : fieldLayer bs f level = some l) (hb : b ∈ bs)
    (hv : b.field f = some v) (hself : SelfStrict v) : isAtLeastAsStrict f l.value v := by
  obtain ⟨first, rest, hc, hval, -, -⟩ := fieldLayer_cons h
  have hmem := fieldCandidates_mem_of_field hb hv
  have hfits : ∀ c ∈ first :: rest, Fits f c.value := hc ▸ fun c => fieldCandidate_fits
  rw [hc] at hmem
  rw [hval]
  exact mergedValue_strict hfits hmem hself

end FieldLayer

def valueAfter (bound : List BoundRevision) (ctx : DeviceContext) (f : PolicyFieldId)
    (level : TargetLevel) : Option FieldValue :=
  ((stateAfter bound ctx (throughLevel level)).current.get? f).map Slot.value

def floorBefore (bound : List BoundRevision) (ctx : DeviceContext) (f : PolicyFieldId)
    (level : TargetLevel) : Option FieldValue :=
  ((stateAfter bound ctx (beforeLevel level)).floors.get? f).map Slot.value

def offeredAt (bound : List BoundRevision) (ctx : DeviceContext) (f : PolicyFieldId)
    (level : TargetLevel) : Option FieldValue :=
  (fieldLayer (levelBindings bound ctx level) f level).map fun l =>
    combineField f (((stateAfter bound ctx (beforeLevel level)).current.get? f).map
      Slot.value) l.value

theorem mem_levelBindings (hb : b ∈ applicable bound ctx) : b ∈ levelBindings bound ctx b.level :=
  mem_filter.mpr ⟨hb, beq_self_eq_true b.level⟩

section InForce

variable (hf : f ∈ PolicyFieldId.all) {level : TargetLevel}
  (hl : fieldLayer (levelBindings bound ctx level) f level = some l)

include hf hl

theorem valueAfter_eq : valueAfter bound ctx f level =
    some (accepted (isAtLeastAsStrict f) (combineField f)
      (fieldRun bound ctx f (beforeLevel level)) l).value := by
  have hentries := entries_stateAfter bound ctx hf (throughLevel level)
  rw [throughLevel_eq, fieldRun_concat, hl] at hentries
  have hcurrent := congrArg Acc.current hentries
  obtain ⟨o, ho⟩ := step_current (isAtLeastAsStrict f) (combineField f)
    (fieldRun bound ctx f (beforeLevel level)) l
  rw [valueAfter, throughLevel_eq]
  rw [layerStep, ho] at hcurrent
  have hget : (stateAfter bound ctx (beforeLevel level ++ [level])).current.get? f = _ := hcurrent
  rw [hget]
  rfl

theorem resolve_tightens (hpin : l.pinned) : ∃ c, (fieldRun bound ctx f all).current = some c ∧
      (resolve bound ctx).1.values.field f = some c.value ∧ Tightens (isAtLeastAsStrict f) c.value
        (accepted (isAtLeastAsStrict f) (combineField f)
          (fieldRun bound ctx f (beforeLevel level)) l).value := by
  obtain ⟨post, hsplit⟩ := fieldLayers_split bound ctx f hl
  have hfits : ∀ m ∈ fieldLayers bound ctx f all, Fits f m.value := fieldLayers_fits
  rw [hsplit] at hfits
  have hkept := pinned_value_kept (isAtLeastAsStrict_trans f) combineField_fits
    (fieldRun_fits bound ctx f (beforeLevel level)) (fieldLayer_fits hl) hpin post
    fun m hm => hfits m (by simp [hm])
  obtain ⟨c, hc, htight⟩ := hkept.current
  have hrun : (fieldRun bound ctx f all).current = some c := by
    rw [fieldRun, hsplit, run_append]
    exact hc
  refine ⟨c, hrun, ?_, htight⟩
  rw [resolve_field bound ctx hf, hrun]

end InForce

theorem combineField_override (h : f.isAccumulate = false) : combineField f = override := by
  funext prev v
  unfold combineField
  rw [h]
  rfl

def ruleLayers (bound : List BoundRevision) (ctx : DeviceContext) :
    List (Layer FieldValue FieldProvenance) :=
  fieldLayers bound ctx .enforcementRules all

/-- Some applicable revision of the layer's level both pins and sets the rules. -/
def OwnsRulePin (bound : List BoundRevision) (ctx : DeviceContext)
    (l : Layer FieldValue FieldProvenance) : Prop :=
  ∃ b ∈ applicable bound ctx, l.origin.level = some b.level ∧
    b.pins .enforcementRules = true ∧ (b.field .enforcementRules).isSome = true

/-- Pass over the pinning levels from general to specific; a level takes charge
when its rules are at least as strict as those in charge. From the last one in
charge on, the rules must be at least as strict as themselves, or the most
specific level that sets rules does not pin them and is at least as strict. -/
def RulePinsCovered (bound : List BoundRevision) (ctx : DeviceContext) : Prop :=
  ∀ g post, inCharge (isAtLeastAsStrict .enforcementRules) (ruleLayers bound ctx) = some (g, post) →
    (∃ m ∈ g :: post, m.pinned = true ∧ OwnsRulePin bound ctx m) →
    isAtLeastAsStrict .enforcementRules g.value g.value = true ∨
      ∃ l, (ruleLayers bound ctx).getLast? = some l ∧ l.pinned = false ∧
        isAtLeastAsStrict .enforcementRules l.value g.value = true

theorem selfStrict_of_fits (hf : f ≠ .enforcementRules) (hv : Fits f v) : SelfStrict v := by
  cases hv with
  | enforcementRules l => exact absurd rfl hf
  | _ => exact trivial

theorem strict_of_tightens {x y z : FieldValue} (hy : Fits f y)
    (hxy : Tightens (isAtLeastAsStrict f) x y) (hyz : isAtLeastAsStrict f y z) :
    isAtLeastAsStrict f x z := by
  rcases hxy with rfl | hxy
  · exact hyz
  · exact isAtLeastAsStrict_trans f _ _ _ hy hxy hyz

theorem accepted_fits {level : TargetLevel}
    (hl : fieldLayer (levelBindings bound ctx level) f level = some l) :
    Fits f (accepted (isAtLeastAsStrict f) (combineField f)
      (fieldRun bound ctx f (beforeLevel level)) l).value := by
  have hall := (fieldRun_fits bound ctx f (beforeLevel level)).step (isAtLeastAsStrict f)
    (combineField f) combineField_fits (fieldLayer_fits hl)
  obtain ⟨o, ho⟩ := step_current (isAtLeastAsStrict f) (combineField f)
    (fieldRun bound ctx f (beforeLevel level)) l
  exact hall.2 ⟨_, o⟩ ho

section

variable (bound : List BoundRevision) (ctx : DeviceContext)

theorem rulePinsKept_iff : PinsKept (isAtLeastAsStrict .enforcementRules) (OwnsRulePin bound ctx)
      (ruleLayers bound ctx) ↔ RulePinsCovered bound ctx :=
  pinsKept_iff (isAtLeastAsStrict_trans .enforcementRules) fieldLayers_fits
    (OwnsRulePin bound ctx)

theorem fieldRun_rules (levels : List TargetLevel) : fieldRun bound ctx .enforcementRules levels =
      run (isAtLeastAsStrict .enforcementRules) override Acc.start
        (fieldLayers bound ctx .enforcementRules levels) := by
  rw [fieldRun, combineField_override rfl]

end

theorem mem_all_of_field (h : b.field f = some v) : f ∈ PolicyFieldId.all := by
  cases f with
  | unrecognized tag => cases h
  | _ => decide

/-- Every pinned field of every level passes the test at the end, exactly when
the pinned rules do. -/
theorem resolved_meets_pinned_iff (bound : List BoundRevision) (ctx : DeviceContext) :
    (∀ f ∈ PolicyFieldId.all, ∀ level,
      (∃ b ∈ applicable bound ctx, b.level = level ∧ b.pins f = true ∧ (b.field f).isSome = true) →
      ∃ v w, valueAfter bound ctx f level = some v ∧
        (resolve bound ctx).1.values.field f = some w ∧ isAtLeastAsStrict f w v = true) ↔
    RulePinsCovered bound ctx := by
  rw [← rulePinsKept_iff]
  constructor
  · intro h pre l post hsplit hpin hown
    obtain ⟨level, hl, hpre⟩ := fieldLayers_split_inv hsplit
    obtain ⟨b, hb, hlevel, hbpin, hbset⟩ := hown
    obtain ⟨-, -, -, -, -, horigin⟩ := fieldLayer_cons hl
    have hbl : b.level = level := some.inj (hlevel.symm.trans horigin)
    have hf : PolicyFieldId.enforcementRules ∈ PolicyFieldId.all := by decide
    obtain ⟨v, w, hv, hw, hstrict⟩ := h _ hf level ⟨b, hb, hbl, hbpin, hbset⟩
    obtain ⟨c, hc, hfield, -⟩ := resolve_tightens hf hl hpin
    have hwc : w = c.value := some.inj (hw.symm.trans hfield)
    have hva := some.inj (hv.symm.trans (valueAfter_eq hf hl))
    rw [hwc, hva, fieldRun_rules, hpre, combineField_override rfl] at hstrict
    rw [fieldRun_rules] at hc
    exact ⟨c, hc, hstrict⟩
  · intro h f hf level hb
    obtain ⟨b, hb, hlevel, hbpin, hbset⟩ := hb
    obtain ⟨v, hv⟩ := isSome_iff_exists.mp hbset
    have hmem : b ∈ levelBindings bound ctx level := hlevel ▸ mem_levelBindings hb
    obtain ⟨l, hl⟩ : ∃ l, fieldLayer (levelBindings bound ctx level) f level = some l :=
      fieldLayer_of_field hmem hv
    have hpin : l.pinned := fieldLayer_pinned hl hmem hbpin
    obtain ⟨c, hc, hfield, htight⟩ := resolve_tightens hf hl hpin
    refine ⟨_, c.value, valueAfter_eq hf hl, hfield, ?_⟩
    by_cases hrules : f = .enforcementRules
    · subst hrules
      obtain ⟨post, hsplit⟩ := fieldLayers_split bound ctx _ hl
      obtain ⟨-, -, -, -, -, horigin⟩ := fieldLayer_cons hl
      have hown : OwnsRulePin bound ctx l :=
        ⟨b, hb, horigin.trans (congrArg some hlevel.symm), hbpin, hbset⟩
      obtain ⟨c', hc', hkept⟩ := h _ l post hsplit hpin hown
      rw [fieldRun_rules] at hc
      have hcc : c = c' := some.inj (hc.symm.trans hc')
      rw [hcc, fieldRun_rules, combineField_override rfl]
      exact hkept
    · have hfits := accepted_fits hl
      exact strict_of_tightens hfits htight
        (isAtLeastAsStrict_refl hfits (selfStrict_of_fits hrules hfits))

def bindContent (id : Uuid) (scope : TargetScope) (content : PolicyContent)
    (pins : List PolicyFieldId)
    (h : scope.level = .localUser → ofList pins = empty) : BoundRevision where
  binding := ⟨id, scope, TargetSelector.any, ⟨id, 1, Uuid.text id⟩⟩
  revision := ⟨⟨1, id, 1, none, "2026-01-01T00:00:00Z", "policy", content, ofList pins⟩,
    Uuid.text id⟩
  digest_matches := rfl
  no_pin_at_localUser := h

def orgDevice : DeviceContext :=
  ⟨some "org", ofList ["team"], empty, "device", .codex, [], .linux⟩

def repeatedRules : List EnforcementRule :=
  [⟨.codeEdit, .low, .uniform .allow⟩, ⟨.codeEdit, .critical, .uniform .block⟩]

def repeatedRulesPin : BoundRevision :=
  bindContent 1 (.org "org") { PolicyContent.unset with enforcementRules := some repeatedRules }
    [.enforcementRules] nofun

/-- The pinned rules stay in force and fail the test against themselves. -/
theorem repeated_rules_fail_own_pin :
    ¬ ∀ (bound : List BoundRevision) (ctx : DeviceContext), (bound.map BoundRevision.id).Nodup →
      ∀ f ∈ PolicyFieldId.all, ∀ level,
        (∃ b ∈ applicable bound ctx, b.level = level ∧ b.pins f = true ∧
          (b.field f).isSome = true) →
        ∃ v w, valueAfter bound ctx f level = some v ∧
          (resolve bound ctx).1.values.field f = some w ∧ isAtLeastAsStrict f w v = true := by
  intro h
  obtain ⟨v, w, hv, hw, hstrict⟩ := h [repeatedRulesPin] orgDevice (by decide) .enforcementRules
    (by decide) .org ⟨repeatedRulesPin, by decide, rfl, by decide, by decide⟩
  have hv' : valueAfter [repeatedRulesPin] orgDevice .enforcementRules .org =
      some (.enforcementRules repeatedRules) := by decide
  have hw' : (resolve [repeatedRulesPin] orgDevice).1.values.field .enforcementRules =
      some (.enforcementRules repeatedRules) := by decide
  rw [← some.inj (hv'.symm.trans hv), ← some.inj (hw'.symm.trans hw)] at hstrict
  exact absurd hstrict (by decide)

def BoundRevision.NamesRulesOnce (b : BoundRevision) : Prop :=
  ∀ rules, b.revision.body.content.enforcementRules = some rules → RulesOnce rules

theorem namesRulesOnce_iff (hv : b.field .enforcementRules = some v) :
    SelfStrict v ↔ b.NamesRulesOnce := by
  obtain ⟨rules, hrules, rfl⟩ := map_eq_some_iff.mp hv
  simp only [BoundRevision.NamesRulesOnce, hrules, some.injEq, forall_eq']
  exact ((perm_insertionSort _ rules).map _).nodup_iff

theorem selfStrict_of_namesRulesOnce (h : b.NamesRulesOnce) (hv : b.field f = some v) :
    SelfStrict v := by
  by_cases hf : f = .enforcementRules
  · subst hf
    exact (namesRulesOnce_iff hv).mpr h
  · exact selfStrict_of_fits hf (getField_fits hv)

theorem foldl_recordPin_keeps (level : TargetLevel) (f : PolicyFieldId) (v : FieldValue)
    (bs : List BoundRevision) (s : ResolveState) :
    (bs.foldl (recordPin level f v) s).diagnostics = s.diagnostics ∧
      (bs.foldl (recordPin level f v) s).contributing = s.contributing := by
  refine foldlRecOn (motive := fun t : ResolveState => t.diagnostics = s.diagnostics ∧
    t.contributing = s.contributing) bs _ ⟨rfl, rfl⟩ fun t ht b _ => ?_
  rw [recordPin]
  split <;> exact ht

section

variable (level : TargetLevel) (bs : List BoundRevision)

theorem diagnostics_resolveField (s : ResolveState)
    (f : PolicyFieldId) (hd : d ∈ s.diagnostics) : d ∈ (resolveField level bs s f).diagnostics := by
  rw [resolveField]
  cases fieldCandidates bs f with
  | nil => exact hd
  | cons first rest =>
    dsimp only
    rw [(foldl_recordPin_keeps _ _ _ _ _).1]
    exact mem_append_left _ (mem_append_left _ hd)

theorem diagnostics_foldl_resolveField
    (fs : List PolicyFieldId) (s : ResolveState) (hd : d ∈ s.diagnostics) :
    d ∈ (fs.foldl (resolveField level bs) s).diagnostics :=
  foldlRecOn (motive := fun t : ResolveState => d ∈ t.diagnostics) fs _ hd
    fun t ht f _ => diagnostics_resolveField level bs t f ht

end

theorem diagnostics_stateAfter_append (bound : List BoundRevision) (ctx : DeviceContext)
    (levels more : List TargetLevel) (hd : d ∈ (stateAfter bound ctx levels).diagnostics) :
    d ∈ (stateAfter bound ctx (levels ++ more)).diagnostics := by
  induction more using reverseRecOn with
  | nil =>
    rw [append_nil]
    exact hd
  | append_singleton more level ih =>
    rw [← append_assoc, stateAfter_concat]
    exact diagnostics_foldl_resolveField level _ _ _ ih

theorem pinViolation_reported_field (level : TargetLevel) {bs : List BoundRevision}
    {s : ResolveState} {fl : FieldSlot} {first : FieldCandidate} {rest : List FieldCandidate}
    (hc : fieldCandidates bs f = first :: rest) (hfl : s.floors.get? f = some fl)
    (hfail : isAtLeastAsStrict f (combineField f ((s.current.get? f).map fun e => e.value)
      (mergedValue f first rest)) fl.value = false) :
    pinViolation level f fl (representative first (first :: rest)) ∈
      (resolveField level bs s f).diagnostics := by
  rw [resolveField, hc]
  dsimp only
  rw [(foldl_recordPin_keeps _ _ _ _ _).1, acceptField.eq_def, hfl]
  dsimp only
  rw [hfail]
  exact mem_append_right _ mem_cons_self

theorem resolve_snd (hb : b ∈ applicable bound ctx) :
    (resolve bound ctx).2 = (stateAfter bound ctx all).diagnostics := by
  have hne : (applicable bound ctx).isEmpty = false := by
    rw [isEmpty_eq_false_iff]
    exact ne_nil_of_mem hb
  rw [resolve, hne]
  rfl

section Honoured

variable {level : TargetLevel}

theorem floorBefore_eq (hf : f ∈ PolicyFieldId.all) : floorBefore bound ctx f level =
    (fieldRun bound ctx f (beforeLevel level)).floor.map Slot.value := by
  rw [← entries_stateAfter bound ctx hf]
  rfl

theorem offeredAt_eq (hf : f ∈ PolicyFieldId.all)
    (hl : fieldLayer (levelBindings bound ctx level) f level = some l) :
    offeredAt bound ctx f level = some (offer (combineField f)
      (fieldRun bound ctx f (beforeLevel level)) l) := by
  rw [offeredAt, hl, ← entries_stateAfter bound ctx hf]
  rfl

theorem pinViolation_reported (hf : f ∈ PolicyFieldId.all) {u o : FieldValue}
    (hu : floorBefore bound ctx f level = some u) (ho : offeredAt bound ctx f level = some o)
    (hfail : isAtLeastAsStrict f o u = false) : ∃ d ∈ (stateAfter bound ctx all).diagnostics,
      d.code = .pinViolation ∧ d.field = some f := by
  obtain ⟨fl, hfl, hflu⟩ := map_eq_some_iff.mp hu
  obtain ⟨l, hl, hlo⟩ := map_eq_some_iff.mp ho
  obtain ⟨first, rest, hc, hval, -, -⟩ := fieldLayer_cons hl
  obtain ⟨fs₁, fs₂, hfs⟩ := append_of_mem hf
  have hnd : PolicyFieldId.all.Nodup := by decide
  rw [hfs] at hnd
  obtain ⟨hnd₁, -, hdisjoint⟩ := nodup_append.mp hnd
  have hnot : f ∉ fs₁ := fun hin => hdisjoint f hin f mem_cons_self rfl
  -- the engine reaches `f` with the entries that the levels in front left
  let bs := levelBindings bound ctx level
  let s := fs₁.foldl (resolveField level bs) (stateAfter bound ctx (beforeLevel level))
  have hentries : s.entries f = (stateAfter bound ctx (beforeLevel level)).entries f :=
    (entries_foldl_resolveField level bs f fs₁ hnd₁ _).trans (if_neg hnot)
  have hfloor : s.floors.get? f = some fl := (congrArg Acc.floor hentries).trans hfl
  have hcurrent : s.current.get? f = (stateAfter bound ctx (beforeLevel level)).current.get? f :=
    congrArg Acc.current hentries
  have hfail' : isAtLeastAsStrict f (combineField f ((s.current.get? f).map fun e => e.value)
      (mergedValue f first rest)) fl.value = false := by
    rw [hcurrent, ← hval, hflu]
    rw [← hlo] at hfail
    exact hfail
  have hmem := pinViolation_reported_field level hc hfloor hfail'
  refine ⟨pinViolation level f fl (representative first (first :: rest)), ?_, rfl, rfl⟩
  obtain ⟨post, hpost⟩ := exists_level_split level
  have hsplit : TargetLevel.all = (beforeLevel level ++ [level]) ++ post := by
    rw [hpost]
    simp
  rw [hsplit]
  apply diagnostics_stateAfter_append
  rw [stateAfter_concat, hfs, foldl_append, foldl_cons]
  exact diagnostics_foldl_resolveField level bs fs₂ _ hmem

theorem accumulated_strict (hacc : f.isAccumulate)
    (hl : fieldLayer (levelBindings bound ctx level) f level = some l) {fl : FieldSlot}
    (hfl : (fieldRun bound ctx f (beforeLevel level)).floor = some fl) :
    isAtLeastAsStrict f (offer (combineField f)
      (fieldRun bound ctx f (beforeLevel level)) l) fl.value := by
  have hrules : f ≠ .enforcementRules := fun h => by simp [h, PolicyFieldId.isAccumulate] at hacc
  have hfits := fieldRun_fits bound ctx f (beforeLevel level)
  obtain ⟨c, hc, habove⟩ := aboveFloor_run (isAtLeastAsStrict f) (combineField f)
    (fieldLayers bound ctx f (beforeLevel level)) fl hfl
  have hc' : (fieldRun bound ctx f (beforeLevel level)).current = some c := hc
  have hcf : Fits f c.value := hfits.2 c hc'
  have hcfl : isAtLeastAsStrict f c.value fl.value := by
    rcases habove with heq | hstrict
    · rw [← heq]
      exact isAtLeastAsStrict_refl hcf (selfStrict_of_fits hrules hcf)
    · exact hstrict
  have hoffer : offer (combineField f) (fieldRun bound ctx f (beforeLevel level)) l =
      meetField f c.value l.value := by
    rw [offer, hc', combineField.eq_def, hacc]
    rfl
  rw [hoffer]
  exact isAtLeastAsStrict_trans f _ _ _ hcf (meetField_strict hcf (fieldLayer_fits hl)).1 hcfl

theorem offer_strict (hl : fieldLayer (levelBindings bound ctx level) f level = some l)
    {v : FieldValue} (hlv : isAtLeastAsStrict f l.value v) :
    isAtLeastAsStrict f (offer (combineField f)
      (fieldRun bound ctx f (beforeLevel level)) l) v := by
  rw [offer, combineField.eq_def]
  split
  · cases hc : (fieldRun bound ctx f (beforeLevel level)).current with
    | none => exact hlv
    | some c =>
      have hcf : Fits f c.value := (fieldRun_fits bound ctx f (beforeLevel level)).2 c hc
      exact isAtLeastAsStrict_trans f _ _ _ (fieldLayer_fits hl)
        (meetField_strict hcf (fieldLayer_fits hl)).2 hlv
  · exact hlv

end Honoured

def allowOnly (c : EgressContentClass) : PolicyContent :=
  { PolicyContent.unset with allowedContent := some (ofList [c]) }

def orgContentPinOf (id : Uuid) : BoundRevision :=
  bindContent id (.org "org") (allowOnly .claimText) [.egressAllowedContent] nofun

def orgContentPin : BoundRevision := orgContentPinOf 1

def teamContentPin : BoundRevision :=
  bindContent 2 (.team "org" "team") (allowOnly .findingVerdicts) [.egressAllowedContent] nofun

end Fornax
