import Fornax.Policy.Pins

namespace Fornax

open List Layers TargetLevel

theorem EnforcementRule.merge_right_comm (e r s : EnforcementRule) :
    (e.merge r).merge s = (e.merge s).merge r := by
  simp only [merge, VerdictOutcomes.meet, max_right_comm]

theorem EnforcementRule.merge_comm {r s : EnforcementRule} (h : r.actionClass = s.actionClass) :
    r.merge s = s.merge r := by
  simp only [merge, VerdictOutcomes.meet, h, max_comm]

theorem mergeRule_right_comm (m : OrdMap ActionClass EnforcementRule) (r s : EnforcementRule) :
    mergeRule (mergeRule m r) s = mergeRule (mergeRule m s) r := by
  apply OrdMap.ext_get?
  intro k
  simp only [get?_mergeRule]
  by_cases hrs : r.actionClass = s.actionClass
  · simp only [hrs, if_true]
    split
    · cases m.get? s.actionClass with
      | none => rw [EnforcementRule.merge_comm hrs]
      | some e => rw [EnforcementRule.merge_right_comm]
    · rfl
  · by_cases hk : k = s.actionClass
    · simp only [hk, Ne.symm hrs, if_true, if_false]
    · simp only [hk, hrs, if_false]

theorem foldl_mergeRule_perm {l l' : List EnforcementRule} (h : l.Perm l')
    (m : OrdMap ActionClass EnforcementRule) : l.foldl mergeRule m = l'.foldl mergeRule m :=
  h.foldl_eq' (fun r _ s _ m => mergeRule_right_comm m r s) m

theorem get?_foldl_mergeRule {l : List EnforcementRule} (hl : RulesOnce l) (k : ActionClass) :
    (l.foldl mergeRule OrdMap.empty).get? k = firstRule l k := by
  induction l using reverseRecOn generalizing k with
  | nil => rfl
  | append_singleton l r ih =>
    rw [RulesOnce, map_append, nodup_append] at hl
    have hnone : firstRule l r.actionClass = none := find?_eq_none.mpr fun s hs => by
      simpa using hl.2.2 _ (mem_map_of_mem hs) r.actionClass (by simp)
    have hsplit : firstRule (l ++ [r]) k = (firstRule l k).or (firstRule [r] k) := find?_append
    rw [foldl_concat, get?_mergeRule, ih hl.1, ih hl.1, hnone, hsplit]
    by_cases hk : k = r.actionClass
    · rw [hk, hnone]
      simp [firstRule]
    · simp [hk, Ne.symm hk, firstRule]

theorem foldl_mergeRule_values {m : OrdMap ActionClass EnforcementRule} (h : RulesKeyed m) :
    m.values.foldl mergeRule OrdMap.empty = m := by
  apply OrdMap.ext_get?
  intro k
  rw [get?_foldl_mergeRule (rulesOnce_values h), firstRule_values h]

theorem meetEnforcementRules_comm (a b : List EnforcementRule) :
    meetEnforcementRules a b = meetEnforcementRules b a := by
  rw [meetEnforcementRules, meetEnforcementRules, foldl_mergeRule_perm perm_append_comm]

theorem meetEnforcementRules_nested (x a b : List EnforcementRule) :
    meetEnforcementRules (meetEnforcementRules x a) b =
      ((x ++ a ++ b).foldl mergeRule OrdMap.empty).values := by
  rw [meetEnforcementRules, meetEnforcementRules, foldl_append,
    foldl_mergeRule_values (rulesKeyed_foldl_mergeRule _), ← foldl_append]

theorem meetEnforcementRules_right_comm (x a b : List EnforcementRule) :
    meetEnforcementRules (meetEnforcementRules x a) b =
      meetEnforcementRules (meetEnforcementRules x b) a := by
  have hperm : (x ++ a ++ b).Perm (x ++ b ++ a) := by
    rw [append_assoc, append_assoc]
    exact perm_append_comm.append_left x
  rw [meetEnforcementRules_nested, meetEnforcementRules_nested, foldl_mergeRule_perm hperm]

theorem unionSignalClasses_assoc (x a b : List SignalClass) :
    unionSignalClasses (unionSignalClasses x a) b =
      unionSignalClasses x (unionSignalClasses a b) := by
  simp only [unionSignalClasses, normalizeSignalClasses]
  rw [SortDedup.sortDedup_append_left, SortDedup.sortDedup_append_right, append_assoc]

def MeetCommutes : FieldValue → FieldValue → Prop
  | .requiredSignals a, .requiredSignals b => unionSignalClasses a b = unionSignalClasses b a
  | _, _ => True

variable {f : PolicyFieldId} {a : FieldValue} {c d : FieldCandidate}
  {bs bound bound' : List BoundRevision} {ctx : DeviceContext}
  {ls : List (Layer FieldValue FieldProvenance)}

theorem meetField_comm {b : FieldValue} (ha : Fits f a) (hb : Fits f b) (hcomm : MeetCommutes a b) :
    meetField f a b = meetField f b a := by
  cases ha <;> cases hb
  case requiredSignals => exact congrArg FieldValue.requiredSignals hcomm
  case enforcementRules x y =>
    exact congrArg FieldValue.enforcementRules (meetEnforcementRules_comm x y)
  all_goals
    simp only [meetField, RiskClassSeconds.meet, Bool.and_comm, max_comm, min_comm,
      OrdSet.inter_comm, OrdSet.union_comm]

theorem meetField_right_comm {x b : FieldValue} (hx : Fits f x) (ha : Fits f a) (hb : Fits f b)
    (hcomm : MeetCommutes a b) :
    meetField f (meetField f x a) b = meetField f (meetField f x b) a := by
  cases hx <;> cases ha <;> cases hb
  case requiredSignals x a b =>
    have hab : unionSignalClasses a b = unionSignalClasses b a := hcomm
    refine congrArg FieldValue.requiredSignals ?_
    rw [unionSignalClasses_assoc, hab, ← unionSignalClasses_assoc]
  case enforcementRules x a b =>
    exact congrArg FieldValue.enforcementRules (meetEnforcementRules_right_comm x a b)
  case allowedContent x a b =>
    exact congrArg FieldValue.allowedContent (OrdSet.inter_right_comm x a b)
  case sensorsDisabled x a b =>
    exact congrArg FieldValue.sensorsDisabled (OrdSet.union_right_comm x a b)
  all_goals
    simp only [meetField, RiskClassSeconds.meet, Bool.and_right_comm, max_right_comm,
      min_right_comm]

theorem meetField_of_not_fits {x : FieldValue} (ha : Fits f a) (hx : ¬ Fits f x) :
    meetField f x a = x := by
  cases ha <;> cases x <;> first
    | rfl
    | exact absurd (by constructor) hx

def meetStep (f : PolicyFieldId) (acc : Option FieldValue) (c : FieldCandidate) :
    Option FieldValue :=
  match acc with
  | some x => some (meetField f x c.value)
  | none => some c.value

theorem foldl_meetStep_some (f : PolicyFieldId) (rest : List FieldCandidate) (x : FieldValue) :
    rest.foldl (meetStep f) (some x) = some (rest.foldl (fun m c => meetField f m c.value) x) :=
  foldl_hom some fun _ _ => rfl

theorem foldl_meetStep (f : PolicyFieldId) (first : FieldCandidate) (rest : List FieldCandidate) :
    (first :: rest).foldl (meetStep f) none = some (mergedValue f first rest) :=
  foldl_meetStep_some f rest first.value

theorem meetStep_right_comm (hc : Fits f c.value) (hd : Fits f d.value)
    (hcomm : MeetCommutes c.value d.value) (acc : Option FieldValue) :
    meetStep f (meetStep f acc c) d = meetStep f (meetStep f acc d) c := by
  cases acc with
  | none => exact congrArg some (meetField_comm hc hd hcomm)
  | some x =>
    refine congrArg some ?_
    by_cases hx : Fits f x
    · exact meetField_right_comm hx hc hd hcomm
    · rw [meetField_of_not_fits hc hx, meetField_of_not_fits hd hx, meetField_of_not_fits hc hx]

theorem mergedValue_perm {first first' : FieldCandidate} {rest rest' : List FieldCandidate}
    (h : (first :: rest).Perm (first' :: rest')) (hfits : ∀ c ∈ first :: rest, Fits f c.value)
    (hcomm : ∀ c ∈ first :: rest, ∀ d ∈ first :: rest, MeetCommutes c.value d.value) :
    mergedValue f first rest = mergedValue f first' rest' := by
  have hfold := h.foldl_eq' (fun c hc d hd acc =>
    meetStep_right_comm (hfits c hc) (hfits d hd) (hcomm c hc d hd) acc) none
  rw [foldl_meetStep, foldl_meetStep] at hfold
  exact Option.some.inj hfold

theorem representative_spec (first : FieldCandidate) (rest : List FieldCandidate) :
    representative first rest ∈ first :: rest ∧
      ∀ c ∈ first :: rest, (representative first rest).bindingId ≤ c.bindingId := by
  induction rest using reverseRecOn with
  | nil => simp [representative]
  | append_singleton rest d ih =>
    obtain ⟨hmem, hmin⟩ := ih
    have hstep : representative first (rest ++ [d]) =
        if d.bindingId < (representative first rest).bindingId then d
        else representative first rest := foldl_concat ..
    rw [hstep, ← cons_append]
    split
    · next hlt =>
      refine ⟨by simp, fun c hc => ?_⟩
      rcases mem_append.mp hc with hc | hc
      · exact hlt.le.trans (hmin c hc)
      · rw [mem_singleton.mp hc]
    · next hge =>
      refine ⟨mem_append_left _ hmem, fun c hc => ?_⟩
      rcases mem_append.mp hc with hc | hc
      · exact hmin c hc
      · rw [mem_singleton.mp hc]
        exact not_lt.mp hge

theorem representative_perm {first first' : FieldCandidate} {rest rest' : List FieldCandidate}
    (h : (first :: rest).Perm (first' :: rest'))
    (hids : ∀ c ∈ first :: rest, ∀ d ∈ first :: rest, c.bindingId = d.bindingId → c = d) :
    representative first (first :: rest) = representative first' (first' :: rest') := by
  obtain ⟨hmem, hmin⟩ := representative_spec first (first :: rest)
  obtain ⟨hmem', hmin'⟩ := representative_spec first' (first' :: rest')
  have hin : representative first (first :: rest) ∈ first :: rest := by simpa using hmem
  have hin' := h.mem_iff.mpr (by simpa using hmem')
  apply hids _ hin _ hin'
  apply le_antisymm
  · exact hmin _ (mem_cons_of_mem _ hin')
  · exact hmin' _ (mem_cons_of_mem _ (h.mem_iff.mp hin))

theorem fieldCandidate_eq_of_id (hids : (bs.map BoundRevision.id).Nodup)
    (hc : c ∈ fieldCandidates bs f) (hd : d ∈ fieldCandidates bs f)
    (h : c.bindingId = d.bindingId) : c = d := by
  obtain ⟨b, hb, hbv, hbi, hbr⟩ := fieldCandidate_mem hc
  obtain ⟨b', hb', hbv', hbi', hbr'⟩ := fieldCandidate_mem hd
  have hbb : b = b' := inj_on_of_nodup_map hids hb hb' (hbi.symm.trans (h.trans hbi'))
  rw [← hbb] at hbv' hbi' hbr'
  have hv : c.value = d.value := Option.some.inj (hbv.symm.trans hbv')
  cases c
  cases d
  simp_all

/-- Any two applicable revisions of one level that list required signals may be combined in either
order. -/
def SignalsCommute (bound : List BoundRevision) (ctx : DeviceContext) : Prop :=
  ∀ b ∈ applicable bound ctx, ∀ c ∈ applicable bound ctx, b.level = c.level →
    ∀ x y, b.revision.body.content.requiredSignals = some x →
      c.revision.body.content.requiredSignals = some y →
      unionSignalClasses x y = unionSignalClasses y x

theorem unionSignalClasses_normalize (x y : List SignalClass) :
    unionSignalClasses (normalizeSignalClasses x) (normalizeSignalClasses y) =
      unionSignalClasses x y := by
  simp only [unionSignalClasses, normalizeSignalClasses]
  rw [SortDedup.sortDedup_append_left, SortDedup.sortDedup_append_right]

theorem meetCommutes_of_ne (hf : f ≠ .sensorsRequiredSignals) {v w : FieldValue} (hv : Fits f v) :
    MeetCommutes v w := by
  cases hv with
  | requiredSignals l => exact absurd rfl hf
  | _ => exact trivial

theorem meetCommutes_of_signalsCommute (h : SignalsCommute bound ctx) {level : TargetLevel}
    (hc : c ∈ fieldCandidates (levelBindings bound ctx level) f)
    (hd : d ∈ fieldCandidates (levelBindings bound ctx level) f) :
    MeetCommutes c.value d.value := by
  by_cases hf : f = .sensorsRequiredSignals
  · subst hf
    obtain ⟨b, hb, hbv, -, -⟩ := fieldCandidate_mem hc
    obtain ⟨b', hb', hbv', -, -⟩ := fieldCandidate_mem hd
    obtain ⟨x, hx, hxv⟩ := Option.map_eq_some_iff.mp hbv
    obtain ⟨y, hy, hyv⟩ := Option.map_eq_some_iff.mp hbv'
    obtain ⟨hbapp, hblevel⟩ := mem_filter.mp hb
    obtain ⟨hbapp', hblevel'⟩ := mem_filter.mp hb'
    have hlevels : b.level = b'.level := (eq_of_beq hblevel).trans (eq_of_beq hblevel').symm
    have hcomm := h b hbapp b' hbapp' hlevels x y hx hy
    rw [← hxv, ← hyv]
    show unionSignalClasses _ _ = unionSignalClasses _ _
    rw [unionSignalClasses_normalize, unionSignalClasses_normalize, hcomm]
  · exact meetCommutes_of_ne hf (fieldCandidate_fits hc)

theorem lastPin_isSome_perm {bs' : List BoundRevision} (h : bs.Perm bs') (f : PolicyFieldId) :
    (lastPin bs f).isSome = (lastPin bs' f).isSome := by
  have hfilter := h.filter fun b => b.pins f
  rw [Bool.eq_iff_iff, lastPin, lastPin, getLast?_isSome, getLast?_isSome]
  exact not_congr ⟨fun e => nil_perm.mp (e ▸ hfilter), fun e => perm_nil.mp (e ▸ hfilter)⟩

structure SameLevel (commutes : Prop) (l m : Layer FieldValue FieldProvenance) : Prop where
  origin : l.origin = m.origin
  pinned : l.pinned = m.pinned
  value : commutes → l.value = m.value

theorem SameLevel.map_origin {C : Prop} {o o' : Option (Layer FieldValue FieldProvenance)}
    (h : Option.Rel (SameLevel C) o o') : o.map Layer.origin = o'.map Layer.origin := by
  cases h with
  | none => rfl
  | some hlm => exact congrArg some hlm.origin

theorem fieldLayer_perm {bs' : List BoundRevision} (h : bs.Perm bs')
    (hids : (bs.map BoundRevision.id).Nodup) (level : TargetLevel) {C : Prop}
    (hcomm : C → ∀ c ∈ fieldCandidates bs f, ∀ d ∈ fieldCandidates bs f,
      MeetCommutes c.value d.value) :
    Option.Rel (SameLevel C) (fieldLayer bs f level) (fieldLayer bs' f level) := by
  have hperm : (fieldCandidates bs f).Perm (fieldCandidates bs' f) := h.filterMap _
  have hpins := lastPin_isSome_perm h f
  rw [fieldLayer, fieldLayer]
  cases hc : fieldCandidates bs f with
  | nil =>
    rw [hc] at hperm
    rw [nil_perm.mp hperm]
    exact Option.Rel.none
  | cons first rest =>
    cases hc' : fieldCandidates bs' f with
    | nil =>
      rw [hc, hc'] at hperm
      exact absurd (perm_nil.mp hperm) (cons_ne_nil _ _)
    | cons first' rest' =>
      have hmem : ∀ c ∈ first :: rest, c ∈ fieldCandidates bs f := by simp [hc]
      rw [hc, hc'] at hperm
      have hrep := representative_perm hperm fun c hc d hd =>
        fieldCandidate_eq_of_id hids (hmem c hc) (hmem d hd)
      refine Option.Rel.some ⟨?_, ?_, ?_⟩
      · rw [hrep]
      · simp only [Layer.pinned, Option.isSome_map]
        exact hpins
      · intro hC
        exact mergedValue_perm hperm (fun c hc => fieldCandidate_fits (hmem c hc)) (hc ▸ hcomm hC)

theorem levelBindings_perm (h : bound.Perm bound') (ctx : DeviceContext) (level : TargetLevel) :
    (levelBindings bound ctx level).Perm (levelBindings bound' ctx level) :=
  (h.filter _).filter _

theorem levelBindings_ids (hids : (bound.map BoundRevision.id).Nodup) (ctx : DeviceContext)
    (level : TargetLevel) : ((levelBindings bound ctx level).map BoundRevision.id).Nodup := by
  have hsub : (levelBindings bound ctx level).Sublist bound :=
    filter_sublist.trans filter_sublist
  exact (hsub.map _).nodup hids

section Permuted

variable {bound bound' : List BoundRevision} (hperm : bound.Perm bound')
  (hids : (bound.map BoundRevision.id).Nodup) (ctx : DeviceContext)

include hperm hids

theorem fieldLayers_sameLevel (f : PolicyFieldId) (levels : List TargetLevel) :
    List.Forall₂ (SameLevel (SignalsCommute bound ctx ∨ f ≠ .sensorsRequiredSignals))
      (fieldLayers bound ctx f levels) (fieldLayers bound' ctx f levels) := by
  refine rel_filterMap ?_ (forall₂_eq_eq_eq ▸ rfl : List.Forall₂ (· = ·) levels levels)
  rintro level _ rfl
  refine fieldLayer_perm (levelBindings_perm hperm ctx level) (levelBindings_ids hids ctx level)
    level fun hcond c hc d hd => ?_
  rcases hcond with hsig | hf
  · exact meetCommutes_of_signalsCommute hsig hc hd
  · exact meetCommutes_of_ne hf (fieldCandidate_fits hc)

theorem fieldLayers_alike (f : PolicyFieldId)
    (hcond : SignalsCommute bound ctx ∨ f ≠ .sensorsRequiredSignals) (levels : List TargetLevel) :
    List.Forall₂ Alike (fieldLayers bound ctx f levels) (fieldLayers bound' ctx f levels) :=
  (fieldLayers_sameLevel hperm hids ctx f levels).imp fun _ _ h =>
    ⟨h.value hcond, h.origin, h.pinned⟩

end Permuted

/-- The most specific layer when it pins. When it does not pin and fails the test
against the pinned value in charge, the last pinning layer. -/
def decidingLayer (f : PolicyFieldId) (ls : List (Layer FieldValue FieldProvenance)) :
    Option (Layer FieldValue FieldProvenance) :=
  match ls.getLast? with
  | none => none
  | some l =>
    if l.pinned then some l
    else if f.isAccumulate then none
    else
      match inCharge (isAtLeastAsStrict f) ls with
      | some g =>
        if isAtLeastAsStrict f l.value g.1.value then none
        else (ls.filter Layer.pinned).getLast?
      | none => none

def decidingLevel (bound : List BoundRevision) (ctx : DeviceContext) (f : PolicyFieldId) :
    Option TargetLevel :=
  (decidingLayer f (fieldLayers bound ctx f all)).bind fun l => l.origin.level

section Origin

variable {bound : List BoundRevision} {ctx : DeviceContext} {f : PolicyFieldId}
  {init : List (Layer FieldValue FieldProvenance)}
  {l : Layer FieldValue FieldProvenance}

theorem accepted_last_accumulate (h : fieldLayers bound ctx f all = init ++ [l])
    (hacc : f.isAccumulate) : (accepted (isAtLeastAsStrict f) (combineField f)
      (run (isAtLeastAsStrict f) (combineField f) Acc.start init) l).origin = l.origin := by
  obtain ⟨level, hl, rfl⟩ := fieldLayers_split_inv h
  rcases accepted_cases (isAtLeastAsStrict f) (combineField f)
    (fieldRun bound ctx f (beforeLevel level)) l with ⟨heq, -⟩ | ⟨hfl, hfail⟩
  · exact congrArg Slot.origin heq
  · exact absurd ((accumulated_strict hacc hl hfl).symm.trans hfail) (by decide)

theorem inCharge_concat_unpinned (hp : l.pinned = false) :
    inCharge (isAtLeastAsStrict f) (init ++ [l]) =
      (inCharge (isAtLeastAsStrict f) init).map fun h => (h.1, h.2 ++ [l]) := by
  rw [inCharge_concat, takeCharge, hp]
  rfl

theorem accepted_last_override (hacc : f.isAccumulate = false) (hp : l.pinned = false) :
    some (accepted (isAtLeastAsStrict f) override
      (run (isAtLeastAsStrict f) override Acc.start init) l).origin =
      match decidingLayer f (init ++ [l]) with
      | some d => d.pin
      | none => some l.origin := by
  have hvalue := run_floor_value (isAtLeastAsStrict f) init
  have horigin : (run (isAtLeastAsStrict f) override Acc.start
      init).floor.map Slot.origin = _ := run_floor_origin init
  have hfilter : (init ++ [l]).filter Layer.pinned = init.filter Layer.pinned := by simp [hp]
  simp only [decidingLayer, getLast?_concat, hp, hacc, Bool.false_eq_true, if_false,
    inCharge_concat_unpinned hp, hfilter, accepted]
  cases hf : (run (isAtLeastAsStrict f) override Acc.start init).floor with
  | none =>
    rw [hf] at hvalue
    rw [Option.map_eq_none_iff.mp hvalue.symm]
    rfl
  | some fl =>
    rw [hf] at hvalue horigin
    obtain ⟨g, hg, hval⟩ := Option.map_eq_some_iff.mp hvalue.symm
    obtain ⟨d, hd, hpin⟩ := Option.bind_eq_some_iff.mp horigin.symm
    simp only [hg, Option.map_some, hval, offer, override]
    by_cases hge : isAtLeastAsStrict f l.value fl.value = true
    · simp [hge]
    · simp [hge, hd, hpin]

theorem fieldRun_current_origin (bound : List BoundRevision) (ctx : DeviceContext)
    (f : PolicyFieldId) : (fieldRun bound ctx f all).current.map Slot.origin =
      match decidingLayer f (fieldLayers bound ctx f all) with
      | some d => d.pin
      | none => (fieldLayers bound ctx f all).getLast?.map Layer.origin := by
  rw [fieldRun]
  rcases eq_nil_or_concat (fieldLayers bound ctx f all) with hls | ⟨init, l, hls⟩
  · rw [hls]
    rfl
  · rw [concat_eq_append] at hls
    rw [hls, run_concat, step, getLast?_concat]
    cases hp : l.pin with
    | some p => simp [decidingLayer, Layer.pinned, hp]
    | none =>
      have hpinned : l.pinned = false := by
        rw [Layer.pinned, hp]
        rfl
      cases hacc : f.isAccumulate with
      | true => simp [decidingLayer, hpinned, hacc, accepted_last_accumulate hls hacc]
      | false =>
        rw [combineField_override hacc]
        exact accepted_last_override hacc hpinned

end Origin

theorem forall₂_getLast? {α : Type*} {R : α → α → Prop} {l m : List α}
    (h : List.Forall₂ R l m) : Option.Rel R l.getLast? m.getLast? := by
  induction h with
  | nil => exact Option.Rel.none
  | cons hab htail ih =>
    cases htail with
    | nil => exact Option.Rel.some hab
    | cons _ _ =>
      rw [getLast?_cons_cons, getLast?_cons_cons]
      exact ih

theorem decidingLayer_mem {d : Layer FieldValue FieldProvenance}
    (h : decidingLayer f ls = some d) : d ∈ ls ∧ d.pinned := by
  rw [decidingLayer] at h
  cases hlast : ls.getLast? with
  | none =>
    rw [hlast] at h
    cases h
  | some l =>
    rw [hlast] at h
    dsimp only at h
    split at h
    · next hpinned =>
      rw [← Option.some.inj h]
      exact ⟨mem_of_getLast? hlast, hpinned⟩
    · split at h
      · cases h
      · split at h
        · split at h
          · cases h
          · exact mem_filter.mp (mem_of_getLast? h)
        · cases h

theorem inCharge_value_alike (f : PolicyFieldId)
    {ms : List (Layer FieldValue FieldProvenance)} (h : List.Forall₂ Alike ls ms) :
    (inCharge (isAtLeastAsStrict f) ls).map (fun g => g.1.value) =
      (inCharge (isAtLeastAsStrict f) ms).map fun g => g.1.value := by
  rw [← run_floor_value, ← run_floor_value]
  exact (SameValues.run h ⟨rfl, rfl⟩).floor

theorem decidingLayer_sameLevel {C : Prop} (hC : f.isAccumulate = false → C)
    {ms : List (Layer FieldValue FieldProvenance)} (h : List.Forall₂ (SameLevel C) ls ms) :
    Option.Rel (SameLevel C) (decidingLayer f ls) (decidingLayer f ms) := by
  have hlast := forall₂_getLast? h
  rw [decidingLayer, decidingLayer]
  generalize ls.getLast? = o at hlast
  generalize ms.getLast? = o' at hlast
  cases hlast with
  | none => exact .none
  | some hlm =>
    rename_i l m
    dsimp only
    rw [← hlm.pinned]
    cases hp : l.pinned with
    | true => exact .some hlm
    | false =>
      simp only [Bool.false_eq_true, if_false]
      cases hacc : f.isAccumulate with
      | true => exact .none
      | false =>
        simp only [Bool.false_eq_true, if_false]
        have halike : List.Forall₂ Alike ls ms :=
          h.imp fun _ _ hab => ⟨hab.value (hC hacc), hab.origin, hab.pinned⟩
        have hcharge := inCharge_value_alike f halike
        have hpins : Option.Rel (SameLevel C) (ls.filter Layer.pinned).getLast?
            (ms.filter Layer.pinned).getLast? := by
          apply forall₂_getLast?
          refine rel_filter (fun a b hab => ?_) h
          show a.pinned = true ↔ b.pinned = true
          rw [hab.pinned]
        rw [← hlm.value (hC hacc)]
        cases hg : inCharge (isAtLeastAsStrict f) ls with
        | none =>
          rw [hg] at hcharge
          rw [Option.map_eq_none_iff.mp hcharge.symm]
          exact .none
        | some g =>
          rw [hg] at hcharge
          obtain ⟨g', hg', hval⟩ := Option.map_eq_some_iff.mp hcharge.symm
          rw [hg']
          dsimp only at hval ⊢
          rw [hval]
          split
          · exact .none
          · exact hpins

theorem decidingLevel_perm (hperm : bound.Perm bound') (hids : (bound.map BoundRevision.id).Nodup)
    (ctx : DeviceContext) (f : PolicyFieldId) :
    decidingLevel bound ctx f = decidingLevel bound' ctx f := by
  have hf : f.isAccumulate = false → f ≠ .sensorsRequiredSignals := by
    rintro hacc rfl
    cases hacc
  have hlayer := SameLevel.map_origin (decidingLayer_sameLevel (fun hacc => .inr (hf hacc))
    (fieldLayers_sameLevel hperm hids ctx f all))
  simpa [decidingLevel, Option.bind_map] using congrArg (Option.bind · FieldProvenance.level) hlayer

theorem fieldLayers_mem {levels : List TargetLevel} {d : Layer FieldValue FieldProvenance}
    (h : d ∈ fieldLayers bound ctx f levels) :
    ∃ level, fieldLayer (levelBindings bound ctx level) f level = some d ∧
      d.origin.level = some level := by
  obtain ⟨level, -, hd⟩ := mem_filterMap.mp h
  obtain ⟨-, -, -, -, -, horigin⟩ := fieldLayer_cons hd
  exact ⟨level, hd, horigin⟩

theorem current_of_deciding {level : TargetLevel} (h : decidingLevel bound ctx f = some level) :
    ∃ b, lastPin (levelBindings bound ctx level) f = some b ∧
      (fieldRun bound ctx f all).current.map Slot.origin = some (pinProvenance level b) := by
  obtain ⟨d, hd, hlevel⟩ := Option.bind_eq_some_iff.mp h
  obtain ⟨hmem, hpinned⟩ := decidingLayer_mem hd
  obtain ⟨m, hm, hmlevel⟩ := fieldLayers_mem hmem
  obtain rfl : m = level := Option.some.inj (hmlevel.symm.trans hlevel)
  obtain ⟨-, -, -, -, hpin, -⟩ := fieldLayer_cons hm
  rw [Layer.pinned, hpin, Option.isSome_map] at hpinned
  obtain ⟨b, hb⟩ := Option.isSome_iff_exists.mp hpinned
  refine ⟨b, hb, ?_⟩
  rw [fieldRun_current_origin, hd]
  exact hpin.trans (congrArg _ hb)

theorem decidingLayer_none (h : decidingLevel bound ctx f = none) :
    decidingLayer f (fieldLayers bound ctx f all) = none := by
  cases hd : decidingLayer f (fieldLayers bound ctx f all) with
  | none => rfl
  | some d =>
    obtain ⟨m, -, hm⟩ := fieldLayers_mem (decidingLayer_mem hd).1
    rw [decidingLevel, hd, Option.bind_some, hm] at h
    cases h

theorem resolve_provenance (bound : List BoundRevision) (ctx : DeviceContext)
    (hf : f ∈ PolicyFieldId.all) {origin : FieldProvenance}
    (h : (fieldRun bound ctx f all).current.map Slot.origin = some origin) :
    (resolve bound ctx).1.provenance.get? f = some origin := by
  obtain ⟨c, hc, rfl⟩ := Option.map_eq_some_iff.mp h
  have hcurrent : (stateAfter bound ctx all).current.get? f = some c := by
    rw [← hc, ← entries_stateAfter bound ctx hf]
    rfl
  rw [resolve_fst, ResolveState.finish]
  dsimp only
  have hkeys : ((PolicyFieldId.all.map fun g =>
      (g, provenanceOf (stateAfter bound ctx all).current g)).map Prod.fst).Nodup := by
    rw [map_map]
    exact (by decide : PolicyFieldId.all.Nodup).map fun _ _ h => h
  rw [OrdMap.get?_ofList hkeys]
  refine mem_map.mpr ⟨f, hf, ?_⟩
  rw [provenanceOf, hcurrent]

def FieldProvenance.reference : FieldProvenance → Option PolicyRevisionRef
  | .baseline => none
  | .layer _ _ r => some r
  | .pinned _ _ r => some r

def contribute (refs : List PolicyRevisionRef) (origin : Option FieldProvenance) :
    List PolicyRevisionRef :=
  match origin.bind FieldProvenance.reference with
  | some r => if refs.contains r then refs else refs ++ [r]
  | none => refs

variable (level : TargetLevel)

theorem contributing_resolveField (bs : List BoundRevision) (s : ResolveState) (f : PolicyFieldId) :
    (resolveField level bs s f).contributing =
      contribute s.contributing ((fieldLayer bs f level).map Layer.origin) := by
  rw [resolveField, fieldLayer]
  cases fieldCandidates bs f with
  | nil => rfl
  | cons first rest =>
    dsimp only
    rw [(foldl_recordPin_keeps _ _ _ _ _).2]
    rfl

theorem contributing_foldl_resolveField (bs : List BoundRevision) (fs : List PolicyFieldId)
    (s : ResolveState) : (fs.foldl (resolveField level bs) s).contributing =
      fs.foldl (fun refs f => contribute refs ((fieldLayer bs f level).map Layer.origin))
        s.contributing :=
  (foldl_hom ResolveState.contributing
    fun s f => (contributing_resolveField level bs s f).symm).symm

theorem contributing_perm (hperm : bound.Perm bound') (hids : (bound.map BoundRevision.id).Nodup)
    (ctx : DeviceContext) (levels : List TargetLevel) :
    (stateAfter bound ctx levels).contributing = (stateAfter bound' ctx levels).contributing := by
  induction levels using reverseRecOn with
  | nil => rfl
  | append_singleton levels level ih =>
    rw [stateAfter_concat, stateAfter_concat, contributing_foldl_resolveField,
      contributing_foldl_resolveField, ih]
    have horigin (f : PolicyFieldId) := SameLevel.map_origin
      (fieldLayer_perm (f := f) (levelBindings_perm hperm ctx level)
        (levelBindings_ids hids ctx level) level False.elim)
    simp only [horigin]

theorem finish_congr {s t : ResolveState}
    (hcurrent : ∀ f ∈ PolicyFieldId.all, s.current.get? f = t.current.get? f)
    (hcontributing : s.contributing = t.contributing) : s.finish = t.finish := by
  have hvalues (values : ResolvedValues) : PolicyFieldId.all.foldl (writeField s.current) values =
      PolicyFieldId.all.foldl (writeField t.current) values :=
    foldl_ext _ _ _ fun values f hf => by rw [writeField, writeField, hcurrent f hf]
  have hprov : PolicyFieldId.all.map (fun f => (f, provenanceOf s.current f)) =
      PolicyFieldId.all.map fun f => (f, provenanceOf t.current f) := by
    refine map_congr_left fun f hf => ?_
    rw [provenanceOf, provenanceOf, hcurrent f hf]
  rw [ResolveState.finish, ResolveState.finish, hvalues, hprov, hcontributing]

/-- At the level whose pin is recorded for a field, one binding pins it. -/
def PinsDecidedOnce (bound : List BoundRevision) (ctx : DeviceContext) : Prop :=
  ∀ f ∈ PolicyFieldId.all, ∀ level, decidingLevel bound ctx f = some level →
    ((levelBindings bound ctx level).filter fun b => b.pins f).length ≤ 1

theorem eq_of_perm_of_length_le_one {α : Type*} {l m : List α} (h : l.Perm m)
    (hl : l.length ≤ 1) : l = m := by
  cases l with
  | nil => exact (nil_perm.mp h).symm
  | cons a rest =>
    have hrest : rest = [] := length_eq_zero_iff.mp (by simpa using hl)
    rw [hrest] at h ⊢
    exact singleton_perm.mp h

section OrderFree

variable {bound bound' : List BoundRevision} (hperm : bound.Perm bound')
  (hids : (bound.map BoundRevision.id).Nodup) {ctx : DeviceContext}
  (honce : PinsDecidedOnce bound ctx)

include hperm hids honce

theorem current_origin_perm {f : PolicyFieldId} (hf : f ∈ PolicyFieldId.all) :
    (fieldRun bound ctx f all).current.map Slot.origin =
      (fieldRun bound' ctx f all).current.map Slot.origin := by
  have hlevel := decidingLevel_perm hperm hids ctx f
  cases hd : decidingLevel bound ctx f with
  | some level =>
    rw [hd] at hlevel
    obtain ⟨b, hb, ho⟩ := current_of_deciding hd
    obtain ⟨b', hb', ho'⟩ := current_of_deciding hlevel.symm
    have hpins := eq_of_perm_of_length_le_one
      ((levelBindings_perm hperm ctx level).filter fun b => b.pins f) (honce f hf level hd)
    rw [lastPin, hpins] at hb
    rw [ho, ho', Option.some.inj (hb.symm.trans hb')]
  | none =>
    rw [hd] at hlevel
    rw [fieldRun_current_origin, fieldRun_current_origin, decidingLayer_none hd,
      decidingLayer_none hlevel.symm]
    exact SameLevel.map_origin (forall₂_getLast? (fieldLayers_sameLevel hperm hids ctx f all))

theorem fieldRun_current_perm (hsignals : SignalsCommute bound ctx) {f : PolicyFieldId}
    (hf : f ∈ PolicyFieldId.all) : (fieldRun bound ctx f all).current =
      (fieldRun bound' ctx f all).current := by
  have hvalues : SameValues (fieldRun bound ctx f all) (fieldRun bound' ctx f all) :=
    SameValues.run
      (fieldLayers_alike hperm hids ctx f (Or.inl hsignals) all) ⟨rfl, rfl⟩
  have hvalue := hvalues.current
  have horigin := current_origin_perm hperm hids honce hf
  generalize (fieldRun bound ctx f all).current = slot at hvalue horigin ⊢
  generalize (fieldRun bound' ctx f all).current = slot' at hvalue horigin ⊢
  rcases slot with _ | ⟨v, o⟩ <;> rcases slot' with _ | ⟨v', o'⟩ <;> simp_all

theorem resolve_perm (hsignals : SignalsCommute bound ctx) :
    (resolve bound' ctx).1 = (resolve bound ctx).1 := by
  rw [resolve_fst, resolve_fst]
  refine (finish_congr ?_ (contributing_perm hperm hids ctx _)).symm
  intro f hf
  have hcurrent := fieldRun_current_perm hperm hids honce hsignals hf
  rw [← entries_stateAfter bound ctx hf, ← entries_stateAfter bound' ctx hf] at hcurrent
  exact hcurrent

end OrderFree

theorem lastPin_of_last {b : BoundRevision} {level : TargetLevel}
    (hb : b ∈ levelBindings bs ctx level) (hpin : b.pins f) (rest : List BoundRevision) :
    lastPin (levelBindings (rest ++ [b]) ctx level) f = some b := by
  obtain ⟨happ, hlevel⟩ := mem_filter.mp hb
  have happlies : b.applies ctx := (mem_filter.mp happ).2
  have hsplit : levelBindings (rest ++ [b]) ctx level = levelBindings rest ctx level ++ [b] := by
    rw [levelBindings, applicable, filter_append, filter_append]
    simp [happlies, hlevel, levelBindings, applicable]
  rw [hsplit, lastPin_concat, if_pos hpin]

theorem pinsDecidedOnce_of_orderFree (hids : (bound.map BoundRevision.id).Nodup)
    (h : ∀ bound', bound.Perm bound' → (resolve bound' ctx).1 = (resolve bound ctx).1) :
    PinsDecidedOnce bound ctx := by
  intro f hf level hd
  by_contra hlen
  obtain ⟨b₀, hb₀, ho⟩ := current_of_deciding hd
  obtain ⟨others, hothers⟩ := getLast?_eq_some_iff.mp hb₀
  have hne : others ≠ [] := by
    intro hnil
    rw [hothers, hnil] at hlen
    exact hlen (by simp)
  obtain ⟨b, hb⟩ := exists_mem_of_ne_nil others hne
  have hbfilter : b ∈ (levelBindings bound ctx level).filter fun b => b.pins f := by
    rw [hothers]
    exact mem_append_left _ hb
  obtain ⟨hblevel, hbpin⟩ := mem_filter.mp hbfilter
  have hbound : b ∈ bound := (mem_filter.mp (mem_filter.mp hblevel).1).1
  have hperm : bound.Perm (bound.erase b ++ [b]) :=
    (perm_cons_erase hbound).trans (perm_append_singleton b _).symm
  have hd' := hd
  rw [decidingLevel_perm hperm hids ctx f] at hd'
  obtain ⟨b', hb', ho'⟩ := current_of_deciding hd'
  rw [lastPin_of_last hblevel hbpin] at hb'
  -- equal results record equal pins
  have hprov := resolve_provenance bound ctx hf ho
  have hprov' := resolve_provenance (bound.erase b ++ [b]) ctx hf ho'
  rw [h _ hperm] at hprov'
  have horigin := Option.some.inj (hprov.symm.trans hprov')
  rw [← Option.some.inj hb'] at horigin
  have hid : b₀.id = b.id := by
    injection horigin
  have hnodup : (((levelBindings bound ctx level).filter fun b => b.pins f).map
      BoundRevision.id).Nodup :=
    ((filter_sublist).map _).nodup (levelBindings_ids hids ctx level)
  rw [hothers, map_append, nodup_append] at hnodup
  exact hnodup.2.2 b.id (mem_map_of_mem hb) b₀.id (by simp) hid.symm

/-- The result is free of the order of its input only if the recorded pins are
unambiguous, and it is free of the order if required signals also commute. -/
theorem resolve_order_free_iff (bound : List BoundRevision)
    (hids : (bound.map BoundRevision.id).Nodup) (ctx : DeviceContext) :
    ((∀ bound', bound.Perm bound' → (resolve bound' ctx).1 = (resolve bound ctx).1) →
      PinsDecidedOnce bound ctx) ∧
    (SignalsCommute bound ctx →
      ((∀ bound', bound.Perm bound' → (resolve bound' ctx).1 = (resolve bound ctx).1) ↔
        PinsDecidedOnce bound ctx)) := by
  refine ⟨pinsDecidedOnce_of_orderFree hids, fun hsignals => ⟨?_, ?_⟩⟩
  · exact pinsDecidedOnce_of_orderFree hids
  · intro honce bound' hperm
    exact resolve_perm hperm hids honce hsignals

def orgContentPinAgain : BoundRevision := orgContentPinOf 2

/-- Two bindings of one level pin the same value: the last one is recorded. -/
theorem pin_provenance_follows_order :
    ¬ ∀ (bound bound' : List BoundRevision) (ctx : DeviceContext),
      (bound.map BoundRevision.id).Nodup → bound.Perm bound' →
      (resolve bound' ctx).1 = (resolve bound ctx).1 := by
  intro h
  have heq := h [orgContentPin, orgContentPinAgain] [orgContentPinAgain, orgContentPin] orgDevice
    (by decide) (List.Perm.swap _ _ _)
  have hne : ¬ (resolve [orgContentPinAgain, orgContentPin] orgDevice).1.provenance.get?
        .egressAllowedContent =
      (resolve [orgContentPin, orgContentPinAgain] orgDevice).1.provenance.get?
        .egressAllowedContent := by decide
  exact hne (by rw [heq])

theorem pinsDecidedOnce_contentPins :
    PinsDecidedOnce [orgContentPin, teamContentPin] orgDevice := by
  have hlevels : ∀ f ∈ PolicyFieldId.all, ∀ level ∈ TargetLevel.all,
      decidingLevel [orgContentPin, teamContentPin] orgDevice f = some level →
      ((levelBindings [orgContentPin, teamContentPin] orgDevice level).filter
        fun b => b.pins f).length ≤ 1 := by decide
  intro f hf level hd
  exact hlevels f hf level (by cases level <;> decide) hd

theorem signalsCommute_contentPins : SignalsCommute [orgContentPin, teamContentPin] orgDevice := by
  have hnone : ∀ b ∈ applicable [orgContentPin, teamContentPin] orgDevice,
      b.revision.body.content.requiredSignals = none := by decide
  intro b hb c _ _ x y hx
  rw [hnone b hb] at hx
  cases hx

theorem resolve_order_free_contentPins :
    PinsDecidedOnce [orgContentPin, teamContentPin] orgDevice ∧
      SignalsCommute [orgContentPin, teamContentPin] orgDevice ∧
      ∀ bound', [orgContentPin, teamContentPin].Perm bound' →
        (resolve bound' orgDevice).1 = (resolve [orgContentPin, teamContentPin] orgDevice).1 :=
  ⟨pinsDecidedOnce_contentPins, signalsCommute_contentPins,
    ((resolve_order_free_iff [orgContentPin, teamContentPin] (by decide) orgDevice).2
      signalsCommute_contentPins).mpr pinsDecidedOnce_contentPins⟩

end Fornax
