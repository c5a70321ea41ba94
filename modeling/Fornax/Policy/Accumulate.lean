import Fornax.Policy.Pins

namespace Fornax

open List Layers OrdSet TargetLevel PolicyFieldId

/-- The sensors that a value disables and the signal classes that it requires. -/
def FieldValue.Holds : FieldValue → String ⊕ SignalClass → Prop
  | .sensorsDisabled s, .inl k => s.contains k = true
  | .requiredSignals l, .inr c => c ∈ l
  | _, _ => False

variable {f : PolicyFieldId} {bs : List BoundRevision} (hf : f.isAccumulate)
  (x : String ⊕ SignalClass) {bound : List BoundRevision} {ctx : DeviceContext}

include hf

theorem meetField_holds {a b : FieldValue} (ha : Fits f a) (hb : Fits f b) :
    (meetField f a b).Holds x ↔ a.Holds x ∨ b.Holds x := by
  cases ha <;> cases hb <;> cases hf
  case sensorsDisabled s t =>
    cases x with
    | inl k => exact contains_union s t k
    | inr c => simp [FieldValue.Holds, meetField]
  case requiredSignals l m =>
    cases x with
    | inl k => simp [FieldValue.Holds, meetField]
    | inr c => exact mem_unionSignalClasses

theorem combineField_holds {prev : Option FieldValue} {v : FieldValue}
    (hprev : ∀ p, prev = some p → Fits f p) (hv : Fits f v) :
    (combineField f prev v).Holds x ↔ (∃ p, prev = some p ∧ p.Holds x) ∨ v.Holds x := by
  unfold combineField
  rw [if_pos hf]
  cases prev with
  | none => simp
  | some p => simpa using meetField_holds hf x (hprev p rfl) hv

theorem mergedValue_holds {first : FieldCandidate} {rest : List FieldCandidate}
    (h : ∀ c ∈ first :: rest, Fits f c.value) :
    (mergedValue f first rest).Holds x ↔ ∃ c ∈ first :: rest, c.value.Holds x := by
  induction rest using reverseRecOn with
  | nil => simp [mergedValue]
  | append_singleton rest c ih =>
    rw [← cons_append, forall_mem_append] at h
    have hstep : mergedValue f first (rest ++ [c]) =
        meetField f (mergedValue f first rest) c.value := foldl_concat ..
    rw [hstep, meetField_holds hf x (mergedValue_fits h.1) (h.2 c mem_cons_self), ih h.1,
      ← cons_append]
    simp only [mem_append, mem_singleton, or_and_right, exists_or, exists_eq_left]

theorem exists_fieldLayer_iff (level : TargetLevel) :
    (∃ l, fieldLayer bs f level = some l ∧ l.value.Holds x) ↔
      ∃ b ∈ bs, ∃ v, b.field f = some v ∧ v.Holds x := by
  have hcandidates : (∃ c ∈ fieldCandidates bs f, c.value.Holds x) ↔
      ∃ b ∈ bs, ∃ v, b.field f = some v ∧ v.Holds x := by
    simp only [fieldCandidates, mem_filterMap, Option.map_eq_some_iff]
    constructor
    · rintro ⟨c, ⟨b, hb, v, hv, rfl⟩, hx⟩
      exact ⟨b, hb, v, hv, hx⟩
    · rintro ⟨b, hb, v, hv, hx⟩
      exact ⟨_, ⟨b, hb, v, hv, rfl⟩, hx⟩
  rw [← hcandidates, fieldLayer]
  cases hc : fieldCandidates bs f with
  | nil => simp
  | cons first rest =>
    have hfits : ∀ c ∈ first :: rest, Fits f c.value := hc ▸ fun c => fieldCandidate_fits
    rw [← mergedValue_holds hf x hfits]
    simp

theorem current_holds_iff {init rest : List (Layer FieldValue FieldProvenance)}
    (hsplit : fieldLayers bound ctx f all = init ++ rest) :
    (∃ c, (run (isAtLeastAsStrict f) (combineField f) Acc.start init).current = some c ∧
      c.value.Holds x) ↔ ∃ l ∈ init, l.value.Holds x := by
  induction init using reverseRecOn generalizing rest with
  | nil => simp [run, Acc.start]
  | append_singleton init l ih =>
    rw [append_assoc, singleton_append] at hsplit
    obtain ⟨level, hl, hinit⟩ := fieldLayers_split_inv hsplit
    have hfits := fieldRun_fits bound ctx f (beforeLevel level)
    have hpass := @accumulated_strict _ _ _ _ _ hf hl
    rw [fieldRun, hinit] at hfits hpass
    have hold := ih hsplit
    rw [run_concat]
    generalize run (isAtLeastAsStrict f) (combineField f) Acc.start init = s at hfits hpass hold ⊢
    have haccepted : (accepted (isAtLeastAsStrict f) (combineField f) s l).value =
        offer (combineField f) s l := by
      rcases accepted_cases (isAtLeastAsStrict f) (combineField f) s l with ⟨heq, -⟩ | ⟨hfl, hfail⟩
      · rw [heq]
      · exact absurd ((hpass hfl).symm.trans hfail) (by decide)
    obtain ⟨o, ho⟩ := step_current (isAtLeastAsStrict f) (combineField f) s l
    have hprev : ∀ p, s.current.map Slot.value = some p → Fits f p := by
      intro p hp
      obtain ⟨c, hc, rfl⟩ := Option.map_eq_some_iff.mp hp
      exact hfits.2 c hc
    rw [ho, haccepted]
    simp only [Option.some.injEq, exists_eq_left', offer, mem_append, mem_singleton, or_and_right,
      exists_or, exists_eq_left, ← hold, combineField_holds hf x hprev (fieldLayer_fits hl),
      Option.map_eq_some_iff, exists_exists_and_eq_and]

theorem inForce_fieldRun_iff :
    (∃ c, (fieldRun bound ctx f all).current = some c ∧ c.value.Holds x) ↔
      ∃ b ∈ applicable bound ctx, ∃ v, b.field f = some v ∧ v.Holds x := by
  rw [fieldRun, current_holds_iff hf x (append_nil _).symm]
  simp only [fieldLayers, mem_filterMap]
  constructor
  · rintro ⟨l, ⟨level, -, hl⟩, hx⟩
    obtain ⟨b, hb, hv⟩ := (exists_fieldLayer_iff hf x level).mp ⟨l, hl, hx⟩
    exact ⟨b, (mem_filter.mp hb).1, hv⟩
  · rintro ⟨b, hb, hv⟩
    obtain ⟨l, hl, hx⟩ := (exists_fieldLayer_iff hf x b.level).mpr ⟨b, mem_levelBindings hb, hv⟩
    exact ⟨l, ⟨b.level, by cases b.level <;> decide, hl⟩, hx⟩

theorem resolve_holds_iff (hall : f ∈ PolicyFieldId.all)
    (hbase : ∀ v, PolicyContent.baseline.field f = some v → ¬ v.Holds x) :
    (∃ v, (resolve bound ctx).1.values.field f = some v ∧ v.Holds x) ↔
      ∃ b ∈ applicable bound ctx, ∃ v, b.field f = some v ∧ v.Holds x := by
  rw [← inForce_fieldRun_iff hf, resolve_field bound ctx hall]
  cases (fieldRun bound ctx f all).current with
  | none => simpa using hbase
  | some c => simp

omit hf

theorem sensors_accumulate (bound : List BoundRevision) (ctx : DeviceContext) :
    (∀ k, (resolve bound ctx).1.values.sensorsDisabled.contains k = true ↔
      ∃ b ∈ applicable bound ctx, ∃ s,
        b.revision.body.content.sensorsDisabled = some s ∧ s.contains k = true) ∧
    ∀ c, c ∈ (resolve bound ctx).1.values.sensorsRequiredSignals ↔
      ∃ b ∈ applicable bound ctx, ∃ l,
        b.revision.body.content.requiredSignals = some l ∧ c ∈ l := by
  constructor
  · intro k
    have h := @resolve_holds_iff .sensorsDisabled rfl (.inl k) bound ctx (by decide) <| by
      rintro v ⟨⟩
      simp [FieldValue.Holds, PolicyContent.baseline]
    simpa [ResolvedValues.field, FieldValue.Holds, BoundRevision.field,
      PublishedPolicyRevision.field, getField] using h
  · intro c
    have h := @resolve_holds_iff .sensorsRequiredSignals rfl (.inr c) bound ctx (by decide) <| by
      rintro v ⟨⟩
      simp [FieldValue.Holds, PolicyContent.baseline]
    simpa [ResolvedValues.field, FieldValue.Holds, BoundRevision.field,
      PublishedPolicyRevision.field, getField, normalizeSignalClasses,
      SortDedup.mem_sortDedup] using h

end Fornax
