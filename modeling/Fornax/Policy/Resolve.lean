import Fornax.Lib.Layers
import Fornax.Lib.Runs
import Fornax.Policy.Strictness
import Fornax.Policy.Target

namespace Fornax

open List Layers OrdMap TargetLevel PolicyFieldId

inductive FieldProvenance
  | baseline
  | layer (level : TargetLevel) (bindingId : Uuid) (revision : PolicyRevisionRef)
  | pinned (level : TargetLevel) (bindingId : Uuid) (revision : PolicyRevisionRef)
  deriving DecidableEq, Repr

def FieldProvenance.level : FieldProvenance → Option TargetLevel
  | .baseline => none
  | .layer l _ _ => some l
  | .pinned l _ _ => some l

structure ResolvedPolicy where
  values : ResolvedValues
  provenance : OrdMap PolicyFieldId FieldProvenance
  contributing : List PolicyRevisionRef
  deriving DecidableEq

abbrev FieldSlot := Slot FieldValue FieldProvenance

structure ResolveState where
  floors : OrdMap PolicyFieldId FieldSlot
  current : OrdMap PolicyFieldId FieldSlot
  contributing : List PolicyRevisionRef
  diagnostics : List PolicyDiagnostic

structure FieldCandidate where
  value : FieldValue
  bindingId : Uuid
  reference : PolicyRevisionRef
  deriving DecidableEq

def fieldCandidates (bindings : List BoundRevision) (f : PolicyFieldId) : List FieldCandidate :=
  bindings.filterMap fun b => (b.field f).map fun v => ⟨v, b.id, b.reference⟩

def mergedValue (f : PolicyFieldId) (first : FieldCandidate) (rest : List FieldCandidate) :
    FieldValue :=
  rest.foldl (fun m c => meetField f m c.value) first.value

def representative (first : FieldCandidate) (rest : List FieldCandidate) : FieldCandidate :=
  rest.foldl (fun r c => if c.bindingId < r.bindingId then c else r) first

def combineField (f : PolicyFieldId) (prev : Option FieldValue) (merged : FieldValue) :
    FieldValue :=
  if f.isAccumulate then
    match prev with
    | some v => meetField f v merged
    | none => merged
  else merged

def conflictingBindingsAtLevel (level : TargetLevel) (f : PolicyFieldId)
    (cs : List FieldCandidate) : PolicyDiagnostic :=
  ((PolicyDiagnostic.new .conflictingBindingsAtLevel .error
    ("multiple bindings at " ++ level.debug ++ " set " ++ f.debug ++ " to differing values")
    ("republish a single binding at this level for this field, or move the exception to a " ++
      "more specific level")).withField f).withBindings (cs.map fun c => c.bindingId)
    |>.withRevisions (cs.map fun c => c.reference)

def debugLevel : Option TargetLevel → String
  | some l => "Some(" ++ l.debug ++ ")"
  | none => "None"

def pinViolation (level : TargetLevel) (f : PolicyFieldId) (floor : FieldSlot)
    (rep : FieldCandidate) : PolicyDiagnostic :=
  ((PolicyDiagnostic.new .pinViolation .error
    (f.debug ++ " pinned at " ++ debugLevel floor.origin.level ++ " cannot be loosened at " ++
      level.debug)
    "remove the conflicting override, or tighten it to at least the pinned value").withField
    f).withBindings [rep.bindingId] |>.withRevisions [rep.reference]

def acceptField (level : TargetLevel) (f : PolicyFieldId) (floor : Option FieldSlot)
    (value : FieldValue) (rep : FieldCandidate) : FieldSlot × List PolicyDiagnostic :=
  match floor with
  | some fl =>
    if isAtLeastAsStrict f value fl.value then
      (⟨value, .layer level rep.bindingId rep.reference⟩, [])
    else (fl, [pinViolation level f fl rep])
  | none => (⟨value, .layer level rep.bindingId rep.reference⟩, [])

def pinProvenance (level : TargetLevel) (b : BoundRevision) : FieldProvenance :=
  .pinned level b.id b.reference

def recordPin (level : TargetLevel) (f : PolicyFieldId) (value : FieldValue) (s : ResolveState)
    (b : BoundRevision) : ResolveState :=
  if b.pins f then
    { s with
      floors := s.floors.insert f ⟨value, pinProvenance level b⟩
      current := match s.current.get? f with
        | some entry => s.current.insert f ⟨entry.value, pinProvenance level b⟩
        | none => s.current }
  else s

def resolveField (level : TargetLevel) (bindings : List BoundRevision) (s : ResolveState)
    (f : PolicyFieldId) : ResolveState :=
  match fieldCandidates bindings f with
  | [] => s
  | first :: rest =>
    let differing := (first :: rest).any fun c => decide (c.value ≠ first.value)
    let merged := mergedValue f first rest
    let rep := representative first (first :: rest)
    let conflict := if differing then [conflictingBindingsAtLevel level f (first :: rest)] else []
    let value := combineField f ((s.current.get? f).map fun e => e.value) merged
    let accepted := acceptField level f (s.floors.get? f) value rep
    let s' : ResolveState :=
      { floors := s.floors
        current := s.current.insert f accepted.1
        contributing :=
          if s.contributing.contains rep.reference then s.contributing
          else s.contributing ++ [rep.reference]
        diagnostics := s.diagnostics ++ conflict ++ accepted.2 }
    bindings.foldl (recordPin level f accepted.1.value) s'

def resolveLevel (byLevel : OrdMap TargetLevel (List BoundRevision)) (s : ResolveState)
    (level : TargetLevel) : ResolveState :=
  match byLevel.get? level with
  | some bindings => all.foldl (resolveField level bindings) s
  | none => s

def infoNoApplicablePolicy : PolicyDiagnostic :=
  PolicyDiagnostic.new .noApplicablePolicy .info
    "no policy binding applies to this device; using baseline defaults"
    ("publish a binding that targets this org/team/project/device, or accept baseline " ++
      "defaults")

def selectDiagnostics (bound : List BoundRevision) (ctx : DeviceContext) :
    List PolicyDiagnostic :=
  bound.flatMap fun b => (b.binding.matches ctx).2

def applicable (bound : List BoundRevision) (ctx : DeviceContext) : List BoundRevision :=
  bound.filter fun b => b.applies ctx

def groupLevels (bs : List BoundRevision) : OrdMap TargetLevel (List BoundRevision) :=
  groupBy (fun b => some b.level) id bs

def stateAfter (bound : List BoundRevision) (ctx : DeviceContext) (levels : List TargetLevel) :
    ResolveState :=
  levels.foldl (resolveLevel (groupLevels (applicable bound ctx)))
    ⟨empty, empty, [], selectDiagnostics bound ctx⟩

def writeField (current : OrdMap PolicyFieldId FieldSlot) (values : ResolvedValues)
    (f : PolicyFieldId) : ResolvedValues :=
  match current.get? f with
  | some e => applyFieldToResolved values f e.value
  | none => values

def provenanceOf (current : OrdMap PolicyFieldId FieldSlot) (f : PolicyFieldId) :
    FieldProvenance :=
  match current.get? f with
  | some e => e.origin
  | none => .baseline

def ResolveState.finish (s : ResolveState) : ResolvedPolicy where
  values := all.foldl (writeField s.current) PolicyContent.baseline
  provenance := ofList (all.map fun f => (f, provenanceOf s.current f))
  contributing := s.contributing

def resolve (bound : List BoundRevision) (ctx : DeviceContext) :
    ResolvedPolicy × List PolicyDiagnostic :=
  if (applicable bound ctx).isEmpty then
    (⟨PolicyContent.baseline, ofList (all.map fun f => (f, FieldProvenance.baseline)), []⟩,
      selectDiagnostics bound ctx ++ [infoNoApplicablePolicy])
  else
    let s := stateAfter bound ctx all
    (s.finish, s.diagnostics)

def levelBindings (bound : List BoundRevision) (ctx : DeviceContext) (level : TargetLevel) :
    List BoundRevision :=
  (applicable bound ctx).filter fun b => b.level == level

def lastPin (bindings : List BoundRevision) (f : PolicyFieldId) : Option BoundRevision :=
  (bindings.filter fun b => b.pins f).getLast?

def fieldLayer (bindings : List BoundRevision) (f : PolicyFieldId) (level : TargetLevel) :
    Option (Layer FieldValue FieldProvenance) :=
  match fieldCandidates bindings f with
  | [] => none
  | first :: rest =>
    let rep := representative first (first :: rest)
    some ⟨mergedValue f first rest, .layer level rep.bindingId rep.reference,
      (lastPin bindings f).map (pinProvenance level)⟩

def fieldLayers (bound : List BoundRevision) (ctx : DeviceContext) (f : PolicyFieldId)
    (levels : List TargetLevel) : List (Layer FieldValue FieldProvenance) :=
  levels.filterMap fun level => fieldLayer (levelBindings bound ctx level) f level

def ResolveState.entries (s : ResolveState) (f : PolicyFieldId) :
    Acc FieldValue FieldProvenance :=
  ⟨s.floors.get? f, s.current.get? f⟩

def layerStep (f : PolicyFieldId) (acc : Acc FieldValue FieldProvenance)
    (layer : Option (Layer FieldValue FieldProvenance)) :
    Acc FieldValue FieldProvenance :=
  match layer with
  | some l => step (isAtLeastAsStrict f) (combineField f) acc l
  | none => acc

def fieldRun (bound : List BoundRevision) (ctx : DeviceContext) (f : PolicyFieldId)
    (levels : List TargetLevel) : Acc FieldValue FieldProvenance :=
  run (isAtLeastAsStrict f) (combineField f) Acc.start
    (fieldLayers bound ctx f levels)

theorem lastPin_concat (bs : List BoundRevision) (b : BoundRevision) (f : PolicyFieldId) :
    lastPin (bs ++ [b]) f = if b.pins f then some b else lastPin bs f := by
  rw [lastPin, filter_append]
  cases hb : b.pins f with
  | true => simp [hb]
  | false => simp [hb, lastPin]

variable {f g : PolicyFieldId} {bs : List BoundRevision}
  {level : TargetLevel} (bound : List BoundRevision) (ctx : DeviceContext)

theorem entries_recordPin_ne (hfg : f ≠ g) (v : FieldValue) (s : ResolveState) (b : BoundRevision) :
    (recordPin level g v s b).entries f = s.entries f := by
  rw [recordPin]
  split
  · simp only [ResolveState.entries, get?_insert_of_ne _ _ hfg]
    cases s.current.get? g with
    | none => rfl
    | some e => simp only [get?_insert_of_ne _ _ hfg]
  · rfl

theorem entries_foldl_recordPin_ne (hfg : f ≠ g) (v : FieldValue) (bs : List BoundRevision)
    (s : ResolveState) : (bs.foldl (recordPin level g v) s).entries f = s.entries f := by
  induction bs generalizing s with
  | nil => rfl
  | cons b rest ih => rw [foldl_cons, ih, entries_recordPin_ne hfg]

theorem entries_foldl_recordPin (level : TargetLevel) (f : PolicyFieldId) (bs : List BoundRevision)
    (s : ResolveState) (e : FieldSlot) (he : s.current.get? f = some e) :
    (bs.foldl (recordPin level f e.value) s).entries f = match lastPin bs f with
      | some b => ⟨some ⟨e.value, pinProvenance level b⟩, some ⟨e.value, pinProvenance level b⟩⟩
      | none => s.entries f := by
  induction bs using reverseRecOn with
  | nil => rfl
  | append_singleton bs b ih =>
    rw [foldl_append, foldl_cons, foldl_nil, lastPin_concat, recordPin]
    cases hb : b.pins f with
    | false =>
      simp only [Bool.false_eq_true, if_false]
      exact ih
    | true =>
      have hcur : ∃ o, (bs.foldl (recordPin level f e.value) s).current.get? f =
          some ⟨e.value, o⟩ := by
        have hfold := congrArg Acc.current ih
        cases hlast : lastPin bs f with
        | some c =>
          rw [hlast] at hfold
          exact ⟨_, hfold⟩
        | none =>
          rw [hlast] at hfold
          exact ⟨e.origin, hfold.trans he⟩
      obtain ⟨o, ho⟩ := hcur
      simp only [if_true, ho, ResolveState.entries, get?_insert_self]

theorem acceptField_fst (level : TargetLevel) (f : PolicyFieldId)
    (acc : Acc FieldValue FieldProvenance) (merged : FieldValue) (rep : FieldCandidate)
    (pin : Option FieldProvenance) :
    (acceptField level f acc.floor (combineField f (acc.current.map fun e => e.value) merged)
        rep).1 = accepted (isAtLeastAsStrict f) (combineField f) acc
        ⟨merged, .layer level rep.bindingId rep.reference, pin⟩ := by
  unfold acceptField accepted offer
  cases acc.floor with
  | none => rfl
  | some fl =>
    dsimp only
    split <;> rfl

theorem entries_resolveField_self (level : TargetLevel) (bs : List BoundRevision)
    (s : ResolveState) (f : PolicyFieldId) :
    (resolveField level bs s f).entries f = layerStep f (s.entries f) (fieldLayer bs f level) := by
  rw [resolveField, fieldLayer]
  cases fieldCandidates bs f with
  | nil => rfl
  | cons first rest =>
    simp only
    rw [entries_foldl_recordPin level f bs _ _ (get?_insert_self _ _ _)]
    have hacc := acceptField_fst level f (s.entries f) (mergedValue f first rest)
      (representative first (first :: rest)) ((lastPin bs f).map (pinProvenance level))
    simp only [ResolveState.entries] at hacc
    rw [layerStep, step, ResolveState.entries, ResolveState.entries, hacc]
    cases lastPin bs f with
    | none => simp only [Option.map_none, get?_insert_self]
    | some b => rfl

theorem entries_resolveField_ne (hfg : f ≠ g) (level : TargetLevel) (bs : List BoundRevision)
    (s : ResolveState) : (resolveField level bs s g).entries f = s.entries f := by
  rw [resolveField]
  cases fieldCandidates bs g with
  | nil => rfl
  | cons first rest =>
    simp only
    rw [entries_foldl_recordPin_ne hfg]
    simp only [ResolveState.entries, get?_insert_of_ne _ _ hfg]

theorem entries_foldl_resolveField (level : TargetLevel) (bs : List BoundRevision)
    (f : PolicyFieldId) (fs : List PolicyFieldId) (hnd : fs.Nodup) (s : ResolveState) :
    (fs.foldl (resolveField level bs) s).entries f =
      if f ∈ fs then layerStep f (s.entries f) (fieldLayer bs f level) else s.entries f := by
  refine Runs.view_foldl ResolveState.entries
    (fun f acc => layerStep f acc (fieldLayer bs f level)) hnd (fun s g _ f => ?_) s f
  split_ifs with hfg
  · rw [hfg, entries_resolveField_self]
  · exact entries_resolveField_ne hfg level bs s

theorem foldl_resolveField_nil (level : TargetLevel) (fs : List PolicyFieldId)
    (s : ResolveState) : fs.foldl (resolveField level []) s = s :=
  foldl_fixed fs

theorem resolveLevel_eq (bs : List BoundRevision) (s : ResolveState) (level : TargetLevel) :
    resolveLevel (groupLevels bs) s level =
      all.foldl (resolveField level (bs.filter fun b => b.level == level)) s := by
  rw [resolveLevel]
  cases hg : (groupLevels bs).get? level with
  | some vs =>
    have hvs : vs = bs.filter fun b => b.level == level := by
      rw [(get?_groupBy.mp hg).1, map_id]
      refine filter_congr fun b _ => ?_
      rw [Bool.eq_iff_iff, beq_iff_eq, beq_iff_eq, Option.some.injEq]
    rw [hvs]
  | none =>
    have hnil : (bs.filter fun b => b.level == level) = [] := by
      rw [filter_eq_nil_iff]
      intro b hb hlevel
      obtain ⟨vs, hvs, -⟩ : ∃ vs, (groupLevels bs).get? level = some vs ∧ id b ∈ vs :=
        exists_bucket hb (congrArg some (eq_of_beq hlevel))
      rw [hvs] at hg
      cases hg
    rw [hnil, foldl_resolveField_nil]

theorem stateAfter_concat (levels : List TargetLevel) (level : TargetLevel) :
    stateAfter bound ctx (levels ++ [level]) =
      all.foldl (resolveField level (levelBindings bound ctx level))
        (stateAfter bound ctx levels) := by
  rw [stateAfter, foldl_append, foldl_cons, foldl_nil, resolveLevel_eq]
  rfl

theorem fieldRun_concat (f : PolicyFieldId) (levels : List TargetLevel) (level : TargetLevel) :
    fieldRun bound ctx f (levels ++ [level]) = layerStep f (fieldRun bound ctx f levels)
        (fieldLayer (levelBindings bound ctx level) f level) := by
  rw [fieldRun, fieldLayers, filterMap_append]
  cases hl : fieldLayer (levelBindings bound ctx level) f level with
  | none =>
    simp only [filterMap_cons, filterMap_nil, hl, append_nil]
    rfl
  | some l =>
    simp only [filterMap_cons, filterMap_nil, hl]
    rw [run_concat]
    rfl

theorem entries_stateAfter (hf : f ∈ PolicyFieldId.all) (levels : List TargetLevel) :
    (stateAfter bound ctx levels).entries f = fieldRun bound ctx f levels := by
  induction levels using reverseRecOn with
  | nil => rfl
  | append_singleton levels level ih =>
    rw [stateAfter_concat, entries_foldl_resolveField _ _ _ _ (by decide), if_pos hf, ih,
      fieldRun_concat]

theorem fieldCandidate_mem {c : FieldCandidate} (h : c ∈ fieldCandidates bs f) :
    ∃ b ∈ bs, b.field f = some c.value ∧ c.bindingId = b.id ∧ c.reference = b.reference := by
  obtain ⟨b, hb, hc⟩ := mem_filterMap.mp h
  obtain ⟨v, hv, hvc⟩ := Option.map_eq_some_iff.mp hc
  rw [← hvc]
  exact ⟨b, hb, hv, rfl, rfl⟩

theorem fieldCandidate_fits {c : FieldCandidate} (h : c ∈ fieldCandidates bs f) :
    Fits f c.value := by
  obtain ⟨b, -, hv, -⟩ := fieldCandidate_mem h
  exact getField_fits hv

theorem mergedValue_fits {first : FieldCandidate} {rest : List FieldCandidate}
    (h : ∀ c ∈ first :: rest, Fits f c.value) : Fits f (mergedValue f first rest) :=
  foldlRecOn rest _ (h first mem_cons_self) fun _ hm c hc =>
    meetField_fits hm (h c (mem_cons_of_mem _ hc))

section

variable {l : Layer FieldValue FieldProvenance} (h : fieldLayer bs f level = some l)

include h

theorem fieldLayer_cons :
    ∃ first rest, fieldCandidates bs f = first :: rest ∧ l.value = mergedValue f first rest ∧
      l.pin = (lastPin bs f).map (pinProvenance level) ∧ l.origin.level = some level := by
  rw [fieldLayer] at h
  cases hc : fieldCandidates bs f with
  | nil =>
    rw [hc] at h
    cases h
  | cons first rest =>
    rw [hc] at h
    rw [← Option.some.inj h]
    exact ⟨first, rest, rfl, rfl, rfl, rfl⟩

theorem fieldLayer_fits : Fits f l.value := by
  obtain ⟨first, rest, hc, hval, -, -⟩ := fieldLayer_cons h
  rw [hval]
  exact mergedValue_fits (hc ▸ fun c => fieldCandidate_fits)

end

theorem fieldLayers_fits {bound : List BoundRevision} {ctx : DeviceContext}
    {levels : List TargetLevel} : ∀ l ∈ fieldLayers bound ctx f levels, Fits f l.value := by
  intro l hl
  obtain ⟨level, -, hlevel⟩ := mem_filterMap.mp hl
  exact fieldLayer_fits hlevel

theorem combineField_fits (prev : Option FieldValue) (v : FieldValue)
    (hprev : ∀ p, prev = some p → Fits f p) (hv : Fits f v) : Fits f (combineField f prev v) := by
  unfold combineField
  split
  · cases prev with
    | none => exact hv
    | some p => exact meetField_fits (hprev p rfl) hv
  · exact hv

theorem fieldRun_fits (f : PolicyFieldId) (levels : List TargetLevel) :
    All (Fits f) (fieldRun bound ctx f levels) :=
  (All.start (Fits f)).run _ _ combineField_fits _ fieldLayers_fits

theorem stateAfter_nil_applicable {bound : List BoundRevision} {ctx : DeviceContext}
    (h : applicable bound ctx = []) (levels : List TargetLevel) :
    stateAfter bound ctx levels = stateAfter bound ctx [] := by
  induction levels using reverseRecOn with
  | nil => rfl
  | append_singleton levels level ih =>
    rw [stateAfter_concat, ih, levelBindings, h, filter_nil, foldl_resolveField_nil]

theorem resolve_fst : (resolve bound ctx).1 = (stateAfter bound ctx all).finish := by
  rw [resolve]
  split
  · rename_i hempty
    rw [stateAfter_nil_applicable (isEmpty_iff.mp hempty)]
    rfl
  · rfl

theorem field_foldl_writeField (current : OrdMap PolicyFieldId FieldSlot) (fs : List PolicyFieldId)
    (hnd : fs.Nodup) (hfits : ∀ g e, g ∈ fs → current.get? g = some e → Fits g e.value)
    (values : ResolvedValues) : (fs.foldl (writeField current) values).field f =
      if f ∈ fs then ((current.get? f).map Slot.value).or (values.field f)
      else values.field f := by
  refine Runs.view_foldl ResolvedValues.field
    (fun f old => ((current.get? f).map Slot.value).or old) hnd (fun values g hg f => ?_) values f
  rw [writeField]
  cases hc : current.get? g with
  | none => split_ifs with hfg <;> simp [hfg]
  | some e =>
    split_ifs with hfg
    · rw [hfg]
      exact field_applyFieldToResolved (hfits g e hg hc) values
    · exact field_applyFieldToResolved_ne hfg (hfits g e hg hc) values

theorem resolve_field (hf : f ∈ PolicyFieldId.all) : (resolve bound ctx).1.values.field f =
      match (fieldRun bound ctx f all).current with
      | some e => some e.value
      | none => PolicyContent.baseline.field f := by
  have hcurrent : ∀ g, g ∈ PolicyFieldId.all → (stateAfter bound ctx all).current.get? g =
        (fieldRun bound ctx g all).current := by
    intro g hg
    rw [← entries_stateAfter bound ctx hg]
    rfl
  have hfits : ∀ g e, g ∈ PolicyFieldId.all →
      (stateAfter bound ctx all).current.get? g = some e → Fits g e.value := by
    intro g e hg he
    rw [hcurrent g hg] at he
    exact (fieldRun_fits bound ctx g all).2 e he
  rw [resolve_fst, ResolveState.finish]
  dsimp only
  rw [field_foldl_writeField _ _ (by decide) hfits, if_pos hf, hcurrent f hf]
  cases (fieldRun bound ctx f all).current <;> rfl

end Fornax
