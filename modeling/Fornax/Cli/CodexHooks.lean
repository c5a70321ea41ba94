import Fornax.Cli.HookDocument

namespace Fornax.Cli.Codex

open List Fields Json

def hookBin : String := "fornax-hook-codex-event"

def events : List String := ["PreToolUse", "PostToolUse", "SessionStart"]

def fornaxGroup : Json :=
  .object [("hooks", .array [.object [("type", .string "command"), ("command", .string hookBin),
    ("timeout", .number (.posInt ⟨5, by decide⟩))]])]

def handlerIsFornax (handler : Json) : Bool :=
  if (handler.get? "type").bind asStr ≠ some "command" then false
  else
    (((handler.get? "command").bind asStr).bind fun s =>
      (Text.splitWhitespace s.toList).head?.bind fileName) == some hookBin.toList

def groupHasFornaxHandler (group : Json) : Bool :=
  ((handlersOf group).map fun entries => entries.any handlerIsFornax).getD false

def groupIsAllFornax (group : Json) : Bool :=
  ((handlersOf group).map fun entries => !entries.isEmpty && entries.all handlerIsFornax).getD false

def appendGroup (arr : List Json) : List Json :=
  if arr.any groupHasFornaxHandler then arr else arr ++ [fornaxGroup]

def installHooks (root : Document) : Except InstallError Document :=
  installInto appendGroup events root

def hadForeignAfterOurs (handlers : List Json) : Bool :=
  let ourPositions := (handlers.zipIdx.filter fun h => handlerIsFornax h.1).map (·.2)
  let maxOurs := ourPositions.max?.getD 0
  (handlers.drop (maxOurs + 1)).any fun h => !handlerIsFornax h

structure Sweep where
  groups : List Json
  toRemove : List ℕ
  mutated : Bool
  shifted : List String

def sweepGroup (event : String) (lastIdx : ℕ) (s : Sweep) (entry : Json × ℕ) : Sweep :=
  let (group, idx) := entry
  if !groupHasFornaxHandler group then { s with groups := s.groups ++ [group] }
  else if groupIsAllFornax group then
    if idx = lastIdx then
      { s with mutated := true, toRemove := s.toRemove ++ [idx], groups := s.groups ++ [group] }
    else
      -- the groups after it keep their index
      { s with mutated := true, groups := s.groups ++ [withHandlers group []] }
  else
    let handlers := (handlersOf group).getD []
    { s with
      mutated := true
      groups := s.groups ++ [withHandlers group (handlers.filter fun h => !handlerIsFornax h)]
      shifted := if hadForeignAfterOurs handlers then s.shifted ++ [event] else s.shifted }

def sweepGroups (event : String) (shifted : List String) (arr : List Json) : Sweep :=
  let s := arr.zipIdx.foldl (sweepGroup event (arr.length - 1)) ⟨[], [], false, shifted⟩
  { s with groups := s.toRemove.reverse.foldl eraseIdx s.groups }

def uninstallEvent (state : Document × List String) (event : String) :
    Document × List String :=
  let (hooks, shifted) := state
  match (get event hooks).bind asArray with
  | none => (hooks, shifted)
  | some arr =>
    let s := sweepGroups event shifted arr
    if s.mutated && s.groups.isEmpty then (remove event hooks, s.shifted)
    else (set event (.array s.groups) hooks, s.shifted)

def uninstallHooks (root : Document) : Document × List String :=
  match (get "hooks" root).bind asObject with
  | none => (root, [])
  | some hooks =>
    let (hooks, shifted) := events.foldl uninstallEvent (hooks, [])
    if hooks.isEmpty then (remove "hooks" root, shifted)
    else (set "hooks" (.object hooks) root, shifted)

def foreign (handlers : List Json) : List Json := handlers.filter fun h => !handlerIsFornax h

def clean (group : Json) : Json :=
  if groupHasFornaxHandler group then
    withHandlers group (foreign ((handlersOf group).getD []))
  else group

def cleaned (arr : List Json) : List Json :=
  (if arr.getLast?.any groupIsAllFornax then arr.dropLast else arr).map clean

def reportsShift (group : Json) : Bool :=
  groupHasFornaxHandler group && !groupIsAllFornax group &&
    hadForeignAfterOurs ((handlersOf group).getD [])

variable {group : Json} {installed : Document}

theorem hasFornax_iff : groupHasFornaxHandler group ↔
    ∃ handlers, handlersOf group = some handlers ∧ ∃ h ∈ handlers, handlerIsFornax h := by
  unfold groupHasFornaxHandler
  cases handlersOf group <;> simp

theorem isAll_iff : groupIsAllFornax group ↔
    ∃ handlers, handlersOf group = some handlers ∧ handlers ≠ [] ∧
      ∀ h ∈ handlers, handlerIsFornax h := by
  unfold groupIsAllFornax
  cases handlersOf group <;> simp

theorem hasFornax_of_all (h : groupIsAllFornax group) : groupHasFornaxHandler group := by
  obtain ⟨handlers, hhandlers, hne, hall⟩ := isAll_iff.mp h
  obtain ⟨handler, hmem⟩ := exists_mem_of_ne_nil handlers hne
  exact hasFornax_iff.mpr ⟨handlers, hhandlers, handler, hmem, hall handler hmem⟩

theorem foreign_eq_self {handlers : List Json} (h : ∀ x ∈ handlers, handlerIsFornax x = false) :
    foreign handlers = handlers :=
  filter_eq_self.mpr fun x hx => by simp [h x hx]

theorem foreign_eq_nil {handlers : List Json} (h : ∀ x ∈ handlers, handlerIsFornax x) :
    foreign handlers = [] :=
  filter_eq_nil_iff.mpr fun x hx => by simp [h x hx]

theorem foreign_of_all (h : groupIsAllFornax group) :
    foreign ((handlersOf group).getD []) = [] := by
  obtain ⟨handlers, hhandlers, -, hall⟩ := isAll_iff.mp h
  rw [hhandlers, Option.getD_some, foreign_eq_nil hall]

theorem clean_of_all (h : groupIsAllFornax group) : clean group = withHandlers group [] := by
  rw [clean, if_pos (hasFornax_of_all h), foreign_of_all h]

variable {event : String} {lastIdx i : ℕ} {arr handlers : List Json} {root : Document}
  {handler : Json}

theorem sweepGroup_eq (s : Sweep) (group : Json) (idx : ℕ) :
    sweepGroup event lastIdx s (group, idx) =
      ⟨s.groups ++ [if idx = lastIdx ∧ groupIsAllFornax group then group else clean group],
        s.toRemove ++ if idx = lastIdx ∧ groupIsAllFornax group then [idx] else [],
        s.mutated || groupHasFornaxHandler group,
        s.shifted ++ if reportsShift group then [event] else []⟩ := by
  unfold sweepGroup
  by_cases hall : groupIsAllFornax group = true
  · by_cases hidx : idx = lastIdx <;>
      simp [hasFornax_of_all hall, hall, hidx, clean_of_all hall, reportsShift]
  · by_cases hhas : groupHasFornaxHandler group = true
    · simp only [hhas, hall, clean, reportsShift, foreign]
      cases hadForeignAfterOurs ((handlersOf group).getD []) <;> simp
    · simp [hhas, hall, clean, reportsShift]

def reports (event : String) (arr : List Json) : List String :=
  (arr.filter reportsShift).map fun _ => event

theorem sweep_init {start : ℕ} (s : Sweep) (hlast : start + arr.length ≤ lastIdx) :
    (arr.zipIdx start).foldl (sweepGroup event lastIdx) s =
      ⟨s.groups ++ arr.map clean, s.toRemove, s.mutated || arr.any groupHasFornaxHandler,
        s.shifted ++ reports event arr⟩ := by
  induction arr generalizing s start with
  | nil => simp [reports]
  | cons group arr ih =>
    rw [length_cons] at hlast
    have hidx : ¬ start = lastIdx := by omega
    rw [zipIdx_cons, foldl_cons, sweepGroup_eq, ih _ (by omega)]
    simp only [hidx, false_and, if_false, append_nil, map_cons, any_cons,
      append_assoc, singleton_append, Bool.or_assoc, reports, filter_cons]
    split_ifs <;> simp

theorem sweepGroups_eq (event : String) (shifted : List String) (arr : List Json) :
    (sweepGroups event shifted arr).groups = cleaned arr ∧
      (sweepGroups event shifted arr).mutated = arr.any groupHasFornaxHandler ∧
      (sweepGroups event shifted arr).shifted = shifted ++ reports event arr := by
  rcases eq_nil_or_concat arr with rfl | ⟨init, last, rfl⟩
  · simp [sweepGroups, cleaned, reports]
  · rw [concat_eq_append]
    have hlength : (init ++ [last]).length - 1 = init.length := by simp
    have hgroups : (if groupIsAllFornax last then [init.length] else []).reverse.foldl
        eraseIdx (init.map clean ++ [if groupIsAllFornax last then last else clean last]) =
        cleaned (init ++ [last]) := by
      unfold cleaned
      cases hall : groupIsAllFornax last with
      | true => simp [hall, eraseIdx_append_of_length_le]
      | false => simp [hall]
    have hreports : reports event (init ++ [last]) =
        reports event init ++ if reportsShift last then [event] else [] := by
      simp only [reports, filter_append, map_append, filter_cons, filter_nil]
      split_ifs <;> rfl
    have hinit : (init.zipIdx 0).foldl (sweepGroup event init.length) ⟨[], [], false, shifted⟩ =
        ⟨[] ++ init.map clean, [], false || init.any groupHasFornaxHandler,
          shifted ++ reports event init⟩ := sweep_init _ (by omega)
    rw [sweepGroups, hlength, zipIdx_append, foldl_append, hinit]
    simp only [Nat.zero_add, zipIdx_singleton, foldl_cons, foldl_nil,
      sweepGroup_eq, true_and, nil_append, hgroups, hreports, Bool.false_or, any_append,
      any_cons, any_nil, Bool.or_false, append_assoc, and_self]

def unhook : Option Json → Option Json
  | some (.array arr) =>
    if arr.any groupHasFornaxHandler && (cleaned arr).isEmpty then none
    else some (.array (cleaned arr))
  | v => v

def eventReports (event : String) (v : Option Json) : List String :=
  reports event ((v.bind asArray).getD [])

theorem uninstallEvent_eq (hooks : List (String × Json)) (shifted : List String) (event : String) :
    uninstallEvent (hooks, shifted) event = (alter event unhook hooks,
        shifted ++ eventReports event (get event hooks)) := by
  simp only [uninstallEvent]
  cases harray : (get event hooks).bind asArray with
  | none =>
    have hsame : unhook (get event hooks) = get event hooks := by
      unfold unhook
      split
      · next arr hvalue => simp [hvalue, asArray] at harray
      · rfl
    simp [alter_of_eq hsame, eventReports, harray, reports]
  | some arr =>
    obtain ⟨hgroups, hmutated, hshifted⟩ := sweepGroups_eq event shifted arr
    simp only [hgroups, hmutated, hshifted, eventReports, harray, Option.getD_some]
    rw [ite_remove_set (f := unhook) (asArray_eq_some.mp harray) rfl]
    split_ifs <;> rfl

def handlerAt (root : Document) (event : String) (group handler : ℕ) : Option Json :=
  ((eventGroups root event)[group]?.bind handlersOf).bind fun handlers => handlers[handler]?

theorem handlerAt_eq_some {g : ℕ} : handlerAt root event g i = some handler ↔
    ∃ group handlers, (eventGroups root event)[g]? = some group ∧
      handlersOf group = some handlers ∧ handlers[i]? = some handler := by
  simp only [handlerAt, Option.bind_eq_some_iff]
  constructor
  · rintro ⟨handlers, ⟨group, hgroup, hhandlers⟩, hi⟩
    exact ⟨group, handlers, hgroup, hhandlers, hi⟩
  · rintro ⟨group, handlers, hgroup, hhandlers, hi⟩
    exact ⟨handlers, ⟨group, hgroup, hhandlers⟩, hi⟩

theorem nodup_events : events.Nodup := by decide

theorem foldl_uninstallEvent {keys : List String} (hkeys : keys.Nodup)
    (hooks : List (String × Json)) (shifted : List String) :
    keys.foldl uninstallEvent (hooks, shifted) = (alterAll (fun _ => unhook) keys hooks,
        shifted ++ keys.flatMap fun event => eventReports event (get event hooks)) := by
  induction keys generalizing hooks shifted with
  | nil => simp [alterAll]
  | cons event keys ih =>
    rw [nodup_cons] at hkeys
    have hrest : keys.flatMap (fun e => eventReports e (get e (alter event unhook
        hooks))) = keys.flatMap fun e => eventReports e (get e hooks) := by
      refine flatMap_congr fun e he => ?_
      rw [get_alter_of_ne (ne_of_mem_of_not_mem he hkeys.1)]
    rw [foldl_cons, uninstallEvent_eq, ih hkeys.2, hrest, flatMap_cons, append_assoc]
    rfl

def withHooks (hooks root : List (String × Json)) : List (String × Json) :=
  if hooks.isEmpty then remove "hooks" root else set "hooks" (.object hooks) root

theorem uninstallHooks_fst (root : Document) : (uninstallHooks root).1 =
    if ((get "hooks" root).bind asObject).isSome then
      withHooks (alterAll (fun _ => unhook) events (hooksOf root)) root
    else root := by
  unfold uninstallHooks hooksOf
  cases (get "hooks" root).bind asObject with
  | none => rfl
  | some hooks =>
    simp only [foldl_uninstallEvent nodup_events, Option.isSome_some, if_true, withHooks,
      Option.getD_some]
    split_ifs <;> rfl

theorem uninstallHooks_snd (root : Document) : (uninstallHooks root).2 =
    events.flatMap fun event => reports event (eventGroups root event) := by
  unfold uninstallHooks eventGroups hooksOf
  cases (get "hooks" root).bind asObject with
  | none => rfl
  | some hooks =>
    simp only [foldl_uninstallEvent nodup_events, nil_append]
    split_ifs <;> rfl

def NoFornaxHandler (root : Document) : Prop :=
  ∀ event ∈ events, ∀ group index handler,
    handlerAt root event group index = some handler → handlerIsFornax handler = false

theorem noFornaxHandler_iff : NoFornaxHandler root ↔
    ∀ event ∈ events, (eventGroups root event).any groupHasFornaxHandler = false := by
  refine forall₂_congr fun event _ => ?_
  simp only [handlerAt_eq_some, any_eq_false, hasFornax_iff]
  constructor
  · rintro h group hgroup ⟨handlers, hhandlers, handler, hmem, hours⟩
    obtain ⟨g, hg⟩ := mem_iff_getElem?.mp hgroup
    obtain ⟨i, hi⟩ := mem_iff_getElem?.mp hmem
    rw [h g i handler ⟨group, handlers, hg, hhandlers, hi⟩] at hours
    cases hours
  · rintro h g i handler ⟨group, handlers, hgroup, hhandlers, hi⟩
    exact Bool.eq_false_iff.mpr fun hours =>
      h group (mem_of_getElem? hgroup) ⟨handlers, hhandlers, handler, mem_of_getElem? hi, hours⟩

theorem hasFornax_fornaxGroup : groupHasFornaxHandler fornaxGroup := by decide +kernel

theorem isAll_fornaxGroup : groupIsAllFornax fornaxGroup := by decide +kernel

section Clean

variable (h : arr.any groupHasFornaxHandler = false)

include h

theorem map_clean_of_none : arr.map clean = arr := by
  rw [any_eq_false] at h
  conv_rhs => rw [← map_id arr]
  refine map_congr_left fun group hgroup => ?_
  rw [clean, if_neg (h group hgroup)]
  rfl

theorem cleaned_of_none : cleaned arr = arr := by
  have hlast : arr.getLast?.any groupIsAllFornax = false := by
    rw [Option.any_eq_false]
    intro group hgroup
    rw [any_eq_false] at h
    by_contra hall
    rw [Bool.not_eq_false] at hall
    exact h group (mem_of_getLast? hgroup) (hasFornax_of_all hall)
  rw [cleaned, hlast, if_neg Bool.false_ne_true, map_clean_of_none h]

theorem cleaned_append_fornaxGroup : cleaned (arr ++ [fornaxGroup]) = arr := by
  rw [cleaned, getLast?_concat, Option.any_some, isAll_fornaxGroup, if_pos rfl,
    dropLast_concat, map_clean_of_none h]

theorem unhook_of_none : unhook (some (.array arr)) = some (.array arr) := by
  rw [unhook, h, Bool.false_and, if_neg Bool.false_ne_true, cleaned_of_none h]

theorem unhook_hook : unhook (hook appendGroup (some (.array arr))) =
      if arr = [] then none else some (.array arr) := by
  rw [hook, appendGroup, h, if_neg Bool.false_ne_true, unhook, cleaned_append_fornaxGroup h]
  simp [hasFornax_fornaxGroup, List.isEmpty_iff]

end Clean

theorem unhook_hook_none : unhook (hook appendGroup none) = none := by
  have hadded : appendGroup [] = [] ++ [fornaxGroup] := rfl
  rw [hook, hadded, unhook, cleaned_append_fornaxGroup rfl]
  simp [hasFornax_fornaxGroup]

theorem withHooks_eq_self_iff {hooks root : List (String × Json)} :
    withHooks hooks root = root ↔ (hooks = [] ∧ get "hooks" root = none) ∨
      (hooks ≠ [] ∧ get "hooks" root = some (.object hooks)) := by
  unfold withHooks
  by_cases h : hooks = []
  · simp [h, remove_eq_self_iff]
  · simp [h, set_eq_self_iff]

theorem installHooks_eq_ok (h : installHooks root = .ok installed) :
    HasHooks root ∧ (∀ event ∈ events, Editable (get event (hooksOf root))) ∧
      installed = set "hooks" (.object
        (alterAll (fun _ => hook appendGroup) events (hooksOf root))) root :=
  (installInto_eq_ok appendGroup nodup_events).mp h

theorem uninstall_installed (h : installHooks root = .ok installed) :
    (uninstallHooks installed).1 = withHooks
      (Fields.alterAll (fun _ v => unhook (hook appendGroup v)) events (hooksOf root)) root := by
  obtain ⟨-, -, rfl⟩ := installHooks_eq_ok h
  have hpass := alterAll_alterAll (f := fun _ => hook appendGroup) (g := fun _ => unhook)
    nodup_events (fun _ => hook_ne_none appendGroup) (fun _ => rfl) (hooksOf root)
  rw [uninstallHooks_fst, hooksOf_set, hpass, Fields.set, Fields.get_alter_self, ← Fields.set]
  simp only [Option.bind_some, asObject, Option.isSome_some, if_true, withHooks]
  split_ifs
  · exact remove_set _ _ _
  · exact set_set _ _ _ _

theorem roundTrip_eq (hclean : NoFornaxHandler root)
    (hshapes : ∀ event ∈ events, Editable (get event (hooksOf root)))
    (hnonempty : ∀ event ∈ events, get event (hooksOf root) ≠ some (.array [])) :
    alterAll (fun _ v => unhook (hook appendGroup v)) events (hooksOf root) = hooksOf root := by
  refine alterAll_of_eq fun event hevent => ?_
  rcases hshapes event hevent with hnone | ⟨arr, harr⟩
  · rw [hnone]
    exact unhook_hook_none
  · have hany := noFornaxHandler_iff.mp hclean event hevent
    rw [eventGroups_eq harr] at hany
    have harr' : arr ≠ [] := by
      rintro rfl
      exact hnonempty event hevent harr
    rw [harr, unhook_hook hany, if_neg harr']

theorem uninstall_clean {root hooks : List (String × Json)} (hclean : NoFornaxHandler root)
    (hhooks : get "hooks" root = some (.object hooks)) :
    (uninstallHooks root).1 = withHooks hooks root := by
  have hof := hooksOf_of_object hhooks
  have hsame : alterAll (fun _ => unhook) events hooks = hooks := by
    refine alterAll_of_eq fun event hevent => ?_
    have hany := noFornaxHandler_iff.mp hclean event hevent
    rw [eventGroups, hof] at hany
    cases hvalue : get event hooks with
    | none => rfl
    | some value =>
      rw [hvalue] at hany
      cases value with
      | array arr => exact unhook_of_none hany
      | _ => rfl
  simp [uninstallHooks_fst, hhooks, hof, hsame, asObject]

/-- Uninstalling restores a document without handlers of ours, and leaves one, exactly when
it has no container that is empty already: no wired event for the one, no `hooks` for either. -/
theorem uninstall_restores_iff {root : Document} (hclean : NoFornaxHandler root) :
    (∀ installed, installHooks root = .ok installed →
      ((uninstallHooks installed).1 = root ↔ get "hooks" root ≠ some (.object []) ∧
        ∀ event ∈ events, get event (hooksOf root) ≠ some (.array []))) ∧
      ((uninstallHooks root).1 = root ↔ get "hooks" root ≠ some (.object [])) := by
  constructor
  · intro installed hinstalled
    obtain ⟨hroot, hshapes, -⟩ := installHooks_eq_ok hinstalled
    rw [uninstall_installed hinstalled, withHooks_eq_self_iff]
    constructor
    · rintro (⟨-, hnone⟩ | ⟨hnonempty, hhooks⟩)
      · rw [hnone, hooksOf_of_none hnone]
        exact ⟨by simp, by simp⟩
      · have hof := hooksOf_of_object hhooks
        refine ⟨fun hempty => ?_, fun event hevent hempty => ?_⟩
        · rw [hhooks, Option.some.injEq, object.injEq] at hempty
          exact hnonempty hempty
        · have hget := hempty
          rw [hof, get_alterAll nodup_events, if_pos hevent, hempty, unhook_hook rfl] at hget
          cases hget
    · rintro ⟨hhooks, hnonempty⟩
      rw [roundTrip_eq hclean hshapes hnonempty]
      rcases hroot with hnone | hsome
      · exact .inl ⟨hooksOf_of_none hnone, hnone⟩
      · refine .inr ⟨fun hof => hhooks ?_, hsome⟩
        rw [hsome, hof]
  · cases hobject : (get "hooks" root).bind asObject with
    | none =>
      have hhooks : get "hooks" root ≠ some (.object []) := by
        intro h
        rw [h] at hobject
        cases hobject
      simp [uninstallHooks_fst, hobject, hhooks]
    | some hooks =>
      have hhooks := asObject_eq_some.mp hobject
      rw [uninstall_clean hclean hhooks, withHooks_eq_self_iff, hhooks]
      simp

def theirHandler : Json :=
  .object [("type", .string "command"), ("command", .string "libra-governor")]

def documentOf (handlers : List Json) : List (String × Json) :=
  [("hooks", .object [("PreToolUse", .array [.object [("hooks", .array handlers)]])])]

def foreignDocument : List (String × Json) := documentOf [theirHandler]

theorem uninstall_restores_foreignDocument :
    ∃ installed, installHooks foreignDocument = .ok installed ∧
      (uninstallHooks installed).1 = foreignDocument ∧
      (uninstallHooks foreignDocument).1 = foreignDocument := by
  have hclean : NoFornaxHandler foreignDocument :=
    noFornaxHandler_iff.mpr (by decide +kernel)
  obtain ⟨hinstall, huninstall⟩ := uninstall_restores_iff hclean
  have hhooks : Fields.get "hooks" foreignDocument ≠ some (.object []) := by
    simp [foreignDocument, documentOf, Fields.get]
  have hevents : ∀ event ∈ events,
      Fields.get event (hooksOf foreignDocument) ≠ some (.array []) := by
    simp [events, foreignDocument, documentOf, hooksOf, Fields.get, asObject]
  obtain ⟨installed, hinstalled⟩ : ∃ installed, installHooks foreignDocument = .ok installed :=
    Fallible.exists_of_isOk (by decide +kernel)
  exact ⟨installed, hinstalled, (hinstall installed hinstalled).mpr ⟨hhooks, hevents⟩,
    huninstall.mpr hhooks⟩

def emptyHooks : List (String × Json) := [("hooks", .object [])]

/-- An empty `hooks` object of the user is dropped. -/
theorem uninstall_drops_emptyHooks :
    NoFornaxHandler emptyHooks ∧ (uninstallHooks emptyHooks).1 ≠ emptyHooks := by
  refine ⟨noFornaxHandler_iff.mpr (by decide +kernel), ?_⟩
  have hempty : (uninstallHooks emptyHooks).1 = [] := by
    simp [uninstallHooks, emptyHooks, Fields.get, asObject, events, uninstallEvent, Fields.remove]
  rw [hempty]
  simp [emptyHooks]

theorem handlersOf_clean (group : Json) :
    handlersOf (clean group) = (handlersOf group).map foreign := by
  unfold clean
  split_ifs with hhas
  · obtain ⟨handlers, hhandlers, -⟩ := hasFornax_iff.mp hhas
    rw [hhandlers]
    exact handlersOf_withHandlers hhandlers _
  · cases hhandlers : handlersOf group with
    | none => rfl
    | some handlers =>
      have hall : ∀ h ∈ handlers, handlerIsFornax h = false := fun h hmem =>
        Bool.eq_false_iff.mpr fun hours =>
          hhas (hasFornax_iff.mpr ⟨handlers, hhandlers, h, hmem, hours⟩)
      rw [Option.map_some, foreign_eq_self hall]

theorem getElem?_cleaned (arr : List Json) (g : ℕ) : (cleaned arr)[g]? = (arr[g]?).map clean ∨
      (cleaned arr)[g]? = none ∧ ∃ group, arr[g]? = some group ∧ groupIsAllFornax group := by
  unfold cleaned
  split_ifs with hlast
  · rw [Option.any_eq_true] at hlast
    obtain ⟨last, hlast, hall⟩ := hlast
    obtain ⟨init, rfl⟩ := getLast?_eq_some_iff.mp hlast
    rw [dropLast_concat]
    by_cases hg : g = init.length
    · exact .inr ⟨by simp [hg], last, by simp [hg], hall⟩
    · left
      rw [getElem?_map]
      by_cases hlt : g < init.length
      · rw [getElem?_append_left hlt]
      · rw [getElem?_eq_none (by omega), getElem?_eq_none (by simp; omega)]
  · exact .inl getElem?_map

theorem hooksOf_withHooks (hooks root : List (String × Json)) :
    hooksOf (withHooks hooks root) = hooks := by
  unfold withHooks
  split_ifs with hempty
  · rw [hooksOf, get_remove, if_pos rfl]
    exact (isEmpty_iff.mp hempty).symm
  · exact hooksOf_set hooks root

theorem groups_unhook (v : Option Json) :
    ((unhook v).bind asArray).getD [] = cleaned ((v.bind asArray).getD []) := by
  cases v with
  | none => rfl
  | some value =>
    cases value with
    | array arr =>
      rw [unhook]
      split_ifs with hempty
      · rw [Bool.and_eq_true, List.isEmpty_iff] at hempty
        exact hempty.2.symm
      · rfl
    | _ => rfl

theorem eventGroups_uninstallHooks (root : Document) (event : String) :
    eventGroups (uninstallHooks root).1 event =
      if event ∈ events then cleaned (eventGroups root event) else eventGroups root event := by
  have hhooks : hooksOf (uninstallHooks root).1 =
      alterAll (fun _ => unhook) events (hooksOf root) := by
    rw [uninstallHooks_fst]
    split_ifs with hobject
    · exact hooksOf_withHooks _ _
    · rw [hooksOf, Option.not_isSome_iff_eq_none.mp hobject]
      exact (alterAll_of_eq fun _ _ => rfl).symm
  rw [eventGroups, hhooks, get_alterAll nodup_events]
  split_ifs
  · exact groups_unhook _
  · rfl

theorem mem_shifted : event ∈ (uninstallHooks root).2 ↔
      event ∈ events ∧ (eventGroups root event).any reportsShift := by
  simp only [uninstallHooks_snd, mem_flatMap, reports, mem_map, mem_filter, any_eq_true]
  constructor
  · rintro ⟨_, he, group, hgroup, rfl⟩
    exact ⟨he, group, hgroup⟩
  · rintro ⟨he, group, hgroup⟩
    exact ⟨event, he, group, hgroup, rfl⟩

theorem exists_last_of_any {α : Type} {p : α → Bool} {l : List α} (h : l.any p) :
    ∃ before a after, l = before ++ a :: after ∧ p a ∧ ∀ b ∈ after, p b = false := by
  rw [← any_reverse, any_eq_true, ← find?_isSome] at h
  obtain ⟨a, ha⟩ := Option.isSome_iff_exists.mp h
  obtain ⟨hp, after, before, hsplit, hafter⟩ := find?_eq_some_iff_append.mp ha
  exact ⟨before.reverse, a, after.reverse, by simpa using congrArg reverse hsplit, hp,
    by simpa using hafter⟩

theorem max_ourPositions {before after : List Json} {ours : Json}
    (hours : handlerIsFornax ours) (hafter : ∀ h ∈ after, handlerIsFornax h = false) :
    (((before ++ ours :: after).zipIdx.filter fun h => handlerIsFornax h.1).map (·.2)).max? =
      some before.length := by
  rw [max?_eq_some_iff]
  constructor
  · refine mem_map.mpr ⟨(ours, before.length), mem_filter.mpr ⟨?_, hours⟩, rfl⟩
    simp [zipIdx_append]
  · intro i hi
    obtain ⟨⟨handler, j⟩, hmem, rfl⟩ := mem_map.mp hi
    obtain ⟨hmem, hfornax⟩ := mem_filter.mp hmem
    rw [mem_zipIdx_iff_getElem?] at hmem
    by_contra hlt
    have hin : handler ∈ after := by
      rw [getElem?_append_right (by simp only at hlt; omega)] at hmem
      simp only at hlt hmem
      obtain ⟨k, hk⟩ : ∃ k, j - before.length = k + 1 := ⟨j - before.length - 1, by omega⟩
      rw [hk, getElem?_cons_succ] at hmem
      exact mem_of_getElem? hmem
    rw [hafter handler hin] at hfornax
    cases hfornax

theorem hadForeignAfterOurs_iff (h : handlers.any handlerIsFornax) :
    hadForeignAfterOurs handlers = handlers.getLast?.any fun h => !handlerIsFornax h := by
  obtain ⟨before, ours, after, rfl, hours, hafter⟩ := exists_last_of_any h
  rw [hadForeignAfterOurs, max_ourPositions hours hafter]
  have hdrop : (before ++ ours :: after).drop (before.length + 1) = after := by
    rw [← singleton_append, ← append_assoc]
    exact drop_left' (by simp)
  rw [Option.getD_some, hdrop]
  rcases eq_nil_or_concat after with rfl | ⟨init, last, rfl⟩
  · simp [hours]
  · have hlast : handlerIsFornax last = false := hafter last (by simp)
    have hend : (before ++ ours :: init.concat last).getLast? = some last := by
      rw [concat_eq_append, ← cons_append, ← append_assoc, getLast?_concat]
    rw [hend]
    simp [hlast]

def Follows (group : Json) : Prop :=
  ∃ handlers, handlersOf group = some handlers ∧ ∃ before ours between theirs after,
    handlers = before ++ ours :: (between ++ theirs :: after) ∧ handlerIsFornax ours = true ∧
      handlerIsFornax theirs = false

/-- A group with a handler of ours ends with a foreign one. -/
def EndsForeign (group : Json) : Prop :=
  ∃ handlers, handlersOf group = some handlers ∧ handlers.any handlerIsFornax = true ∧
    ∃ last, handlers.getLast? = some last ∧ handlerIsFornax last = false

theorem reportsShift_iff : reportsShift group ↔ EndsForeign group := by
  unfold reportsShift EndsForeign groupHasFornaxHandler groupIsAllFornax
  cases handlersOf group with
  | none => simp
  | some handlers =>
    simp only [Option.map_some, Option.getD_some, Option.some.injEq, exists_eq_left',
      Bool.and_eq_true, Bool.not_eq_true']
    constructor
    · rintro ⟨⟨hany, -⟩, hshift⟩
      rw [hadForeignAfterOurs_iff hany, Option.any_eq_true] at hshift
      obtain ⟨last, hlast, htheirs⟩ := hshift
      exact ⟨hany, last, hlast, by simpa using htheirs⟩
    · rintro ⟨hany, last, hlast, htheirs⟩
      refine ⟨⟨hany, ?_⟩, ?_⟩
      · have hall : handlers.all handlerIsFornax = false := by
          rw [all_eq_false]
          exact ⟨last, mem_of_getLast? hlast, by simp [htheirs]⟩
        rw [hall, Bool.and_false]
      · rw [hadForeignAfterOurs_iff hany, hlast]
        simp [htheirs]

def foreignAt (root : Document) (event : String) (g : ℕ) : List Json :=
  foreign (((eventGroups root event)[g]?.bind handlersOf).getD [])

theorem foreign_foreign (handlers : List Json) : foreign (foreign handlers) = foreign handlers :=
  foreign_eq_self fun h hh => by simpa using (mem_filter.mp hh).2

theorem foreignAt_uninstallHooks (root : Document) (event : String) (g : ℕ) :
    foreignAt (uninstallHooks root).1 event g = foreignAt root event g := by
  unfold foreignAt
  rw [eventGroups_uninstallHooks]
  split_ifs
  · rcases getElem?_cleaned (eventGroups root event) g with hsome | ⟨hnone, group, hgroup, hall⟩
    · rw [hsome]
      cases (eventGroups root event)[g]? with
      | none => rfl
      | some group =>
        rw [Option.map_some, Option.bind_some, Option.bind_some, handlersOf_clean]
        cases handlersOf group with
        | none => rfl
        | some handlers => exact foreign_foreign handlers
    · rw [hnone, hgroup]
      exact (foreign_of_all hall).symm
  · rfl

theorem handlerAt_uninstallHooks {g : ℕ} (hevent : event ∈ events) :
    handlerAt (uninstallHooks root).1 event g i =
      ((eventGroups root event)[g]?.bind handlersOf).bind fun hs => (foreign hs)[i]? := by
  unfold handlerAt
  rw [eventGroups_uninstallHooks, if_pos hevent]
  rcases getElem?_cleaned (eventGroups root event) g with hsome | ⟨hnone, group, hgroup, hall⟩
  · rw [hsome]
    cases (eventGroups root event)[g]? with
    | none => rfl
    | some group => simp [handlersOf_clean, Option.bind_map]
  · obtain ⟨handlers, hhandlers, -, hours⟩ := isAll_iff.mp hall
    simp [hnone, hgroup, hhandlers, foreign_eq_nil hours]

theorem noFornax_uninstallHooks (root : Document) : NoFornaxHandler (uninstallHooks root).1 := by
  intro event hevent g i handler hat
  rw [handlerAt_uninstallHooks hevent] at hat
  obtain ⟨handlers, -, hi⟩ := Option.bind_eq_some_iff.mp hat
  simpa using (mem_filter.mp (mem_of_getElem? hi)).2

theorem exists_split (hi : handlers[i]? = some handler) :
    ∃ before after, handlers = before ++ handler :: after ∧ before.length = i := by
  obtain ⟨hlt, hget⟩ := List.getElem?_eq_some_iff.mp hi
  refine ⟨handlers.take i, handlers.drop (i + 1), ?_, length_take_of_le hlt.le⟩
  rw [← hget, ← drop_eq_getElem_cons hlt, take_append_drop]

theorem getElem?_foreign {before after : List Json} (htheirs : handlerIsFornax handler = false)
    (hbefore : ∀ h ∈ before, handlerIsFornax h = false) :
    (foreign (before ++ handler :: after))[before.length]? = some handler := by
  have hforeign : foreign (before ++ handler :: after) = before ++ handler :: foreign after := by
    rw [foreign, filter_append, filter_cons_of_pos (by simp [htheirs])]
    exact congrArg (· ++ _) (foreign_eq_self hbefore)
  simp [hforeign]

theorem exists_moved (h : Follows group) :
    ∃ (handlers : List Json) (i : ℕ) (handler : Json), handlersOf group = some handlers ∧
      handlers[i]? = some handler ∧ handlerIsFornax handler = false ∧
        (foreign handlers)[i]? = none := by
  obtain ⟨_, hhandlers, before, ours, between, theirs, after, rfl, hours, htheirs⟩ := h
  have hany : (between ++ theirs :: after).any (fun h => !handlerIsFornax h) := by
    simp [htheirs]
  obtain ⟨init, last, rest, hsplit, hlast, hrest⟩ := exists_last_of_any hany
  rw [Bool.not_eq_true'] at hlast
  rw [hsplit] at hhandlers
  refine ⟨_, before.length + 1 + init.length, last, hhandlers, ?_, hlast, ?_⟩
  · rw [getElem?_append_right (by omega)]
    have hindex : before.length + 1 + init.length - before.length = init.length + 1 := by omega
    rw [hindex, getElem?_cons_succ, getElem?_append_right (by omega), Nat.sub_self]
    rfl
  · -- one of ours is gone before it, and no foreign handler comes after it
    have hnone : foreign rest = [] := foreign_eq_nil fun h hh => by simpa using hrest h hh
    rw [getElem?_eq_none]
    have hlength : (foreign (before ++ ours :: (init ++ last :: rest))).length =
        (foreign before).length + ((foreign init).length + 1) := by
      unfold foreign at hnone ⊢
      rw [filter_append, filter_cons_of_neg (by simp [hours]), filter_append,
        filter_cons_of_pos (by simp [hlast]), hnone]
      simp
    have hb : (foreign before).length ≤ before.length := length_filter_le _ _
    have hi : (foreign init).length ≤ init.length := length_filter_le _ _
    omega

theorem follows_of_before {before after : List Json}
    (hhandlers : handlersOf group = some (before ++ handler :: after))
    (htheirs : handlerIsFornax handler = false)
    (h : ¬ ∀ h ∈ before, handlerIsFornax h = false) : Follows group := by
  push Not at h
  obtain ⟨ours, hmem, hours⟩ := h
  obtain ⟨init, between, rfl⟩ := append_of_mem hmem
  exact ⟨_, hhandlers, init, ours, between, handler, after, by simp, by simpa using hours, htheirs⟩

theorem eventGroups_installHooks (h : installHooks root = .ok installed) {g : ℕ}
    (hgroup : (eventGroups root event)[g]? = some group) :
    (eventGroups installed event)[g]? = some group := by
  obtain ⟨-, hshapes, rfl⟩ := installHooks_eq_ok h
  rw [eventGroups_installed appendGroup nodup_events hshapes]
  split_ifs
  · unfold appendGroup
    split_ifs
    · exact hgroup
    · obtain ⟨hlt, -⟩ := List.getElem?_eq_some_iff.mp hgroup
      rw [List.getElem?_append_left hlt]
      exact hgroup
  · exact hgroup

/-- Over every document: uninstalling takes all our handlers out of the wired events and keeps
every foreign one in its event and group, installing moves nothing, and the foreign
handlers of the events that are not reported keep their index exactly when every event with a
foreign handler after one of ours has a group of both that ends with a foreign one. -/
theorem hook_positions (root : Document) :
    NoFornaxHandler (uninstallHooks root).1 ∧
      (∀ event g, foreignAt (uninstallHooks root).1 event g = foreignAt root event g) ∧
      (∀ installed, installHooks root = .ok installed → ∀ (event : String) (g : ℕ) (group : Json),
        (eventGroups root event)[g]? = some group →
          (eventGroups installed event)[g]? = some group) ∧
      ((∀ event g i handler, handlerAt root event g i = some handler →
          handlerIsFornax handler = false → event ∉ (uninstallHooks root).2 →
            handlerAt (uninstallHooks root).1 event g i = some handler) ↔
        ∀ event ∈ events, (∃ group ∈ eventGroups root event, Follows group) →
          ∃ group ∈ eventGroups root event, EndsForeign group) := by
  refine ⟨noFornax_uninstallHooks root, foreignAt_uninstallHooks root,
    fun installed h event g group => eventGroups_installHooks h, ?_, ?_⟩
  · rintro hkept event hevent ⟨group, hmem, hfollows⟩
    by_contra hends
    have hshifted : event ∉ (uninstallHooks root).2 := by
      rw [mem_shifted, not_and, any_eq_true]
      rintro - ⟨other, hother, hreports⟩
      exact hends ⟨other, hother, reportsShift_iff.mp hreports⟩
    obtain ⟨g, hg⟩ := mem_iff_getElem?.mp hmem
    obtain ⟨handlers, i, handler, hhandlers, hi, htheirs, hmoved⟩ := exists_moved hfollows
    have hat := handlerAt_eq_some.mpr ⟨group, handlers, hg, hhandlers, hi⟩
    have hafter := hkept event g i handler hat htheirs hshifted
    simp [handlerAt_uninstallHooks hevent, hg, hhandlers, hmoved] at hafter
  · intro hreported event g i handler hat htheirs hshifted
    by_cases hevent : event ∈ events
    · obtain ⟨group, handlers, hgroup, hhandlers, hi⟩ := handlerAt_eq_some.mp hat
      rw [handlerAt_uninstallHooks hevent, hgroup, Option.bind_some, hhandlers]
      obtain ⟨before, after, rfl, rfl⟩ := exists_split hi
      refine getElem?_foreign htheirs ?_
      by_contra hbefore
      obtain ⟨other, hother, hends⟩ := hreported event hevent
        ⟨group, mem_of_getElem? hgroup, follows_of_before hhandlers htheirs hbefore⟩
      exact hshifted (mem_shifted.mpr
        ⟨hevent, any_eq_true.mpr ⟨other, hother, reportsShift_iff.mpr hends⟩⟩)
    · unfold handlerAt at hat ⊢
      rw [eventGroups_uninstallHooks, if_neg hevent]
      exact hat

def ourHandler : Json := .object [("type", .string "command"), ("command", .string hookBin)]

/-- A foreign handler between two of ours moves, and its event is not reported. -/
theorem uninstall_moves_unreported :
    let root := documentOf [ourHandler, theirHandler, ourHandler]
    handlerAt root "PreToolUse" 0 1 = some theirHandler ∧ handlerIsFornax theirHandler = false ∧
      (uninstallHooks root).2 = [] ∧
      handlerAt (uninstallHooks root).1 "PreToolUse" 0 1 = none := by
  intro root
  refine ⟨rfl, by decide +kernel, by decide +kernel, ?_⟩
  rw [← Option.isNone_iff_eq_none]
  decide +kernel

end Fornax.Cli.Codex
