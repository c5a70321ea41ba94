import Fornax.Cli.HookDocument

namespace Fornax.Cli.Claude

open List Fields Json

def fornaxHookCommand : String := "fornax-hook-claude"

def isShellSafePath (path : Text) : Bool :=
  !path.isEmpty && path.all fun ch => isAscii ch && ch.isAlphanum || "/._-+@:,=".toList.contains ch

def isFornaxCommand (command : String) : Bool :=
  command == fornaxHookCommand ||
    (Text.startsWith command.toList ['/'] && isShellSafePath command.toList &&
      fileName command.toList == some fornaxHookCommand.toList)

def claudeHookEvents : List String :=
  ["SessionStart", "UserPromptSubmit", "PreToolUse", "PostToolUse", "PostToolUseFailure", "Stop"]

def commandOf (entry : Json) : Option String := (entry.get? "command").bind asStr

def isFornaxEntry (entry : Json) : Bool := (commandOf entry).any isFornaxCommand

def groupFornaxCommand (group : Json) : Option String :=
  (handlersOf group).bind fun entries => (entries.filterMap commandOf).find? isFornaxCommand

def groupHasFornaxCommand (group : Json) : Bool := (groupFornaxCommand group).isSome

/-- The first entry of ours gets the command, further ones go. `seen` is whether there was one. -/
def installEntries (command : String) : Bool → List Json → List Json × Bool
  | seen, [] => ([], seen)
  | seen, entry :: rest =>
    if !isFornaxEntry entry then
      let (kept, seen) := installEntries command seen rest
      (entry :: kept, seen)
    else if seen then installEntries command seen rest
    else
      let entry :=
        if commandOf entry ≠ some command then entry.setField "command" (.string command)
        else entry
      let (kept, seen) := installEntries command true rest
      (entry :: kept, seen)

def installGroups (command : String) : Bool → List Json → List Json × Bool
  | seen, [] => ([], seen)
  | seen, group :: rest =>
    match handlersOf group with
    | none =>
      let (kept, seen) := installGroups command seen rest
      (group :: kept, seen)
    | some entries =>
      let hadFornax := entries.any isFornaxEntry
      let (entries, seen) := installEntries command seen entries
      let (kept, seen) := installGroups command seen rest
      if hadFornax && entries.isEmpty then (kept, seen)
      else (withHandlers group entries :: kept, seen)

def fornaxGroup (command : String) : Json :=
  .object [("hooks", .array [.object [("type", .string "command"), ("command", .string command)]])]

def installArray (command : String) (arr : List Json) : List Json :=
  let (kept, seen) := installGroups command false arr
  if seen then kept else kept ++ [fornaxGroup command]

def installClaudeHooks (settings : Document) (command : String) : Except InstallError Document :=
  installInto (installArray command) claudeHookEvents settings

structure KeepEmpty where
  hooks : Bool
  events : Finset String
  deriving DecidableEq

def hasOwned (settings : Document) (event : String) : Bool :=
  (eventGroups settings event).any groupHasFornaxCommand

def observeEvent (settings : Document) (keep : KeepEmpty) (event : String) : KeepEmpty :=
  if hasOwned settings event then keep
  else
    match (get event (hooksOf settings)).bind asArray with
    | some [] => { keep with events := insert event keep.events }
    | _ => { keep with events := keep.events.erase event }

def observeKeep (before : Document) (prior : KeepEmpty) : KeepEmpty :=
  let keep :=
    if claudeHookEvents.any (hasOwned before) then prior
    else
      { prior with
        hooks := ((get "hooks" before).bind asObject).any isEmpty }
  claudeHookEvents.foldl (observeEvent before) keep

def uninstallGroups : List Json → List Json × Bool
  | [] => ([], false)
  | group :: rest =>
    let (kept, removedHere) := uninstallGroups rest
    match handlersOf group with
    | none => (group :: kept, removedHere)
    | some entries =>
      let foreign := entries.filter fun entry => !isFornaxEntry entry
      let removed := decide (foreign.length < entries.length)
      if removed && foreign.isEmpty then (kept, true)
      else (withHandlers group foreign :: kept, removed || removedHere)

def uninstallEvent (keep : KeepEmpty) (state : List (String × Json) × Bool) (event : String) :
    List (String × Json) × Bool :=
  let (hooks, removedAny) := state
  match (get event hooks).bind asArray with
  | none => (hooks, removedAny)
  | some arr =>
    let (entries, removedHere) := uninstallGroups arr
    if removedHere && entries.isEmpty && event ∉ keep.events then
      (remove event hooks, removedAny || removedHere)
    else (set event (.array entries) hooks, removedAny || removedHere)

def uninstallClaudeHooks (settings : Document) (keep : KeepEmpty) : Document :=
  match (get "hooks" settings).bind asObject with
  | none => settings
  | some hooks =>
    let (hooks, removedAny) := claudeHookEvents.foldl (uninstallEvent keep) (hooks, false)
    if removedAny && hooks.isEmpty && !keep.hooks then remove "hooks" settings
    else set "hooks" (.object hooks) settings

def Foreign (arr : List Json) : Prop :=
  ∀ group ∈ arr, ∀ entries, handlersOf group = some entries →
    ∀ entry ∈ entries, isFornaxEntry entry = false

theorem withHandlers_self {group : Json} {entries : List Json}
    (h : handlersOf group = some entries) : withHandlers group entries = group := by
  have hvalue := asArray_eq_some.mp h
  cases group with
  | object fields => exact congrArg object (set_eq_self_iff.mpr hvalue)
  | _ => cases hvalue

theorem foreign_filters {entries : List Json}
    (h : ∀ entry ∈ entries, isFornaxEntry entry = false) : entries.filter isFornaxEntry = [] ∧
      entries.filter (fun entry => !isFornaxEntry entry) = entries := by
  rw [filter_eq_nil_iff, filter_eq_self]
  exact ⟨fun entry hentry => by simp [h entry hentry], fun entry hentry => by simp [h entry hentry]⟩

theorem installEntries_of_foreign (command : String) (seen : Bool) {entries : List Json}
    (h : ∀ entry ∈ entries, isFornaxEntry entry = false) :
    installEntries command seen entries = (entries, seen) := by
  induction entries with
  | nil => rfl
  | cons entry entries ih =>
    rw [forall_mem_cons] at h
    simp [installEntries, h.1, ih h.2]

variable {arr : List Json} {command old event : String} {settings : Document} {keep : KeepEmpty}

theorem installGroups_append (command : String) (seen : Bool) (h : Foreign arr) (more : List Json) :
    installGroups command seen (arr ++ more) =
      (arr ++ (installGroups command seen more).1, (installGroups command seen more).2) := by
  induction arr with
  | nil => rfl
  | cons group arr ih =>
    obtain ⟨hgroup, harr⟩ := forall_mem_cons.mp h
    rw [cons_append, installGroups]
    cases hentries : handlersOf group with
    | none => simp [ih harr]
    | some entries =>
      have hnone : entries.any isFornaxEntry = false := by
        rw [any_eq_false]
        exact fun entry hentry => by simp [hgroup entries hentries entry hentry]
      simp [installEntries_of_foreign command seen (hgroup entries hentries), hnone, ih harr,
        withHandlers_self hentries]

def fornaxEntry (command : String) : Json :=
  .object [("type", .string "command"), ("command", .string command)]

theorem commandOf_fornaxEntry (command : String) :
    commandOf (fornaxEntry command) = some command := rfl

theorem isFornaxEntry_fornaxEntry (h : isFornaxCommand command) :
    isFornaxEntry (fornaxEntry command) := by
  rw [isFornaxEntry, commandOf_fornaxEntry]
  exact h

theorem handlersOf_fornaxGroup (command : String) :
    handlersOf (fornaxGroup command) = some [fornaxEntry command] := rfl

theorem installGroups_fornaxGroup (hold : isFornaxCommand old) :
    installGroups command false [fornaxGroup old] = ([fornaxGroup command], true) := by
  have hentry : (if commandOf (fornaxEntry old) ≠ some command then
      (fornaxEntry old).setField "command" (.string command) else fornaxEntry old) =
      fornaxEntry command := by
    split_ifs with h
    · rfl
    · rw [commandOf_fornaxEntry, not_not, Option.some.injEq] at h
      rw [h]
  have hentries : installEntries command false [fornaxEntry old] =
      ([fornaxEntry command], true) := by
    simp only [installEntries, isFornaxEntry_fornaxEntry hold, hentry, Bool.not_true,
      Bool.false_eq_true, if_false]
  simp only [installGroups, handlersOf_fornaxGroup, hentries, isEmpty_cons, Bool.and_false,
    Bool.false_eq_true, if_false]
  rfl

theorem installArray_of_foreign (command : String) (h : Foreign arr) :
    installArray command arr = arr ++ [fornaxGroup command] := by
  have hgroups := installGroups_append command false h []
  rw [append_nil] at hgroups
  simp [installArray, hgroups, installGroups]

theorem installArray_of_installed (hold : isFornaxCommand old) (h : Foreign arr) :
    installArray command (arr ++ [fornaxGroup old]) = arr ++ [fornaxGroup command] := by
  simp [installArray, installGroups_append command false h, installGroups_fornaxGroup hold]

theorem uninstallGroups_append (h : Foreign arr) (more : List Json) :
    uninstallGroups (arr ++ more) =
      (arr ++ (uninstallGroups more).1, (uninstallGroups more).2) := by
  induction arr with
  | nil => rfl
  | cons group arr ih =>
    obtain ⟨hgroup, harr⟩ := forall_mem_cons.mp h
    rw [cons_append, uninstallGroups, ih harr]
    cases hentries : handlersOf group with
    | none => rfl
    | some entries =>
      have hall := (foreign_filters (hgroup entries hentries)).2
      simp [hall, withHandlers_self hentries]

theorem uninstallGroups_fornaxGroup (h : isFornaxCommand command) :
    uninstallGroups [fornaxGroup command] = ([], true) := by
  simp [uninstallGroups, handlersOf_fornaxGroup, isFornaxEntry_fornaxEntry h]

theorem groupHas_iff {group : Json} : groupHasFornaxCommand group ↔
    ∃ entries, handlersOf group = some entries ∧ entries.any isFornaxEntry := by
  unfold groupHasFornaxCommand groupFornaxCommand
  cases handlersOf group with
  | none => simp
  | some entries =>
    simp only [Option.bind_some, find?_isSome, mem_filterMap, Option.some.injEq,
      exists_eq_left', any_eq_true, isFornaxEntry, Option.any_eq_true]
    constructor
    · rintro ⟨command, ⟨entry, hentry, hcommand⟩, hours⟩
      exact ⟨entry, hentry, command, hcommand, hours⟩
    · rintro ⟨entry, hentry, command, hcommand, hours⟩
      exact ⟨command, ⟨entry, hentry, hcommand⟩, hours⟩

theorem hasOwned_of_foreign (h : Foreign (eventGroups settings event)) :
    hasOwned settings event = false := by
  unfold hasOwned
  rw [any_eq_false]
  intro group hgroup hhas
  obtain ⟨entries, hentries, hany⟩ := groupHas_iff.mp hhas
  obtain ⟨entry, hentry, hours⟩ := any_eq_true.mp hany
  rw [h group hgroup entries hentries entry hentry] at hours
  cases hours

theorem nodup_claudeHookEvents : claudeHookEvents.Nodup := by decide

def NoFornaxEntry (settings : Document) : Prop :=
  ∀ event ∈ claudeHookEvents, Foreign (eventGroups settings event)

def Installable (settings : Document) : Prop :=
  HasHooks settings ∧ ∀ event ∈ claudeHookEvents, Editable (get event (hooksOf settings))

def installed (settings : Document) (command : String) : Document :=
  set "hooks" (.object (alterAll (fun _ => hook (installArray command))
    claudeHookEvents (hooksOf settings))) settings

theorem installClaudeHooks_eq (h : Installable settings) (command : String) :
    installClaudeHooks settings command = .ok (installed settings command) :=
  (installInto_eq_ok _ nodup_claudeHookEvents).mpr ⟨h.1, h.2, rfl⟩

theorem installable_of_ok {after : Document} (h : installClaudeHooks settings command = .ok after) :
    Installable settings := by
  obtain ⟨hhooks, hevents, -⟩ := (installInto_eq_ok _ nodup_claudeHookEvents).mp h
  exact ⟨hhooks, hevents⟩

theorem hooksOf_installed (settings : Document) (command : String) :
    hooksOf (installed settings command) = alterAll
      (fun _ => hook (installArray command)) claudeHookEvents (hooksOf settings) :=
  hooksOf_set _ _

theorem foreign_nil : Foreign [] := fun group hgroup => by cases hgroup

structure Observed (settings : Document) (keep : KeepEmpty) : Prop where
  hooks : keep.hooks = true ↔ get "hooks" settings = some (.object [])
  events : ∀ event ∈ claudeHookEvents,
    (event ∈ keep.events ↔ get event (hooksOf settings) = some (.array []))

theorem mem_observeEvent {other : String} (hforeign : Foreign (eventGroups settings event)) :
    other ∈ (observeEvent settings keep event).events ↔
      if other = event then get event (hooksOf settings) = some (.array [])
      else other ∈ keep.events := by
  rw [observeEvent, hasOwned_of_foreign hforeign, if_neg Bool.false_ne_true]
  split
  · next hempty =>
    rw [Finset.mem_insert, ← asArray_eq_some, hempty]
    split_ifs with h <;> simp [h]
  · next hempty =>
    rw [Finset.mem_erase, ← asArray_eq_some]
    split_ifs with h
    · simpa [h] using hempty
    · simp [h]

theorem hooks_observeEvent (settings : Document) (keep : KeepEmpty) (event : String) :
    (observeEvent settings keep event).hooks = keep.hooks := by
  unfold observeEvent
  split_ifs
  · rfl
  · split <;> rfl

theorem observeKeep_of_foreign (hclean : NoFornaxEntry settings) (prior : KeepEmpty) :
    Observed settings (observeKeep settings prior) := by
  have hnone : claudeHookEvents.any (hasOwned settings) = false := by
    rw [any_eq_false]
    exact fun event hevent => by simp [hasOwned_of_foreign (hclean event hevent)]
  unfold observeKeep
  rw [hnone, if_neg Bool.false_ne_true]
  constructor
  · have hhooks : ∀ keep, (claudeHookEvents.foldl (observeEvent settings) keep).hooks =
        keep.hooks := fun keep =>
      foldlRecOn (motive := fun k : KeepEmpty => k.hooks = keep.hooks) claudeHookEvents _ rfl
        fun k hk event _ => (hooks_observeEvent settings k event).trans hk
    rw [hhooks, Option.any_eq_true]
    constructor
    · rintro ⟨hooks, hobject, hempty⟩
      rw [asObject_eq_some.mp hobject, isEmpty_iff.mp hempty]
    · intro h
      rw [h]
      exact ⟨[], rfl, rfl⟩
  · intro event hevent
    have hview := Runs.view_foldl (fun keep event => event ∈ KeepEmpty.events keep)
      (fun event _ => get event (hooksOf settings) = some (.array []))
      nodup_claudeHookEvents (fun keep first hfirst other =>
        propext (mem_observeEvent (hclean first hfirst)))
    rw [hview, if_pos hevent]

def unhook (keep : KeepEmpty) (event : String) : Option Json → Option Json
  | some (.array arr) =>
    if (uninstallGroups arr).2 && (uninstallGroups arr).1.isEmpty && event ∉ keep.events then none
    else some (.array (uninstallGroups arr).1)
  | v => v

def removedIn (v : Option Json) : Bool :=
  (v.bind asArray).any fun arr => (uninstallGroups arr).2

theorem uninstallEvent_eq (keep : KeepEmpty) (hooks : List (String × Json)) (removedAny : Bool)
    (event : String) : uninstallEvent keep (hooks, removedAny) event =
      (alter event (unhook keep event) hooks, removedAny || removedIn (get event hooks)) := by
  simp only [uninstallEvent]
  cases harray : (get event hooks).bind asArray with
  | none =>
    have hsame : unhook keep event (get event hooks) = get event hooks := by
      unfold unhook
      split
      · next arr hvalue => simp [hvalue, asArray] at harray
      · rfl
    simp [alter_of_eq hsame, removedIn, harray]
  | some arr =>
    simp only [removedIn, harray, Option.any_some]
    rw [ite_remove_set (f := unhook keep event) (asArray_eq_some.mp harray) rfl]
    split_ifs <;> rfl

theorem foldl_uninstallEvent (keep : KeepEmpty) {keys : List String} (hkeys : keys.Nodup)
    (hooks : List (String × Json)) (removedAny : Bool) :
    keys.foldl (uninstallEvent keep) (hooks, removedAny) = (alterAll (unhook keep) keys hooks,
        removedAny || keys.any fun event => removedIn (get event hooks)) := by
  induction keys generalizing hooks removedAny with
  | nil => simp [alterAll]
  | cons event keys ih =>
    rw [nodup_cons] at hkeys
    have hrest : (keys.any fun e => removedIn (get e (alter event
        (unhook keep event) hooks))) = keys.any fun e => removedIn (get e hooks) := by
      rw [Bool.eq_iff_iff, any_eq_true, any_eq_true]
      refine exists_congr fun e => and_congr_right fun he => ?_
      rw [get_alter_of_ne (ne_of_mem_of_not_mem he hkeys.1)]
    rw [foldl_cons, uninstallEvent_eq, ih hkeys.2, hrest, any_cons, Bool.or_assoc]
    rfl

structure Session where
  settings : Document
  keep : KeepEmpty

def installStep (s : Session) (command : String) : Except InstallError Session := do
  let settings ← installClaudeHooks s.settings command
  return ⟨settings, observeKeep s.settings s.keep⟩

def entriesOf (settings : Document) (event : String) : List Json :=
  (eventGroups settings event).flatMap fun group => (handlersOf group).getD []

theorem not_isFornaxEntry (hclean : NoFornaxEntry settings) (hevent : event ∈ claudeHookEvents) :
    ∀ entry ∈ entriesOf settings event, isFornaxEntry entry = false := by
  intro entry hentry
  obtain ⟨group, hgroup, hmem⟩ := mem_flatMap.mp hentry
  cases hentries : handlersOf group with
  | none =>
    rw [hentries] at hmem
    cases hmem
  | some entries =>
    rw [hentries] at hmem
    exact hclean event hevent group hgroup entries hentries entry hmem

section Clean

variable (hclean : NoFornaxEntry settings) (hedit : Installable settings)
include hclean hedit

section Event

variable (hevent : event ∈ claudeHookEvents) (command : String)
include hevent

theorem get_event : (get event (hooksOf settings) = none ∨
      get event (hooksOf settings) = some (.array (eventGroups settings event))) ∧
      Foreign (eventGroups settings event) := by
  refine ⟨?_, hclean event hevent⟩
  rcases hedit.2 event hevent with hnone | ⟨arr, harr⟩
  · exact .inl hnone
  · rw [eventGroups_eq harr]
    exact .inr harr

theorem hook_of_foreign : hook (installArray command) (get event (hooksOf settings)) =
      some (.array (eventGroups settings event ++ [fornaxGroup command])) := by
  obtain ⟨hvalue, hforeign⟩ := get_event hclean hedit hevent
  rcases hvalue with hnone | hsome
  · have hgroups : eventGroups settings event = [] := by rw [eventGroups, hnone]; rfl
    rw [hnone, hook, installArray_of_foreign command foreign_nil, hgroups]
  · rw [hsome, hook, installArray_of_foreign command hforeign]

theorem get_installed : get event (hooksOf (installed settings command)) =
      some (.array (eventGroups settings event ++ [fornaxGroup command])) := by
  rw [hooksOf_installed, get_alterAll nodup_claudeHookEvents, if_pos hevent,
    hook_of_foreign hclean hedit hevent]

theorem eventGroups_installed_event : eventGroups (installed settings command) event =
      eventGroups settings event ++ [fornaxGroup command] :=
  eventGroups_eq (get_installed hclean hedit hevent command)

theorem entriesOf_installed : entriesOf (installed settings command) event =
      entriesOf settings event ++ [fornaxEntry command] := by
  rw [entriesOf, eventGroups_installed_event hclean hedit hevent, flatMap_append]
  rfl

end Event

theorem installable_installed (command : String) : Installable (installed settings command) := by
  refine ⟨.inr ?_, fun event hevent => .inr ⟨_, get_installed hclean hedit hevent command⟩⟩
  rw [hooksOf_installed, installed, Fields.set, Fields.get_alter_self]

theorem installed_installed (hold : isFornaxCommand old) (command : String) :
    installed (installed settings old) command = installed settings command := by
  -- every event is there, so the second pass adds none
  let again : Option Json → Option Json := fun v => v.bind fun w => hook (installArray command) w
  have hfirst : alterAll (fun _ => hook (installArray command)) claudeHookEvents
      (hooksOf (installed settings old)) = alterAll (fun _ => again) claudeHookEvents
        (hooksOf (installed settings old)) := by
    refine alterAll_congr nodup_claudeHookEvents fun event hevent => ?_
    rw [get_installed hclean hedit hevent]
    rfl
  have hpass : alterAll (fun _ => again) claudeHookEvents
      (hooksOf (installed settings old)) = alterAll
        (fun _ => hook (installArray command)) claudeHookEvents (hooksOf settings) := by
    rw [hooksOf_installed, alterAll_alterAll nodup_claudeHookEvents
      (fun _ => hook_ne_none _) (fun _ => rfl)]
    refine alterAll_congr nodup_claudeHookEvents fun event hevent => ?_
    obtain ⟨-, hforeign⟩ := get_event hclean hedit hevent
    rw [hook_of_foreign hclean hedit hevent, hook_of_foreign hclean hedit hevent]
    simp only [again, Option.bind_some, hook, installArray_of_installed hold hforeign]
  rw [installed, hfirst, hpass, installed, set_set, installed]

theorem observeKeep_installed (hcommand : isFornaxCommand command) (keep : KeepEmpty) :
    observeKeep (installed settings command) keep = keep := by
  have howned : ∀ event ∈ claudeHookEvents, hasOwned (installed settings command) event := by
    intro event hevent
    have hgroup : groupHasFornaxCommand (fornaxGroup command) :=
      groupHas_iff.mpr ⟨_, handlersOf_fornaxGroup command, by
        simp [isFornaxEntry_fornaxEntry hcommand]⟩
    rw [hasOwned, eventGroups_installed_event hclean hedit hevent, any_append]
    simp [hgroup]
  have hfold : ∀ {keys : List String}, (∀ event ∈ keys, event ∈ claudeHookEvents) →
      keys.foldl (observeEvent (installed settings command)) keep = keep := by
    intro keys hkeys
    induction keys with
    | nil => rfl
    | cons event keys ih =>
      obtain ⟨hevent, hrest⟩ := forall_mem_cons.mp hkeys
      rw [foldl_cons, observeEvent, howned event hevent, if_pos rfl, ih hrest]
  have hany : claudeHookEvents.any (hasOwned (installed settings command)) :=
    any_eq_true.mpr ⟨"Stop", by decide, howned "Stop" (by decide)⟩
  rw [observeKeep, hany, if_pos rfl, hfold fun event hevent => hevent]

theorem unhook_hook (hkeep : Observed settings keep) (hcommand : isFornaxCommand command)
    (hevent : event ∈ claudeHookEvents) :
    unhook keep event (hook (installArray command) (get event (hooksOf settings))) =
      get event (hooksOf settings) := by
  obtain ⟨hvalue, hforeign⟩ := get_event hclean hedit hevent
  have hgroups : uninstallGroups (eventGroups settings event ++ [fornaxGroup command]) =
      (eventGroups settings event, true) := by
    rw [uninstallGroups_append hforeign, uninstallGroups_fornaxGroup hcommand, append_nil]
  have hkept := hkeep.events event hevent
  rw [hook_of_foreign hclean hedit hevent, unhook, hgroups]
  rcases hvalue with hnone | hsome
  · have hnil : eventGroups settings event = [] := by rw [eventGroups, hnone]; rfl
    have habsent : event ∉ keep.events := by
      rw [hkept, hnone]
      simp
    rw [hnil, hnone]
    simp [habsent]
  · cases harr : eventGroups settings event with
    | nil =>
      rw [harr] at hsome
      have hpresent : event ∈ keep.events := hkept.mpr hsome
      rw [hsome]
      simp [hpresent]
    | cons group rest =>
      rw [hsome, harr]
      simp

theorem uninstall_installed (hkeep : Observed settings keep) (hcommand : isFornaxCommand command) :
    uninstallClaudeHooks (installed settings command) keep = settings := by
  have hget : get "hooks" (installed settings command) =
      some (.object (hooksOf (installed settings command))) := by
    rw [hooksOf_installed, installed, Fields.set, Fields.get_alter_self]
  have hpass : alterAll (unhook keep) claudeHookEvents
      (hooksOf (installed settings command)) = hooksOf settings := by
    rw [hooksOf_installed, alterAll_alterAll nodup_claudeHookEvents
      (fun _ => hook_ne_none _) (fun _ => rfl)]
    exact alterAll_of_eq fun event hevent => unhook_hook hclean hedit hkeep hcommand hevent
  have hremoved : (claudeHookEvents.any fun event =>
      removedIn (get event (hooksOf (installed settings command)))) = true := by
    have hstop : "Stop" ∈ claudeHookEvents := by decide
    refine any_eq_true.mpr ⟨"Stop", hstop, ?_⟩
    obtain ⟨-, hforeign⟩ := get_event hclean hedit hstop
    rw [get_installed hclean hedit hstop, removedIn]
    simp only [Option.bind_some, asArray, Option.any_some]
    rw [uninstallGroups_append hforeign, uninstallGroups_fornaxGroup hcommand]
  unfold uninstallClaudeHooks
  rw [hget]
  simp only [Option.bind_some, asObject, foldl_uninstallEvent keep nodup_claudeHookEvents,
    hpass, hremoved, Bool.false_or, Bool.true_and]
  rw [installed, remove_set, set_set]
  rcases hedit.1 with hnone | hsome
  · have hnil := hooksOf_of_none hnone
    have hdropped : keep.hooks = false := by
      rw [← Bool.not_eq_true, hkeep.hooks, hnone]
      simp
    rw [hnil, hdropped]
    exact remove_eq_self_iff.mpr hnone
  · have hsame : set "hooks" (.object (hooksOf settings)) settings = settings :=
      set_eq_self_iff.mpr hsome
    split_ifs with hempty
    · -- an empty `hooks` that was there is in the record
      rw [Bool.and_eq_true, List.isEmpty_iff] at hempty
      rw [hempty.1] at hsome
      rw [hkeep.hooks.mpr hsome] at hempty
      cases hempty.2
    · exact hsame

theorem installSteps_installed (keep : KeepEmpty) {commands : List String}
    (hcommands : ∀ command ∈ old :: commands, isFornaxCommand command) :
    commands.foldlM installStep ⟨installed settings old, keep⟩ =
      .ok ⟨installed settings ((old :: commands).getLast (cons_ne_nil _ _)), keep⟩ := by
  induction commands generalizing old with
  | nil => rfl
  | cons command commands ih =>
    obtain ⟨hold, hrest⟩ := forall_mem_cons.mp hcommands
    have hstep : installStep ⟨installed settings old, keep⟩ command =
        .ok ⟨installed settings command, keep⟩ := by
      rw [installStep, installClaudeHooks_eq (installable_installed hclean hedit old),
        installed_installed hclean hedit hold, observeKeep_installed hclean hedit hold]
      rfl
    rw [foldlM_cons, hstep]
    exact ih hrest

end Clean

/-- Any installations with Fornax commands on settings without an entry of ours, the record kept
along them from whatever it was: every known event has one entry of ours with the last
command after the entries that were there, no other event is touched, and the uninstallation
with the record gives the settings back. -/
theorem install_uninstall_restores {settings : Document} (hclean : NoFornaxEntry settings)
    (hinstalls : ∃ command after, installClaudeHooks settings command = .ok after)
    (prior : KeepEmpty) {commands : List String} (hne : commands ≠ [])
    (hcommands : ∀ command ∈ commands, isFornaxCommand command = true) :
    ∃ s, commands.foldlM installStep ⟨settings, prior⟩ = .ok s ∧
      uninstallClaudeHooks s.settings s.keep = settings ∧
      (∀ event ∈ claudeHookEvents, ∃ entry,
        (entriesOf s.settings event).filter isFornaxEntry = [entry] ∧
          commandOf entry = some (commands.getLast hne) ∧
          (entriesOf s.settings event).filter (fun entry => !isFornaxEntry entry) =
            entriesOf settings event ∧
          ∃ ours, eventGroups s.settings event = eventGroups settings event ++ [ours]) ∧
      ∀ event ∉ claudeHookEvents, get event (hooksOf s.settings) =
        get event (hooksOf settings) := by
  obtain ⟨_, _, hok⟩ := hinstalls
  have hedit := installable_of_ok hok
  obtain ⟨first, rest, rfl⟩ := exists_cons_of_ne_nil hne
  have hlast : isFornaxCommand ((first :: rest).getLast hne) :=
    hcommands _ (getLast_mem hne)
  refine ⟨⟨installed settings ((first :: rest).getLast hne), observeKeep settings prior⟩, ?_, ?_,
    fun event hevent => ?_, fun event hevent => ?_⟩
  · have hstep : installStep ⟨settings, prior⟩ first =
        .ok ⟨installed settings first, observeKeep settings prior⟩ := by
      rw [installStep, installClaudeHooks_eq hedit]
      rfl
    rw [foldlM_cons, hstep]
    exact installSteps_installed hclean hedit _ hcommands
  · exact uninstall_installed hclean hedit (observeKeep_of_foreign hclean prior) hlast
  · obtain ⟨hours, htheirs⟩ := foreign_filters (not_isFornaxEntry hclean hevent)
    have hentry := isFornaxEntry_fornaxEntry hlast
    refine ⟨fornaxEntry ((first :: rest).getLast hne), ?_, rfl, ?_, _,
      eventGroups_installed_event hclean hedit hevent _⟩
    · rw [entriesOf_installed hclean hedit hevent, filter_append, hours]
      simp [hentry]
    · rw [entriesOf_installed hclean hedit hevent, filter_append, htheirs]
      simp [hentry]
  · rw [hooksOf_installed, get_alterAll nodup_claudeHookEvents, if_neg hevent]

theorem foreign_of_all
    (h : arr.all (fun group => ((handlersOf group).getD []).all (!isFornaxEntry ·))) :
    Foreign arr := by
  intro group hgroup entries hentries entry hentry
  have hall := all_eq_true.mp h group hgroup
  rw [hentries] at hall
  simpa using all_eq_true.mp hall entry hentry

def sampleSettings : Document :=
  [("model", .string "opus"),
    ("hooks", .object [("Stop", .array []), ("PreToolUse", .array [.object [("hooks",
      .array [.object [("type", .string "command"), ("command", .string "audit")]])]])])]

theorem install_uninstall_restores_sample :
    ∃ s, ["fornax-hook-claude", "/opt/fornax/fornax-hook-claude"].foldlM installStep
        ⟨sampleSettings, ⟨true, ∅⟩⟩ = .ok s ∧
      uninstallClaudeHooks s.settings s.keep = sampleSettings := by
  have hclean : NoFornaxEntry sampleSettings := by
    have hall : ∀ event ∈ claudeHookEvents, (eventGroups sampleSettings event).all (fun group =>
        ((handlersOf group).getD []).all (!isFornaxEntry ·)) = true := by
      decide +kernel
    exact fun event hevent => foreign_of_all (hall event hevent)
  have hinstalls : ∃ command after, installClaudeHooks sampleSettings command = .ok after := by
    obtain ⟨after, hafter⟩ : ∃ after, installClaudeHooks sampleSettings "" = .ok after :=
      Fallible.exists_of_isOk (by decide +kernel)
    exact ⟨"", after, hafter⟩
  obtain ⟨s, hs, hrestored, -⟩ := install_uninstall_restores hclean hinstalls ⟨true, ∅⟩
    (cons_ne_nil "fornax-hook-claude" ["/opt/fornax/fornax-hook-claude"]) (by decide +kernel)
  exact ⟨s, hs, hrestored⟩

end Fornax.Cli.Claude
