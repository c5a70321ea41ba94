import Fornax.Lib.Fallible
import Fornax.Lib.Fields

namespace Fornax

open Fields

/-- `Path::file_name`: the last component, unless it is `..`. -/
def fileName (path : Text) : Option Text :=
  ((path.splitOnP (· == '/')).filter fun part => part ≠ [] ∧ part ≠ ['.']).getLast?.filter
    (· ≠ ['.', '.'])

namespace Json

def asArray : Json → Option (List Json)
  | array items => some items
  | _ => none

def asObject : Json → Option (List (String × Json))
  | object fields => some fields
  | _ => none

def setField : Json → String → Json → Json
  | object fields, key, v => object (set key v fields)
  | other, _, _ => other

theorem get?_setField {v w : Json} {key : String} (h : (v.get? key) ≠ none) :
    (v.setField key w).get? key = some w := by
  cases v with
  | object fields => exact get_alter_self key _ fields
  | _ => exact absurd rfl h

end Json

namespace Cli

abbrev Document := List (String × Json)

def handlersOf (group : Json) : Option (List Json) := (group.get? "hooks").bind Json.asArray

def withHandlers (group : Json) (handlers : List Json) : Json :=
  group.setField "hooks" (.array handlers)

theorem handlersOf_withHandlers {group : Json} {old : List Json}
    (h : handlersOf group = some old) (handlers : List Json) :
    handlersOf (withHandlers group handlers) = some handlers := by
  have hpresent : group.get? "hooks" ≠ none := by
    intro hnone
    rw [handlersOf, hnone] at h
    cases h
  rw [handlersOf, withHandlers, Json.get?_setField hpresent]
  rfl

def hooksOf (root : Document) : List (String × Json) :=
  ((get "hooks" root).bind Json.asObject).getD []

def eventGroups (root : Document) (event : String) : List Json :=
  ((get event (hooksOf root)).bind Json.asArray).getD []

theorem hooksOf_set (hooks : List (String × Json)) (root : Document) :
    hooksOf (set "hooks" (.object hooks) root) = hooks := by
  rw [hooksOf, Fields.set, Fields.get_alter_self]
  rfl

theorem asArray_eq_some {v : Option Json} {arr : List Json} :
    v.bind Json.asArray = some arr ↔ v = some (.array arr) := by
  cases v with
  | none => simp
  | some value => cases value <;> simp [Json.asArray]

variable {root : Document} {fields : List (String × Json)} {key : String}

theorem asObject_eq_some {v : Option Json} :
    v.bind Json.asObject = some fields ↔ v = some (.object fields) := by
  cases v with
  | none => simp
  | some value => cases value <;> simp [Json.asObject]

theorem hooksOf_of_none (h : get "hooks" root = none) : hooksOf root = [] := by
  rw [hooksOf, h]
  rfl

theorem hooksOf_of_object {hooks : Document} (h : get "hooks" root = some (.object hooks)) :
    hooksOf root = hooks := by
  rw [hooksOf, h]
  rfl

theorem eventGroups_eq {event : String} {arr : List Json}
    (h : get event (hooksOf root) = some (.array arr)) : eventGroups root event = arr := by
  rw [eventGroups, h]
  rfl

inductive InstallError
  | hooksNotObject
  | eventNotArray (event : String)
  deriving DecidableEq

def InstallError.message (file : String) : InstallError → String
  | hooksNotObject => "existing \"hooks\" value in " ++ file ++
    " is not an object — refusing to overwrite it"
  | eventNotArray event => "existing \"hooks." ++ event ++ "\" value in " ++ file ++
    " is not an array — refusing to overwrite it"

variable (edit : List Json → List Json)

def installEvent (hooks : List (String × Json)) (event : String) :
    Except InstallError (List (String × Json)) :=
  match ((get event hooks).getD (.array [])).asArray with
  | none => .error (.eventNotArray event)
  | some arr => .ok (set event (.array (edit arr)) hooks)

def installInto (events : List String) (root : Document) : Except InstallError Document :=
  match ((get "hooks" root).getD (.object [])).asObject with
  | none => .error .hooksNotObject
  | some hooks => do
    let hooks ← events.foldlM (installEvent edit) hooks
    return set "hooks" (.object hooks) root

def hook : Option Json → Option Json
  | none => some (.array (edit []))
  | some (.array arr) => some (.array (edit arr))
  | v => v

theorem hook_ne_none (v : Option Json) : hook edit v ≠ none := by
  cases v with
  | none => simp [hook]
  | some value => cases value <;> simp [hook]

def Editable (v : Option Json) : Prop := v = none ∨ ∃ arr, v = some (.array arr)

theorem installEvent_eq_ok {hooks hooks' : List (String × Json)} {event : String} :
    installEvent edit hooks event = .ok hooks' ↔
      Editable (get event hooks) ∧ hooks' = alter event (hook edit) hooks := by
  unfold installEvent
  cases hvalue : get event hooks with
  | none =>
    have hsame : set event (.array (edit [])) hooks = alter event (hook edit) hooks :=
      alter_congr (by rw [hvalue]; rfl)
    simp [Editable, Json.asArray, hsame, eq_comm]
  | some value =>
    cases value with
    | array arr =>
      have hsame : set event (.array (edit arr)) hooks =
          alter event (hook edit) hooks := alter_congr (by rw [hvalue]; rfl)
      simp [Editable, Json.asArray, hsame, eq_comm]
    | _ => simp [Editable, Json.asArray]

theorem foldlM_installEvent {keys : List String} (hkeys : keys.Nodup)
    {hooks hooks' : List (String × Json)} : keys.foldlM (installEvent edit) hooks = .ok hooks' ↔
      (∀ event ∈ keys, Editable (get event hooks)) ∧
        hooks' = alterAll (fun _ => hook edit) keys hooks := by
  induction keys generalizing hooks with
  | nil =>
    simp [alterAll, pure, Except.pure, eq_comm]
  | cons event keys ih =>
    rw [List.nodup_cons] at hkeys
    have hrest : (∀ e ∈ keys, Editable (get e (alter event (hook edit) hooks))) ↔
        ∀ e ∈ keys, Editable (get e hooks) := by
      refine forall₂_congr fun e he => ?_
      rw [get_alter_of_ne (ne_of_mem_of_not_mem he hkeys.1)]
    rw [List.foldlM_cons, Fallible.bind_eq_ok]
    constructor
    · rintro ⟨mid, hmid, h⟩
      obtain ⟨hfirst, rfl⟩ := (installEvent_eq_ok edit).mp hmid
      obtain ⟨hothers, rfl⟩ := (ih hkeys.2).mp h
      exact ⟨List.forall_mem_cons.mpr ⟨hfirst, hrest.mp hothers⟩, rfl⟩
    · rintro ⟨hall, rfl⟩
      obtain ⟨hfirst, hothers⟩ := List.forall_mem_cons.mp hall
      exact ⟨_, (installEvent_eq_ok edit).mpr ⟨hfirst, rfl⟩,
        (ih hkeys.2).mpr ⟨hrest.mpr hothers, rfl⟩⟩

def HasHooks (root : Document) : Prop :=
  get "hooks" root = none ∨ get "hooks" root = some (.object (hooksOf root))

theorem installInto_eq_ok {events : List String} (hevents : events.Nodup) {installed : Document} :
    installInto edit events root = .ok installed ↔
      HasHooks root ∧ (∀ event ∈ events, Editable (get event (hooksOf root))) ∧
        installed = set "hooks"
          (.object (alterAll (fun _ => hook edit) events (hooksOf root))) root := by
  have hok : ∀ hooks, hooksOf root = hooks → ((do
        let hooks ← events.foldlM (installEvent edit) hooks
        return set "hooks" (.object hooks) root) = Except.ok installed ↔
      (∀ event ∈ events, Editable (get event (hooksOf root))) ∧ installed = set "hooks"
          (.object (alterAll (fun _ => hook edit) events (hooksOf root))) root) := by
    rintro hooks rfl
    rw [Fallible.bind_eq_ok]
    constructor
    · rintro ⟨hooks', hfold, h⟩
      obtain ⟨hall, rfl⟩ := (foldlM_installEvent edit hevents).mp hfold
      cases h
      exact ⟨hall, rfl⟩
    · rintro ⟨hall, rfl⟩
      exact ⟨_, (foldlM_installEvent edit hevents).mpr ⟨hall, rfl⟩, rfl⟩
  unfold installInto
  cases hvalue : get "hooks" root with
  | none =>
    have hof := hooksOf_of_none hvalue
    simp only [Option.getD_none, Json.asObject, hok [] hof, HasHooks, hvalue, true_or, true_and]
  | some value =>
    cases value with
    | object hooks =>
      have hof := hooksOf_of_object hvalue
      simp only [Option.getD_some, Json.asObject, hok hooks hof, HasHooks, hvalue, hof, or_true,
        true_and]
    | _ => simp [Json.asObject, HasHooks, hvalue]

theorem eventGroups_installed {events : List String} (hevents : events.Nodup)
    (hedit : ∀ event ∈ events, Editable (get event (hooksOf root))) (event : String) :
    eventGroups (set "hooks"
        (.object (alterAll (fun _ => hook edit) events (hooksOf root))) root) event =
      if event ∈ events then edit (eventGroups root event) else eventGroups root event := by
  unfold eventGroups
  rw [hooksOf_set, get_alterAll hevents]
  split_ifs with hevent
  · rcases hedit event hevent with hnone | ⟨arr, harr⟩
    · rw [hnone]
      rfl
    · rw [harr]
      rfl
  · rfl

theorem set_eq_self_iff {v : Json} : set key v fields = fields ↔ get key fields = some v := by
  constructor
  · intro h
    rw [← h, Fields.set, Fields.get_alter_self]
  · exact fun h => alter_of_eq h.symm

theorem remove_eq_self_iff : remove key fields = fields ↔ get key fields = none := by
  constructor
  · intro h
    rw [← h, get_remove, if_pos rfl]
  · intro h
    rw [remove_eq_alter]
    exact alter_of_eq h.symm

theorem ite_remove_set {v w : Json} {drop : Prop} [Decidable drop] {f : Option Json → Option Json}
    (hget : get key fields = some v) (hf : f (some v) = if drop then none else some w) :
    alter key f fields = if drop then remove key fields else set key w fields := by
  split_ifs with hdrop
  · rw [remove_eq_alter]
    exact alter_congr (by rw [hget, hf, if_pos hdrop])
  · exact alter_congr (by rw [hget, hf, if_neg hdrop])

theorem set_set (key : String) (v w : Json) (fields : List (String × Json)) :
    set key w (set key v fields) = set key w fields :=
  alter_alter fun _ => Option.some_ne_none v

theorem remove_set (key : String) (v : Json) (fields : List (String × Json)) :
    remove key (set key v fields) = remove key fields := by
  rw [remove_eq_alter, remove_eq_alter]
  exact alter_alter fun _ => Option.some_ne_none v

end Cli

end Fornax
