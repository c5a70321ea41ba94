import Fornax.Codex.ToolOutput

namespace Fornax.Codex

open List Json

variable {I : Type*}

/-- `Uuid::new_v5` under the namespace of the adapter, and the random ids in the order of their
draws. -/
structure Uuids (I : Type*) where
  newV5 : String → I
  newV4 : ℕ → I

structure Uuids.Distinct (u : Uuids I) : Prop where
  newV5 : Function.Injective u.newV5
  newV4 : Function.Injective u.newV4
  apart : ∀ n name, u.newV4 n ≠ u.newV5 name

def dedupId (u : Uuids I) (sessionId phase nativeId : String) : I :=
  u.newV5 ("codex:v1:" ++ sessionId ++ ":" ++ phase ++ ":" ++ nativeId)

structure ToolIds (I : Type*) where
  event : I
  evidence : List I

/-- A rollout line with what `translate_line` is called with; `drawn` random ids were drawn
before. -/
structure ToolLine where
  entry : Json
  sessionId : String
  itemFormat : Bool
  drawn : ℕ

namespace ToolLine

def payload (l : ToolLine) : Json := (l.entry.get? "payload").getD .null

def subType (l : ToolLine) : Option String := (l.payload.get? "type").bind asStr

def callId (l : ToolLine) : Option String := (l.payload.get? "call_id").bind asStr

def item (l : ToolLine) : Json := (l.payload.get? "item").getD .null

def itemField (l : ToolLine) (field : String) : Option String := (l.item.get? field).bind asStr

variable (u : Uuids I) (l : ToolLine)

def translateItemCompleted : Option (ToolIds I) :=
  let nativeId := (l.itemField "id").getD ""
  if l.itemField "type" = some "CommandExecution" ∧
      (l.itemField "status" = some "completed" ∨ l.itemField "status" = some "failed") ∧
      ((l.item.get? "exit_code").bind asI64).isSome then
    some ⟨dedupId u l.sessionId "tool_after" nativeId,
      if l.itemField "source" = some "user_shell" then []
      else [dedupId u l.sessionId "tool_after:exit_code" nativeId]⟩
  else none

/-- The part of `translate_line` that turns the result of a command into messages. -/
def translateLine : Option (ToolIds I) :=
  match (l.entry.get? "type").bind asStr, l.subType with
  | some "response_item", some "custom_tool_call_output" =>
    match l.callId with
    | none => none
    | some callId =>
      if l.itemFormat then none
      else some ⟨dedupId u l.sessionId "tool_after" callId,
        (reportOf (CustomToolCallOutputSensor.outputBlocks l.payload)).map fun _ =>
          dedupId u l.sessionId "tool_after:exit_code" callId⟩
  | some "event_msg", some "exec_command_end" =>
    some ⟨(l.callId.map (dedupId u l.sessionId "tool_after")).getD (u.newV4 l.drawn),
      ((l.payload.get? "exit_code").bind asI64).toList.map fun _ =>
        (l.callId.map (dedupId u l.sessionId "tool_after:exit_code")).getD
          (u.newV4 (l.drawn + 1))⟩
  | some "event_msg", some "item_completed" => l.translateItemCompleted u
  | _, _ => none

def isItem : Bool := l.subType == some "item_completed"

def nativeId : Option String := if l.isItem then l.itemField "id" else l.callId

/-- The line is filed under the empty native id, which an item without an id is as well. -/
def Nameless : Prop := (l.isItem = true ∧ l.nativeId = none) ∨ l.nativeId = some ""

def keyedBy : Option String := if l.isItem then some (l.nativeId.getD "") else l.nativeId

def identity (phase : String) (draw : ℕ) : I :=
  (l.keyedBy.map (dedupId u l.sessionId phase)).getD (u.newV4 draw)

variable {u l}

theorem translateLine_eq_some {ids : ToolIds I} (h : l.translateLine u = some ids) :
    ids.event = l.identity u "tool_after" l.drawn ∧
      ∀ i ∈ ids.evidence, i = l.identity u "tool_after:exit_code" (l.drawn + 1) := by
  unfold translateLine at h
  unfold identity keyedBy nativeId isItem
  split at h
  · rename_i hsub
    split at h
    · cases h
    · rename_i id hid
      split_ifs at h
      cases h
      simp +contextual [hsub, hid]
  · rename_i hsub
    cases h
    simp +contextual [hsub]
  · rename_i hsub
    unfold translateItemCompleted at h
    dsimp only at h
    split_ifs at h <;> cases h <;> simp [hsub]
  · cases h

theorem nameless_of_keyedBy {id : String} (hkeyed : l.keyedBy = some id)
    (hne : l.nativeId ≠ some id) : id = "" ∧ l.Nameless := by
  unfold keyedBy at hkeyed
  split_ifs at hkeyed with hitem
  · cases hid : l.nativeId with
    | none =>
      rw [hid] at hkeyed
      cases hkeyed
      exact ⟨rfl, .inl ⟨hitem, hid⟩⟩
    | some native =>
      rw [hid] at hkeyed
      exact absurd (hid.trans hkeyed) hne
  · exact absurd hkeyed hne

theorem keyedBy_of_nameless (h : l.Nameless) : l.keyedBy = some "" := by
  unfold keyedBy
  rcases h with ⟨hitem, hid⟩ | hid
  · rw [if_pos hitem, hid]
    rfl
  · rw [hid]
    split <;> rfl

theorem dedupId_inj (hu : u.Distinct) {s s' phase n n' : String} (hs : ':' ∉ s.toList)
    (hs' : ':' ∉ s'.toList) (h : dedupId u s phase n = dedupId u s' phase n') :
    s = s' ∧ n = n' := by
  have hkey := congrArg String.toList (hu.newV5 h)
  simp only [String.toList_append, append_assoc, append_cancel_left_eq] at hkey
  have hcut : ∀ {a b : List Char}, ':' ∉ a →
      (a ++ (":".toList ++ b)).takeWhile (· != ':') = a := by
    intro a b ha
    refine Text.takeWhile_append_of_all (fun c hc => ?_) (by simp)
    simpa using ne_of_mem_of_not_mem hc ha
  have hsame : s.toList = s'.toList := by
    rw [← hcut hs, hkey, hcut hs']
  rw [hsame] at hkey
  simp only [append_cancel_left_eq] at hkey
  exact ⟨String.toList_injective hsame, String.toList_injective hkey⟩

theorem identity_inj (hu : u.Distinct) {x y : ToolLine} (hx : ':' ∉ x.sessionId.toList)
    (hy : ':' ∉ y.sessionId.toList) {phase : String} {d d' : ℕ} (hd : d ≠ d')
    (h : x.identity u phase d = y.identity u phase d') :
    x.sessionId = y.sessionId ∧ ∃ id, x.keyedBy = some id ∧ y.keyedBy = some id := by
  unfold identity at h
  cases hxk : x.keyedBy <;> cases hyk : y.keyedBy <;> rw [hxk, hyk] at h
  · exact absurd (hu.newV4 h) hd
  · exact absurd h (hu.apart _ _)
  · exact absurd h.symm (hu.apart _ _)
  · next id _ =>
    obtain ⟨hs, rfl⟩ := dedupId_inj hu hx hy h
    exact ⟨hs, id, rfl, rfl⟩

end ToolLine

def commandItem (id : List (String × Json)) (drawn : ℕ) : ToolLine where
  entry := .object [("type", .string "event_msg"), ("payload", .object
    [("type", .string "item_completed"), ("item", .object (id ++
      [("type", .string "CommandExecution"), ("status", .string "completed"),
        ("exit_code", .number (.posInt 0))]))])]
  sessionId := "s1"
  itemFormat := true
  drawn := drawn

def namedIds : Uuids (String ⊕ ℕ) := ⟨.inl, .inr⟩

end Fornax.Codex
