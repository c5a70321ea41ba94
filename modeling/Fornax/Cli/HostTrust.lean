import Fornax.Lib.OrdMap
import Fornax.Lib.Patterns
import Fornax.Cli.CodexHooks

namespace Fornax.HostTrust

open List

open Cli (Document eventGroups handlersOf)
open Cli.Codex (hookBin events handlerIsFornax handlerAt installHooks)

def eventsSnake : List String := ["pre_tool_use", "post_tool_use", "session_start"]

structure ExpectedHook where
  eventPascal : String
  eventSnake : String
  groupIdx : ℕ
  handlerIdx : ℕ
  deriving DecidableEq

def ExpectedHook.expectedKey (hooksJsonPath : String) (e : ExpectedHook) : String :=
  hooksJsonPath ++ ":" ++ e.eventSnake ++ ":" ++ toString e.groupIdx ++ ":" ++ toString e.handlerIdx

def fornaxIndices (group : Json) : List ℕ :=
  (((handlersOf group).getD []).zipIdx.filter fun h => handlerIsFornax h.1).map (·.2)

def expectedHooks (root : Document) : List ExpectedHook :=
  (events.zip eventsSnake).flatMap fun (eventPascal, eventSnake) =>
    (eventGroups root eventPascal).zipIdx.flatMap fun (group, groupIdx) =>
      (fornaxIndices group).map fun handlerIdx => ⟨eventPascal, eventSnake, groupIdx, handlerIdx⟩

structure HooksListHook where
  key : String
  eventName : String
  command : String
  enabled : Bool
  currentHash : String
  trustStatus : String
  deriving DecidableEq

def looksLikeSha256Digest (s : String) : Bool :=
  match Text.stripPrefix "sha256:".toList s.toList with
  | some hex => Text.utf8Len hex == 64 &&
    hex.all fun ch => (ch.isDigit || 'a' ≤ ch && ch ≤ 'f' || 'A' ≤ ch && ch ≤ 'F') && !ch.isUpper
  | none => false

def canonicalEventName (name : String) : Option String :=
  if name = "preToolUse" ∨ name = "pre_tool_use" then some "pre_tool_use"
  else if name = "postToolUse" ∨ name = "post_tool_use" then some "post_tool_use"
  else if name = "sessionStart" ∨ name = "session_start" then some "session_start"
  else none

def commandBasename (command : String) : Text :=
  (fileName ((Text.splitWhitespace command.toList).head?.getD command.toList)).getD command.toList

inductive Trust
  | trusted
  | untrusted
  | unknown
  deriving DecidableEq

inductive ReasonCode
  | fornaxHooksNotInstalled
  | fornaxHooksIncomplete
  | hookAbsentFromHostListing
  | unexpectedFornaxHookInHostListing
  | duplicateHostKey
  | hostListingIdentityMismatch
  | hostResponseMalformed
  | unrecognizedTrustStatus (status : String)
  | hookDisabledByHost
  deriving DecidableEq

structure HookVerdict where
  event : String
  key : String
  trust : Trust
  hostTrustStatus : Option String
  currentHash : Option String
  reasons : List ReasonCode

structure AggregateVerdict where
  hostTrust : Trust
  hooks : List HookVerdict
  globalReasons : List ReasonCode

def hasEveryEvent (expected : List ExpectedHook) : Bool :=
  events.all fun event => expected.any fun e => e.eventPascal == event

def blockingReasons (eventSnake : String) (hook : HooksListHook) : List ReasonCode :=
  (if canonicalEventName hook.eventName = some eventSnake ∧
      commandBasename hook.command = hookBin.toList then []
    else [.hostListingIdentityMismatch]) ++
  if looksLikeSha256Digest hook.currentHash then [] else [.hostResponseMalformed]

def trustOf (hook : HooksListHook) : Trust × List ReasonCode :=
  if hook.trustStatus = "trusted" then (.trusted, [])
  else if hook.trustStatus = "untrusted" ∨ hook.trustStatus = "modified" then (.untrusted, [])
  else (.unknown, [.unrecognizedTrustStatus hook.trustStatus])

def verdictForOne (event eventSnake key : String) : List HooksListHook → HookVerdict
  | [] => ⟨event, key, .unknown, none, none, [.hookAbsentFromHostListing]⟩
  | [hook] =>
    let blocking := blockingReasons eventSnake hook
    let (trust, reasons) := if !blocking.isEmpty then (.unknown, blocking) else trustOf hook
    ⟨event, key, trust, some hook.trustStatus, some hook.currentHash,
      -- whether the hook runs is not a matter of trust
      reasons ++ if hook.enabled then [] else [.hookDisabledByHost]⟩
  | hook :: _ :: _ =>
    ⟨event, key, .unknown, some hook.trustStatus, some hook.currentHash, [.duplicateHostKey]⟩

def aggregate (globalReasons : List ReasonCode) (hooks : List HookVerdict) : Trust :=
  if !globalReasons.isEmpty then .unknown
  else if hooks.isEmpty then .unknown
  else if hooks.any fun h => h.trust == .unknown then .unknown
  else if hooks.any fun h => h.trust == .untrusted then .untrusted
  else .trusted

structure Iteration (K V : Type) [LinearOrder K] where
  entries : OrdMap K V → List (K × V)
  perm : ∀ m, (entries m).Perm m.entries

def fornaxKey (hook : HooksListHook) : Option String :=
  if commandBasename hook.command = hookBin.toList then some hook.key else none

def byKey (reported : List HooksListHook) : OrdMap String (List HooksListHook) :=
  OrdMap.groupBy fornaxKey id reported

def unexpectedVerdict (key : String) (hook : HooksListHook) : HookVerdict :=
  ⟨(canonicalEventName hook.eventName).getD "unknown_event", key, .unknown,
    some hook.trustStatus, some hook.currentHash, [.unexpectedFornaxHookInHostListing]⟩

def expectedVerdicts (hooksJsonPath : String) (expected : List ExpectedHook)
    (reported : List HooksListHook) : List HookVerdict :=
  expected.map fun e =>
    let key := e.expectedKey hooksJsonPath
    verdictForOne e.eventPascal e.eventSnake key (((byKey reported).get? key).getD [])

def unexpectedVerdicts (it : Iteration String (List HooksListHook)) (hooksJsonPath : String)
    (expected : List ExpectedHook) (reported : List HooksListHook) : List HookVerdict :=
  let expectedKeys := OrdSet.ofList (expected.map (ExpectedHook.expectedKey hooksJsonPath))
  (it.entries (byKey reported)).flatMap fun bucket =>
    if expectedKeys.contains bucket.1 then [] else bucket.2.map (unexpectedVerdict bucket.1)

def reconcile (it : Iteration String (List HooksListHook)) (hooksJsonPath : String)
    (expected : List ExpectedHook) (reported : List HooksListHook) : AggregateVerdict :=
  if expected.isEmpty then ⟨.unknown, [], [.fornaxHooksNotInstalled]⟩
  else
    let globalReasons := if hasEveryEvent expected then [] else [.fornaxHooksIncomplete]
    let hooks := expectedVerdicts hooksJsonPath expected reported ++
      unexpectedVerdicts it hooksJsonPath expected reported
    ⟨aggregate globalReasons hooks, hooks, globalReasons⟩

/-- The digest's text has 64 lower-case hexadecimal digits after its name. -/
def Sha256Text (s : String) : Prop :=
  ∃ hex : Text, s.toList = "sha256:".toList ++ hex ∧ hex.length = 64 ∧
    ∀ ch ∈ hex, ch.isDigit = true ∨ 'a' ≤ ch ∧ ch ≤ 'f'

theorem lowerHex_iff (ch : Char) :
    ((ch.isDigit || 'a' ≤ ch && ch ≤ 'f' || 'A' ≤ ch && ch ≤ 'F') && !ch.isUpper) ↔
      (ch.isDigit ∨ 'a' ≤ ch ∧ ch ≤ 'f') := by
  simp only [Char.isDigit, Char.isUpper, Bool.and_eq_true, Bool.or_eq_true, Bool.not_eq_true',
    decide_eq_true_eq, decide_eq_false_iff_not, Char.le_def, UInt32.le_iff_toNat_le, ge_iff_le]
  have ha : 'a'.val.toNat = 97 := rfl
  have hf : 'f'.val.toNat = 102 := rfl
  have hA : 'A'.val.toNat = 65 := rfl
  have hF : 'F'.val.toNat = 70 := rfl
  have hZ : 'Z'.val.toNat = 90 := rfl
  have h0 : '0'.val.toNat = 48 := rfl
  have h9 : '9'.val.toNat = 57 := rfl
  simp only [ha, hf, hA, hF, hZ, h0, h9]
  grind

theorem utf8Size_of_lowerHex {ch : Char} (h : ch.isDigit ∨ 'a' ≤ ch ∧ ch ≤ 'f') :
    ch.utf8Size = 1 := by
  simp only [Char.isDigit, Bool.and_eq_true, decide_eq_true_eq, Char.le_def,
    UInt32.le_iff_toNat_le, ge_iff_le] at h
  have hf : 'f'.val.toNat = 102 := rfl
  have h9 : '9'.val.toNat = 57 := rfl
  rw [Char.utf8Size_eq_one_iff, UInt32.le_iff_toNat_le]
  simp only [hf, h9] at h
  change _ ≤ 127
  omega

theorem looksLikeSha256Digest_iff {s : String} : looksLikeSha256Digest s ↔ Sha256Text s := by
  have hlen : ∀ {hex : Text}, (∀ ch ∈ hex, ch.isDigit = true ∨ 'a' ≤ ch ∧ ch ≤ 'f') →
      Text.utf8Len hex = hex.length := by
    intro hex hhex
    rw [Text.utf8Len, map_congr_left fun ch hch => utf8Size_of_lowerHex (hhex ch hch)]
    simp
  unfold looksLikeSha256Digest
  split
  next hex hstrip =>
    rw [Text.stripPrefix_eq_some] at hstrip
    rw [Bool.and_eq_true, beq_iff_eq, all_eq_true, forall₂_congr fun ch _ => lowerHex_iff ch]
    constructor
    · rintro ⟨hsize, hhex⟩
      exact ⟨hex, hstrip.symm, (hlen hhex).symm.trans hsize, hhex⟩
    · rintro ⟨hex', htext, hsize, hhex⟩
      rw [← hstrip] at htext
      cases append_cancel_left htext
      exact ⟨(hlen hhex).trans hsize, hhex⟩
  next hstrip =>
    simp only [Bool.false_eq_true, false_iff]
    rintro ⟨hex, htext, -⟩
    rw [Text.stripPrefix_eq_some.mpr htext.symm] at hstrip
    cases hstrip

structure Reported (eventSnake : String) (hook : HooksListHook) : Prop where
  event : canonicalEventName hook.eventName = some eventSnake
  digest : Sha256Text hook.currentHash
  status : hook.trustStatus = "trusted"

theorem verdictForOne_key (event eventSnake key : String) (hooks : List HooksListHook) :
    (verdictForOne event eventSnake key hooks).key = key := by
  unfold verdictForOne
  split <;> rfl

variable {reported : List HooksListHook} {key : String}

theorem verdictForOne_trusted_iff {event eventSnake : String} {hooks : List HooksListHook}
    (hbin : ∀ h ∈ hooks, commandBasename h.command = hookBin.toList) :
    (verdictForOne event eventSnake key hooks).trust = .trusted ↔
      ∃ hook, hooks = [hook] ∧ Reported eventSnake hook := by
  match hooks, hbin with
  | [], _ => simp [verdictForOne]
  | hook :: _ :: _, _ => simp [verdictForOne]
  | [hook], hbin =>
    have hname := hbin hook (mem_singleton_self hook)
    have hblocking : blockingReasons eventSnake hook = [] ↔
        canonicalEventName hook.eventName = some eventSnake ∧ Sha256Text hook.currentHash := by
      rw [← looksLikeSha256Digest_iff]
      by_cases hevent : canonicalEventName hook.eventName = some eventSnake <;>
        by_cases hdigest : looksLikeSha256Digest hook.currentHash = true <;>
        simp [blockingReasons, hname, hevent, hdigest]
    have htrust : (trustOf hook).1 = .trusted ↔ hook.trustStatus = "trusted" := by
      unfold trustOf
      split_ifs <;> simp_all
    constructor
    · intro h
      by_cases hnil : blockingReasons eventSnake hook = []
      · have hword : (trustOf hook).1 = .trusted := by
          simpa [verdictForOne, hnil] using h
        obtain ⟨hevent, hdigest⟩ := hblocking.mp hnil
        exact ⟨hook, rfl, hevent, hdigest, htrust.mp hword⟩
      · simp [verdictForOne, hnil] at h
    · rintro ⟨hook', heq, hevent, hdigest, hstatus⟩
      cases heq
      simpa [verdictForOne, hblocking.mpr ⟨hevent, hdigest⟩] using htrust.mpr hstatus

theorem verdictForOne_trust_perm {event eventSnake : String} {hooks hooks' : List HooksListHook}
    (h : hooks.Perm hooks') : (verdictForOne event eventSnake key hooks).trust =
      (verdictForOne event eventSnake key hooks').trust := by
  match hooks, hooks', h.length_eq with
  | [], [], _ => rfl
  | [hook], [hook'], _ =>
    cases singleton_perm_singleton.mp h
    rfl
  | _ :: _ :: _, _ :: _ :: _, _ => rfl

theorem getD_byKey (reported : List HooksListHook) (key : String) :
    ((byKey reported).get? key).getD [] = reported.filter fun h => fornaxKey h == some key := by
  rw [byKey, OrdMap.getD_groupBy, map_id]

theorem fornaxKey_eq_some {hook : HooksListHook} :
    fornaxKey hook = some key ↔ commandBasename hook.command = hookBin.toList ∧ hook.key = key := by
  unfold fornaxKey
  split_ifs with h <;> simp [h]

theorem unexpectedVerdicts_perm (it : Iteration String (List HooksListHook))
    (hooksJsonPath : String) (expected : List ExpectedHook) (reported : List HooksListHook) :
    (unexpectedVerdicts it hooksJsonPath expected reported).Perm
      (reported.flatMap fun hook => (fornaxKey hook).toList.flatMap fun key =>
        if key ∈ expected.map (ExpectedHook.expectedKey hooksJsonPath) then []
        else [unexpectedVerdict key hook]) := by
  have hbucket : ∀ b : String × List HooksListHook,
      (if (OrdSet.ofList (expected.map (ExpectedHook.expectedKey hooksJsonPath))).contains b.1
        then [] else b.2.map (unexpectedVerdict b.1)) =
      b.2.flatMap fun hook =>
        if b.1 ∈ expected.map (ExpectedHook.expectedKey hooksJsonPath) then []
        else [unexpectedVerdict b.1 hook] := by
    intro b
    by_cases hkey : b.1 ∈ expected.map (ExpectedHook.expectedKey hooksJsonPath)
    · rw [if_pos (OrdSet.contains_ofList.mpr hkey)]
      exact (flatMap_eq_nil_iff.mpr fun _ _ => if_pos hkey).symm
    · rw [if_neg fun h => hkey (OrdSet.contains_ofList.mp h), map_eq_flatMap]
      exact flatMap_congr fun _ _ => (if_neg hkey).symm
  rw [unexpectedVerdicts, funext hbucket]
  refine ((it.perm _).flatMap_right _).trans ?_
  exact OrdMap.flatMap_groupBy_perm fornaxKey (fun key hook =>
    if key ∈ expected.map (ExpectedHook.expectedKey hooksJsonPath) then []
    else [unexpectedVerdict key hook]) reported

theorem aggregate_trusted_iff {reasons : List ReasonCode} {hooks : List HookVerdict} :
    aggregate reasons hooks = .trusted ↔
      reasons = [] ∧ hooks ≠ [] ∧ ∀ h ∈ hooks, h.trust = .trusted := by
  have hlevels : ∀ t : Trust, t = .trusted ↔ t ≠ .unknown ∧ t ≠ .untrusted
    | .trusted | .untrusted | .unknown => by decide
  unfold aggregate
  split_ifs with hreasons hnil hunknown huntrusted
  · simp_all
  · simp_all
  · obtain ⟨h, hmem, htrust⟩ := any_eq_true.mp hunknown
    have hne : h.trust ≠ .trusted := by simp_all
    exact ⟨nofun, fun hall => absurd (hall.2.2 h hmem) hne⟩
  · obtain ⟨h, hmem, htrust⟩ := any_eq_true.mp huntrusted
    have hne : h.trust ≠ .trusted := by simp_all
    exact ⟨nofun, fun hall => absurd (hall.2.2 h hmem) hne⟩
  · refine ⟨fun _ => ⟨by simpa using hreasons, by simpa using hnil, fun h hmem => ?_⟩, fun _ => rfl⟩
    simp only [any_eq_true, beq_iff_eq, not_exists, not_and] at hunknown huntrusted
    exact (hlevels h.trust).mpr ⟨hunknown h hmem, huntrusted h hmem⟩

theorem aggregate_perm {reasons : List ReasonCode} {hooks hooks' : List HookVerdict}
    (h : (hooks.map HookVerdict.trust).Perm (hooks'.map HookVerdict.trust)) :
    aggregate reasons hooks = aggregate reasons hooks' := by
  have hany : ∀ t, (hooks.any fun v => v.trust == t) = hooks'.any fun v => v.trust == t := by
    intro t
    rw [Bool.eq_iff_iff, any_eq_true, any_eq_true]
    simp only [beq_iff_eq, ← mem_map, h.mem_iff]
  have hempty : hooks.isEmpty = hooks'.isEmpty := by
    have hlen := h.length_eq
    rw [length_map, length_map] at hlen
    rw [Bool.eq_iff_iff, isEmpty_iff_length_eq_zero, isEmpty_iff_length_eq_zero, hlen]
  rw [aggregate, aggregate, hany, hany, hempty]

def HasKey (key : String) (hook : HooksListHook) : Prop :=
  commandBasename hook.command = hookBin.toList ∧ hook.key = key

instance (key : String) (hook : HooksListHook) : Decidable (HasKey key hook) :=
  inferInstanceAs (Decidable (_ ∧ _))

theorem matches_eq (reported : List HooksListHook) (key : String) :
    ((byKey reported).get? key).getD [] = reported.filter fun h => HasKey key h := by
  rw [getD_byKey]
  refine filter_congr fun h _ => ?_
  rw [Bool.eq_iff_iff, beq_iff_eq, fornaxKey_eq_some, decide_eq_true_iff]
  rfl

variable {expected : List ExpectedHook} {hooksJsonPath : String}

theorem hasEveryEvent_iff :
    hasEveryEvent expected ↔ ∀ event ∈ events, ∃ e ∈ expected, e.eventPascal = event := by
  simp [hasEveryEvent]

theorem expectedVerdicts_trusted_iff :
    (∀ v ∈ expectedVerdicts hooksJsonPath expected reported, v.trust = .trusted) ↔
      ∀ e ∈ expected, ∃ hook, (reported.filter fun h => HasKey (e.expectedKey hooksJsonPath) h) =
        [hook] ∧ Reported e.eventSnake hook := by
  simp only [expectedVerdicts, forall_mem_map, matches_eq]
  refine forall₂_congr fun e _ => ?_
  refine verdictForOne_trusted_iff fun h hmem => ?_
  exact (of_decide_eq_true (mem_filter.mp hmem).2).1

theorem unexpectedVerdicts_trusted_iff {it : Iteration String (List HooksListHook)} :
    (∀ v ∈ unexpectedVerdicts it hooksJsonPath expected reported, v.trust = .trusted) ↔
      ∀ hook ∈ reported, commandBasename hook.command = hookBin.toList →
        ∃ e ∈ expected, hook.key = e.expectedKey hooksJsonPath := by
  have hmem :=
    fun v => (unexpectedVerdicts_perm it hooksJsonPath expected reported).mem_iff (a := v)
  simp only [hmem, mem_flatMap, Option.mem_toList, fornaxKey_eq_some]
  constructor
  · intro h hook hreported hbin
    by_contra hnone
    have hkey : hook.key ∉ expected.map (ExpectedHook.expectedKey hooksJsonPath) := by
      intro hmem
      obtain ⟨e, he, hkey⟩ := mem_map.mp hmem
      exact hnone ⟨e, he, hkey.symm⟩
    have htrust := h (unexpectedVerdict hook.key hook)
      ⟨hook, hreported, hook.key, ⟨hbin, rfl⟩, by rw [if_neg hkey]; exact mem_singleton_self _⟩
    cases htrust
  · rintro h v ⟨hook, hreported, key, ⟨hbin, rfl⟩, hv⟩
    obtain ⟨e, he, hkey⟩ := h hook hreported hbin
    rw [if_pos (mem_map.mpr ⟨e, he, hkey.symm⟩)] at hv
    cases hv

def outline (verdict : AggregateVerdict) : List (String × Trust) :=
  verdict.hooks.map fun v => (v.key, v.trust)

theorem expectedVerdicts_perm {reported' : List HooksListHook} (h : reported.Perm reported') :
    (expectedVerdicts hooksJsonPath expected reported).map (fun v => (v.key, v.trust)) =
      (expectedVerdicts hooksJsonPath expected reported').map fun v => (v.key, v.trust) := by
  unfold expectedVerdicts
  rw [map_map, map_map]
  refine map_congr_left fun e _ => ?_
  simp only [Function.comp_apply, matches_eq, verdictForOne_key]
  rw [verdictForOne_trust_perm (h.filter _)]

theorem reconcile_perm {it it' : Iteration String (List HooksListHook)}
    {reported' : List HooksListHook} (h : reported.Perm reported') :
    (outline (reconcile it hooksJsonPath expected reported)).Perm
        (outline (reconcile it' hooksJsonPath expected reported')) ∧
      (reconcile it hooksJsonPath expected reported).hostTrust =
        (reconcile it' hooksJsonPath expected reported').hostTrust := by
  by_cases hnil : expected.isEmpty = true
  · simp only [reconcile, if_pos hnil]
    exact ⟨List.Perm.refl _, trivial⟩
  · have hperm : (outline (reconcile it hooksJsonPath expected reported)).Perm
        (outline (reconcile it' hooksJsonPath expected reported')) := by
      simp only [outline, reconcile, if_neg hnil, map_append]
      rw [expectedVerdicts_perm h]
      refine List.Perm.append_left _ (List.Perm.map _ ?_)
      exact (unexpectedVerdicts_perm it _ _ _).trans
        ((h.flatMap_right _).trans (unexpectedVerdicts_perm it' _ _ _).symm)
    refine ⟨hperm, ?_⟩
    have htrust := hperm.map Prod.snd
    simp only [outline, map_map] at htrust
    simp only [reconcile, if_neg hnil] at htrust ⊢
    exact aggregate_perm htrust

/-- Trusted is: something is expected and every event is covered, each expected hook is reported
exactly once, for its event, with a digest and as trusted, and no other Fornax hook is reported.
The order of the listing, and that of the hash map, do not matter. -/
theorem reconcile_trusted_iff (it : Iteration String (List HooksListHook)) (hooksJsonPath : String)
    (expected : List ExpectedHook) (reported : List HooksListHook) :
    ((reconcile it hooksJsonPath expected reported).hostTrust = .trusted ↔
      expected ≠ [] ∧ (∀ event ∈ events, ∃ e ∈ expected, e.eventPascal = event) ∧
      (∀ e ∈ expected, ∃ hook, (reported.filter fun h => HasKey (e.expectedKey hooksJsonPath) h) =
        [hook] ∧ Reported e.eventSnake hook) ∧
      ∀ hook ∈ reported, commandBasename hook.command = hookBin.toList →
        ∃ e ∈ expected, hook.key = e.expectedKey hooksJsonPath) ∧
    ∀ (it' : Iteration String (List HooksListHook)) (reported' : List HooksListHook),
      reported.Perm reported' → (outline (reconcile it hooksJsonPath expected reported)).Perm
            (outline (reconcile it' hooksJsonPath expected reported')) ∧
          (reconcile it hooksJsonPath expected reported).hostTrust =
            (reconcile it' hooksJsonPath expected reported').hostTrust := by
  refine ⟨?_, fun it' reported' h => reconcile_perm h⟩
  by_cases hnil : expected = []
  · simp [reconcile, hnil]
  · have hempty : expected.isEmpty = false := by simpa using hnil
    have hverdicts : expectedVerdicts hooksJsonPath expected reported ≠ [] := by
      simpa [expectedVerdicts] using hnil
    simp only [reconcile, hempty, Bool.false_eq_true, if_false, aggregate_trusted_iff,
      hasEveryEvent_iff, forall_mem_append, expectedVerdicts_trusted_iff,
      unexpectedVerdicts_trusted_iff]
    simp [hnil, hverdicts]

def sortedIteration : Iteration String (List HooksListHook) := ⟨OrdMap.entries, fun _ => .refl _⟩

def trustedHook (e : ExpectedHook) : HooksListHook :=
  ⟨e.expectedKey "/hooks.json", e.eventSnake, "/bin/fornax-hook-codex-event", true,
    "sha256:" ++ String.ofList (replicate 64 'a'), "trusted"⟩

def wired : List ExpectedHook :=
  (events.zip eventsSnake).map fun (eventPascal, eventSnake) => ⟨eventPascal, eventSnake, 0, 0⟩

theorem reconcile_trusted_wired :
    (reconcile sortedIteration "/hooks.json" wired (wired.map trustedHook)).hostTrust = .trusted ∧
      (reconcile sortedIteration "/hooks.json" wired (wired.map trustedHook).reverse).hostTrust =
        .trusted :=
  have htrusted : (reconcile sortedIteration "/hooks.json" wired
      (wired.map trustedHook)).hostTrust = .trusted := by decide +kernel
  have hperm := (reconcile_trusted_iff sortedIteration "/hooks.json" wired
    (wired.map trustedHook)).2 sortedIteration _ (reverse_perm _).symm
  ⟨htrusted, hperm.2.symm.trans htrusted⟩

theorem exists_fornaxIndex {group : Json} (h : Cli.Codex.groupHasFornaxHandler group) :
    ∃ i, i ∈ fornaxIndices group := by
  unfold Cli.Codex.groupHasFornaxHandler at h
  cases hgroup : handlersOf group with
  | none => simp [hgroup] at h
  | some handlers =>
    obtain ⟨handler, hmem, hours⟩ := any_eq_true.mp (by simpa [hgroup] using h)
    obtain ⟨i, hi⟩ := mem_iff_getElem?.mp hmem
    refine ⟨i, ?_⟩
    simpa [fornaxIndices, hgroup, mem_zipIdx_iff_getElem?] using ⟨handler, hi, hours⟩

theorem exists_expectedHook {root : Document} {event : String} (hevent : event ∈ events)
    (h : (eventGroups root event).any Cli.Codex.groupHasFornaxHandler) :
    ∃ e ∈ expectedHooks root, e.eventPascal = event := by
  obtain ⟨eventSnake, hzip⟩ : ∃ eventSnake, (event, eventSnake) ∈ events.zip eventsSnake := by
    revert event
    simp [events, eventsSnake]
  obtain ⟨group, hgroup, hours⟩ := any_eq_true.mp h
  obtain ⟨groupIdx, hgroupIdx⟩ := mem_iff_getElem?.mp hgroup
  obtain ⟨handlerIdx, hhandler⟩ := exists_fornaxIndex hours
  refine ⟨⟨event, eventSnake, groupIdx, handlerIdx⟩, ?_, rfl⟩
  simp only [expectedHooks, mem_flatMap, Prod.exists]
  exact ⟨_, _, hzip, group, groupIdx, mem_zipIdx_iff_getElem?.mpr hgroupIdx,
    mem_map_of_mem hhandler⟩

theorem any_appendGroup (arr : List Json) :
    (Cli.Codex.appendGroup arr).any Cli.Codex.groupHasFornaxHandler := by
  unfold Cli.Codex.appendGroup
  split_ifs with h
  · exact h
  · rw [any_append, Bool.or_eq_true]
    exact .inr (by simp [Cli.Codex.hasFornax_fornaxGroup])

/-- The check of the host's trust expects a hook of every event that an installation wires. -/
theorem hasEveryEvent_installHooks {root installed : Document}
    (h : installHooks root = .ok installed) : hasEveryEvent (expectedHooks installed) := by
  rw [hasEveryEvent_iff]
  intro event hevent
  obtain ⟨-, hshapes, rfl⟩ := Cli.Codex.installHooks_eq_ok h
  have hgroups :=
    Cli.eventGroups_installed Cli.Codex.appendGroup Cli.Codex.nodup_events hshapes event
  rw [if_pos hevent] at hgroups
  refine exists_expectedHook hevent ?_
  rw [hgroups]
  exact any_appendGroup _

theorem hasEveryEvent_foreignDocument : ∃ installed,
    installHooks Cli.Codex.foreignDocument = .ok installed ∧
      hasEveryEvent (expectedHooks installed) := by
  obtain ⟨installed, h⟩ : ∃ installed, installHooks Cli.Codex.foreignDocument = .ok installed :=
    Fallible.exists_of_isOk (by decide +kernel)
  exact ⟨installed, h, hasEveryEvent_installHooks h⟩

end Fornax.HostTrust
