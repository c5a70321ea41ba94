import Fornax.Evidence.TestOutput
import Fornax.Store.Records

namespace Fornax.Codex

open List Text Json

def adapterVersion : String := "0.0.9"

structure SensorOutcome where
  evidence : List ObservedEvidence
  state : SignalAvailability
  detail : Option String

def SensorOutcome.collected (evidence : List ObservedEvidence) : SensorOutcome :=
  { evidence, state := .available, detail := none }

def SensorOutcome.notCollected (state : SignalAvailability) (detail : Option String) :
    SensorOutcome :=
  { evidence := [], state, detail }

def exitCodeMarker : Text := "Exit code: ".toList

def scriptError : Text := "Script error:".toList

def scriptCompleted : Text := "Script completed".toList

def isLineBreak (c : Char) : Bool := c == '\n' || c == '\r'

def afterMarker (block : Text) : Option Text :=
  let b := trimStart block
  match stripPrefix exitCodeMarker b with
  | some rest => some rest
  | none =>
    ((stripPrefix scriptError b).map (dropWhile isLineBreak)).bind
      (stripPrefix exitCodeMarker)

def parseExitCode (block : Text) : Option (Fin (2 ^ 63)) :=
  match afterMarker block with
  | none => none
  | some rest =>
    let digits := rest.takeWhile Char.isDigit
    if digits.isEmpty then none else Decimal.parseBelow (2 ^ 63) digits

def parseExitCodeFromBlocks (blocks : List Text) : Option (Fin (2 ^ 63)) :=
  blocks.findSome? parseExitCode

/-- White space, then `Script error:` and line breaks or nothing, then the marker. -/
def Marked (block rest : Text) : Prop :=
  ∃ blank lead, block = blank ++ (lead ++ (exitCodeMarker ++ rest)) ∧
    (∀ c ∈ blank, isWhitespace c = true) ∧
    (lead = [] ∨ ∃ breaks, lead = scriptError ++ breaks ∧ ∀ c ∈ breaks, isLineBreak c = true)

/-- Digits right after the marker, as many as there are, with a value that fits. -/
def ShowsExitCode (block : Text) (code : Fin (2 ^ 63)) : Prop :=
  ∃ digits rest, Marked block (digits ++ rest) ∧ digits ≠ [] ∧
    (∀ c ∈ digits, c.isDigit = true) ∧ (∀ c ∈ rest.head?, c.isDigit = false) ∧
    Decimal.value digits = code.val

theorem exitCodeMarker_eq :
    exitCodeMarker = ['E', 'x', 'i', 't', ' ', 'c', 'o', 'd', 'e', ':', ' '] := by
  decide +kernel

theorem scriptError_eq :
    scriptError = ['S', 'c', 'r', 'i', 'p', 't', ' ', 'e', 'r', 'r', 'o', 'r', ':'] := by
  decide +kernel

variable {block header stdout : Text}

theorem marked_of_stripPrefix {rest : Text}
    (h : stripPrefix exitCodeMarker (trimStart block) = some rest) : Marked block rest := by
  refine ⟨block.takeWhile isWhitespace, [], ?_, fun c hc => mem_takeWhile_imp hc, .inl rfl⟩
  rw [nil_append, stripPrefix_eq_some.mp h]
  exact takeWhile_append_dropWhile.symm

theorem marked_of_scriptError {afterError rest : Text}
    (herror : stripPrefix scriptError (trimStart block) = some afterError)
    (h : stripPrefix exitCodeMarker (afterError.dropWhile isLineBreak) = some rest) :
    Marked block rest := by
  refine ⟨block.takeWhile isWhitespace, scriptError ++ afterError.takeWhile isLineBreak, ?_,
    fun c hc => mem_takeWhile_imp hc, .inr ⟨_, rfl, fun c hc => mem_takeWhile_imp hc⟩⟩
  rw [append_assoc, stripPrefix_eq_some.mp h, takeWhile_append_dropWhile,
    stripPrefix_eq_some.mp herror]
  exact takeWhile_append_dropWhile.symm

theorem afterMarker_eq_some {rest : Text} : afterMarker block = some rest ↔ Marked block rest := by
  constructor
  · intro h
    unfold afterMarker at h
    cases hdirect : stripPrefix exitCodeMarker (trimStart block) with
    | some direct =>
      simp only [hdirect, Option.some.injEq] at h
      exact h ▸ marked_of_stripPrefix hdirect
    | none =>
      simp only [hdirect, Option.bind_eq_some_iff, Option.map_eq_some_iff] at h
      obtain ⟨_, ⟨afterError, herror, rfl⟩, hrest⟩ := h
      exact marked_of_scriptError herror hrest
  · have hstrip : stripPrefix exitCodeMarker (exitCodeMarker ++ rest) = some rest :=
      stripPrefix_eq_some.mpr rfl
    rintro ⟨blank, lead, rfl, hblank, rfl | ⟨breaks, rfl, hbreaks⟩⟩
    · -- the marker begins with a letter, so trimming stops there
      have htrim : trimStart (blank ++ ([] ++ (exitCodeMarker ++ rest)))
          = exitCodeMarker ++ rest :=
        dropWhile_append_of_all hblank (by simp [exitCodeMarker_eq, isWhitespace])
      simp only [afterMarker, htrim, hstrip]
    · have htrim : trimStart (blank ++ (scriptError ++ breaks ++ (exitCodeMarker ++ rest)))
          = scriptError ++ (breaks ++ (exitCodeMarker ++ rest)) := by
        rw [append_assoc]
        exact dropWhile_append_of_all hblank (by simp [scriptError_eq, isWhitespace])
      have hother : stripPrefix exitCodeMarker
          (scriptError ++ (breaks ++ (exitCodeMarker ++ rest))) = none := by
        simp [stripPrefix, exitCodeMarker_eq, scriptError_eq, isPrefixOf?]
      have herror : stripPrefix scriptError (scriptError ++ (breaks ++ (exitCodeMarker ++ rest)))
          = some (breaks ++ (exitCodeMarker ++ rest)) := stripPrefix_eq_some.mpr rfl
      have hbreak : (breaks ++ (exitCodeMarker ++ rest)).dropWhile isLineBreak
          = exitCodeMarker ++ rest :=
        dropWhile_append_of_all hbreaks (by simp [exitCodeMarker_eq, isLineBreak])
      simp only [afterMarker, htrim, hother, herror, Option.map_some, Option.bind_some, hbreak,
        hstrip]

theorem parseExitCode_eq_some {code : Fin (2 ^ 63)} :
    parseExitCode block = some code ↔ ShowsExitCode block code := by
  constructor
  · intro h
    unfold parseExitCode at h
    split at h
    · cases h
    · rename_i after hafter
      dsimp only at h
      split at h
      · cases h
      · rename_i hdigits
        refine ⟨after.takeWhile Char.isDigit, after.dropWhile Char.isDigit, ?_, ?_,
          fun c hc => List.mem_takeWhile_imp hc, head_dropWhile,
          Decimal.parseBelow_eq_some.mp h⟩
        · rw [List.takeWhile_append_dropWhile]
          exact afterMarker_eq_some.mp hafter
        · rwa [List.isEmpty_iff] at hdigits
  · rintro ⟨digits, rest, hmarked, hne, hdigits, hrest, hvalue⟩
    have hafter : afterMarker block = some (digits ++ rest) := afterMarker_eq_some.mpr hmarked
    have htake : (digits ++ rest).takeWhile Char.isDigit = digits :=
      takeWhile_append_of_all hdigits hrest
    simp only [parseExitCode, hafter, htake, List.isEmpty_iff, hne, if_false]
    exact Decimal.parseBelow_eq_some.mpr hvalue

theorem parseExitCode_eq_none :
    parseExitCode block = none ↔ ∀ code, ¬ ShowsExitCode block code := by
  rw [Option.eq_none_iff_forall_ne_some]
  exact forall_congr' fun code => not_congr parseExitCode_eq_some

namespace CustomToolCallOutputSensor

def outputBlocks (resp : Json) : List Text :=
  match resp.get? "output" with
  | some (.array blocks) =>
    blocks.filterMap fun b => ((b.get? "text").bind asStr).map String.toList
  | _ => []

def exitCodeEvidence (freshId : Uuid) (event : AgentEvent) (payload : Json) (origin : String) :
    ObservedEvidence where
  id := freshId
  sourceEventId := event.id
  kind := .exitCode
  observedAt := event.observedAt
  source := some { trustClass := .agentAdjacent, correlationGroup := none, derivedFrom := [] }
  sessionId := event.sessionId
  payload := payload
  provenance := "codex:" ++ adapterVersion ++ ":rollout:custom_tool_call_output#" ++ origin
  extension := none
  evidencePurged := false

def exitCodePayload (command : Json) (code : Fin (2 ^ 63)) (heuristic : Bool) : Json :=
  .object [("command", command),
    ("exit_code", .number (.posInt ⟨code.val, code.isLt.trans (by decide)⟩)),
    ("heuristic", .bool heuristic)]

def collect (freshId : Uuid) (event : AgentEvent) : SensorOutcome :=
  if event.kind ≠ .postToolUse then .notCollected .unknown (some "not a PostToolUse event")
  else
    match event.toolResponse with
    | none => .notCollected .unavailable (some "no tool_response present on this event")
    | some resp =>
      let blocks := outputBlocks resp
      let outputText := blocks.flatten
      let command := (event.toolInput.bind (·.get? "command")).getD .null
      match parseExitCodeFromBlocks blocks with
      | some code =>
        .collected [exitCodeEvidence freshId event
          (TestOutput.attachSummary (exitCodePayload command code false)
            (some (['\n'].intercalate blocks))) "exit_code_text"]
      | none =>
        if !contains outputText scriptCompleted then
          .notCollected .unavailable (some "output text has no recognized completion marker")
        else
          .collected [exitCodeEvidence freshId event (exitCodePayload command 0 true)
            "heuristic:script_completed"]

end CustomToolCallOutputSensor

open CustomToolCallOutputSensor

def SensorOutcome.reported (o : SensorOutcome) : List (Option Int × Option Bool) :=
  o.evidence.map fun e =>
    ((e.payload.get? "exit_code").bind asI64, (e.payload.get? "heuristic").bind asBool)

theorem exitCode_exitCodePayload (command : Json) (code : Fin (2 ^ 63)) (heuristic : Bool) :
    ((exitCodePayload command code heuristic).get? "exit_code").bind asI64 = some (code : Int) := by
  have hsmall := code.isLt
  simp [exitCodePayload, get?, asI64]

theorem heuristic_exitCodePayload (command : Json) (code : Fin (2 ^ 63)) (heuristic : Bool) :
    ((exitCodePayload command code heuristic).get? "heuristic").bind asBool = some heuristic := by
  simp [exitCodePayload, get?, asBool]

def reportOf (blocks : List Text) : List (Option Int × Option Bool) :=
  match parseExitCodeFromBlocks blocks with
  | some code => [(some (code : Int), some false)]
  | none => if contains blocks.flatten scriptCompleted then [(some 0, some true)] else []

theorem reported_collect (freshId : Uuid) {event : AgentEvent} {resp : Json}
    (hkind : event.kind = .postToolUse) (hresp : event.toolResponse = some resp) :
    (collect freshId event).reported = reportOf (outputBlocks resp) := by
  unfold collect reportOf
  simp only [hkind, hresp, ne_eq, not_true_eq_false, if_false]
  cases hparse : parseExitCodeFromBlocks (outputBlocks resp) with
  | some code =>
    have hcode : "exit_code" ≠ "test_summary" := by decide
    have hflag : "heuristic" ≠ "test_summary" := by decide
    simp [SensorOutcome.reported, SensorOutcome.collected, exitCodeEvidence,
      TestOutput.get?_attachSummary _ _ hcode, TestOutput.get?_attachSummary _ _ hflag,
      exitCode_exitCodePayload, heuristic_exitCodePayload]
  | none =>
    cases hdone : contains (outputBlocks resp).flatten scriptCompleted with
    | true =>
      simp [SensorOutcome.reported, SensorOutcome.collected, exitCodeEvidence,
        exitCode_exitCodePayload, heuristic_exitCodePayload]
    | false => simp [SensorOutcome.reported, SensorOutcome.notCollected]

/-- A line whose output is a header block and one block with the command's standard output. -/
structure ExecOutput (event : AgentEvent) (header stdout : Text) : Prop where
  isPost : event.kind = .postToolUse
  blocks : ∃ resp headerBlock stdoutBlock, event.toolResponse = some resp ∧
    resp.get? "output" = some (.array [headerBlock, stdoutBlock]) ∧
    headerBlock.get? "text" = some (.string (String.ofList header)) ∧
    stdoutBlock.get? "text" = some (.string (String.ofList stdout))

/-- The standard output neither states an exit code at its start nor brings the
completion text into an output whose header lacks it. -/
def Harmless (header stdout : Text) : Prop :=
  (∀ code, ¬ ShowsExitCode stdout code) ∧
    (scriptCompleted <:+: header ++ stdout → scriptCompleted <:+: header)

theorem ExecOutput.reported_eq {event : AgentEvent} (h : ExecOutput event header stdout)
    (freshId : Uuid) : (collect freshId event).reported = reportOf [header, stdout] := by
  obtain ⟨resp, headerBlock, stdoutBlock, hresp, houtput, hheader, hstdout⟩ := h.blocks
  rw [reported_collect freshId h.isPost hresp]
  congr 1
  simp [outputBlocks, houtput, hheader, hstdout, asStr]

theorem reportOf_two (hheader : parseExitCode header = none) : reportOf [header, stdout] =
      match parseExitCode stdout with
      | some code => [(some (code : Int), some false)]
      | none =>
        if contains (header ++ stdout) scriptCompleted then [(some 0, some true)] else [] := by
  have hparse : parseExitCodeFromBlocks [header, stdout] = parseExitCode stdout := by
    simp only [parseExitCodeFromBlocks, findSome?_cons, hheader, findSome?_nil]
    cases parseExitCode stdout <;> rfl
  have hflat : [header, stdout].flatten = header ++ stdout := by simp
  rw [reportOf, hparse, hflat]

theorem reportOf_eq_header_iff (hheader : parseExitCode header = none) :
    reportOf [header, stdout] =
        (if contains header scriptCompleted then [(some 0, some true)] else []) ↔
      Harmless header stdout := by
  have hboth : scriptCompleted <:+: header → scriptCompleted <:+: header ++ stdout :=
    fun hin => hin.trans (prefix_append header stdout).isInfix
  rw [reportOf_two hheader, Harmless, ← parseExitCode_eq_none]
  cases parseExitCode stdout with
  | some code =>
    simp only [reduceCtorEq, false_and, iff_false]
    split <;> simp
  | none =>
    simp only [Text.contains, decide_eq_true_eq, true_and]
    by_cases hin : scriptCompleted <:+: header
    · simp [hin, hboth hin]
    · by_cases hout : scriptCompleted <:+: header ++ stdout <;> simp [hin, hout]

/-- After a header that does not begin with a marker, the report is the same as for
any harmless output exactly when the output is harmless, and then no evidence is
marked as literal. -/
theorem report_independent_of_output {event other : AgentEvent} {header stdout quiet : Text}
    (hheader : ∀ rest, ¬ Marked header rest) (hquiet : Harmless header quiet)
    (h : ExecOutput event header stdout) (hother : ExecOutput other header quiet)
    (freshId otherId : Uuid) :
    ((collect freshId event).reported = (collect otherId other).reported ↔ Harmless header stdout) ∧
    (Harmless header stdout → ∀ r ∈ (collect freshId event).reported, r.2 ≠ some false) := by
  have hnone : parseExitCode header = none := by
    refine parseExitCode_eq_none.mpr fun code hshows => ?_
    obtain ⟨digits, rest, hmarked, -⟩ := hshows
    exact hheader _ hmarked
  have hiff := fun text => @reportOf_eq_header_iff header text hnone
  rw [h.reported_eq, hother.reported_eq, (hiff quiet).mpr hquiet]
  refine ⟨hiff stdout, fun hharmless r hr => ?_⟩
  rw [(hiff stdout).mpr hharmless] at hr
  split at hr <;> simp_all

def execEvent (header stdout : String) : AgentEvent :=
  let block := fun (text : String) =>
    object [("type", .string "input_text"), ("text", .string text)]
  { id := 1
    sessionId := "session"
    provider := .codex
    kind := .postToolUse
    observedAt := "2026-08-31T00:00:00Z"
    toolName := some "exec_command"
    toolInput := some (.object [("command", .string "make")])
    toolResponse := some (.object [("type", .string "custom_tool_call_output"),
      ("call_id", .string "call"), ("output", .array [block header, block stdout])])
    raw := .null }

theorem execOutput_execEvent (header stdout : String) :
    ExecOutput (execEvent header stdout) header.toList stdout.toList := by
  refine ⟨rfl, ?_⟩
  simp [execEvent, get?]

def completedHeader : String := "Script completed\nWall time 0.1 seconds\nOutput:\n"

def failedHeader : String := "Script failed\nWall time 0.1 seconds\nOutput:\n"

def nestedLog : String := "make: Exit code: 1 (from a nested build log)\n"

theorem completedHeader_unmarked (rest : Text) : ¬ Marked completedHeader.toList rest := by
  have hnone : afterMarker completedHeader.toList = none := by decide +kernel
  intro h
  rw [afterMarker_eq_some.mpr h] at hnone
  cases hnone

theorem harmless_completedHeader (h : parseExitCode stdout = none) :
    Harmless completedHeader.toList stdout := by
  have hcompleted : scriptCompleted <:+: completedHeader.toList := by decide +kernel
  exact ⟨parseExitCode_eq_none.mp h, fun _ => hcompleted⟩

theorem report_independent_of_output_nestedLog :
    (collect 1 (execEvent completedHeader nestedLog)).reported
      = (collect 2 (execEvent completedHeader "")).reported ∧
    ∀ r ∈ (collect 1 (execEvent completedHeader nestedLog)).reported, r.2 ≠ some false := by
  have hnested : Harmless completedHeader.toList nestedLog.toList :=
    harmless_completedHeader (by decide +kernel)
  have hempty : Harmless completedHeader.toList "".toList :=
    harmless_completedHeader (by decide +kernel)
  have h := report_independent_of_output completedHeader_unmarked hempty
    (execOutput_execEvent completedHeader nestedLog) (execOutput_execEvent completedHeader "") 1 2
  exact ⟨h.1.mpr hnested, h.2 hnested⟩

/-- An output that begins with the marker is taken as a literal exit code, and one
that has the completion text turns a failed script into a guessed success. -/
theorem output_forges_exit_code :
    (∀ rest, ¬ Marked completedHeader.toList rest) ∧
    (collect 1 (execEvent completedHeader "ok\n")).reported = [(some 0, some true)] ∧
    (collect 1 (execEvent completedHeader "Exit code: 1\n")).reported = [(some 1, some false)] ∧
    (collect 1 (execEvent failedHeader "ok\n")).reported = [] ∧
    (collect 1 (execEvent failedHeader "Script completed\n")).reported = [(some 0, some true)] := by
  refine ⟨completedHeader_unmarked, ?_, ?_, ?_, ?_⟩ <;> decide +kernel

end Fornax.Codex
