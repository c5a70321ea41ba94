import Fornax.Verify.Binding
import Fornax.Policy.Target

namespace Fornax

structure RowSource where
  sensorName : String
  trustClass : TrustClass
  deriving DecidableEq, Repr

structure EvidenceRow where
  id : Uuid
  kind : EvidenceKind
  provenance : String
  payload : Json
  source : Option RowSource

structure StatedClaim where
  id : Uuid
  text : String
  deriving DecidableEq, Repr

structure RuntimeCapabilities where
  signals : List CapabilitySignal
  deriving DecidableEq, Repr

namespace RuntimeCapabilities

def stateOf (caps : RuntimeCapabilities) (c : SignalClass) : SignalAvailability :=
  ((caps.signals.find? fun s => s.signalClass == c).map fun s => s.state).getD .unknown

def isObservable (caps : RuntimeCapabilities) (c : SignalClass) : Bool :=
  caps.stateOf c == .available

end RuntimeCapabilities

structure Finding where
  id : Uuid
  claimId : Uuid
  verdict : Verdict
  evidenceIds : List Uuid
  verifierName : String
  rationale : String
  computedAt : String
  deriving DecidableEq, Repr

open RunnerCommand

namespace EvidenceRow

variable (t : TextTables) (e : EvidenceRow)

def exitCode : Option Int := (e.payload.get? "exit_code").bind Json.asI64

def isHeuristicEvidence : Bool :=
  decide ((e.payload.get? "heuristic").bind Json.asBool = some true)

def isStderrHeuristicEvidence : Bool :=
  e.isHeuristicEvidence && "heuristic:stderr_nonempty".toList.isSuffixOf e.provenance.toList

def exitZeroReliable : Bool := decide (e.exitCode = some 0) && !e.isHeuristicEvidence

def commandText : Text :=
  match e.payload.get? "command" with
  | some (.array tokens) =>
    t.toLowercase (" ".toList.intercalate ((tokens.filterMap Json.asStr).map String.toList))
  | some (.string s) => t.toLowercase s
  | some other => t.toLowercase (t.printJson other)
  | none => []

def isTestRunnerEvidence : Bool :=
  isTestRun t (e.payload.get? "command") e.exitCode && (e.payload.get? "exit_code").isSome

def executionProven : Bool :=
  match provenRunner t (e.payload.get? "command"), e.payload.get? "test_summary" with
  | some kind, some summary =>
    let format := (summary.get? "format").bind Json.asStr
    let passed := (summary.get? "passed").bind Json.asU64
    let failed := (summary.get? "failed").bind Json.asU64
    let formatMatches := match kind with
      | .pytest => decide (format = some "pytest")
      | .cargo => decide (format = some "cargo")
      | .other => false
    formatMatches && passed.any (fun n => decide (1 ≤ n)) && decide (failed = some 0)
  | _, _ => false

/-- Produced by an authorised collector under a class other than the agent's own
account; the class alone is a field of the submitted record. -/
def isIndependentlyAttested (attestors : List String) : Bool :=
  e.source.any fun s =>
    (s.trustClass == .hostObserved || s.trustClass == .independentExternal) &&
      attestors.contains s.sensorName

def mentionsUnidentifiedRunner : Bool :=
  if (e.payload.get? "exit_code").isNone || e.isTestRunnerEvidence t then false
  else
    let tokens := ((e.commandText t).splitOnP fun c =>
      !(t.isAlphanumeric c || decide (c ∈ ['.', '-', '_', '/', '+']))).filter (!·.isEmpty)
    let namesRunner := fun token : Text =>
      (["pytest", "py.test", "vitest", "jest"] : List Text).any (Text.contains token)
    let subcommandAfter := fun (program : Text) (subs : List Text) =>
      (tokens.dropWhile fun token => basename token != program).tail.any (oneOf subs)
    tokens.any namesRunner || subcommandAfter "cargo" ["test", "nextest"] ||
      subcommandAfter "npm" ["test"]

end EvidenceRow

def testRunAttestors : List String := []

def exposesToolResults (caps : RuntimeCapabilities) : Bool :=
  caps.isObservable .toolTrace || caps.isObservable .finalResponse

def lastRow (p : EvidenceRow → Bool) : List EvidenceRow → Option (EvidenceRow × List EvidenceRow)
  | [] => none
  | e :: newer =>
    match lastRow p newer with
    | some found => some found
    | none => if p e then some (e, newer) else none

namespace TestResultVerifier

def name : String := "test_result_verifier_v1"

section Verify

variable (t : TextTables) (attestors : List String) (findingId : Uuid) (now : String)
  (claim : StatedClaim)

def finding (verdict : Verdict) (evidenceIds : List Uuid) (rationale : String) : Finding :=
  { id := findingId, claimId := claim.id, verdict, evidenceIds, verifierName := name, rationale,
    computedAt := now }

/-- The guards, in order, for the newest identified test run `ev`. -/
def judge (ev : EvidenceRow) (newerMention : Bool) : Finding :=
  let result := finding findingId now claim
  match ev.exitCode with
  | some code =>
    if code = 0 then
      if ev.isHeuristicEvidence then
        result .review [ev.id] ("claim states tests passed; the only signal observed is a " ++
          "heuristic exit_code=0 (no stderr/failure marker seen), which does not prove the test " ++
          "runner actually succeeded -- flagged for review, not verified (" ++ ev.provenance ++ ")")
      else if newerMention then
        result .unverified [ev.id] ("an earlier test-runner run exited 0, but a more recent " ++
          "command that mentions a test runner could not be identified as a test run")
      else if !ev.executionProven t then
        result .unverified [ev.id] ("the test runner exited 0, but no passing-test summary from " ++
          "that runner was observed for this command, so it is not shown that any test ran")
      else if !ev.isIndependentlyAttested attestors then
        result .review [ev.id] ("claim states tests passed and the agent's transcript shows a " ++
          "test runner exiting 0 with a passing summary, but that output is written by the " ++
          "program the agent ran and is not independently attested, so it does not show the " ++
          "tests ran -- flagged for review, not verified (" ++ ev.provenance ++ ")")
      else
        result .verified [ev.id] ("observed test-runner exit_code=0 (" ++ ev.provenance ++ ")")
    else if ev.isStderrHeuristicEvidence then
      result .review [ev.id] ("claim states tests passed; stderr was non-empty but Claude " ++
        "Code's tool_response carries no real exit code, so this cannot be confirmed as a " ++
        "failure -- flagged for review, not treated as contradicted (heuristic exit_code=" ++
        toString code ++ ", " ++ ev.provenance ++ ")")
    else
      result .contradicted [ev.id] ("claim states tests passed, but observed test-runner " ++
        "exit_code=" ++ toString code ++ " (" ++ ev.provenance ++ ")")
  | none => result .unavailable [] "test-runner evidence found but no exit_code field present"

def verify (evidence : List EvidenceRow) (caps : RuntimeCapabilities) : Finding :=
  if !exposesToolResults caps then
    finding findingId now claim .unavailable [] ("runtime does not expose " ++
      "tool-result/transcript evidence needed to check exit codes")
  else
    match lastRow (·.isTestRunnerEvidence t) evidence with
    | none =>
      finding findingId now claim .unverified [] ("no test-runner invocation observed in this " ++
        "session's evidence")
    | some (ev, newer) =>
      judge t attestors findingId now claim ev (newer.any (·.mentionsUnidentifiedRunner t))

end Verify

end TestResultVerifier

inductive CommandLiteral
  | none
  | one (literal : Text)
  | several
  deriving DecidableEq, Repr

/-- The closed parts between delimiters; `inner` is the part being read. -/
def delimited (delim : Char) (inner : Option Text) : Text → List Text
  | [] => []
  | c :: rest =>
    match inner with
    | none => delimited delim (if c = delim then some [] else none) rest
    | some part =>
      if c = delim then part :: delimited delim none rest
      else delimited delim (some (part ++ [c])) rest

def literalsFound (delim : Char) (text : Text) : List Text :=
  (delimited delim none text).foldl
    (fun found part =>
      let inner := Text.trim part
      if !inner.isEmpty && !found.contains inner then found ++ [inner] else found) []

def commandLiteral (text : Text) : CommandLiteral :=
  match literalsFound '\x60' text with
  | [literal] => .one literal
  | _ :: _ :: _ => .several
  | [] =>
    match literalsFound '"' text with
    | [literal] => .one literal
    | _ :: _ :: _ => .several
    | [] => .none

structure Bound where
  row : EvidenceRow
  prefixOnly : Bool
  newerMention : Bool

namespace CommandSuccessVerifier

def name : String := "command_success_verifier_v1"

section Verify

variable (t : TextTables) (attestors : List String) (findingId : Uuid) (now : String)
  (claim : StatedClaim)

def finding (verdict : Verdict) (evidenceIds : List Uuid) (rationale : String) : Finding :=
  { id := findingId, claimId := claim.id, verdict, evidenceIds, verifierName := name, rationale,
    computedAt := now }

def bindRow (claimed : Text) (e : EvidenceRow) : CommandBinding :=
  bindCommand t claimed (e.payload.get? "command") (e.commandText t) e.exitZeroReliable

/-- The loop over the exit-code rows, newest first: the newest exact run, else the first close one;
`mentionSeen` says whether any came near. -/
def select (claimed : Text) (mentionSeen : Bool) (firstPrefix : Option Bound) :
    List EvidenceRow → Option Bound × Bool
  | [] => (firstPrefix, mentionSeen)
  | e :: older =>
    match bindRow t claimed e with
    | .exact => (some ⟨e, false, mentionSeen⟩, mentionSeen)
    | .prefixed => select claimed true (firstPrefix.or (some ⟨e, true, mentionSeen⟩)) older
    | .mentioned => select claimed true firstPrefix older
    | .notBound => select claimed mentionSeen firstPrefix older

def judge (ev : EvidenceRow) (newerMention claimIsTestCommand : Bool) : Finding :=
  let result := finding findingId now claim
  match ev.exitCode with
  | some code =>
    if code = 0 then
      if ev.isHeuristicEvidence then
        result .review [ev.id] ("claim states the command succeeded; the only signal observed " ++
          "is a heuristic exit_code=0 (no stderr/failure marker seen), which does not prove the " ++
          "command actually succeeded -- flagged for review, not verified (" ++ ev.provenance ++
          ")")
      else if ev.isTestRunnerEvidence t && !ev.executionProven t then
        result .unverified [ev.id] ("the claimed command is a test run that exited 0, but no " ++
          "passing-test summary from that runner was observed, so it is not shown " ++
          "that any test ran")
      else if ev.isTestRunnerEvidence t && !ev.isIndependentlyAttested attestors then
        result .review [ev.id] ("the claimed command is a test run that exited 0 with a passing " ++
          "summary, but that output is written by the program the agent ran and is not " ++
          "independently attested, so it does not show the tests ran -- flagged for review, not " ++
          "verified (" ++ ev.provenance ++ ")")
      else if newerMention then
        result .unverified [ev.id] ("an earlier run of the command exited 0, but a more recent " ++
          "command that mentions it could not be identified as a run of it")
      else if claimIsTestCommand && !ev.isTestRunnerEvidence t then
        result .unverified [ev.id] ("the claimed command is a test command whose results Fornax " ++
          "cannot read, so an exit status 0 does not show that any test ran")
      else if !ev.isIndependentlyAttested attestors then
        result .review [ev.id] ("observed command exit_code=0, but the exit status comes from " ++
          "the agent's own session and is not independently attested, so it does not show the " ++
          "claimed program ran and succeeded -- flagged for review, not verified (" ++
          ev.provenance ++ ")")
      else
        result .verified [ev.id] ("observed command exit_code=0 (" ++ ev.provenance ++ ")")
    else if ev.isStderrHeuristicEvidence then
      result .review [ev.id] ("claim states the command succeeded; stderr was non-empty but " ++
        "Claude Code's tool_response carries no real exit code, so this cannot be confirmed as " ++
        "a failure -- flagged for review, not treated as contradicted (heuristic exit_code=" ++
        toString code ++ ", " ++ ev.provenance ++ ")")
    else
      result .contradicted [ev.id] ("claim states the command succeeded, but observed " ++
        "exit_code=" ++ toString code ++ " (" ++ ev.provenance ++ ")")
  | none => result .unavailable [] "command evidence found but no exit_code field present"

def attributeExactly (prefixOnly : Bool) (f : Finding) : Finding :=
  if prefixOnly && decide (f.verdict = .verified) then
    { f with
      verdict := .review
      rationale := f.rationale ++ " -- the observed command has more arguments than the claimed " ++
        "one, so the exit status is not attributed to the claimed command exactly" }
  else f

def verify (evidence : List EvidenceRow) (caps : RuntimeCapabilities) : Finding :=
  let result := finding findingId now claim
  if !exposesToolResults caps then
    result .unavailable [] ("runtime does not expose tool-trace/transcript evidence needed to " ++
      "check command exit status")
  else
    match commandLiteral claim.text with
    | .several =>
      result .unverified [] ("claim names more than one command; it cannot be bound to a single " ++
        "command's evidence")
    | .none =>
      result .unverified [] ("claim names no specific command; cannot bind to unrelated command " ++
        "evidence")
    | .one claimed =>
      let shown := String.ofList claimed
      if !claimCommandParses claimed then
        result .unverified [] ("the claimed command \"" ++ shown ++ "\" cannot be parsed as a " ++
          "command")
      else
        match select t claimed false none
            (evidence.reverse.filter fun e => decide (e.kind = .exitCode)) with
        | (some bound, _) =>
          attributeExactly bound.prefixOnly
            (judge t attestors findingId now claim bound.row bound.newerMention
              (namesTestCommand t claimed))
        | (none, true) =>
          result .unverified [] ("commands that mention \"" ++ shown ++ "\" were observed, but " ++
            "none is a run of that command")
        | (none, false) =>
          result .unverified [] ("no evidence of a command matching \"" ++ shown ++ "\" " ++
            "observed in this session")

end Verify

end CommandSuccessVerifier

end Fornax
