import Fornax.Lib.Decimal
import Fornax.Lib.Patterns

namespace Fornax

open Text

inductive SummaryFormat
  | pytest
  | cargo
  deriving DecidableEq, Repr

def SummaryFormat.asStr : SummaryFormat → String
  | pytest => "pytest"
  | cargo => "cargo"

structure TestSummary where
  format : SummaryFormat
  passed : Fin (2 ^ 64)
  failed : Fin (2 ^ 64)
  deriving DecidableEq, Repr

def TestSummary.toJson (s : TestSummary) : Json :=
  .object [("failed", .number (.posInt s.failed)), ("format", .string s.format.asStr),
    ("passed", .number (.posInt s.passed))]

namespace TestOutput

/-- In text, right after an escape character, or in a sequence, which ends with a character between
`@` and `~`. -/
inductive AnsiState
  | text
  | escape
  | sequence

def stripAnsiFrom : AnsiState → Text → Text
  | _, [] => []
  | .sequence, c :: rest =>
    stripAnsiFrom (if '@' ≤ c ∧ c ≤ '~' then .text else .sequence) rest
  | .escape, c :: rest =>
    if c = '[' then stripAnsiFrom .sequence rest
    else if c.toNat = 0x1b then stripAnsiFrom .escape rest
    else c :: stripAnsiFrom .text rest
  | .text, c :: rest =>
    if c.toNat = 0x1b then stripAnsiFrom .escape rest else c :: stripAnsiFrom .text rest

def stripAnsi (text : Text) : Text := stripAnsiFrom .text text

def count (text : Text) : Option (Fin (2 ^ 64)) :=
  if text.isEmpty || !text.all Char.isDigit then none else Decimal.parseBelow (2 ^ 64) text

def checkedAdd (a b : Fin (2 ^ 64)) : Option (Fin (2 ^ 64)) :=
  if h : a.val + b.val < 2 ^ 64 then some ⟨a.val + b.val, h⟩ else none

structure Counts where
  passed : Fin (2 ^ 64)
  failed : Fin (2 ^ 64)

def Counts.zero : Counts := ⟨0, 0⟩

def Counts.addPassed (cs : Counts) (n : Fin (2 ^ 64)) : Option Counts :=
  (checkedAdd cs.passed n).map fun passed => { cs with passed }

def Counts.addFailed (cs : Counts) (n : Fin (2 ^ 64)) : Option Counts :=
  (checkedAdd cs.failed n).map fun failed => { cs with failed }

def pytestPart (cs : Counts) (part : Text) : Option Counts := do
  let (n, word) ← splitOnce ' ' part
  let n ← count n
  if word = "passed".toList then cs.addPassed n
  else if word ∈ ["failed".toList, "error".toList, "errors".toList] then cs.addFailed n
  else if word ∈ ["skipped".toList, "deselected".toList, "xfailed".toList, "xpassed".toList,
      "warning".toList, "warnings".toList, "rerun".toList] then some cs
  else none

def pytestSummary (line : Text) : Option TestSummary := do
  let body := trimMatches (fun c => c == '=' || isWhitespace c) line
  let (counts, timing) ← rsplitOnceStr " in ".toList body
  let timing ← (splitStr " (".toList timing).head?
  let secs ← stripSuffix ['s'] timing
  if secs.isEmpty || !secs.all (fun c => c.isDigit || c == '.') then none
  else
    let cs ← (splitStr ", ".toList counts).foldlM pytestPart .zero
    some { format := .pytest, passed := cs.passed, failed := cs.failed }

def isHeader (line : Text) : Bool :=
  match stripPrefix "running ".toList line with
  | none => false
  | some r =>
    match (stripSuffix " tests".toList r).orElse
      fun _ => stripSuffix " test".toList r with
    | none => false
    | some n => (count n).isSome

def cargoPart (cs : Counts) (part : Text) : Option Counts :=
  match (splitStr [';'] part).head? with
  | none => none
  | some part =>
    match splitOnce ' ' (trim part) with
    | none => some cs
    | some (n, word) =>
      match count n with
      | none => some cs
      | some n =>
        if word = "passed".toList then cs.addPassed n
        else if word = "failed".toList then cs.addFailed n
        else some cs

def cargoLine (sofar : Counts × ℕ) (line : Text) : Option (Counts × ℕ) :=
  match stripPrefix "test result: ".toList line with
  | none => some sofar
  | some rest => do
    let rest ← stripPrefix "ok. ".toList rest
    let cs ← (splitStr "; ".toList rest).foldlM cargoPart sofar.1
    some (cs, sofar.2 + 1)

def cargoSummary (lines : List Text) : Option TestSummary := do
  let running := lines.countP isHeader
  let (cs, results) ← lines.foldlM cargoLine (.zero, 0)
  if 0 < results ∧ results = running then
    some { format := .cargo, passed := cs.passed, failed := cs.failed }
  else none

def summarize (output : Text) : Option TestSummary :=
  let lines := (((stripAnsi output).splitOnP fun c => c == '\n' || c == '\r').map trim).filter
    fun l => !l.isEmpty
  match lines.getLast?.bind pytestSummary, cargoSummary lines with
  | some p, none => some p
  | none, some c => some c
  | _, _ => none

def summaryJson (output : Text) : Option Json := (summarize output).map TestSummary.toJson

def attachSummary (payload : Json) (output : Option Text) : Json :=
  match output.bind summaryJson, payload with
  | some summary, .object fields =>
    .object ((fields.filter fun f => f.1 != "test_summary") ++ [("test_summary", summary)])
  | _, payload => payload

theorem get?_attachSummary (payload : Json) (output : Option Text) {key : String}
    (hkey : key ≠ "test_summary") : (attachSummary payload output).get? key = payload.get? key := by
  unfold attachSummary
  split
  · rename_i summary fields _
    have hkept : ((fields.filter fun f => f.1 != "test_summary").find? fun f => f.1 == key)
        = fields.find? fun f => f.1 == key := by
      rw [List.find?_filter]
      congr 1
      funext f
      by_cases hf : f.1 = key
      · simp [hf, hkey]
      · simp [hf]
    have hlast : List.find? (fun f => f.1 == key) [("test_summary", summary)] = none := by
      simp [hkey.symm]
    rw [Json.get?, Json.get?, List.find?_append, hkept, hlast, Option.or_none]
  · rfl

end TestOutput

end Fornax
