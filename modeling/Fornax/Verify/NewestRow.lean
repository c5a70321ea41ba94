import Fornax.Verify.Attestation

namespace Fornax

open RunnerCommand List

variable {t : TextTables} {attestors : List String} {findingId : Uuid} {now : String}
  {claim : StatedClaim} {row : EvidenceRow} {caps : RuntimeCapabilities}

theorem lastRow_eq_none {p : EvidenceRow → Bool} {rows : List EvidenceRow}
    (h : ∀ e ∈ rows, p e = false) : lastRow p rows = none := by
  induction rows with
  | nil => rfl
  | cons e rest ih =>
    have hrest := ih fun e he => h e (mem_cons_of_mem _ he)
    simp [lastRow, hrest, h e mem_cons_self]

theorem lastRow_append {p : EvidenceRow → Bool} {older newer : List EvidenceRow}
    (hrow : p row) (hnewer : ∀ e ∈ newer, p e = false) :
    lastRow p (older ++ row :: newer) = some (row, newer) := by
  induction older with
  | nil => simp [lastRow, lastRow_eq_none hnewer, hrow]
  | cons e older ih => simp [lastRow, ih]

theorem TestResultVerifier.newer_mention_unverified_iff (t : TextTables) (attestors : List String)
    (findingId : Uuid) (now : String) (claim : StatedClaim) (caps : RuntimeCapabilities)
    (older newer : List EvidenceRow) (run : EvidenceRow)
    (hcaps : exposesToolResults caps = true) (hrun : run.isTestRunnerEvidence t = true)
    (hnewest : ∀ e ∈ newer, e.isTestRunnerEvidence t = false)
    (hpass : run.exitCode = some 0)
    (hmention : ∃ e ∈ newer, e.mentionsUnidentifiedRunner t = true) :
    (verify t attestors findingId now claim (older ++ run :: newer) caps).verdict = .unverified ↔
      run.isHeuristicEvidence = false := by
  have hany : newer.any (·.mentionsUnidentifiedRunner t) := any_eq_true.mpr hmention
  simp only [verify, hcaps, lastRow_append hrun hnewest, judge, hpass, hany, finding]
  cases run.isHeuristicEvidence <;> simp

def exitRow (id : Uuid) (command : String) (code : Fin (2 ^ 64)) (heuristic : Bool) :
    EvidenceRow where
  id := id
  kind := .exitCode
  provenance := "transcript"
  payload := .object
    [("command", .string command), ("exit_code", .number (.posInt code)),
     ("heuristic", .bool heuristic)]
  source := none

theorem TestResultVerifier.newer_mention_unverified_piped :
    (verify asciiTables [] 1 "now" ⟨2, "all tests passed"⟩
        ([] ++ exitRow 3 "pytest" 0 false :: [exitRow 4 "pytest | tail" 0 false])
        observesTools).verdict = .unverified ↔
      (exitRow 3 "pytest" 0 false).isHeuristicEvidence = false :=
  newer_mention_unverified_iff asciiTables [] 1 "now" ⟨2, "all tests passed"⟩ observesTools []
    [exitRow 4 "pytest | tail" 0 false] (exitRow 3 "pytest" 0 false) (by decide +kernel)
    (by decide +kernel) (by decide +kernel) (by decide +kernel) (by decide +kernel)

/-- The guard for an inferred exit status comes before the one for a newer mention. -/
theorem TestResultVerifier.inferred_pass_keeps_review :
    exposesToolResults observesTools = true ∧
    (exitRow 3 "pytest" 0 true).isTestRunnerEvidence asciiTables = true ∧
    (exitRow 3 "pytest" 0 true).exitCode = some 0 ∧
    (exitRow 4 "pytest | tail" 1 false).isTestRunnerEvidence asciiTables = false ∧
    (exitRow 4 "pytest | tail" 1 false).mentionsUnidentifiedRunner asciiTables = true ∧
    (verify asciiTables [] 1 "now" ⟨2, "all tests passed"⟩
      [exitRow 3 "pytest" 0 true, exitRow 4 "pytest | tail" 1 false] observesTools).verdict =
        .review := by
  decide +kernel

namespace CommandSuccessVerifier

theorem select_append {claimed : Text} {rows rest : List EvidenceRow} {seen : Bool}
    {first : Option Bound} (hrows : ∀ e ∈ rows, bindRow t claimed e ≠ .exact)
    (hrow : bindRow t claimed row = .exact) :
    ∃ seen', select t claimed seen first (rows ++ row :: rest) =
      (some ⟨row, false, seen'⟩, seen') := by
  induction rows generalizing seen first with
  | nil => exact ⟨seen, by simp [select, hrow]⟩
  | cons e rows ih =>
    have hothers : ∀ e ∈ rows, bindRow t claimed e ≠ .exact :=
      fun e he => hrows e (mem_cons_of_mem _ he)
    cases hbind : bindRow t claimed e with
    | exact => exact absurd hbind (hrows e mem_cons_self)
    | prefixed => simpa [select, hbind] using ih hothers
    | mentioned => simpa [select, hbind] using ih hothers
    | notBound => simpa [select, hbind] using ih hothers

theorem judge_failed {code : Int} {newerMention isTest : Bool} (hexit : row.exitCode = some code)
    (hcode : code ≠ 0) (hliteral : row.isHeuristicEvidence = false) :
    (judge t attestors findingId now claim row newerMention isTest).verdict = .contradicted ∧
      (judge t attestors findingId now claim row newerMention isTest).evidenceIds = [row.id] := by
  simp [judge, hexit, hcode, EvidenceRow.isStderrHeuristicEvidence, hliteral, finding]

end CommandSuccessVerifier

end Fornax
