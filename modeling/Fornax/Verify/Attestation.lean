import Fornax.Verify.Verifiers

namespace Fornax

open RunnerCommand List Option

variable {t : TextTables} {attestors : List String} {findingId : Uuid} {now : String}
  {claim : StatedClaim} {row : EvidenceRow}

namespace RunnerCommand

def RunnerKind.summaryFormat : RunnerKind → Option String
  | .pytest => some "pytest"
  | .cargo => some "cargo"
  | .other => none

/-- One step runs tests, every other step is a plain `cd`. -/
structure SingleRun (t : TextTables) (kind : RunnerKind) (segments : List Segment) : Prop where
  split : ∃ before run after, segments = before ++ run :: after ∧
    classifySegment t run = some kind ∧
    ∀ s ∈ before ++ after, classifySegment t s = none ∧ isPlainCd s = true

end RunnerCommand

structure ProvenRun (t : TextTables) (row : EvidenceRow) : Prop where
  proof : ∃ kind segments summary format passed,
    commandSegments (row.payload.get? "command") = some segments ∧
    SingleRun t kind segments ∧
    row.payload.get? "test_summary" = some summary ∧
    kind.summaryFormat = some format ∧
    (summary.get? "format").bind Json.asStr = some format ∧
    (summary.get? "passed").bind Json.asU64 = some passed ∧ 1 ≤ passed ∧
    (summary.get? "failed").bind Json.asU64 = some 0

structure Attested (attestors : List String) (row : EvidenceRow) : Prop where
  source : ∃ s, row.source = some s ∧ s.sensorName ∈ attestors ∧
    (s.trustClass = .hostObserved ∨ s.trustClass = .independentExternal)

structure MeetsBar (t : TextTables) (attestors : List String) (row : EvidenceRow) : Prop where
  exit_zero : row.exitCode = some 0
  literal : row.isHeuristicEvidence = false
  attested : Attested attestors row
  proven : row.isTestRunnerEvidence t = true → ProvenRun t row

theorem Attested.of_check (h : row.isIndependentlyAttested attestors) : Attested attestors row := by
  unfold EvidenceRow.isIndependentlyAttested at h
  cases hsource : row.source with
  | none => simp [hsource] at h
  | some s =>
    simp only [hsource, any_some, Bool.and_eq_true, Bool.or_eq_true, beq_iff_eq,
      contains_iff_mem] at h
    exact ⟨s, hsource, h.2, h.1⟩

namespace RunnerCommand

variable {kind : RunnerKind}

theorem provenFrom_spec {segments : List Segment} {found r : Option RunnerKind}
    (h : provenFrom t found segments = some r) :
    found.toList ++ segments.filterMap (classifySegment t) = r.toList ∧
      ∀ s ∈ segments, classifySegment t s = none → isPlainCd s := by
  induction segments generalizing found with
  | nil =>
    cases h
    simp
  | cons segment rest ih =>
    rw [forall_mem_cons]
    cases hclass : classifySegment t segment with
    | some kind =>
      simp only [provenFrom, hclass] at h
      split_ifs at h with hfound
      obtain ⟨hkinds, hplain⟩ := ih h
      rw [not_isSome_iff_eq_none.mp hfound, filterMap_cons, hclass]
      exact ⟨hkinds, nofun, hplain⟩
    | none =>
      simp only [provenFrom, hclass] at h
      split_ifs at h with hcd
      obtain ⟨hkinds, hplain⟩ := ih h
      rw [filterMap_cons, hclass]
      exact ⟨hkinds, fun _ => hcd, hplain⟩

theorem provenFrom_none {segments : List Segment}
    (h : provenFrom t none segments = some (some kind)) : SingleRun t kind segments := by
  obtain ⟨hkinds, hplain⟩ := provenFrom_spec h
  obtain ⟨before, run, after, rfl, hbefore, hrun, hafter⟩ := filterMap_eq_cons_iff.mp hkinds
  have hothers : ∀ s ∈ before ++ after, classifySegment t s = none :=
    forall_mem_append.mpr ⟨hbefore, filterMap_eq_nil_iff.mp hafter⟩
  refine ⟨before, run, after, rfl, hrun, fun s hs => ⟨hothers s hs, hplain s ?_ (hothers s hs)⟩⟩
  exact ((sublist_cons_self run after).append_left before).subset hs

theorem provenRunner_spec {command : Option Json} (h : provenRunner t command = some kind) :
    ∃ segments, commandSegments command = some segments ∧ SingleRun t kind segments := by
  unfold provenRunner at h
  cases hsegments : commandSegments command with
  | none => simp [hsegments] at h
  | some segments =>
    simp only [hsegments] at h
    cases hfrom : provenFrom t none segments with
    | none => simp [hfrom] at h
    | some runner =>
      simp only [hfrom] at h
      have hrunner : runner = some kind := (filter_eq_some_iff.mp h).1
      rw [hrunner] at hfrom
      exact ⟨segments, rfl, provenFrom_none hfrom⟩

end RunnerCommand

theorem ProvenRun.of_check (h : row.executionProven t) : ProvenRun t row := by
  unfold EvidenceRow.executionProven at h
  cases hrunner : provenRunner t (row.payload.get? "command") with
  | none => simp [hrunner] at h
  | some kind =>
    cases hsummary : row.payload.get? "test_summary" with
    | none => simp [hrunner, hsummary] at h
    | some summary =>
      obtain ⟨segments, hsegments, hrun⟩ := provenRunner_spec hrunner
      simp only [hrunner, hsummary, Bool.and_eq_true, decide_eq_true_eq] at h
      obtain ⟨⟨hformat, hpassed⟩, hfailed⟩ := h
      obtain ⟨passed, hsome, hone⟩ := (any_eq_true _ _).mp hpassed
      have hone : 1 ≤ passed := of_decide_eq_true hone
      cases kind with
      | pytest | cargo =>
        exact ⟨_, segments, summary, _, passed, hsegments, hrun, hsummary,
          rfl, of_decide_eq_true hformat, hsome, hone, hfailed⟩
      | other => cases hformat

/-- If the finding is `Verified`, it names `row` alone, and `row` meets the bar. -/
def RestsOn (t : TextTables) (attestors : List String) (row : EvidenceRow) (f : Finding) : Prop :=
  f.verdict = .verified → f.evidenceIds = [row.id] ∧ MeetsBar t attestors row

section

variable {c : Prop} [Decidable c] {stop next : Finding} (hstop : stop.verdict ≠ .verified)

include hstop

theorem not_of_verified (h : (if c then stop else next).verdict = .verified) : ¬ c := by
  intro hc
  rw [if_pos hc] at h
  exact hstop h

theorem RestsOn.guard (hnext : ¬ c → RestsOn t attestors row next) :
    RestsOn t attestors row (if c then stop else next) := by
  intro h
  have hc := not_of_verified hstop h
  rw [if_neg hc] at h ⊢
  exact hnext hc h

end

theorem TestResultVerifier.judge_restsOn {newerMention : Bool} :
    RestsOn t attestors row (judge t attestors findingId now claim row newerMention) := by
  unfold judge
  cases hexit : row.exitCode with
  | none => exact fun h => nomatch h
  | some code =>
    dsimp only
    by_cases hzero : code = 0
    · rw [if_pos hzero]
      refine .guard nofun fun hliteral => .guard nofun fun _ => .guard nofun fun hproven =>
        .guard nofun fun hattested _ => ⟨rfl, ?_⟩
      exact
        { exit_zero := by rw [hexit, hzero]
          literal := by simpa using hliteral
          attested := Attested.of_check (by simpa using hattested)
          proven := fun _ => ProvenRun.of_check (by simpa using hproven) }
    · rw [if_neg hzero]
      exact .guard nofun fun _ h => nomatch h

theorem CommandSuccessVerifier.judge_restsOn {newerMention isTest : Bool} :
    RestsOn t attestors row (judge t attestors findingId now claim row newerMention isTest) := by
  unfold judge
  cases hexit : row.exitCode with
  | none => exact fun h => nomatch h
  | some code =>
    dsimp only
    by_cases hzero : code = 0
    · rw [if_pos hzero]
      refine .guard nofun fun hliteral => .guard nofun fun hproven => .guard nofun fun _ =>
        .guard nofun fun _ => .guard nofun fun _ => .guard nofun fun hattested _ => ⟨rfl, ?_⟩
      exact
        { exit_zero := by rw [hexit, hzero]
          literal := by simpa using hliteral
          attested := Attested.of_check (by simpa using hattested)
          proven := fun htest => ProvenRun.of_check (by simpa [htest] using hproven) }
    · rw [if_neg hzero]
      exact .guard nofun fun _ h => nomatch h

theorem lastRow_spec {p : EvidenceRow → Bool} {evidence newer : List EvidenceRow}
    (h : lastRow p evidence = some (row, newer)) : row ∈ evidence ∧ p row := by
  induction evidence with
  | nil => cases h
  | cons e rest ih =>
    simp only [lastRow] at h
    cases hrest : lastRow p rest with
    | some found =>
      simp only [hrest, some.injEq] at h
      rw [h] at hrest
      exact ⟨mem_cons_of_mem _ (ih hrest).1, (ih hrest).2⟩
    | none =>
      simp only [hrest] at h
      by_cases he : p e = true
      · simp only [if_pos he, some.injEq, Prod.mk.injEq] at h
        rw [← h.1]
        exact ⟨mem_cons_self, he⟩
      · rw [if_neg he] at h
        cases h

theorem TestResultVerifier.verify_verified {evidence : List EvidenceRow}
    {caps : RuntimeCapabilities}
    (h : (verify t attestors findingId now claim evidence caps).verdict = .verified) :
    ∃ row ∈ evidence,
      (verify t attestors findingId now claim evidence caps).evidenceIds = [row.id] ∧
        MeetsBar t attestors row := by
  unfold verify at h ⊢
  have hgate := not_of_verified (by simp [finding]) h
  rw [if_neg hgate] at h ⊢
  cases hlast : lastRow (·.isTestRunnerEvidence t) evidence with
  | none => simp [hlast, finding] at h
  | some found =>
    obtain ⟨ev, newer⟩ := found
    simp only [hlast] at h ⊢
    exact ⟨ev, (lastRow_spec hlast).1, judge_restsOn h⟩

namespace CommandSuccessVerifier

theorem select_mem {claimed : Text} {rows : List EvidenceRow} {seen seen' : Bool}
    {first : Option Bound} {bound : Bound}
    (h : select t claimed seen first rows = (some bound, seen')) :
    bound.row ∈ rows ∨ first = some bound := by
  induction rows generalizing seen first with
  | nil =>
    simp only [select, Prod.mk.injEq] at h
    exact .inr h.1
  | cons e older ih =>
    simp only [select] at h
    cases hbind : bindRow t claimed e with
    | exact =>
      simp only [hbind, Prod.mk.injEq, some.injEq] at h
      rw [← h.1]
      exact .inl mem_cons_self
    | prefixed =>
      simp only [hbind] at h
      rcases ih h with hold | hfirst
      · exact .inl (mem_cons_of_mem _ hold)
      · -- The row itself becomes the first close one unless there was one before.
        cases first with
        | none =>
          simp only [none_or, some.injEq] at hfirst
          rw [← hfirst]
          exact .inl mem_cons_self
        | some b => exact .inr hfirst
    | mentioned | notBound =>
      simp only [hbind] at h
      exact (ih h).imp_left (mem_cons_of_mem _)

theorem attributeExactly_verified {prefixOnly : Bool} {f : Finding}
    (h : (attributeExactly prefixOnly f).verdict = .verified) :
    attributeExactly prefixOnly f = f := by
  unfold attributeExactly at h ⊢
  have hexact := not_of_verified (by simp) h
  rw [if_neg hexact]

theorem verify_verified {evidence : List EvidenceRow} {caps : RuntimeCapabilities}
    (h : (verify t attestors findingId now claim evidence caps).verdict = .verified) :
    ∃ row ∈ evidence,
      (verify t attestors findingId now claim evidence caps).evidenceIds = [row.id] ∧
        MeetsBar t attestors row := by
  unfold verify at h ⊢
  have hgate := not_of_verified (by simp [finding]) h
  rw [if_neg hgate] at h ⊢
  cases hliteral : commandLiteral claim.text with
  | none => simp [hliteral, finding] at h
  | several => simp [hliteral, finding] at h
  | one claimed =>
    simp only [hliteral] at h ⊢
    have hparses := not_of_verified (by simp [finding]) h
    rw [if_neg hparses] at h ⊢
    generalize hrows : evidence.reverse.filter (fun e => decide (e.kind = .exitCode)) = rows at h ⊢
    rcases hselect : select t claimed false none rows with ⟨selected, seen⟩
    cases selected with
    | none =>
      cases seen <;> simp [hselect, finding] at h
    | some bound =>
      simp only [hselect] at h ⊢
      have hkeep := attributeExactly_verified h
      rw [hkeep] at h ⊢
      refine ⟨bound.row, ?_, judge_restsOn h⟩
      rcases select_mem hselect with hmem | hfirst
      · rw [← hrows] at hmem
        exact mem_reverse.mp (mem_filter.mp hmem).1
      · cases hfirst

end CommandSuccessVerifier

theorem not_meetsBar_unattested : ¬ MeetsBar t testRunAttestors row := by
  intro h
  obtain ⟨s, _, hmem, _⟩ := h.attested.source
  cases hmem

theorem verified_needs_attested_row (t : TextTables) (findingId : Uuid) (now : String)
    (claim : StatedClaim) (evidence : List EvidenceRow) (caps : RuntimeCapabilities) :
    ((TestResultVerifier.verify t testRunAttestors findingId now claim evidence caps).verdict ≠
        .verified ∧
      (CommandSuccessVerifier.verify t testRunAttestors findingId now claim evidence caps).verdict ≠
        .verified) ∧
    ∀ attestors : List String, ∀ f : Finding,
      f = TestResultVerifier.verify t attestors findingId now claim evidence caps ∨
        f = CommandSuccessVerifier.verify t attestors findingId now claim evidence caps →
      f.verdict = .verified →
      ∃ row ∈ evidence, f.evidenceIds = [row.id] ∧ MeetsBar t attestors row := by
  refine ⟨⟨?_, ?_⟩, ?_⟩
  · intro h
    obtain ⟨row, _, _, hbar⟩ := TestResultVerifier.verify_verified h
    exact not_meetsBar_unattested hbar
  · intro h
    obtain ⟨row, _, _, hbar⟩ := CommandSuccessVerifier.verify_verified h
    exact not_meetsBar_unattested hbar
  · rintro attestors f (rfl | rfl) h
    · exact TestResultVerifier.verify_verified h
    · exact CommandSuccessVerifier.verify_verified h

/-- A session with one attested run of `cd repo && pytest -q`. -/
def attestedRun : EvidenceRow where
  id := 7
  kind := .exitCode
  provenance := "ci#1"
  payload := .object
    [("command", .string "cd repo && pytest -q"), ("exit_code", .number (.posInt 0)),
     ("test_summary", .object
        [("format", .string "pytest"), ("passed", .number (.posInt 3)),
         ("failed", .number (.posInt 0))])]
  source := some ⟨"ci_runner", .independentExternal⟩

def asciiTables : TextTables where
  alphanumeric := fun _ => false
  lower := fun c => [c]
  cased := fun _ => false
  caseIgnorable := fun _ => false
  printJson := fun _ => []

def observesTools : RuntimeCapabilities := ⟨[⟨.toolTrace, .available⟩]⟩

theorem verified_needs_attested_row_ci :
    (TestResultVerifier.verify asciiTables ["ci_runner"] 1 "now" ⟨2, "all tests passed"⟩
      [attestedRun] observesTools).verdict = .verified ∧
    ∃ row ∈ [attestedRun],
      (TestResultVerifier.verify asciiTables ["ci_runner"] 1 "now" ⟨2, "all tests passed"⟩
        [attestedRun] observesTools).evidenceIds = [row.id] ∧
      MeetsBar asciiTables ["ci_runner"] row :=
  have hverified : (TestResultVerifier.verify asciiTables ["ci_runner"] 1 "now"
      ⟨2, "all tests passed"⟩ [attestedRun] observesTools).verdict = .verified := by
    decide +kernel
  ⟨hverified, (verified_needs_attested_row asciiTables 1 "now" ⟨2, "all tests passed"⟩
    [attestedRun] observesTools).2 ["ci_runner"] _ (Or.inl rfl) hverified⟩

end Fornax
