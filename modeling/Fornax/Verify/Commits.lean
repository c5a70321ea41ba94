import Fornax.Verify.Registry
import Fornax.Verify.Attestation

namespace Fornax.GitOperationVerifier

structure CreatedCommit (e : EvidenceRow) (sha : String) : Prop where
  commit : matchesOperation e "commit" = true
  created : observed e "outcome" = some "created"
  hash : observed e "commit_sha" = some sha

def Created (t : TextTables) (claimed : Text) (evidence : List EvidenceRow) (p : String → Prop) :
    Prop :=
  ∃ e ∈ evidence, ∃ sha, CreatedCommit e sha ∧ shaMatches t claimed sha.toList = true ∧ p sha

/-- The newest commit row `ev` speaks against the claimed commit. -/
def Denies (t : TextTables) (claimed : Text) (ev : EvidenceRow) : Prop :=
  observed ev "outcome" = some "nothing_to_commit" ∨ observed ev "outcome" = some "created" ∧
      ∃ sha, observed ev "commit_sha" = some sha ∧ shaMatches t claimed sha.toList = false

def NamesNoHash (ev : EvidenceRow) : Prop :=
  observed ev "outcome" = some "created" ∧
    (observed ev "commit_sha" = none ∨ observed ev "commit_sha" = some "")

theorem shaMatches_nil (t : TextTables) (claimed : Text) : shaMatches t claimed [] := by
  simp [shaMatches, TextTables.toLowercase, TextTables.lowerAfter, Text.startsWith]

theorem commit_claim_consistent_iff (t : TextTables) (findingId : Uuid) (now : String)
    (claim : SubjectClaim) (claimed : Text) (evidence : List EvidenceRow)
    (caps : RuntimeCapabilities) (hsubject : claim.subject = "git_commit")
    (hclaim : extractShaLiteral claim.text = some claimed) :
    let f := verify t findingId now claim evidence caps
    ((Created t claimed evidence (fun _ => True) → f.verdict ≠ .contradicted) ∧
      (f.verdict = .verified → Created t claimed evidence (· ≠ ""))) ↔
    (exposesToolPayloads caps = true → ∀ ev,
      evidence.reverse.find? (fun e => matchesOperation e "commit") = some ev →
      (Denies t claimed ev → ¬ Created t claimed evidence fun _ => True) ∧
      (NamesNoHash ev → Created t claimed evidence (· ≠ ""))) := by
  intro f
  cases hcaps : exposesToolPayloads caps with
  | false => simp [f, verify, hcaps, stampedFinding]
  | true =>
    have hf : f = verifyCommit t findingId now claim evidence := by
      simp [f, verify, hcaps, hsubject]
    simp only [hf, verifyCommit, hclaim]
    cases hnewest : evidence.reverse.find? fun e => matchesOperation e "commit" with
    | none => simp [stampedFinding]
    | some ev =>
      have hmem : ev ∈ evidence := List.mem_reverse.mp (List.mem_of_find?_eq_some hnewest)
      have hcommit : matchesOperation ev "commit" := by
        simpa using List.find?_some hnewest
      simp only [Option.some.injEq, forall_eq', forall_const]
      split
      · rename_i houtcome
        cases hsha : observed ev "commit_sha" with
        | none => simp [Denies, NamesNoHash, houtcome, hsha, stampedFinding]
        | some sha =>
          by_cases hempty : sha = ""
          · simp [Denies, NamesNoHash, houtcome, hsha, hempty, shaMatches_nil, stampedFinding]
          · cases hmatches : shaMatches t claimed sha.toList with
            | true =>
              have hcreated : Created t claimed evidence (· ≠ "") :=
                ⟨ev, hmem, sha, ⟨hcommit, houtcome, hsha⟩, hmatches, hempty⟩
              simp [Denies, houtcome, hsha, hmatches, hcreated, stampedFinding]
            | false =>
              simp [Denies, NamesNoHash, houtcome, hsha, hmatches, hempty, stampedFinding]
      · rename_i houtcome
        simp [Denies, NamesNoHash, houtcome, stampedFinding]
      · rename_i hcreated hnothing
        simp [Denies, NamesNoHash, eq_false hcreated, eq_false hnothing, stampedFinding]

def createdRow (id : Uuid) (sha : String) : EvidenceRow where
  id := id
  kind := .processObservation
  provenance := "PostToolUse:Bash#tool_response:git_commit"
  payload := .object [("observation", .object
    [("observation_kind", .string "vcs_operation"), ("operation", .string "commit"),
     ("outcome", .string "created"), ("commit_sha", .string sha)])]
  source := none

def shaClaim : SubjectClaim := ⟨⟨2, "committed as \x600e2fbd4\x60"⟩, "git_commit"⟩

theorem commit_claim_consistent_abbreviated :
    (verify asciiTables 1 "now" shaClaim [createdRow 3 "0e2fbd4c91"] observesTools).verdict =
      .verified ∧
    Created asciiTables "0e2fbd4".toList [createdRow 3 "0e2fbd4c91"] (· ≠ "") := by
  have hverified : (verify asciiTables 1 "now" shaClaim [createdRow 3 "0e2fbd4c91"]
      observesTools).verdict = .verified := by decide +kernel
  refine ⟨hverified, ((commit_claim_consistent_iff asciiTables 1 "now" shaClaim
    "0e2fbd4".toList [createdRow 3 "0e2fbd4c91"] observesTools (by decide +kernel)
    (by decide +kernel)).mpr fun _ ev hev => ?_).2 hverified⟩
  obtain rfl : ev = createdRow 3 "0e2fbd4c91" := by
    simpa using List.mem_of_find?_eq_some hev
  refine ⟨fun hdenies => ?_, nofun⟩
  rcases hdenies with hnothing | ⟨_, sha, hsha, hno⟩
  · exact absurd hnothing (by decide +kernel)
  · obtain rfl : "0e2fbd4c91" = sha := by
      simpa [observed, createdRow, Json.get?, Json.asStr] using hsha
    exact absurd hno (by decide +kernel)

theorem second_commit_contradicts :
    Created asciiTables "0e2fbd4".toList [createdRow 3 "0e2fbd4c91", createdRow 4 "77aa01b"]
      (fun _ => True) ∧
    (verify asciiTables 1 "now" shaClaim [createdRow 3 "0e2fbd4c91", createdRow 4 "77aa01b"]
      observesTools).verdict = .contradicted :=
  ⟨⟨createdRow 3 "0e2fbd4c91", List.mem_cons_self, "0e2fbd4c91",
    ⟨by decide +kernel, by decide +kernel, by decide +kernel⟩, by decide +kernel, trivial⟩,
    by decide +kernel⟩

end Fornax.GitOperationVerifier
