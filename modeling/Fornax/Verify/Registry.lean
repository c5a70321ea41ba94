import Fornax.Verify.Verifiers

namespace Fornax

open RunnerCommand

structure SubjectClaim extends StatedClaim where
  subject : String
  deriving DecidableEq, Repr

def exposesToolPayloads (caps : RuntimeCapabilities) : Bool :=
  caps.isObservable .toolTrace || caps.isObservable .toolResultPayload

def extractDelimited (text : Text) (delim : Char) : Option Text :=
  ((delimited delim none text).head?.map Text.trim).filter fun inner => !inner.isEmpty

def extractLiteral (text : Text) : Option Text :=
  (extractDelimited text '\x60').or (extractDelimited text '"')

def stampedFinding (name : String) (findingId : Uuid) (now : String) (claim : StatedClaim)
    (verdict : Verdict) (evidenceIds : List Uuid) (rationale : String) : Finding :=
  { id := findingId, claimId := claim.id, verdict, evidenceIds, verifierName := name, rationale,
    computedAt := now }

namespace CommandExecutedVerifier

def name : String := "command_executed_verifier_v1"

section Verify

variable (t : TextTables) (findingId : Uuid) (now : String) (claim : StatedClaim)

def search (claimed : Text) (prefixRow : Option EvidenceRow) (mentioned : Bool) :
    List EvidenceRow → Finding
  | [] =>
    let result := stampedFinding name findingId now claim
    match prefixRow with
    | some ev =>
      result .review [ev.id] ("a command starting with \"" ++ String.ofList claimed ++
        "\" ran, but with extra arguments that could change what it did (for example a dry " ++
        "run) -- flagged for review, not verified (" ++ ev.provenance ++ ")")
    | none =>
      result .unverified [] (if mentioned then
        "commands that mention \"" ++ String.ofList claimed ++ "\" were observed, but none is a " ++
          "run of that command"
      else
        "no evidence of a command matching \"" ++ String.ofList claimed ++ "\" observed in this " ++
          "session")
  | ev :: older =>
    match CommandSuccessVerifier.bindRow t claimed ev with
    | .exact =>
      stampedFinding name findingId now claim .verified [ev.id]
        ("observed command matching \"" ++ String.ofList claimed ++ "\" executed (" ++
          ev.provenance ++ ")")
    | .prefixed => search claimed (prefixRow.or (some ev)) mentioned older
    | .mentioned => search claimed prefixRow true older
    | .notBound => search claimed prefixRow mentioned older

def verify (evidence : List EvidenceRow) (caps : RuntimeCapabilities) : Finding :=
  let result := stampedFinding name findingId now claim
  if !exposesToolResults caps then
    result .unavailable [] ("runtime does not expose tool-trace/transcript evidence needed to " ++
      "check command execution")
  else
    match commandLiteral claim.text with
    | .several =>
      result .unverified [] ("claim names more than one command; it cannot be bound to a single " ++
        "command's evidence")
    | .none =>
      result .unverified [] "claim text does not name a literal command to check against evidence"
    | .one claimed =>
      if !claimCommandParses claimed then
        result .unverified [] ("the claimed command \"" ++ String.ofList claimed ++
          "\" cannot be parsed as a command")
      else
        search t findingId now claim claimed none false
          (evidence.reverse.filter fun e => decide (e.kind = .exitCode))

end Verify

end CommandExecutedVerifier

namespace FileModifiedVerifier

def name : String := "file_modified_verifier_v1"

def looksPathShaped (candidate : Text) : Bool :=
  decide ('/' ∈ candidate) ||
    (decide ('.' ∈ candidate) &&
      (let ext := Text.afterLast '.' candidate
       !ext.isEmpty && decide (Text.utf8Len ext ≤ 8) && ext.all Char.isAlphanum))

def extractPathLiteral (text : Text) : Option Text := (extractLiteral text).filter looksPathShaped

def pathMatches (evidencePath claimedPath : Text) : Bool :=
  decide (evidencePath = claimedPath) ||
    (claimedPath.isSuffixOf evidencePath &&
      (let before := evidencePath.take (evidencePath.length - claimedPath.length)
       before.isEmpty || before.getLast? == some '/'))

section Verify

variable (findingId : Uuid) (now : String) (claim : StatedClaim)

def matching (claimedPath : Text) (e : EvidenceRow) : Bool :=
  decide (e.kind = .fileDiff) &&
    ((e.payload.get? "path").bind Json.asStr).any fun p => pathMatches p.toList claimedPath

def verify (evidence : List EvidenceRow) (caps : RuntimeCapabilities) : Finding :=
  let result := stampedFinding name findingId now claim
  if !exposesToolPayloads caps then
    result .unavailable [] ("runtime does not expose tool-trace/tool-result evidence needed to " ++
      "check file modifications")
  else
    match extractPathLiteral claim.text with
    | none =>
      result .unverified [] ("claim text does not name a literal, path-shaped file to check " ++
        "against evidence")
    | some claimedPath =>
      let shown := String.ofList claimedPath
      match evidence.reverse.find? (matching claimedPath) with
      | none =>
        result .unverified [] ("no file-diff evidence observed for a file matching \"" ++ shown ++
          "\" in this session")
      | some ev =>
        if !((ev.payload.get? "diff").bind Json.asStr).any (fun d => !d.isEmpty) then
          result .unverified [] ("file-diff evidence for \"" ++ shown ++ "\" was found but its " ++
            "diff is empty")
        else
          result .review [ev.id] ("observed a file-diff matching \"" ++ shown ++ "\", but this " ++
            "evidence is always heuristic (reconstructed from tool_input, never authoritative) " ++
            "in this implementation -- flagged for review, not confirmed verified (" ++
            ev.provenance ++ ")")

end Verify

end FileModifiedVerifier

namespace GitOperationVerifier

def name : String := "git_operation_verifier_v1"

def isHexDigit (c : Char) : Bool :=
  c.isDigit || ('a' ≤ c && c ≤ 'f') || ('A' ≤ c && c ≤ 'F')

def looksShaShaped (s : Text) : Bool :=
  decide (7 ≤ Text.utf8Len s) && decide (Text.utf8Len s ≤ 40) && s.all isHexDigit

def extractShaLiteral (text : Text) : Option Text := (extractLiteral text).filter looksShaShaped

def shaMatches (t : TextTables) (claimed actual : Text) : Bool :=
  Text.startsWith (t.toLowercase actual) (t.toLowercase claimed) ||
    Text.startsWith (t.toLowercase claimed) (t.toLowercase actual)

def eqIgnoreAsciiCase (a b : Text) : Bool := a.map Char.toLower == b.map Char.toLower

/-- The string at `/observation/<key>`. -/
def observed (e : EvidenceRow) (key : String) : Option String :=
  ((e.payload.get? "observation").bind fun o => o.get? key).bind Json.asStr

def matchesOperation (e : EvidenceRow) (operation : String) : Bool :=
  decide (e.kind = .processObservation) &&
    decide (observed e "observation_kind" = some "vcs_operation") &&
    decide (observed e "operation" = some operation)

section Verify

variable (t : TextTables) (findingId : Uuid) (now : String) (claim : SubjectClaim)

def verifyCommit (evidence : List EvidenceRow) : Finding :=
  let result := stampedFinding name findingId now claim.toStatedClaim
  match evidence.reverse.find? fun e => matchesOperation e "commit" with
  | none => result .unverified [] "no git commit evidence observed in this session"
  | some ev =>
    let created :=
      result .verified [ev.id] ("observed git commit created (" ++ ev.provenance ++ ")")
    match observed ev "outcome" with
    | some "created" =>
      match extractShaLiteral claim.text, observed ev "commit_sha" with
      | some claimed, some actual =>
        if !shaMatches t claimed actual.toList then
          result .contradicted [ev.id] ("claim names commit sha \"" ++ String.ofList claimed ++
            "\", but observed commit sha \"" ++ actual ++ "\" (" ++ ev.provenance ++ ")")
        else created
      | _, _ => created
    | some "nothing_to_commit" =>
      result .contradicted [ev.id]
        ("claim states a commit was made, but git reported nothing to " ++
        "commit (" ++ ev.provenance ++ ")")
    | _ =>
      result .unverified [] "git commit evidence found but its outcome was not recognized"

def verifyPush (evidence : List EvidenceRow) : Finding :=
  let result := stampedFinding name findingId now claim.toStatedClaim
  match evidence.reverse.find? fun e => matchesOperation e "push" with
  | none => result .unverified [] "no git push evidence observed in this session"
  | some ev =>
    let updated :=
      result .verified [ev.id] ("observed git push ref updated (" ++ ev.provenance ++ ")")
    match observed ev "outcome" with
    | some "ref_updated" =>
      match extractLiteral claim.text, observed ev "branch" with
      | some claimed, some actual =>
        if !eqIgnoreAsciiCase claimed actual.toList then
          result .unverified [] ("claim names branch \"" ++ String.ofList claimed ++ "\", but " ++
            "observed push updated branch \"" ++ actual ++ "\" -- ambiguous (multi-branch " ++
            "session), not confirmed wrong (" ++ ev.provenance ++ ")")
        else updated
      | _, _ => updated
    | some "rejected" =>
      result .contradicted [ev.id]
        ("claim states the push succeeded, but git rejected the push (" ++
        ev.provenance ++ ")")
    | some "up_to_date" =>
      result .review [ev.id]
        ("git reported nothing to push (\"Everything up-to-date\") for this " ++
        "invocation; the branch may have been pushed earlier in the session -- flagged for " ++
        "review, not confirmed (" ++ ev.provenance ++ ")")
    | _ => result .unverified [] "git push evidence found but its outcome was not recognized"

def verify (evidence : List EvidenceRow) (caps : RuntimeCapabilities) : Finding :=
  let result := stampedFinding name findingId now claim.toStatedClaim
  if !exposesToolPayloads caps then
    result .unavailable [] ("runtime does not expose tool-trace/tool-result evidence needed to " ++
      "check git commit/push outcomes")
  else if claim.subject = "git_commit" then verifyCommit t findingId now claim evidence
  else if claim.subject = "git_push" then verifyPush findingId now claim evidence
  else result .unavailable [] "applies_to guarantees subject is git_commit or git_push"

end Verify

end GitOperationVerifier

structure Verifier where
  name : String
  appliesTo : String → Bool
  verify : Uuid → String → SubjectClaim → List EvidenceRow → RuntimeCapabilities → Finding

variable (t : TextTables)

def verifiers : List Verifier :=
  [ { name := TestResultVerifier.name
      appliesTo := fun subject => subject == "test_result"
      verify := fun id now claim =>
        TestResultVerifier.verify t testRunAttestors id now claim.toStatedClaim },
    { name := CommandExecutedVerifier.name
      appliesTo := fun subject => subject == "command_executed"
      verify := fun id now claim => CommandExecutedVerifier.verify t id now claim.toStatedClaim },
    { name := CommandSuccessVerifier.name
      appliesTo := fun subject => subject == "command_succeeded"
      verify := fun id now claim =>
        CommandSuccessVerifier.verify t testRunAttestors id now claim.toStatedClaim },
    { name := FileModifiedVerifier.name
      appliesTo := fun subject => subject == "file_written"
      verify := fun id now claim => FileModifiedVerifier.verify id now claim.toStatedClaim },
    { name := GitOperationVerifier.name
      appliesTo := fun subject => subject == "git_commit" || subject == "git_push"
      verify := fun id now claim => GitOperationVerifier.verify t id now claim } ]

def Stamped (f : Finding) (findingId claimId : Uuid) (name : String) : Prop :=
  f.id = findingId ∧ f.claimId = claimId ∧ f.verifierName = name

variable {findingId : Uuid} {now : String} {evidence : List EvidenceRow}
  {caps : RuntimeCapabilities}
  (attestors : List String)

variable (claim : StatedClaim)

theorem TestResultVerifier.verify_stamped :
    Stamped (verify t attestors findingId now claim evidence caps) findingId claim.id name := by
  unfold verify judge
  repeat' split
  all_goals exact ⟨rfl, rfl, rfl⟩

theorem CommandExecutedVerifier.search_stamped (claimed : Text)
    (prefixRow : Option EvidenceRow) (mentioned : Bool) (rows : List EvidenceRow) :
    Stamped (search t findingId now claim claimed prefixRow mentioned rows) findingId claim.id
      name := by
  induction rows generalizing prefixRow mentioned with
  | nil =>
    unfold search
    split <;> exact ⟨rfl, rfl, rfl⟩
  | cons ev older ih =>
    unfold search
    split
    · exact ⟨rfl, rfl, rfl⟩
    · exact ih _ _
    · exact ih _ _
    · exact ih _ _

theorem CommandExecutedVerifier.verify_stamped :
    Stamped (verify t findingId now claim evidence caps) findingId claim.id name := by
  unfold verify
  split
  · exact ⟨rfl, rfl, rfl⟩
  · split
    · exact ⟨rfl, rfl, rfl⟩
    · exact ⟨rfl, rfl, rfl⟩
    · split
      · exact ⟨rfl, rfl, rfl⟩
      · exact search_stamped t claim _ _ _ _

theorem CommandSuccessVerifier.judge_stamped (ev : EvidenceRow)
    (newerMention claimIsTestCommand : Bool) :
    Stamped (judge t attestors findingId now claim ev newerMention claimIsTestCommand) findingId
      claim.id name := by
  unfold judge
  repeat' split
  all_goals exact ⟨rfl, rfl, rfl⟩

theorem CommandSuccessVerifier.verify_stamped :
    Stamped (verify t attestors findingId now claim evidence caps) findingId claim.id name := by
  have hexactly : ∀ (prefixOnly : Bool) (f : Finding), Stamped f findingId claim.id name →
      Stamped (attributeExactly prefixOnly f) findingId claim.id name := by
    intro prefixOnly f hf
    unfold attributeExactly
    split <;> exact hf
  unfold verify
  split
  · exact ⟨rfl, rfl, rfl⟩
  · split
    · exact ⟨rfl, rfl, rfl⟩
    · exact ⟨rfl, rfl, rfl⟩
    · split
      · exact ⟨rfl, rfl, rfl⟩
      · split
        · exact hexactly _ _ (judge_stamped t attestors claim _ _ _)
        · exact ⟨rfl, rfl, rfl⟩
        · exact ⟨rfl, rfl, rfl⟩

theorem FileModifiedVerifier.verify_stamped :
    Stamped (verify findingId now claim evidence caps) findingId claim.id name := by
  unfold verify
  repeat' split
  all_goals exact ⟨rfl, rfl, rfl⟩

theorem GitOperationVerifier.verify_stamped (claim : SubjectClaim) :
    Stamped (verify t findingId now claim evidence caps) findingId claim.id name := by
  unfold verify verifyCommit verifyPush
  repeat' split
  all_goals exact ⟨rfl, rfl, rfl⟩

theorem stamped_of_mem_verifiers {v : Verifier} (hv : v ∈ verifiers t) (findingId : Uuid)
    (now : String) (claim : SubjectClaim) (evidence : List EvidenceRow)
    (caps : RuntimeCapabilities) :
    Stamped (v.verify findingId now claim evidence caps) findingId claim.id v.name := by
  simp only [verifiers, List.mem_cons, List.not_mem_nil, or_false] at hv
  rcases hv with rfl | rfl | rfl | rfl | rfl
  · exact TestResultVerifier.verify_stamped t _ claim.toStatedClaim
  · exact CommandExecutedVerifier.verify_stamped t claim.toStatedClaim
  · exact CommandSuccessVerifier.verify_stamped t _ claim.toStatedClaim
  · exact FileModifiedVerifier.verify_stamped claim.toStatedClaim
  · exact GitOperationVerifier.verify_stamped t claim

theorem applicable_length_le_one (subject : String) :
    ((verifiers t).filter fun v => v.appliesTo subject).length ≤ 1 := by
  by_cases htest : subject = "test_result"
  · subst htest
    simp [verifiers]
  by_cases hexecuted : subject = "command_executed"
  · subst hexecuted
    simp [verifiers]
  by_cases hsucceeded : subject = "command_succeeded"
  · subst hsucceeded
    simp [verifiers]
  by_cases hwritten : subject = "file_written"
  · subst hwritten
    simp [verifiers]
  -- what is left can only be for the git verifier
  have hothers : (verifiers t).filter (fun v => v.appliesTo subject) =
      ((verifiers t).drop 4).filter fun v => v.appliesTo subject := by
    simp [verifiers, htest, hexecuted, hsucceeded, hwritten]
  rw [hothers]
  exact (List.length_filter_le _ _).trans (by simp [verifiers])

end Fornax
