import Fornax.Corpus.Adjudication
import Fornax.Lib.Runs

namespace Fornax.Corpus

/-- `None` is not exported. -/
def CaseLabel.expectedVerdict : CaseLabel → Option Verdict
  | reliable => some .verified
  | unsupported => some .unverified
  | contradicted => some .contradicted
  | incomplete | unreliable => some .review
  | notEvaluable => none

def CaseLabel.name : CaseLabel → String
  | reliable => "reliable"
  | unreliable => "unreliable"
  | contradicted => "contradicted"
  | unsupported => "unsupported"
  | incomplete => "incomplete"
  | notEvaluable => "not_evaluable"

inductive RelabelReason
  | initialFreeze
  | evidenceCorrection
  | taxonomyRevision
  | adjudicationError
  | policyChange
  deriving DecidableEq

structure GoldLabelRevision where
  caseId : Uuid
  revision : UInt32
  round : UInt32
  label : CaseLabel
  criticalFailure : Bool
  expectedVerdict : Option Verdict
  contributingReviewIds : List Uuid
  frozenBy : String
  frozenAt : String
  supersedesRevision : Option UInt32
  reason : RelabelReason
  revisionDigest : String
  deriving DecidableEq

inductive GoldLabelRejection
  | revisionMustBePositive (found : UInt32)
  | noContributingReviews
  | digestMismatch
  | initialRevisionCannotSupersede
  | relabelMustSupersede
  deriving DecidableEq

def goldLabelDigestDomain : Bytes := asciiBytes "fornax-corpus:gold-label-revision:v1"

def u32BeBytes (n : UInt32) : Bytes :=
  (List.range 4).map fun i => UInt8.ofNat (n.toNat / 256 ^ (3 - i))

def uuidBytes (u : Uuid) : Bytes :=
  (List.range 16).map fun i => UInt8.ofNat (u.val / 256 ^ (15 - i))

section

variable (sha256 : Bytes → Vector UInt8 32)

def computeDigest (caseId : Uuid) (revision : UInt32) (label : CaseLabel) (criticalFailure : Bool)
    (supersedesRevision : Option UInt32) : String :=
  let hashed := goldLabelDigestDomain ++ uuidBytes caseId ++ u32BeBytes revision ++
    utf8Bytes ("\"" ++ label.name ++ "\"") ++ [if criticalFailure then 1 else 0] ++
    (supersedesRevision.map u32BeBytes).getD []
  String.ofList ((sha256 hashed).toList.flatMap fun b => hexDigits 2 b.toNat)

def GoldLabelRevision.tryFrom (w : GoldLabelRevision) :
    Except GoldLabelRejection GoldLabelRevision :=
  if w.revision = 0 then .error (.revisionMustBePositive w.revision)
  else if w.contributingReviewIds.isEmpty then .error .noContributingReviews
  else if w.revision = 1 ∧ w.supersedesRevision.isSome then .error .initialRevisionCannotSupersede
  else if 1 < w.revision ∧ w.supersedesRevision.isNone then .error .relabelMustSupersede
  else if computeDigest sha256 w.caseId w.revision w.label w.criticalFailure
      w.supersedesRevision ≠ w.revisionDigest then .error .digestMismatch
  else .ok w

def nextRevision (caseId : Uuid) (round : UInt32) (label : CaseLabel) (criticalFailure : Bool)
    (contributingReviewIds : List Uuid) (frozenBy frozenAt : String) (reason : RelabelReason)
    (priorRevision : Option UInt32) : GoldLabelRevision :=
  let revision := (priorRevision.map (· + 1)).getD 1
  { caseId, revision, round, label, criticalFailure
    expectedVerdict := label.expectedVerdict
    contributingReviewIds, frozenBy, frozenAt
    supersedesRevision := priorRevision
    reason
    revisionDigest := computeDigest sha256 caseId revision label criticalFailure priorRevision }

inductive ReviewerKind
  | human
  | mechanismTestFixture
  deriving DecidableEq

structure CandidateCase where
  id : Uuid
  claim : Claim
  evidenceGraph : EvidenceGraph
  evidencePool : List Evidence

structure AdjudicatedExpectedOutcome where
  expectedVerdict : Verdict
  criticalFailure : Bool
  notes : Option String

inductive LabelingProvenance
  | humanAdjudicated (labeledBy labeledAt : String) (notes : Option String)
  | syntheticMechanismTest (createdBy createdAt : String) (notes : Option String)

structure LabeledTrajectory where
  id : String
  claim : Claim
  evidenceGraph : EvidenceGraph
  evidencePool : List Evidence
  adjudicatedExpectedOutcome : AdjudicatedExpectedOutcome
  labelingProvenance : LabelingProvenance

def labeledTrajectory (candidate : CandidateCase) (outcome : AdjudicatedExpectedOutcome)
    (provenance : LabelingProvenance) : LabeledTrajectory :=
  ⟨candidate.id.text, candidate.claim, candidate.evidenceGraph, candidate.evidencePool, outcome,
    provenance⟩

def promoteToLabeledTrajectory (candidate : CandidateCase) (outcome : AdjudicatedExpectedOutcome)
    (labeledBy labeledAt : String) : LabeledTrajectory :=
  labeledTrajectory candidate outcome (.humanAdjudicated labeledBy labeledAt none)

def promoteGoldLabel (candidate : CandidateCase) (gold : GoldLabelRevision)
    (contributingReviewerKinds : List ReviewerKind) (labeledBy labeledAt : String) :
    Option LabeledTrajectory := do
  let expectedVerdict ← gold.expectedVerdict
  let outcome : AdjudicatedExpectedOutcome := ⟨expectedVerdict, gold.criticalFailure,
    some ("gold_label_revision: " ++ gold.caseId.text ++ "#" ++ toString gold.revision.toNat)⟩
  let allHuman := !contributingReviewerKinds.isEmpty &&
    contributingReviewerKinds.all fun k => k == .human
  if allHuman then some (promoteToLabeledTrajectory candidate outcome labeledBy labeledAt)
  else some (labeledTrajectory candidate outcome (.syntheticMechanismTest labeledBy labeledAt
    (some "contains a non-Human contributing reviewer")))

structure GoldLabelRevision.Consistent (g : GoldLabelRevision) : Prop where
  verdict : g.expectedVerdict = g.label.expectedVerdict
  supersedes : g.supersedesRevision = if g.revision = 1 then none else some (g.revision - 1)

def GoldLabelRevision.Written (g : GoldLabelRevision) : Prop :=
  ∃ caseId round label criticalFailure contributingReviewIds frozenBy frozenAt reason priorRevision,
    g = nextRevision sha256 caseId round label criticalFailure contributingReviewIds frozenBy
      frozenAt reason priorRevision

variable {sha256}

theorem tryFrom_eq_ok {w g : GoldLabelRevision} : w.tryFrom sha256 = .ok g ↔
    g = w ∧ w.revision ≠ 0 ∧ w.contributingReviewIds ≠ [] ∧
      (w.revision = 1 ↔ w.supersedesRevision = none) ∧
      computeDigest sha256 w.caseId w.revision w.label w.criticalFailure w.supersedesRevision =
        w.revisionDigest := by
  have hlater : ∀ n : UInt32, n ≠ 0 → (1 < n ↔ n ≠ 1) := by
    intro n hn
    have hpos : n.toNat ≠ 0 := fun h => hn (UInt32.toNat_inj.mp h)
    have hone : n = 1 ↔ n.toNat = 1 := (UInt32.toNat_inj (b := 1)).symm
    have hlt : 1 < n ↔ 1 < n.toNat := UInt32.lt_iff_toNat_lt (a := 1)
    rw [hlt, ne_eq, hone]
    omega
  unfold GoldLabelRevision.tryFrom
  split_ifs with hzero hnone hinitial hrelabel hdigest
  · simp [hzero]
  · simp [List.isEmpty_iff.mp hnone]
  · simp [hinitial.1, Option.isSome_iff_ne_none.mp hinitial.2]
  · have hsupersedes := Option.isNone_iff_eq_none.mp hrelabel.2
    have hrevision := (hlater _ hzero).mp hrelabel.1
    simp [hsupersedes, hrevision]
  · simp [hdigest]
  · rw [hlater _ hzero] at hrelabel
    rw [ne_eq, not_not] at hdigest
    have hids : w.contributingReviewIds ≠ [] := fun h => hnone (List.isEmpty_iff.mpr h)
    have hsupersedes : w.revision = 1 ↔ w.supersedesRevision = none := by
      rw [← Option.isNone_iff_eq_none]
      cases hvalue : w.supersedesRevision <;> simp_all
    simp [hzero, hids, hsupersedes, hdigest, eq_comm]

theorem written_iff_consistent {w g : GoldLabelRevision} (h : w.tryFrom sha256 = .ok g) :
    w.Written sha256 ↔ g.Consistent := by
  obtain ⟨rfl, -, -, hinitial, hdigest⟩ := tryFrom_eq_ok.mp h
  constructor
  · rintro ⟨caseId, round, label, criticalFailure, ids, frozenBy, frozenAt, reason, prior, rfl⟩
    refine ⟨rfl, ?_⟩
    cases prior with
    | none => rfl
    | some previous =>
      have hlater : previous + 1 ≠ 1 := fun h => nomatch hinitial.mp h
      change some previous = if previous + 1 = 1 then none else some (previous + 1 - 1)
      rw [if_neg hlater, add_sub_cancel_right]
  · rintro ⟨hverdict, hsupersedes⟩
    have hrevision : (g.supersedesRevision.map (· + 1)).getD 1 = g.revision := by
      rw [hsupersedes]
      split_ifs with hone
      · exact hone.symm
      · exact sub_add_cancel g.revision 1
    refine ⟨g.caseId, g.round, g.label, g.criticalFailure, g.contributingReviewIds, g.frozenBy,
      g.frozenAt, g.reason, g.supersedesRevision, ?_⟩
    simp only [nextRevision, hrevision, hdigest, ← hverdict]

theorem promoteGoldLabel_verdict {candidate : CandidateCase} {gold : GoldLabelRevision}
    {kinds : List ReviewerKind} {labeledBy labeledAt : String} {t : LabeledTrajectory}
    (h : promoteGoldLabel candidate gold kinds labeledBy labeledAt = some t) :
    gold.expectedVerdict = some t.adjudicatedExpectedOutcome.expectedVerdict := by
  unfold promoteGoldLabel at h
  rw [Option.bind_eq_bind, Option.bind_eq_some_iff] at h
  obtain ⟨verdict, hverdict, h⟩ := h
  rw [hverdict]
  dsimp only at h
  split_ifs at h
  all_goals
    rw [← Option.some.inj h]
    rfl

end

def zeroHash : Bytes → Vector UInt8 32 := fun _ => Vector.replicate 32 0

def firstFreeze : GoldLabelRevision :=
  nextRevision zeroHash 1 1 .contradicted true [7] "adj1" "2026-01-01T00:00:00Z" .initialFreeze none

def forged : GoldLabelRevision :=
  { firstFreeze with
    revision := 3
    expectedVerdict := some .verified
    supersedesRevision := some 1
    revisionDigest := computeDigest zeroHash 1 3 .contradicted true (some 1) }

structure CaseFile where
  caseId : Uuid
  queue : QueueEntry
  reviews : List ReviewRecord
  gold : List GoldLabelRevision

inductive Command
  | submit (id : Uuid) (reviewerId : String) (role : ReviewerRole) (outcome : ReviewOutcome)
  | freeze (frozenBy frozenAt : String) (reason : RelabelReason)

inductive CommandError
  | alreadyReviewed
  | review (e : ReviewError)
  | notResolved (state : AdjudicationState)
  | noDecidingReview
  | decidingReviewUnresolved
  | goldLabelAlreadyFrozen (revision : UInt32)

/-- `submit_review`, after the checks of the view. -/
def CaseFile.submit (c : CaseFile) (id : Uuid) (reviewerId : String) (role : ReviewerRole)
    (outcome : ReviewOutcome) : Except CommandError CaseFile :=
  if c.reviews.any fun r => r.reviewerId == reviewerId then .error .alreadyReviewed
  else
    match ReviewRecord.new id reviewerId role outcome with
    | .error e => .error (.review e)
    | .ok record => .ok { c with reviews := c.reviews ++ [record] }

def latestRevision (gold : List GoldLabelRevision) : Option UInt32 :=
  (gold.map GoldLabelRevision.revision).max?

def decidingReview (reviews : List ReviewRecord) : ResolutionBasis → Option ReviewRecord
  | .adjudicatorDecision => reviews.reverse.find? isAdjudicator
  | _ => reviews.head?

section

variable (sha256 : Bytes → Vector UInt8 32)

def CaseFile.freezeWith (c : CaseFile) (frozenBy frozenAt : String) (reason : RelabelReason)
    (review : ReviewRecord) : Except CommandError CaseFile :=
  match review.outcome with
  | .unresolved _ => .error .decidingReviewUnresolved
  | .label label criticalFailure _ =>
    let prior := latestRevision c.gold
    let gold := nextRevision sha256 c.caseId (prior.getD 0 + 1) label criticalFailure [review.id]
      frozenBy frozenAt reason prior
    if c.gold.any fun g => g.revision == gold.revision then
      .error (.goldLabelAlreadyFrozen gold.revision)
    else .ok { c with gold := c.gold ++ [gold] }

def CaseFile.freeze (c : CaseFile) (frozenBy frozenAt : String) (reason : RelabelReason) :
    Except CommandError CaseFile :=
  match deriveState c.queue c.reviews ((latestRevision c.gold).map UInt32.toNat) with
  | .resolved basis =>
    match decidingReview c.reviews basis with
    | none => .error .noDecidingReview
    | some review => c.freezeWith sha256 frozenBy frozenAt reason review
  | state => .error (.notResolved state)

def CaseFile.perform (c : CaseFile) : Command → Except CommandError CaseFile
  | .submit id reviewerId role outcome => c.submit id reviewerId role outcome
  | .freeze frozenBy frozenAt reason => c.freeze sha256 frozenBy frozenAt reason

def CaseFile.step (c : CaseFile) (command : Command) : CaseFile :=
  (c.perform sha256 command).toOption.getD c

def FrozenFrom (c : CaseFile) (g : GoldLabelRevision) : Prop :=
  ∃ r ∈ c.reviews, ∃ round frozenBy frozenAt reason, r.Gives g.label g.criticalFailure ∧
    g = nextRevision sha256 c.caseId round g.label g.criticalFailure [r.id] frozenBy frozenAt reason
      none

/-- One review per reviewer, labels from all who are not adjudicators, and at most one row. -/
structure CaseFile.Sound (c : CaseFile) : Prop where
  reviewers : (c.reviews.map ReviewRecord.reviewerId).Nodup
  labels : ∀ r ∈ c.reviews, r.role ≠ .adjudicator →
    ∃ label criticalFailure, r.Gives label criticalFailure
  gold : c.gold = [] ∨ ∃ g, c.gold = [g] ∧ FrozenFrom sha256 c g

variable {sha256}

theorem new_eq_ok {id : Uuid} {reviewerId : String} {role : ReviewerRole}
    {outcome : ReviewOutcome} {record : ReviewRecord}
    (h : ReviewRecord.new id reviewerId role outcome = .ok record) :
    (role ≠ .adjudicator → ∃ label criticalFailure failureClass,
      outcome = .label label criticalFailure failureClass) ∧
      record = ⟨id, reviewerId, role, outcome⟩ := by
  obtain ⟨_, hcheck, h⟩ := Fallible.bind_eq_ok.mp h
  cases h
  refine ⟨fun hrole => ?_, rfl⟩
  cases outcome with
  | label label criticalFailure failureClass => exact ⟨label, criticalFailure, failureClass, rfl⟩
  | unresolved reason =>
    rw [checkOutcome, if_pos hrole] at hcheck
    cases hcheck

theorem mem_of_decidingReview {reviews : List ReviewRecord} {basis : ResolutionBasis}
    {r : ReviewRecord} (h : decidingReview reviews basis = some r) : r ∈ reviews := by
  unfold decidingReview at h
  split at h
  · exact List.mem_reverse.mp (List.mem_of_find?_eq_some h)
  · exact List.mem_of_head? h

theorem submit_eq_ok {c c' : CaseFile} {id : Uuid} {reviewerId : String} {role : ReviewerRole}
    {outcome : ReviewOutcome} (h : c.submit id reviewerId role outcome = .ok c') :
    (∀ r ∈ c.reviews, r.reviewerId ≠ reviewerId) ∧
      (role ≠ .adjudicator → ∃ label criticalFailure failureClass,
        outcome = .label label criticalFailure failureClass) ∧
      c' = { c with reviews := c.reviews ++ [⟨id, reviewerId, role, outcome⟩] } := by
  unfold CaseFile.submit at h
  split_ifs at h with hany
  have hfresh : ∀ r ∈ c.reviews, r.reviewerId ≠ reviewerId := by
    intro r hr hid
    exact hany (List.any_eq_true.mpr ⟨r, hr, beq_iff_eq.mpr hid⟩)
  cases hnew : ReviewRecord.new id reviewerId role outcome with
  | error e =>
    rw [hnew] at h
    cases h
  | ok record =>
    rw [hnew] at h
    cases h
    obtain ⟨hlabel, rfl⟩ := new_eq_ok hnew
    exact ⟨hfresh, hlabel, rfl⟩

theorem freeze_eq_ok {c c' : CaseFile} {frozenBy frozenAt : String} {reason : RelabelReason}
    (h : c.freeze sha256 frozenBy frozenAt reason = .ok c') :
    c.gold = [] ∧ ∃ r ∈ c.reviews, ∃ label criticalFailure, r.Gives label criticalFailure ∧
      c' = { c with gold := [nextRevision sha256 c.caseId 1 label criticalFailure [r.id]
        frozenBy frozenAt reason none] } := by
  unfold CaseFile.freeze at h
  cases hprior : latestRevision c.gold with
  | some revision =>
    rw [hprior] at h
    cases h
  | none =>
    have hgold : c.gold = [] := by simpa [latestRevision] using hprior
    rw [hprior] at h
    split at h
    · split at h
      · cases h
      · rename_i review hreview
        refine ⟨hgold, review, mem_of_decidingReview hreview, ?_⟩
        unfold CaseFile.freezeWith at h
        cases houtcome : review.outcome with
        | unresolved reason =>
          rw [houtcome] at h
          cases h
        | label label criticalFailure failureClass =>
          simp only [houtcome, hgold, List.any_nil] at h
          cases h
          exact ⟨label, criticalFailure, ⟨failureClass, houtcome⟩, rfl⟩
    · cases h

theorem sound_step {c : CaseFile} (hc : c.Sound sha256) (command : Command) :
    (c.step sha256 command).Sound sha256 := by
  unfold CaseFile.step
  cases hperform : c.perform sha256 command with
  | error e => exact hc
  | ok c' =>
    cases command with
    | submit id reviewerId role outcome =>
      obtain ⟨hfresh, hlabel, rfl⟩ := submit_eq_ok hperform
      refine ⟨?_, fun r hr hrole => ?_, hc.gold.imp_right fun ⟨g, hg, r, hr, hfrozen⟩ => ?_⟩
      · change (List.map _ (c.reviews ++ [_])).Nodup
        rw [List.map_append, List.nodup_append]
        refine ⟨hc.reviewers, List.nodup_singleton _, ?_⟩
        rintro _ hold _ hnew rfl
        obtain ⟨r, hr, hid⟩ := List.mem_map.mp hold
        exact hfresh r hr (hid.trans (List.mem_singleton.mp hnew))
      · rcases List.mem_append.mp hr with hr | hr
        · exact hc.labels r hr hrole
        · cases List.mem_singleton.mp hr
          exact hlabel hrole
      · exact ⟨g, hg, r, List.mem_append_left _ hr, hfrozen⟩
    | freeze frozenBy frozenAt reason =>
      obtain ⟨-, r, hr, label, criticalFailure, hgives, rfl⟩ := freeze_eq_ok hperform
      exact ⟨hc.reviewers, hc.labels,
        .inr ⟨_, rfl, r, hr, 1, frozenBy, frozenAt, reason, hgives, rfl⟩⟩

/-- Whatever the commands, a case has at most one frozen row; it is read back, says what its label
says, and is the label of a review of the case. -/
theorem run_stored (caseId : Uuid) (queue : QueueEntry) (commands : List Command) :
    let c := Runs.run (CaseFile.step sha256) ⟨caseId, queue, [], []⟩ commands
    c.gold.length ≤ 1 ∧ ∀ g ∈ c.gold, g.tryFrom sha256 = .ok g ∧ g.Consistent ∧
      ∃ r ∈ c.reviews, r.Gives g.label g.criticalFailure ∧ g.contributingReviewIds = [r.id] := by
  intro c
  have hstart : CaseFile.Sound sha256 ⟨caseId, queue, [], []⟩ :=
    ⟨List.nodup_nil, fun _ h => (nomatch h), .inl rfl⟩
  have hsound : c.Sound sha256 :=
    Runs.run_always hstart (fun t command ht => sound_step ht command) commands
  rcases hsound.gold with hnil | ⟨g, hone, r, hr, round, frozenBy, frozenAt, reason, hgives, hg⟩
  · simp [hnil]
  · refine ⟨by simp [hone], fun g' hg' => ?_⟩
    rw [hone, List.mem_singleton] at hg'
    subst hg'
    have hread : g'.tryFrom sha256 = .ok g' := by
      rw [tryFrom_eq_ok, hg]
      exact ⟨rfl, fun hzero => absurd hzero (by decide : (1 : UInt32) ≠ 0), List.cons_ne_nil _ _,
        ⟨fun _ => rfl, fun _ => rfl⟩, rfl⟩
    have hconsistent := (written_iff_consistent hread).mp ⟨_, _, _, _, _, _, _, _, _, hg⟩
    refine ⟨hread, hconsistent, r, hr, hgives, ?_⟩
    rw [hg]
    rfl

end

end Fornax.Corpus
