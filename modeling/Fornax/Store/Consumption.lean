import Fornax.Store.Records

namespace Fornax

open List Runs

abbrev ClaimAnchor := String × Uuid

inductive ReplayVerdict
  | freshlyRecorded
  | alreadyConsumedBySameClaim
  | replayedAcrossClaims (originallyConsumedBy : Uuid)
  | reusedByRelatedClaim (originallyConsumedBy : Uuid)
  deriving DecidableEq, Repr

def classifyConsumptionByAnchor (existing : Option (Uuid × ClaimAnchor)) (claimId : Uuid)
    (anchor : ClaimAnchor) : ReplayVerdict :=
  match existing with
  | none => .freshlyRecorded
  | some (owner, ownerAnchor) =>
    if owner = claimId then .alreadyConsumedBySameClaim
    else if ownerAnchor = anchor then .reusedByRelatedClaim owner
    else .replayedAcrossClaims owner

/-- The daemon downgrades a finding on `ReplayedAcrossClaims` only. -/
def ReplayVerdict.spends : ReplayVerdict → Bool
  | .replayedAcrossClaims _ => false
  | _ => true

inductive ConsumptionOutcome
  | consumed
  | quarantined
  deriving DecidableEq, Repr

structure ConsumptionRow where
  id : Uuid
  evidenceId : Uuid
  claimId : Uuid
  anchor : ClaimAnchor
  verifierName : Option String
  outcome : ConsumptionOutcome
  reason : Option String
  recordedAt : String
  deriving DecidableEq, Repr

structure ConsumptionTables where
  rows : List ConsumptionRow
  lineageTags : List LineageTagRow
  deriving DecidableEq, Repr

def oldest : List ConsumptionRow → Option ConsumptionRow
  | [] => none
  | row :: rows =>
    match oldest rows with
    | none => some row
    | some first => if first.recordedAt < row.recordedAt then some first else some row

namespace ConsumptionTables

variable (db : ConsumptionTables)

def owner (evidenceId : Uuid) : Option ConsumptionRow :=
  oldest (db.rows.filter fun r => r.evidenceId = evidenceId && r.outcome = .consumed)

def taken (evidenceId claimId : Uuid) : Bool :=
  db.rows.any fun r => r.evidenceId = evidenceId && r.claimId = claimId

def insertRow (row : ConsumptionRow) : ConsumptionTables :=
  if db.taken row.evidenceId row.claimId then db else { db with rows := db.rows ++ [row] }

def insertTag (id : Uuid) (anchor : ClaimAnchor) (now : String) : ConsumptionTables :=
  { db with lineageTags := db.lineageTags ++ [⟨.evidenceConsumption, id.text,
      retentionClassForTable .evidenceConsumption, anchor.1, now⟩] }

end ConsumptionTables

/-- `id` is a fresh random identifier. The tag is written whether or not the row was. -/
def recordConsumption (db : ConsumptionTables) (evidenceId claimId : Uuid) (anchor : ClaimAnchor)
    (verifierName : Option String) (id : Uuid) (now : String) : ReplayVerdict × ConsumptionTables :=
  let existing := (db.owner evidenceId).map fun row => (row.claimId, row.anchor)
  let verdict := classifyConsumptionByAnchor existing claimId anchor
  if verdict = .freshlyRecorded then
    let row : ConsumptionRow :=
      ⟨id, evidenceId, claimId, anchor, verifierName, .consumed, none, now⟩
    (verdict, (db.insertRow row).insertTag id anchor now)
  else (verdict, db)

def recordAdmissionQuarantine (db : ConsumptionTables) (evidenceId claimId : Uuid)
    (anchor : ClaimAnchor) (reason : String) (id : Uuid) (now : String) : ConsumptionTables :=
  let row : ConsumptionRow :=
    ⟨id, evidenceId, claimId, anchor, none, .quarantined, some reason, now⟩
  if db.taken evidenceId claimId then db else (db.insertRow row).insertTag id anchor now

inductive ConsumptionOp
  | consume (evidenceId claimId : Uuid) (anchor : ClaimAnchor) (verifierName : Option String)
      (id : Uuid) (now : String)
  | quarantine (evidenceId claimId : Uuid) (anchor : ClaimAnchor) (reason : String) (id : Uuid)
      (now : String)

def ConsumptionOp.claimId : ConsumptionOp → Uuid
  | .consume _ claimId _ _ _ _ | .quarantine _ claimId _ _ _ _ => claimId

def ConsumptionOp.anchor : ConsumptionOp → ClaimAnchor
  | .consume _ _ anchor _ _ _ | .quarantine _ _ anchor _ _ _ => anchor

def consumptionStep (db : ConsumptionTables) : ConsumptionOp → ConsumptionTables
  | .consume evidenceId claimId anchor verifierName id now =>
    (recordConsumption db evidenceId claimId anchor verifierName id now).2
  | .quarantine evidenceId claimId anchor reason id now =>
    recordAdmissionQuarantine db evidenceId claimId anchor reason id now

def consumptionRun (ops : List ConsumptionOp) : ConsumptionTables :=
  run consumptionStep ⟨[], []⟩ ops

def spentBy (db : ConsumptionTables) : ConsumptionOp → List (Uuid × ClaimAnchor)
  | .consume evidenceId claimId anchor verifierName id now =>
    if (recordConsumption db evidenceId claimId anchor verifierName id now).1.spends then
      [(evidenceId, anchor)]
    else []
  | .quarantine _ _ _ _ _ _ => []

def spent (ops : List ConsumptionOp) : List (Uuid × ClaimAnchor) :=
  outputs consumptionStep spentBy ⟨[], []⟩ ops

/-- A call for evidence that nobody spent yet is not for a claim it was refused to. -/
def NotRefused (db : ConsumptionTables) : ConsumptionOp → Prop
  | .consume evidenceId claimId _ _ _ _ =>
    db.owner evidenceId = none → db.taken evidenceId claimId = false
  | .quarantine _ _ _ _ _ _ => True

theorem oldest_eq_none {rows : List ConsumptionRow} : oldest rows = none ↔ rows = [] := by
  cases rows with
  | nil => simp [oldest]
  | cons row rows =>
    rw [oldest]
    split
    · simp
    · split <;> simp

theorem mem_of_oldest {rows : List ConsumptionRow} {row : ConsumptionRow}
    (h : oldest rows = some row) : row ∈ rows := by
  induction rows with
  | nil => cases h
  | cons first rows ih =>
    rw [oldest] at h
    split at h
    · cases h
      exact mem_cons_self
    · rename_i later hlater
      split at h
      · cases h
        exact mem_cons_of_mem _ (ih hlater)
      · cases h
        exact mem_cons_self

namespace ConsumptionTables

variable {db : ConsumptionTables} {row : ConsumptionRow} {evidenceId : Uuid}

theorem mem_of_owner (h : db.owner evidenceId = some row) : row ∈ db.rows :=
  (mem_filter.mp (mem_of_oldest h)).1

theorem mem_insertRow {r : ConsumptionRow} (h : r ∈ (db.insertRow row).rows) :
    r ∈ db.rows ∨ r = row := by
  unfold insertRow at h
  split at h
  · exact .inl h
  · simpa using h

theorem owner_insertTag (id : Uuid) (anchor : ClaimAnchor) (now : String) :
    (db.insertTag id anchor now).owner evidenceId = db.owner evidenceId := rfl

theorem owner_insertRow_other (h : row.evidenceId ≠ evidenceId ∨ row.outcome = .quarantined) :
    (db.insertRow row).owner evidenceId = db.owner evidenceId := by
  unfold insertRow
  split
  · rfl
  · have hrow : (row.evidenceId = evidenceId && row.outcome = .consumed) = false := by
      rcases h with h | h
      · simp [h]
      · simp [h]
    simp only [owner, filter_append, filter_cons, hrow, filter_nil]
    simp

theorem owner_insertRow_new (howner : db.owner row.evidenceId = none)
    (htaken : db.taken row.evidenceId row.claimId = false) (hrow : row.outcome = .consumed) :
    (db.insertRow row).owner row.evidenceId = some row := by
  have hnone := oldest_eq_none.mp howner
  simp [insertRow, htaken, owner, hnone, hrow, oldest]

end ConsumptionTables

open ConsumptionTables

variable {db : ConsumptionTables} {evidenceId : Uuid} (claimId id : Uuid) (anchor : ClaimAnchor)
  (verifierName : Option String) (now : String)

theorem recordConsumption_new (howner : db.owner evidenceId = none) :
    recordConsumption db evidenceId claimId anchor verifierName id now =
      (.freshlyRecorded, (db.insertRow ⟨id, evidenceId, claimId, anchor, verifierName, .consumed,
        none, now⟩).insertTag id anchor now) := by
  simp [recordConsumption, howner, classifyConsumptionByAnchor]

theorem recordConsumption_owned {row : ConsumptionRow} (howner : db.owner evidenceId = some row) :
    (recordConsumption db evidenceId claimId anchor verifierName id now).2 = db ∧
      ((recordConsumption db evidenceId claimId anchor verifierName id now).1.spends →
        row.claimId = claimId ∨ row.anchor = anchor) := by
  simp only [recordConsumption, howner, Option.map_some, classifyConsumptionByAnchor]
  by_cases hclaim : row.claimId = claimId
  · simp [hclaim]
  · by_cases hanchor : row.anchor = anchor
    · simp [hclaim, hanchor]
    · simp [hclaim, hanchor, ReplayVerdict.spends]

/-- Rows carry the anchors of their claims, and what was spent was spent under the anchor of the
recorded owner. -/
structure OneOwner (anchorOf : Uuid → ClaimAnchor) (db : ConsumptionTables)
    (calls : List (Uuid × ClaimAnchor)) : Prop where
  anchored : ∀ row ∈ db.rows, row.anchor = anchorOf row.claimId
  owned : ∀ call ∈ calls, ∃ row, db.owner call.1 = some row ∧ call.2 = row.anchor

variable {anchorOf : Uuid → ClaimAnchor} {calls : List (Uuid × ClaimAnchor)}
  {claimId id : Uuid} {anchor : ClaimAnchor} {verifierName : Option String} {now : String}

theorem OneOwner.consume (h : OneOwner anchorOf db calls) (hanchor : anchor = anchorOf claimId)
    (hrefused : db.owner evidenceId = none → db.taken evidenceId claimId = false) :
    OneOwner anchorOf (recordConsumption db evidenceId claimId anchor verifierName id now).2
      (calls ++ spentBy db (.consume evidenceId claimId anchor verifierName id now)) := by
  cases howner : db.owner evidenceId with
  | none =>
    let row : ConsumptionRow :=
      ⟨id, evidenceId, claimId, anchor, verifierName, .consumed, none, now⟩
    have hrecorded := recordConsumption_new claimId id anchor verifierName now howner
    have hnew : (db.insertRow row).owner evidenceId = some row :=
      owner_insertRow_new howner (hrefused howner) rfl
    rw [spentBy, hrecorded]
    refine ⟨fun r hr => ?_, fun call hcall => ?_⟩
    · rcases mem_insertRow hr with hr | rfl
      · exact h.anchored r hr
      · exact hanchor
    · rcases mem_append.mp hcall with hcall | hcall
      · obtain ⟨r, hr, hcallr⟩ := h.owned call hcall
        have hne : evidenceId ≠ call.1 := by
          rintro rfl
          rw [howner] at hr
          cases hr
        refine ⟨r, ?_, hcallr⟩
        rw [owner_insertTag, owner_insertRow_other (.inl hne)]
        exact hr
      · obtain rfl := mem_singleton.mp hcall
        exact ⟨row, hnew, rfl⟩
  | some row =>
    obtain ⟨hsame, hspends⟩ := recordConsumption_owned claimId id anchor verifierName now howner
    rw [hsame]
    refine ⟨h.anchored, fun call hcall => ?_⟩
    rcases mem_append.mp hcall with hcall | hcall
    · exact h.owned call hcall
    · rw [spentBy] at hcall
      split at hcall
      · rename_i hverdict
        obtain rfl := mem_singleton.mp hcall
        refine ⟨row, howner, ?_⟩
        rcases hspends hverdict with hclaim | hrow
        · rw [h.anchored row (mem_of_owner howner), hclaim]
          exact hanchor
        · exact hrow.symm
      · cases hcall

theorem OneOwner.quarantine (h : OneOwner anchorOf db calls) (reason : String)
    (hanchor : anchor = anchorOf claimId) :
    OneOwner anchorOf (recordAdmissionQuarantine db evidenceId claimId anchor reason id now)
      calls := by
  unfold recordAdmissionQuarantine
  split
  · exact h
  · refine ⟨fun r hr => ?_, fun call hcall => ?_⟩
    · rcases mem_insertRow hr with hr | rfl
      · exact h.anchored r hr
      · exact hanchor
    · obtain ⟨r, hr, hcallr⟩ := h.owned call hcall
      refine ⟨r, ?_, hcallr⟩
      rw [owner_insertTag, owner_insertRow_other (.inr rfl)]
      exact hr

theorem consumptionRun_oneOwner {ops : List ConsumptionOp}
    (hanchors : ∀ op ∈ ops, op.anchor = anchorOf op.claimId)
    (hrefused : Along consumptionStep NotRefused ⟨[], []⟩ ops) :
    OneOwner anchorOf (consumptionRun ops) (spent ops) := by
  induction ops using reverseRecOn with
  | nil => exact ⟨by simp [consumptionRun, run], by simp [spent, outputs]⟩
  | append_singleton before op ih =>
    have hbefore := ih (fun o ho => hanchors o (mem_append_left _ ho)) hrefused.append_left
    have hop := hanchors op (by simp)
    have hlast := hrefused.last
    rw [consumptionRun, run_append, spent, outputs_concat]
    cases op with
    | consume evidenceId claimId anchor verifierName id now =>
      exact hbefore.consume hop hlast
    | quarantine evidenceId claimId anchor reason id now =>
      rw [spentBy, append_nil]
      exact hbefore.quarantine reason hop

/-- As long as no call spends evidence under a claim it was refused to before anyone has spent
it, all calls that spend one evidence row carry one anchor. -/
theorem spent_under_one_anchor (anchorOf : Uuid → ClaimAnchor) (ops : List ConsumptionOp)
    (hanchors : ∀ op ∈ ops, op.anchor = anchorOf op.claimId)
    (hrefused : Along consumptionStep NotRefused ⟨[], []⟩ ops) (evidenceId : Uuid)
    (first second : ClaimAnchor) (hfirst : (evidenceId, first) ∈ spent ops)
    (hsecond : (evidenceId, second) ∈ spent ops) : first = second := by
  have hrun := consumptionRun_oneOwner hanchors hrefused
  obtain ⟨row, hrow, hfirst⟩ := hrun.owned _ hfirst
  obtain ⟨row', hrow', hsecond⟩ := hrun.owned _ hsecond
  rw [hrow] at hrow'
  cases hrow'
  exact hfirst.trans hsecond.symm

def twoTurns (claimId : Uuid) : ClaimAnchor := if claimId = 10 then ("s1", 100) else ("s2", 200)

def refusedThenSpent : List ConsumptionOp :=
  [.quarantine 1 10 (twoTurns 10) "unknown origin" 20 "t0",
    .consume 1 11 (twoTurns 11) none 21 "t1", .consume 1 12 (twoTurns 12) none 22 "t2",
    .consume 1 10 (twoTurns 10) none 23 "t3"]

theorem spent_under_one_anchor_refusedThenSpent :
    spent refusedThenSpent = [(1, twoTurns 11), (1, twoTurns 12)] ∧ twoTurns 11 = twoTurns 12 := by
  have hspent : spent refusedThenSpent = [(1, twoTurns 11), (1, twoTurns 12)] := by
    decide +kernel
  refine ⟨hspent, spent_under_one_anchor twoTurns refusedThenSpent (by decide +kernel) ?_ 1 _ _
    (by rw [hspent]; simp) (by rw [hspent]; simp)⟩
  refine along_cons trivial (along_cons ?_ (along_cons ?_ (along_cons ?_ (along_nil _ _))))
  · exact fun _ => by decide +kernel
  · exact fun _ => by decide +kernel
  · intro howner
    have howned : ((consumptionRun (refusedThenSpent.take 3)).owner 1).isSome := by decide +kernel
    have hnone : (consumptionRun (refusedThenSpent.take 3)).owner 1 = none := howner
    rw [hnone] at howned
    cases howned

/-- Refused to claim 10, then spent by it without a trace, and spent again by another turn. -/
theorem refused_evidence_spent_twice :
    ∃ ops : List ConsumptionOp, (∀ op ∈ ops, op.anchor = twoTurns op.claimId) ∧
      (1, twoTurns 10) ∈ spent ops ∧ (1, twoTurns 11) ∈ spent ops ∧
      twoTurns 10 ≠ twoTurns 11 :=
  ⟨[.quarantine 1 10 (twoTurns 10) "unknown origin" 20 "t0",
    .consume 1 10 (twoTurns 10) none 21 "t1", .consume 1 11 (twoTurns 11) none 22 "t2"],
    by decide +kernel⟩

end Fornax
