import Fornax.Lib.Patterns
import Fornax.Lib.Fallible
import Fornax.Evidence.Types

namespace Fornax.Corpus

open List

inductive CaseLabel
  | reliable
  | unreliable
  | contradicted
  | unsupported
  | incomplete
  | notEvaluable
  deriving DecidableEq

inductive FailureClass
  | claimContradictedByEvidence
  | claimUnsupportedByEvidence
  | evidenceMissing
  | evidenceStaleOrMismatched
  | sensorDisagreement
  | other
  deriving DecidableEq

inductive ReviewerRole
  | primary
  | secondary
  | adjudicator
  deriving DecidableEq

inductive ReviewOutcome
  | label (label : CaseLabel) (criticalFailure : Bool) (failureClass : Option FailureClass)
  | unresolved (reason : String)
  deriving DecidableEq

structure ReviewRecord where
  id : Uuid
  reviewerId : String
  role : ReviewerRole
  outcome : ReviewOutcome
  deriving DecidableEq

inductive ReviewError
  | unresolvedRequiresAdjudicator (role : ReviewerRole)
  | reliableLabelWithFailureMetadata
  deriving DecidableEq

def validateFailureMetadata (label : CaseLabel) (criticalFailure : Bool)
    (failureClass : Option FailureClass) : Except ReviewError Unit :=
  if label = .reliable ∧ (criticalFailure ∨ failureClass.isSome) then
    .error .reliableLabelWithFailureMetadata
  else .ok ()

def checkOutcome (role : ReviewerRole) : ReviewOutcome → Except ReviewError Unit
  | .unresolved _ =>
    if role ≠ .adjudicator then .error (.unresolvedRequiresAdjudicator role) else .ok ()
  | .label label criticalFailure failureClass =>
    validateFailureMetadata label criticalFailure failureClass

def ReviewRecord.new (id : Uuid) (reviewerId : String) (role : ReviewerRole)
    (outcome : ReviewOutcome) : Except ReviewError ReviewRecord := do
  checkOutcome role outcome
  return ⟨id, reviewerId, role, outcome⟩

structure QueueEntry where
  doubleReviewRequired : Bool

inductive ResolutionBasis
  | singleReview
  | concurringDoubleReview
  | adjudicatorDecision
  deriving DecidableEq

inductive AdjudicationState
  | awaitingPrimary
  | awaitingSecondary
  | disagreed
  | resolved (basis : ResolutionBasis)
  | unresolved (reason : String)
  | notEvaluable (reason : String)
  | frozen (revision : ℕ)
  deriving DecidableEq

def labelOutcomesAgree : ReviewOutcome → ReviewOutcome → Bool
  | .label la ca _, .label lb cb _ => la == lb && ca == cb
  | _, _ => false

def notEvaluableMark : Text := "not_evaluable:".toList

def decision : ReviewOutcome → AdjudicationState
  | .label _ _ _ => .resolved .adjudicatorDecision
  | .unresolved reason =>
    match Text.stripPrefix notEvaluableMark reason.toList with
    | some rest => .notEvaluable (String.ofList (Text.trim rest))
    | none => .unresolved reason

def isAdjudicator (r : ReviewRecord) : Bool := r.role == .adjudicator

def primarySecondary (reviews : List ReviewRecord) : List ReviewRecord :=
  reviews.filter fun r => r.role == .primary || r.role == .secondary

def keepFirst (firsts : List ReviewRecord) (r : ReviewRecord) : List ReviewRecord :=
  if firsts.any fun f => f.reviewerId == r.reviewerId then firsts else firsts ++ [r]

def byReviewer (reviews : List ReviewRecord) : List ReviewRecord := reviews.foldl keepFirst []

def deriveState (queue : QueueEntry) (reviews : List ReviewRecord) (frozenRevision : Option ℕ) :
    AdjudicationState :=
  match frozenRevision with
  | some revision => .frozen revision
  | none =>
    -- the loop over the adjudicators returns at its first review
    match reviews.find? isAdjudicator with
    | some review => decision review.outcome
    | none =>
      let reviews := primarySecondary reviews
      if reviews.isEmpty then .awaitingPrimary
      else if !queue.doubleReviewRequired then .resolved .singleReview
      else if (reviews.map ReviewRecord.reviewerId).toFinset.card < 2 then .awaitingSecondary
      else
        match byReviewer reviews with
        | first :: second :: _ =>
          if labelOutcomesAgree first.outcome second.outcome then .resolved .concurringDoubleReview
          else .disagreed
        -- unreachable: two reviewers have two first reviews
        | _ => .awaitingSecondary

/-- A primary or secondary review before which its reviewer submitted none. -/
def First (reviews : List ReviewRecord) (r : ReviewRecord) : Prop :=
  ∃ before after, reviews = before ++ r :: after ∧ r.role ≠ .adjudicator ∧
    ∀ r' ∈ before, r'.role ≠ .adjudicator → r'.reviewerId ≠ r.reviewerId

theorem isReviewer_iff (r : ReviewRecord) :
    (r.role == .primary || r.role == .secondary) ↔ r.role ≠ .adjudicator := by
  cases r.role <;> decide

variable {reviews : List ReviewRecord} {r : ReviewRecord}

section

variable (reviews : List ReviewRecord)

theorem byReviewer_append (r : ReviewRecord) :
    byReviewer (reviews ++ [r]) = keepFirst (byReviewer reviews) r := by
  rw [byReviewer, foldl_append]
  rfl

theorem find?_byReviewer (id : String) :
    (byReviewer reviews).find? (·.reviewerId == id) = reviews.find? (·.reviewerId == id) := by
  induction reviews using reverseRecOn with
  | nil => rfl
  | append_singleton reviews x ih =>
    rw [byReviewer_append, keepFirst, find?_append, ← ih]
    split_ifs with hseen
    · by_cases hid : x.reviewerId = id
      · rw [hid, any_eq_true, ← find?_isSome] at hseen
        rw [Option.or_of_isSome hseen]
      · simp [hid]
    · rw [find?_append]

theorem nodup_byReviewer : ((byReviewer reviews).map ReviewRecord.reviewerId).Nodup := by
  induction reviews using reverseRecOn with
  | nil => exact nodup_nil
  | append_singleton reviews x ih =>
    rw [byReviewer_append, keepFirst]
    split_ifs with h
    · exact ih
    · rw [map_append, nodup_append]
      refine ⟨ih, nodup_singleton _, ?_⟩
      rintro id hid _ hx rfl
      obtain ⟨f, hf, rfl⟩ := mem_map.mp hid
      rw [map_singleton, mem_singleton] at hx
      exact h (any_eq_true.mpr ⟨f, hf, beq_iff_eq.mpr hx⟩)

end

theorem mem_byReviewer :
    r ∈ byReviewer reviews ↔ reviews.find? (fun f => f.reviewerId == r.reviewerId) = some r := by
  rw [← find?_byReviewer]
  exact ⟨Fallible.find?_of_nodup (nodup_byReviewer reviews), mem_of_find?_eq_some⟩

theorem card_reviewers (reviews : List ReviewRecord) :
    (reviews.map ReviewRecord.reviewerId).toFinset.card = (byReviewer reviews).length := by
  have hset : (reviews.map ReviewRecord.reviewerId).toFinset =
      ((byReviewer reviews).map ReviewRecord.reviewerId).toFinset := by
    ext id
    rw [mem_toFinset, mem_toFinset, mem_map, mem_map]
    constructor
    · rintro ⟨r, hr, rfl⟩
      obtain ⟨f, hf⟩ : ∃ f, reviews.find? (fun f => f.reviewerId == r.reviewerId) = some f :=
        Option.isSome_iff_exists.mp (find?_isSome.mpr ⟨r, hr, beq_self_eq_true r.reviewerId⟩)
      have hid : f.reviewerId = r.reviewerId := by simpa using find?_some hf
      exact ⟨f, mem_byReviewer.mpr (by rw [hid, hf]), hid⟩
    · rintro ⟨f, hf, rfl⟩
      exact ⟨f, mem_of_find?_eq_some (mem_byReviewer.mp hf), rfl⟩
  rw [hset, toFinset_card_of_nodup (nodup_byReviewer reviews), length_map]

theorem mem_firstReviews : r ∈ byReviewer (primarySecondary reviews) ↔ First reviews r := by
  rw [mem_byReviewer, primarySecondary, find?_filter, find?_eq_some_iff_append]
  simp only [isReviewer_iff, beq_iff_eq, and_true, First, Bool.not_eq_true', decide_eq_true_eq,
    decide_eq_false_iff_not, not_and]
  constructor
  · rintro ⟨hrole, before, after, heq, hbefore⟩
    exact ⟨before, after, heq, hrole, hbefore⟩
  · rintro ⟨before, after, heq, hrole, hbefore⟩
    exact ⟨hrole, before, after, heq, hbefore⟩

def ReviewRecord.Gives (label : CaseLabel) (criticalFailure : Bool) (r : ReviewRecord) : Prop :=
  ∃ failureClass, r.outcome = .label label criticalFailure failureClass

def Adjudicated (reviews : List ReviewRecord) : Prop := ∃ r ∈ reviews, r.role = .adjudicator

def Unanimous (reviews : List ReviewRecord) : Prop :=
  ∃ label criticalFailure, ∀ r, First reviews r → r.Gives label criticalFailure

def Agreed (reviews : List ReviewRecord) : Prop :=
  ∃ label criticalFailure, (∃ r ∈ reviews, r.role = .adjudicator ∧ r.Gives label criticalFailure) ∨
    ∀ r, First reviews r → r.Gives label criticalFailure

theorem labelOutcomesAgree_iff {a b : ReviewRecord} : labelOutcomesAgree a.outcome b.outcome ↔
      ∃ label criticalFailure, a.Gives label criticalFailure ∧ b.Gives label criticalFailure := by
  unfold ReviewRecord.Gives
  cases a.outcome <;> cases b.outcome <;> simp [labelOutcomesAgree]

theorem byReviewer_eq_nil : byReviewer reviews = [] ↔ reviews = [] := by
  rw [← length_eq_zero_iff, ← card_reviewers, Finset.card_eq_zero, toFinset_eq_empty_iff,
    map_eq_nil_iff]

theorem resolved_iff {queue : QueueEntry} (hnone : ¬ Adjudicated reviews) :
    (∃ basis, deriveState queue reviews none = .resolved basis) ↔
      byReviewer (primarySecondary reviews) ≠ [] ∧ (queue.doubleReviewRequired →
        ∃ first second rest, byReviewer (primarySecondary reviews) = first :: second :: rest ∧
          labelOutcomesAgree first.outcome second.outcome) := by
  have hfind : reviews.find? isAdjudicator = none := by
    rw [find?_eq_none]
    exact fun r hr h => hnone ⟨r, hr, beq_iff_eq.mp h⟩
  have hlength := card_reviewers (primarySecondary reviews)
  simp only [deriveState, hfind, hlength]
  split_ifs with hempty hdouble hcard
  · simp [byReviewer_eq_nil, isEmpty_iff.mp hempty]
  · have hsingle : queue.doubleReviewRequired = false := by simpa using hdouble
    have hne : byReviewer (primarySecondary reviews) ≠ [] := by
      rwa [ne_eq, byReviewer_eq_nil, ← List.isEmpty_iff]
    simp [hsingle, hne]
  · have hrequired : queue.doubleReviewRequired := by simpa using hdouble
    refine ⟨fun h => (nomatch h), fun h => ?_⟩
    obtain ⟨first, second, rest, heq, -⟩ := h.2 hrequired
    rw [heq, length_cons, length_cons] at hcard
    omega
  · have hrequired : queue.doubleReviewRequired := by simpa using hdouble
    obtain ⟨first, second, rest, heq⟩ : ∃ first second rest,
        byReviewer (primarySecondary reviews) = first :: second :: rest := by
      match byReviewer (primarySecondary reviews), hcard with
      | [], h => exact absurd (by decide) h
      | [_], h => exact absurd (by simp) h
      | first :: second :: rest, _ => exact ⟨first, second, rest, rfl⟩
    rw [heq]
    cases hagree : labelOutcomesAgree first.outcome second.outcome <;> simp [hagree, hrequired]

def NoLateThird (reviews : List ReviewRecord) : Prop :=
  ∀ first second third rest,
    byReviewer (primarySecondary reviews) = first :: second :: third :: rest →
      labelOutcomesAgree first.outcome second.outcome = false

theorem agreed_of_adjudicated {queue : QueueEntry} (h : Adjudicated reviews)
    {basis : ResolutionBasis} (hresolved : deriveState queue reviews none = .resolved basis) :
    Agreed reviews := by
  obtain ⟨r, hr, hrole⟩ := h
  obtain ⟨review, hfind⟩ : ∃ review, reviews.find? isAdjudicator = some review :=
    Option.isSome_iff_exists.mp (find?_isSome.mpr ⟨r, hr, beq_iff_eq.mpr hrole⟩)
  simp only [deriveState, hfind] at hresolved
  have hadjudicator : review.role = .adjudicator := by
    simpa [isAdjudicator] using find?_some hfind
  cases houtcome : review.outcome with
  | label label criticalFailure failureClass =>
    exact ⟨label, criticalFailure, .inl ⟨review, mem_of_find?_eq_some hfind, hadjudicator,
      failureClass, houtcome⟩⟩
  | unresolved reason =>
    simp only [houtcome, decision] at hresolved
    split at hresolved <;> cases hresolved

theorem agreed_of_pair {first second : ReviewRecord}
    (hpair : byReviewer (primarySecondary reviews) = [first, second])
    (hagree : labelOutcomesAgree first.outcome second.outcome) : Agreed reviews := by
  obtain ⟨label, criticalFailure, hfirst, hsecond⟩ := labelOutcomesAgree_iff.mp hagree
  refine ⟨label, criticalFailure, .inr fun r hr => ?_⟩
  rw [← mem_firstReviews, hpair] at hr
  rcases mem_pair.mp hr with rfl | rfl
  · exact hfirst
  · exact hsecond

/-- Every resolution rests on one label exactly when an adjudicator has decided, the first reviews
are unanimous, or double review is required and no third reviewer comes after two who
agree. -/
theorem resolved_agreed_iff (queue : QueueEntry) (reviews : List ReviewRecord) :
    (∀ basis, deriveState queue reviews none = .resolved basis → Agreed reviews) ↔
      Adjudicated reviews ∨ Unanimous reviews ∨
        queue.doubleReviewRequired = true ∧ NoLateThird reviews := by
  constructor
  · intro h
    by_cases hadjudicated : Adjudicated reviews
    · exact .inl hadjudicated
    refine .inr ?_
    by_cases hresolved : ∃ basis, deriveState queue reviews none = .resolved basis
    · obtain ⟨basis, hbasis⟩ := hresolved
      obtain ⟨label, criticalFailure, ⟨r, hr, hrole, -⟩ | hall⟩ := h basis hbasis
      · exact absurd ⟨r, hr, hrole⟩ hadjudicated
      · exact .inl ⟨label, criticalFailure, hall⟩
    · rw [resolved_iff hadjudicated, not_and_or, not_not] at hresolved
      rcases hresolved with hnil | hdouble
      · refine .inl ⟨.reliable, false, fun r hr => ?_⟩
        rw [← mem_firstReviews, hnil] at hr
        cases hr
      · push Not at hdouble
        refine .inr ⟨hdouble.1, fun first second third rest heq => ?_⟩
        simpa using hdouble.2 first second (third :: rest) heq
  · rintro (hadjudicated | ⟨label, criticalFailure, hall⟩ | ⟨hdouble, hthird⟩) basis hbasis
    · exact agreed_of_adjudicated hadjudicated hbasis
    · exact ⟨label, criticalFailure, .inr hall⟩
    · by_cases hadjudicated : Adjudicated reviews
      · exact agreed_of_adjudicated hadjudicated hbasis
      obtain ⟨-, hpair⟩ := (resolved_iff hadjudicated).mp ⟨basis, hbasis⟩
      obtain ⟨first, second, rest, heq, hagree⟩ := hpair hdouble
      cases rest with
      | nil => exact agreed_of_pair heq hagree
      | cons third rest =>
        rw [hthird first second third rest heq] at hagree
        cases hagree

theorem not_agreed (hnone : ∀ r ∈ reviews, r.role ≠ .adjudicator) {a b : ReviewRecord}
    (ha : a ∈ byReviewer (primarySecondary reviews))
    (hb : b ∈ byReviewer (primarySecondary reviews))
    (h : labelOutcomesAgree a.outcome b.outcome = false) : ¬ Agreed reviews := by
  rintro ⟨label, criticalFailure, ⟨r, hr, hrole, -⟩ | hall⟩
  · exact hnone r hr hrole
  · have hagree := labelOutcomesAgree_iff.mpr ⟨label, criticalFailure,
      hall a (mem_firstReviews.mp ha), hall b (mem_firstReviews.mp hb)⟩
    rw [h] at hagree
    cases hagree

def labelReview (reviewerId : String) (role : ReviewerRole) (label : CaseLabel) : ReviewRecord :=
  ⟨0, reviewerId, role, .label label false none⟩

def conflicting : List ReviewRecord :=
  [labelReview "r1" .primary .reliable, labelReview "r2" .secondary .contradicted]

def onlyUnresolved : List ReviewRecord := [⟨0, "r1", .primary, .unresolved "ambiguous"⟩]

def outvoted : List ReviewRecord :=
  [labelReview "r1" .primary .reliable, labelReview "r2" .secondary .reliable,
    labelReview "r3" .secondary .contradicted]

theorem resolved_without_agreement :
    (deriveState ⟨false⟩ conflicting none = .resolved .singleReview ∧ ¬ Agreed conflicting) ∧
    (deriveState ⟨false⟩ onlyUnresolved none = .resolved .singleReview ∧ ¬ Agreed onlyUnresolved) ∧
    (deriveState ⟨true⟩ outvoted none = .resolved .concurringDoubleReview ∧ ¬ Agreed outvoted) :=
  ⟨⟨by decide, not_agreed (by decide) (a := labelReview "r1" .primary .reliable)
      (b := labelReview "r2" .secondary .contradicted) (by decide) (by decide) rfl⟩,
    ⟨by decide, not_agreed (by decide) (a := ⟨0, "r1", .primary, .unresolved "ambiguous"⟩)
      (b := ⟨0, "r1", .primary, .unresolved "ambiguous"⟩) (by decide) (by decide) rfl⟩,
    by decide, not_agreed (by decide) (a := labelReview "r1" .primary .reliable)
      (b := labelReview "r3" .secondary .contradicted) (by decide) (by decide) rfl⟩

end Fornax.Corpus
