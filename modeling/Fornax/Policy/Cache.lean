import Fornax.Policy.Bundle

namespace Fornax

open List

structure CachedBundleRef where
  bundleId : Uuid
  issuer : String
  sequence : ℕ
  policyId : Uuid
  revision : ℕ
  revisionDigest : RevisionDigest
  payloadDigest : PayloadDigest
  verifiedBy : KeyId
  notBefore : Instant
  expiresAt : Instant
  firstActivatedAt : Instant
  confirmedAt : Instant
  deriving DecidableEq, Repr

structure CacheGeneration where
  generation : ℕ
  members : List CachedBundleRef
  writtenAt : Instant
  deriving DecidableEq, Repr

inductive CacheSlotKind
  | active
  | pending
  | lastKnownGood
  deriving DecidableEq, Repr

abbrev LineageKey := String ×ₗ Uuid

structure SequenceHighWater where
  issuer : String
  policyId : Uuid
  maxSequence : ℕ
  lastBundleId : Uuid
  lastPayloadDigest : PayloadDigest
  lastSeenAt : Instant
  deriving DecidableEq, Repr

structure RevocationHit where
  target : RevocationTarget
  reason : String
  revokedAt : String
  deriving DecidableEq, Repr

structure RevocationHitMeta where
  reason : String
  revokedAt : String
  deriving DecidableEq, Repr

structure RevocationSet where
  revisionDigests : OrdMap RevisionDigest RevocationHitMeta
  payloadDigests : OrdMap PayloadDigest RevocationHitMeta
  maxSequenceByIssuer : OrdMap String ℕ
  unrecognizedEntryCount : ℕ
  deriving DecidableEq

namespace RevocationSet

def none : RevocationSet := ⟨OrdMap.empty, OrdMap.empty, OrdMap.empty, 0⟩

def hit (s : RevocationSet) (rev : RevisionDigest) (payload : PayloadDigest) :
    Option RevocationHit :=
  match s.revisionDigests.get? rev with
  | some m => some ⟨.revisionDigest rev, m.reason, m.revokedAt⟩
  | Option.none =>
    (s.payloadDigests.get? payload).map fun m => ⟨.payloadDigest payload, m.reason, m.revokedAt⟩

end RevocationSet

structure PolicyCacheState where
  schemaVersion : ℕ
  active : Option CacheGeneration
  pending : Option CacheGeneration
  lastKnownGood : Option CacheGeneration
  highWater : OrdMap LineageKey SequenceHighWater
  everConfigured : Bool
  revocations : RevocationSet
  deriving DecidableEq

def policyCacheSchemaVersion : ℕ := 1

inductive ActivationRejection
  | notVerified (rejection : BundleRejection)
  | sequenceNotAdvanced (issuer : String) (policyId : Uuid) (candidate highWater : ℕ)
  | sequenceReused (policyId : Uuid) (sequence : ℕ) (recordedBundleId : Uuid)
  | issuerMismatchForLineage (policyId : Uuid) (boundIssuer candidateIssuer : String)
  | bindingsUnusable (report : List PolicyDiagnostic)
  | persistence (detail : String)
  | revoked (policyId : Uuid) (target : RevocationTarget) (reason revokedAt : String)
  deriving DecidableEq, Repr

inductive ActivationDecision
  | activate (members : List CachedBundleRef) (replaced : Option Uuid)
  | confirm (policyId bundleId : Uuid) (payloadDigest : PayloadDigest)
  deriving DecidableEq, Repr

inductive ActivationOutcome
  | activated (generation : ℕ) (superseded : Option ℕ) (replacedMember : Option Uuid)
  | confirmed (generation : ℕ) (policyId : Uuid) (confirmedAt : Instant)
  | rejected (rejection : ActivationRejection) (activeGeneration : Option ℕ)
  deriving DecidableEq, Repr

namespace VerifiedPolicyBundle

def lineage (v : VerifiedPolicyBundle) : LineageKey := toLex (v.issuer, v.policyId)

end VerifiedPolicyBundle

def boundElsewhere (highWater : OrdMap LineageKey SequenceHighWater) (cand : VerifiedPolicyBundle) :
    Option String :=
  (highWater.keys.find? fun k =>
    (ofLex k).2 = cand.policyId ∧ (ofLex k).1 ≠ cand.issuer).map fun k => (ofLex k).1

/-- Against the high-water mark: a rejection, a confirmation, or `none` when the sequence advances.
-/
def compareSequence (cand : VerifiedPolicyBundle) :
    Option SequenceHighWater → Except ActivationRejection (Option ActivationDecision)
  | none => .ok none
  | some hw =>
    if cand.sequence < hw.maxSequence then
      .error (.sequenceNotAdvanced cand.issuer cand.policyId cand.sequence hw.maxSequence)
    else if cand.sequence = hw.maxSequence then
      if hw.lastBundleId = cand.bundleId ∧ hw.lastPayloadDigest = cand.payloadDigest then
        .ok (some (.confirm cand.policyId cand.bundleId cand.payloadDigest))
      else .error (.sequenceReused cand.policyId cand.sequence hw.lastBundleId)
    else .ok none

def newMember (cand : VerifiedPolicyBundle) (notBefore expiresAt now : Instant) :
    CachedBundleRef where
  bundleId := cand.bundleId
  issuer := cand.issuer
  sequence := cand.sequence
  policyId := cand.policyId
  revision := cand.revision.body.revision
  revisionDigest := cand.revision.digest
  payloadDigest := cand.payloadDigest
  verifiedBy := cand.verifiedBy
  notBefore := notBefore
  expiresAt := expiresAt
  firstActivatedAt := now
  confirmedAt := now

def activeMembers (state : PolicyCacheState) : List CachedBundleRef :=
  (state.active.map fun g => g.members).getD []

def nextMembers (state : PolicyCacheState) (m : CachedBundleRef) : List CachedBundleRef :=
  SortDedup.sortBy (fun r => r.policyId)
    ((activeMembers state).filter (fun r => r.policyId ≠ m.policyId) ++ [m])

def replacedLineage (state : PolicyCacheState) (policyId : Uuid) : Option Uuid :=
  if (activeMembers state).any fun r => r.policyId = policyId then some policyId else none

def unparsedWindow (c : Crates) (field value : String) : ActivationRejection :=
  .persistence ("candidate " ++ field ++ " " ++ c.debugStr value ++
    " failed to parse after verify_bundle already validated it")

def evaluateAdvance (c : Crates) (cand : VerifiedPolicyBundle) (state : PolicyCacheState)
    (now : Instant) : Except ActivationRejection ActivationDecision :=
  match cand.intoBoundRevisions with
  | .error report => .error (.bindingsUnusable report)
  | .ok _ =>
    match c.parseDateTime cand.payload.notBefore with
    | none => .error (unparsedWindow c "not_before" cand.payload.notBefore)
    | some notBefore =>
      match c.parseDateTime cand.payload.expiresAt with
      | none => .error (unparsedWindow c "expires_at" cand.payload.expiresAt)
      | some expiresAt =>
        .ok (.activate (nextMembers state (newMember cand notBefore expiresAt now))
          (replacedLineage state cand.policyId))

def evaluateActivation (c : Crates) (cand : VerifiedPolicyBundle) (state : PolicyCacheState)
    (now : Instant) : Except ActivationRejection ActivationDecision :=
  match state.revocations.hit cand.revision.digest cand.payloadDigest with
  | some hit => .error (.revoked cand.policyId hit.target hit.reason hit.revokedAt)
  | none =>
    match boundElsewhere state.highWater cand with
    | some bound => .error (.issuerMismatchForLineage cand.policyId bound cand.issuer)
    | none =>
      match compareSequence cand (state.highWater.get? cand.lineage) with
      | .error rejection => .error rejection
      | .ok (some decision) => .ok decision
      | .ok none => evaluateAdvance c cand state now

variable {cand : VerifiedPolicyBundle} {d : ActivationDecision} {state : PolicyCacheState}

theorem boundElsewhere_eq_none {highWater : OrdMap LineageKey SequenceHighWater}
    (h : boundElsewhere highWater cand = none) {issuer : String}
    (hk : (highWater.get? (toLex (issuer, cand.policyId))).isSome) : issuer = cand.issuer := by
  have hnone := find?_eq_none.mp (Option.map_eq_none_iff.mp h)
  have hmem : toLex (issuer, cand.policyId) ∈ highWater.keys := OrdMap.mem_keys.mpr hk
  have hother := hnone _ hmem
  by_contra hne
  exact hother (decide_eq_true ⟨rfl, hne⟩)

theorem compareSequence_advances {hw : SequenceHighWater}
    (h : compareSequence cand (some hw) = .ok none) : hw.maxSequence < cand.sequence := by
  simp only [compareSequence] at h
  split at h
  · cases h
  · split at h
    · split at h <;> cases h
    · omega

theorem compareSequence_decides {hw : Option SequenceHighWater}
    (h : compareSequence cand hw = .ok (some d)) :
    ∃ w, hw = some w ∧ cand.sequence = w.maxSequence ∧ w.lastBundleId = cand.bundleId ∧
      w.lastPayloadDigest = cand.payloadDigest ∧
      d = .confirm cand.policyId cand.bundleId cand.payloadDigest := by
  cases hw with
  | none => cases h
  | some w =>
    simp only [compareSequence] at h
    split at h
    · cases h
    · split at h
      · rename_i hseq
        split at h
        · rename_i hsame
          cases h
          exact ⟨w, rfl, hseq, hsame.1, hsame.2, rfl⟩
        · cases h
      · cases h

structure Activates (c : Crates) (cand : VerifiedPolicyBundle) (state : PolicyCacheState)
    (now : Instant) (members : List CachedBundleRef) (replaced : Option Uuid) : Prop where
  notRevoked : state.revocations.hit cand.revision.digest cand.payloadDigest = none
  unbound : boundElsewhere state.highWater cand = none
  advances : ∀ hw, state.highWater.get? cand.lineage = some hw → hw.maxSequence < cand.sequence
  binds : ∃ bound, cand.intoBoundRevisions = .ok bound
  window : ∃ notBefore expiresAt, c.parseDateTime cand.payload.notBefore = some notBefore ∧
    c.parseDateTime cand.payload.expiresAt = some expiresAt ∧
    members = nextMembers state (newMember cand notBefore expiresAt now)
  replaces : replaced = replacedLineage state cand.policyId

theorem evaluateAdvance_ok {c : Crates} {now : Instant}
    (h : evaluateAdvance c cand state now = .ok d) :
    (∃ bound, cand.intoBoundRevisions = .ok bound) ∧
      ∃ notBefore expiresAt, c.parseDateTime cand.payload.notBefore = some notBefore ∧
        c.parseDateTime cand.payload.expiresAt = some expiresAt ∧
        d = .activate (nextMembers state (newMember cand notBefore expiresAt now))
          (replacedLineage state cand.policyId) := by
  unfold evaluateAdvance at h
  split at h
  · cases h
  · rename_i bound hbound
    split at h
    · cases h
    · rename_i notBefore hnb
      split at h
      · cases h
      · rename_i expiresAt hea
        cases h
        exact ⟨⟨bound, hbound⟩, notBefore, expiresAt, hnb, hea, rfl⟩

theorem evaluateActivation_ok {c : Crates} {now : Instant}
    (h : evaluateActivation c cand state now = .ok d) :
    (∃ members replaced, d = .activate members replaced ∧
      Activates c cand state now members replaced) ∨
    (d = .confirm cand.policyId cand.bundleId cand.payloadDigest ∧
      ∃ hw, state.highWater.get? cand.lineage = some hw ∧ cand.sequence = hw.maxSequence ∧
        hw.lastBundleId = cand.bundleId ∧ hw.lastPayloadDigest = cand.payloadDigest) := by
  unfold evaluateActivation at h
  split at h
  · cases h
  · rename_i hrev
    split at h
    · cases h
    · rename_i hbound
      split at h
      · cases h
      · rename_i d' hd
        cases h
        obtain ⟨w, hw, hseq, hid, hdigest, rfl⟩ := compareSequence_decides hd
        exact .inr ⟨rfl, w, hw, hseq, hid, hdigest⟩
      · rename_i hnone
        obtain ⟨hbinds, nb, ea, hnb, hea, rfl⟩ := evaluateAdvance_ok h
        refine .inl ⟨_, _, rfl, ⟨hrev, hbound, ?_, hbinds, ⟨nb, ea, hnb, hea, rfl⟩, rfl⟩⟩
        intro hw hget
        rw [hget] at hnone
        exact compareSequence_advances hnone

theorem mem_nextMembers {m r : CachedBundleRef} : r ∈ nextMembers state m ↔
      (r ∈ activeMembers state ∧ r.policyId ≠ m.policyId) ∨ r = m := by
  rw [nextMembers, SortDedup.mem_sortBy]
  simp

theorem find?_nextMembers (state : PolicyCacheState) (m : CachedBundleRef)
    (hfresh : ∀ r ∈ activeMembers state, r.policyId < m.policyId → r.bundleId ≠ m.bundleId) :
    (nextMembers state m).find? (fun r => r.bundleId == m.bundleId) = some m := by
  have hm : m ∈ nextMembers state m := mem_nextMembers.mpr (.inr rfl)
  cases hfind : (nextMembers state m).find? fun r => r.bundleId == m.bundleId with
  | none => exact absurd (find?_eq_none.mp hfind m hm) (by simp)
  | some r =>
    obtain ⟨hid, before, after, hsplit, hbefore⟩ := find?_eq_some_iff_append.mp hfind
    have hr : r ∈ nextMembers state m := mem_of_find?_eq_some hfind
    rcases mem_nextMembers.mp hr with ⟨hactive, hne⟩ | rfl
    · have hle : m.policyId ≤ r.policyId := by
        by_contra hlt
        exact hfresh r hactive (not_le.mp hlt) (by simpa using hid)
      -- `m` stands behind `r` in a list sorted by `policy_id`
      have hsorted := SortDedup.sorted_sortBy (fun r : CachedBundleRef => r.policyId)
        ((activeMembers state).filter (fun r => r.policyId ≠ m.policyId) ++ [m])
      change (nextMembers state m).Pairwise _ at hsorted
      rw [hsplit] at hsorted hm
      rcases mem_append.mp hm with hm | hm
      · exact absurd (hbefore m hm) (by simp)
      · rcases mem_cons.mp hm with rfl | hm
        · exact absurd rfl hne
        · have hge := (pairwise_cons.mp (pairwise_append.mp hsorted).2.1).1 m hm
          exact absurd (le_antisymm hge hle) hne
    · rfl

inductive RevocationIngestRejection
  | sequenceNotAdvanced (issuer : String) (candidate highWater : ℕ)
  | persistence (detail : String)
  deriving DecidableEq, Repr

inductive RevocationIngestDecision
  | apply (issuer : String) (sequence : ℕ) (newEntries : List RevocationEntry)
      (supersededSequence : Option ℕ)
  | alreadyCurrent (issuer : String) (sequence : ℕ)
  deriving DecidableEq, Repr

def isNewEntry (s : RevocationSet) (e : RevocationEntry) : Bool :=
  match e.target with
  | .revisionDigest d => !s.revisionDigests.contains d
  | .payloadDigest d => !s.payloadDigests.contains d
  | .unrecognized => true

def applyDecision (list : VerifiedRevocationList) (state : PolicyCacheState)
    (superseded : Option ℕ) : RevocationIngestDecision :=
  .apply list.issuer list.sequence (list.entries.filter (isNewEntry state.revocations)) superseded

def evaluateRevocationIngest (list : VerifiedRevocationList) (state : PolicyCacheState) :
    Except RevocationIngestRejection RevocationIngestDecision :=
  match state.revocations.maxSequenceByIssuer.get? list.issuer with
  | none => .ok (applyDecision list state none)
  | some hw =>
    if list.sequence < hw then .error (.sequenceNotAdvanced list.issuer list.sequence hw)
    else if list.sequence = hw then .ok (.alreadyCurrent list.issuer list.sequence)
    else .ok (applyDecision list state (some hw))

end Fornax
