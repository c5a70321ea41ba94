import Fornax.Store.PolicyLoads
import Fornax.Lib.Runs

namespace Fornax

inductive CacheOp
  | submitBundle (envelope : Bytes) (trusted : TrustedVerificationKeys) (now : Instant)
  | submitRevocation (envelope : Bytes) (trusted : TrustedVerificationKeys) (now : Instant)
  | rollback (now : Instant)
  deriving DecidableEq

def cacheStep (c : Crates) (db : Tables) : CacheOp → Tables
  | .submitBundle envelope trusted now => (submitPolicyBundle c db envelope trusted now).2
  | .submitRevocation envelope trusted now => (submitPolicyRevocation c db envelope trusted now).2
  | .rollback now => (rollbackPolicyToLastKnownGood c db now).2

def cacheRun (c : Crates) (ops : List CacheOp) : Tables :=
  Runs.run (cacheStep c) Tables.fresh ops

theorem cacheRun_append (c : Crates) (before after : List CacheOp) :
    cacheRun c (before ++ after) = Runs.run (cacheStep c) (cacheRun c before) after :=
  Runs.run_append (cacheStep c) Tables.fresh before after

/-- What was verified, read, decided and written; `stored` is the member whose bundle row is
written. -/
structure Activation (c : Crates) (db : Tables) (envelope : Bytes)
    (trusted : TrustedVerificationKeys) (now : Instant) where
  cand : VerifiedPolicyBundle
  state : PolicyCacheState
  members : List CachedBundleRef
  replaced : Option Uuid
  stored : CachedBundleRef
  rows : OrdMap Uuid BundleKey
  verified : verifyBundle c envelope trusted now = .ok cand
  loaded : loadState c db = .ok state
  decided : evaluateActivation c cand state now = .ok (.activate members replaced)
  found : members.find? (fun m => m.bundleId == cand.bundleId) = some stored
  inserted : insertMembers members = .ok rows

variable {c : Crates} {db : Tables} {envelope : Bytes} {trusted : TrustedVerificationKeys}
  {now : Instant} {members : List CachedBundleRef}

theorem Activation.activates (a : Activation c db envelope trusted now) :
    Activates c a.cand a.state now a.members a.replaced := by
  rcases evaluateActivation_ok a.decided with ⟨members, replaced, heq, hact⟩ | ⟨heq, _⟩
  · cases heq
    exact hact
  · cases heq

def Activation.after {c : Crates} {db : Tables} {envelope : Bytes}
    {trusted : TrustedVerificationKeys} {now : Instant}
    (a : Activation c db envelope trusted now) : Tables :=
  activatedTables c db envelope a.cand a.stored a.rows now

structure Confirmation (c : Crates) (db : Tables) (envelope : Bytes)
    (trusted : TrustedVerificationKeys) (now : Instant) where
  cand : VerifiedPolicyBundle
  state : PolicyCacheState
  mark : SequenceHighWater
  verified : verifyBundle c envelope trusted now = .ok cand
  loaded : loadState c db = .ok state
  marked : state.highWater.get? cand.lineage = some mark
  sequence_eq : cand.sequence = mark.maxSequence
  bundleId_eq : mark.lastBundleId = cand.bundleId
  payloadDigest_eq : mark.lastPayloadDigest = cand.payloadDigest

def Confirmation.after {c : Crates} {db : Tables} {envelope : Bytes}
    {trusted : TrustedVerificationKeys} {now : Instant}
    (k : Confirmation c db envelope trusted now) : Tables :=
  persistConfirm c db k.cand now

inductive SubmitResult (c : Crates) (db : Tables) (envelope : Bytes)
    (trusted : TrustedVerificationKeys) (now : Instant) :
    Except StoreError ActivationOutcome × Tables → Prop
  | failed (e : StoreError) : SubmitResult c db envelope trusted now (.error e, db)
  | rejected (rejection : ActivationRejection) (g : Option ℕ) :
    SubmitResult c db envelope trusted now (.ok (.rejected rejection g), db)
  | activated (a : Activation c db envelope trusted now) :
    SubmitResult c db envelope trusted now
      (.ok (.activated (nextGeneration db) (activeGenerationOf a.state) a.replaced), a.after)
  | confirmed (k : Confirmation c db envelope trusted now) :
    SubmitResult c db envelope trusted now
      (.ok (.confirmed ((activeGenerationOf k.state).getD 0) k.cand.policyId now), k.after)

variable {g : ℕ} {db' : Tables}

theorem persistActivation_ok {cand : VerifiedPolicyBundle}
    (h : persistActivation c db envelope cand members now = .ok (g, db')) :
    ∃ m rows, members.find? (fun m => m.bundleId == cand.bundleId) = some m ∧
      insertMembers members = .ok rows ∧ g = nextGeneration db ∧
      db' = activatedTables c db envelope cand m rows now := by
  unfold persistActivation at h
  split at h
  · cases h
  · rename_i m hfind
    split at h
    · cases h
    · rename_i rows hrows
      cases h
      exact ⟨m, rows, hfind, hrows, rfl, rfl⟩

theorem submitPolicyBundle_result (c : Crates) (db : Tables) (envelope : Bytes)
    (trusted : TrustedVerificationKeys) (now : Instant) :
    SubmitResult c db envelope trusted now (submitPolicyBundle c db envelope trusted now) := by
  unfold submitPolicyBundle
  cases hv : verifyBundle c envelope trusted now with
  | error e =>
    cases hs : loadState c db with
    | error err => exact .failed err
    | ok state => exact .rejected (.notVerified e) (activeGenerationOf state)
  | ok cand =>
    cases hs : loadState c db with
    | error err => exact .failed err
    | ok state =>
      simp only
      cases hd : evaluateActivation c cand state now with
      | error rejection => exact .rejected rejection (activeGenerationOf state)
      | ok d =>
        rcases evaluateActivation_ok hd with
          ⟨members, replaced, rfl, _⟩ | ⟨rfl, hw, hget, hseq, hid, hdigest⟩
        · simp only
          cases hp : persistActivation c db envelope cand members now with
          | error e => exact .failed e
          | ok out =>
            obtain ⟨g, db'⟩ := out
            obtain ⟨m, rows, hfind, hrows, rfl, rfl⟩ := persistActivation_ok hp
            exact .activated ⟨cand, state, members, replaced, m, rows, hv, hs, hd, hfind, hrows⟩
        · exact .confirmed ⟨cand, state, hw, hv, hs, hget, hseq, hid, hdigest⟩

theorem submitPolicyBundle_activated {superseded : Option ℕ} {replaced : Option Uuid}
    (h : submitPolicyBundle c db envelope trusted now =
      (.ok (.activated g superseded replaced), db'))
    : ∃ a : Activation c db envelope trusted now, db' = a.after := by
  have hres := submitPolicyBundle_result c db envelope trusted now
  rw [h] at hres
  cases hres with
  | activated a => exact ⟨a, rfl⟩

theorem submitPolicyBundle_confirmed {t : Instant} {p : Uuid}
    (h : submitPolicyBundle c db envelope trusted now = (.ok (.confirmed g p t), db')) :
    ∃ k : Confirmation c db envelope trusted now, p = k.cand.policyId ∧ db' = k.after := by
  have hres := submitPolicyBundle_result c db envelope trusted now
  rw [h] at hres
  cases hres with
  | confirmed k => exact ⟨k, rfl, rfl⟩

inductive StepTo (c : Crates) (db : Tables) : CacheOp → Tables → Prop
  | unchanged (op : CacheOp) : StepTo c db op db
  | activated {envelope : Bytes} {trusted : TrustedVerificationKeys} {now : Instant}
    (a : Activation c db envelope trusted now) :
    StepTo c db (.submitBundle envelope trusted now) a.after
  | confirmed {envelope : Bytes} {trusted : TrustedVerificationKeys} {now : Instant}
    (k : Confirmation c db envelope trusted now) :
    StepTo c db (.submitBundle envelope trusted now) k.after
  | revoked {envelope : Bytes} {trusted : TrustedVerificationKeys} {now : Instant}
    (list : VerifiedRevocationList) (issuer : String) (sequence : ℕ)
    (newEntries : List RevocationEntry) :
    StepTo c db (.submitRevocation envelope trusted now)
      (persistRevocationApply c db envelope list issuer sequence newEntries now)
  | rolledBack {now : Instant} (state : PolicyCacheState) (loaded : loadState c db = .ok state) :
    StepTo c db (.rollback now) { db with slots := db.slots.map (rollbackSlots c state now) }

theorem cacheStep_stepTo (c : Crates) (db : Tables) (op : CacheOp) :
    StepTo c db op (cacheStep c db op) := by
  cases op with
  | submitBundle envelope trusted now =>
    have hres := submitPolicyBundle_result c db envelope trusted now
    change StepTo c db _ (submitPolicyBundle c db envelope trusted now).2
    generalize submitPolicyBundle c db envelope trusted now = out at hres
    cases hres with
    | failed e => exact .unchanged _
    | rejected rejection g => exact .unchanged _
    | activated a => exact .activated a
    | confirmed k => exact .confirmed k
  | submitRevocation envelope trusted now =>
    change StepTo c db _ (submitPolicyRevocation c db envelope trusted now).2
    unfold submitPolicyRevocation
    split
    · exact .unchanged _
    · rename_i list _
      split
      · exact .unchanged _
      · split
        · exact .unchanged _
        · exact .unchanged _
        · rename_i issuer sequence newEntries superseded _
          exact .revoked list issuer sequence newEntries
  | rollback now =>
    change StepTo c db _ (rollbackPolicyToLastKnownGood c db now).2
    unfold rollbackPolicyToLastKnownGood
    cases hs : loadState c db with
    | error e => exact .unchanged _
    | ok state => exact .rolledBack state hs

def CacheOp.Rejected (c : Crates) (db : Tables) : CacheOp → Prop
  | .submitBundle envelope trusted now =>
    ∃ rejection g, (submitPolicyBundle c db envelope trusted now).1 = .ok (.rejected rejection g)
  | .submitRevocation envelope trusted now =>
    ∃ rejection, (submitPolicyRevocation c db envelope trusted now).1 = .ok (.rejected rejection)
  | .rollback _ => False

theorem cacheStep_of_rejected {op : CacheOp} (h : op.Rejected c db) : cacheStep c db op = db := by
  cases op with
  | submitBundle envelope trusted now =>
    obtain ⟨rejection, g, hout⟩ := h
    have hres := submitPolicyBundle_result c db envelope trusted now
    change (submitPolicyBundle c db envelope trusted now).2 = db
    generalize submitPolicyBundle c db envelope trusted now = out at hout hres
    cases hres with
    | failed e => rfl
    | rejected rejection g => rfl
    | activated a => cases hout
    | confirmed k => cases hout
  | submitRevocation envelope trusted now =>
    obtain ⟨rejection, hout⟩ := h
    change (submitPolicyRevocation c db envelope trusted now).2 = db
    unfold submitPolicyRevocation at hout ⊢
    split
    · rfl
    · split
      · rfl
      · split
        · rfl
        · rfl
        · rename_i hd
          simp_all
  | rollback now => exact absurd h id

theorem foldlM_insertMember :
    ∀ {acc rows : OrdMap Uuid BundleKey}, members.foldlM insertMember acc = .ok rows →
      ∀ p key, rows.get? p = some key ↔
        acc.get? p = some key ∨ ∃ m ∈ members, m.policyId = p ∧ m.key = key := by
  induction members with
  | nil =>
    intro acc rows h p key
    rw [List.foldlM_nil] at h
    cases h
    simp
  | cons m members ih =>
    intro acc rows h p key
    rw [List.foldlM_cons] at h
    obtain ⟨acc', hacc, hrest⟩ := Fallible.bind_eq_ok.mp h
    unfold insertMember at hacc
    split at hacc
    · cases hacc
    · rename_i hfree
      have hnone : acc.get? m.policyId = none := by simpa [OrdMap.contains] using hfree
      cases hacc
      rw [ih hrest p key, OrdMap.get?_insert]
      by_cases hp : p = m.policyId
      · subst hp
        simp [hnone]
      · have hp' : ¬ m.policyId = p := fun e => hp e.symm
        simp [hp, hp']

theorem insertMembers_get? {rows : OrdMap Uuid BundleKey} (h : insertMembers members = .ok rows)
    {p : Uuid} {key : BundleKey} :
    rows.get? p = some key ↔ ∃ m ∈ members, m.policyId = p ∧ m.key = key := by
  rw [foldlM_insertMember h p key]
  simp

theorem lt_nextGeneration (h : db.generations.contains g) : g < nextGeneration db := by
  have hmem : g ∈ db.generations.keys := OrdMap.mem_keys.mpr h
  cases hmax : db.generations.keys.max? with
  | none =>
    rw [List.max?_eq_none_iff.mp hmax] at hmem
    cases hmem
  | some n =>
    have hle : g ≤ n := (List.max?_eq_some_iff.mp hmax).2 g hmem
    rw [nextGeneration, hmax, Option.getD_some]
    omega

end Fornax
