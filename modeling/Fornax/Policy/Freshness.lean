import Fornax.Policy.Cache
import Fornax.Policy.Resolve

namespace Fornax

open List

inductive FreshnessTier
  | unconfigured
  | fresh
  | stale
  | graceExpired
  deriving Repr

namespace FreshnessTier

def rank : FreshnessTier → ℕ
  | .unconfigured => 0
  | .fresh => 1
  | .stale => 2
  | .graceExpired => 3

theorem rank_injective : Function.Injective rank := by
  intro a b h
  cases a <;> cases b <;> first | rfl | cases h

instance : LinearOrder FreshnessTier := LinearOrder.lift' rank rank_injective

end FreshnessTier

structure RiskClassTiers where
  low : FreshnessTier
  elevated : FreshnessTier
  high : FreshnessTier
  critical : FreshnessTier
  deriving DecidableEq, Repr

namespace RiskClassTiers

def uniform (t : FreshnessTier) : RiskClassTiers := ⟨t, t, t, t⟩

def forRisk (tiers : RiskClassTiers) : RiskClass → FreshnessTier
  | .low => tiers.low
  | .elevated => tiers.elevated
  | .high => tiers.high
  | .critical => tiers.critical

def meet (a b : RiskClassTiers) : RiskClassTiers where
  low := max a.low b.low
  elevated := max a.elevated b.elevated
  high := max a.high b.high
  critical := max a.critical b.critical

@[simp] theorem forRisk_uniform (t : FreshnessTier) (r : RiskClass) :
    (uniform t).forRisk r = t := by
  cases r <;> rfl

@[simp] theorem forRisk_meet (a b : RiskClassTiers) (r : RiskClass) :
    (meet a b).forRisk r = max (a.forRisk r) (b.forRisk r) := by
  cases r <;> rfl

end RiskClassTiers

structure MemberFreshness where
  bundleId : Uuid
  policyId : Uuid
  confirmedAt : Instant
  expiresAt : Instant
  ageSeconds : ℕ
  tierByRisk : RiskClassTiers
  deriving DecidableEq, Repr

structure PolicyFreshness where
  tierByRisk : RiskClassTiers
  members : List MemberFreshness
  evaluatedAt : Instant
  deriving DecidableEq, Repr

def tierForRisk (confirmedAt expiresAt : Instant) (maxAgeSeconds offlineGraceSeconds : ℕ)
    (now : Instant) : FreshnessTier :=
  let staleAt := confirmedAt + maxAgeSeconds * nanosPerSecond
  let graceExpiredAt := staleAt + offlineGraceSeconds * nanosPerSecond
  if now > graceExpiredAt then .graceExpired
  else if now > staleAt ∨ now > expiresAt then .stale
  else .fresh

section Freshness

variable (maxAge : RiskClassSeconds) (offlineGraceSeconds : ℕ)

def memberFreshness (now : Instant) (m : CachedBundleRef) : MemberFreshness where
  bundleId := m.bundleId
  policyId := m.policyId
  confirmedAt := m.confirmedAt
  expiresAt := m.expiresAt
  ageSeconds := (numSeconds (now - m.confirmedAt)).toNat
  tierByRisk :=
    let tier := fun maxAgeSeconds =>
      tierForRisk m.confirmedAt m.expiresAt maxAgeSeconds offlineGraceSeconds now
    ⟨tier maxAge.low, tier maxAge.elevated, tier maxAge.high, tier maxAge.critical⟩

def freshness (members : List CachedBundleRef) (everConfigured : Bool) (now : Instant) :
    PolicyFreshness :=
  match members.map (memberFreshness maxAge offlineGraceSeconds now) with
  | [] => ⟨.uniform (if everConfigured then .graceExpired else .unconfigured), [], now⟩
  | first :: rest =>
    ⟨rest.foldl (fun tiers mf => tiers.meet mf.tierByRisk) first.tierByRisk, first :: rest, now⟩

end Freshness

def stalenessFloor : RiskClass → FreshnessTier → Option EnforcementOutcome
  | .elevated, .graceExpired => some .warn
  | .high, .stale => some .warn
  | .high, .graceExpired => some .warn
  | .critical, .stale => some .warn
  | .critical, .graceExpired => some .block
  | _, _ => none

def effectiveOutcome (resolved : EnforcementOutcome) (risk : RiskClass) (tier : FreshnessTier) :
    EnforcementOutcome :=
  match stalenessFloor risk tier with
  | some floor => max resolved floor
  | none => resolved

def VerdictOutcomes.forVerdict (o : VerdictOutcomes) : Verdict → EnforcementOutcome
  | .verified => o.verified
  | .unverified => o.unverified
  | .contradicted => o.contradicted
  | .review => o.review
  | .unavailable => o.unavailable

structure EffectivePolicy where
  resolved : ResolvedPolicy
  freshness : PolicyFreshness

def EffectivePolicy.enforcementOutcomeFor (p : EffectivePolicy) (ac : ActionClass) (v : Verdict) :
    EnforcementOutcome :=
  match p.resolved.values.enforcementRules.find? fun r => r.actionClass == ac with
  | none => .observeOnly
  | some rule =>
    effectiveOutcome (rule.outcomes.forVerdict v) rule.riskClass
      (p.freshness.tierByRisk.forRisk rule.riskClass)

variable {maxAge : RiskClassSeconds} {grace : ℕ} {members : List CachedBundleRef}
  {everConfigured : Bool} {now later : Instant}

theorem tierForRisk_mono (confirmedAt expiresAt : Instant) (maxAgeSeconds : ℕ)
    (h : now ≤ later) :
    tierForRisk confirmedAt expiresAt maxAgeSeconds grace now ≤
      tierForRisk confirmedAt expiresAt maxAgeSeconds grace later := by
  simp only [tierForRisk]
  split_ifs <;> first | decide | grind

theorem forRisk_memberFreshness_mono (h : now ≤ later) (m : CachedBundleRef) (r : RiskClass) :
    (memberFreshness maxAge grace now m).tierByRisk.forRisk r ≤
      (memberFreshness maxAge grace later m).tierByRisk.forRisk r := by
  cases r <;> exact tierForRisk_mono _ _ _ h

theorem foldl_meet_le_iff (rest : List MemberFreshness) (tiers : RiskClassTiers) (r : RiskClass)
    (t : FreshnessTier) :
    (rest.foldl (fun tiers mf => tiers.meet mf.tierByRisk) tiers).forRisk r ≤ t ↔
      tiers.forRisk r ≤ t ∧ ∀ mf ∈ rest, mf.tierByRisk.forRisk r ≤ t := by
  induction rest generalizing tiers with
  | nil => simp
  | cons mf rest ih => simp [ih, and_assoc]

theorem freshness_le_iff (hne : members ≠ []) (r : RiskClass) (t : FreshnessTier) :
    (freshness maxAge grace members everConfigured now).tierByRisk.forRisk r ≤ t ↔
      ∀ m ∈ members, (memberFreshness maxAge grace now m).tierByRisk.forRisk r ≤ t := by
  cases members with
  | nil => exact absurd rfl hne
  | cons m rest => simp [freshness, foldl_meet_le_iff]

theorem freshness_mono (h : now ≤ later) (r : RiskClass) :
    (freshness maxAge grace members everConfigured now).tierByRisk.forRisk r ≤
      (freshness maxAge grace members everConfigured later).tierByRisk.forRisk r := by
  by_cases hne : members = []
  · rw [hne]
    exact le_rfl
  · rw [freshness_le_iff hne]
    intro m hm
    exact (forRisk_memberFreshness_mono h m r).trans
      ((freshness_le_iff hne r _).mp le_rfl m hm)

theorem freshness_le_of_subset {others : List CachedBundleRef} (hsub : members ⊆ others)
    (hne : members ≠ [] ∨ everConfigured = false) (r : RiskClass) :
    (freshness maxAge grace members everConfigured now).tierByRisk.forRisk r ≤
      (freshness maxAge grace others everConfigured now).tierByRisk.forRisk r := by
  by_cases hnil : members = []
  · have hflag : everConfigured = false := hne.resolve_left (not_not_intro hnil)
    rw [hnil, hflag]
    simp only [freshness, map_nil, RiskClassTiers.forRisk_uniform]
    exact Nat.zero_le _
  · rw [freshness_le_iff hnil]
    intro m hm
    have hothers : others ≠ [] := ne_nil_of_mem (hsub hm)
    exact (freshness_le_iff hothers r _).mp le_rfl m (hsub hm)

section

variable (o : EnforcementOutcome) (r : RiskClass)

theorem effectiveOutcome_mono {t t' : FreshnessTier}
    (h : t ≤ t') : effectiveOutcome o r t ≤ effectiveOutcome o r t' := by
  revert h
  cases r <;> cases t <;> cases t' <;> cases o <;> decide

theorem le_effectiveOutcome (t : FreshnessTier) : o ≤ effectiveOutcome o r t := by
  unfold effectiveOutcome
  split
  · exact le_max_left _ _
  · exact le_rfl

end

theorem enforcementOutcomeFor_mono (resolved : ResolvedPolicy) {f f' : PolicyFreshness}
    (h : ∀ r, f.tierByRisk.forRisk r ≤ f'.tierByRisk.forRisk r) (ac : ActionClass) (v : Verdict) :
    (EffectivePolicy.mk resolved f).enforcementOutcomeFor ac v ≤
      (EffectivePolicy.mk resolved f').enforcementOutcomeFor ac v := by
  unfold EffectivePolicy.enforcementOutcomeFor
  cases resolved.values.enforcementRules.find? fun r => r.actionClass == ac with
  | none => exact le_rfl
  | some rule => exact effectiveOutcome_mono _ _ (h rule.riskClass)

theorem staleness_tightens (resolved : ResolvedPolicy) (members : List CachedBundleRef)
    (everConfigured : Bool) (maxAge : RiskClassSeconds) (grace : ℕ) (ac : ActionClass)
    (v : Verdict) :
    let outcome := fun (ms : List CachedBundleRef) (now : Instant) =>
      (EffectivePolicy.mk resolved
        (freshness maxAge grace ms everConfigured now)).enforcementOutcomeFor ac v
    (∀ now later, now ≤ later → outcome members now ≤ outcome members later) ∧
    (∀ now rule,
      (resolved.values.enforcementRules.find? fun r => r.actionClass == ac) = some rule →
        rule.outcomes.forVerdict v ≤ outcome members now) ∧
    ∀ now m before after, members = before ++ after →
      (members ≠ [] ∨ everConfigured = false) →
        outcome members now ≤ outcome (before ++ m :: after) now := by
  refine ⟨fun now later h => ?_, fun now rule hrule => ?_, fun now m before after hsplit hne => ?_⟩
  · exact enforcementOutcomeFor_mono resolved (freshness_mono h) ac v
  · simp only [EffectivePolicy.enforcementOutcomeFor, hrule]
    exact le_effectiveOutcome _ _ _
  · have hsub : members ⊆ before ++ m :: after := by
      rw [hsplit]
      intro k hk
      simp only [mem_append, mem_cons] at hk ⊢
      tauto
    exact enforcementOutcomeFor_mono resolved (freshness_le_of_subset hsub hne) ac v

def criticalRules : ResolvedPolicy where
  values := { PolicyContent.baseline with
    enforcementRules := [⟨.dataEgress, .critical, .uniform .allow⟩] }
  provenance := OrdMap.empty
  contributing := []

def confirmedNow : CachedBundleRef where
  bundleId := 1
  issuer := "acme"
  sequence := 1
  policyId := 2
  revision := 1
  revisionDigest := "sha256:00"
  payloadDigest := "sha256:01"
  verifiedBy := "k1"
  notBefore := 0
  expiresAt := 1000 * nanosPerSecond
  firstActivatedAt := 0
  confirmedAt := 0

/-- The first member of an emptied generation lifts the floor of the empty one. -/
theorem first_member_loosens :
    (EffectivePolicy.mk criticalRules
      (freshness ⟨86400, 21600, 3600, 900⟩ 604800 [] true 0)).enforcementOutcomeFor
        .dataEgress .verified = .block ∧
    (EffectivePolicy.mk criticalRules
      (freshness ⟨86400, 21600, 3600, 900⟩ 604800 [confirmedNow] true 0)).enforcementOutcomeFor
        .dataEgress .verified = .allow := by
  decide

end Fornax
