import Fornax.Egress.Decide

namespace Fornax.Egress

open List

variable {c : EgressCrates} {state other : EgressState} {req : EgressRequest}
  {request : Destination} {consent : Consent}

def Consent.live (c : EgressCrates) (state : EgressState) (req : EgressRequest)
    (consent : Consent) : Bool :=
  consent.revokedAt.isNone && consent.profileGeneration == state.generation &&
    isBefore c req.now consent.expiresAt && consent.coversClasses req

def Consent.usable (c : EgressCrates) (state : EgressState) (req : EgressRequest)
    (request : Destination) (consent : Consent) : Bool :=
  consent.purpose == req.purpose && coversRequest c consent.destination request &&
    consent.live c state req

theorem findConsentFrom_live {best : EgressDenial} {rest : List Consent}
    (h : consent.live c state req) :
    findConsentFrom c state req best (consent :: rest) = .ok consent := by
  simp only [Consent.live, Bool.and_eq_true, Option.isNone_iff_eq_none, beq_iff_eq] at h
  obtain ⟨⟨⟨hrevoked, hgeneration⟩, hexpiry⟩, hclasses⟩ := h
  simp [findConsentFrom, hrevoked, hgeneration, hexpiry, hclasses]

theorem findConsentFrom_not_live (best : EgressDenial) (rest : List Consent)
    (h : consent.live c state req = false) :
    ∃ reason, findConsentFrom c state req best (consent :: rest) =
      findConsentFrom c state req reason rest := by
  rw [findConsentFrom]
  split
  · exact ⟨_, rfl⟩
  split
  · exact ⟨_, rfl⟩
  split
  · exact ⟨_, rfl⟩
  split
  · exact ⟨_, rfl⟩
  · simp_all [Consent.live]

theorem findConsentFrom_ok_iff {best : EgressDenial} {consents : List Consent} :
    findConsentFrom c state req best consents = .ok consent ↔
      consents.find? (Consent.live c state req) = some consent := by
  induction consents generalizing best with
  | nil => simp [findConsentFrom]
  | cons first rest ih =>
    rw [find?_cons]
    cases hlive : first.live c state req with
    | true => simp [findConsentFrom_live hlive]
    | false =>
      obtain ⟨reason, hreason⟩ := findConsentFrom_not_live best rest hlive
      rw [hreason]
      exact ih

theorem findConsent_ok_iff : findConsent c state req request = .ok consent ↔
      state.consents.find? (Consent.usable c state req request) = some consent := by
  rw [findConsent, findConsentFrom_ok_iff, find?_filter]
  have husable : (fun x : Consent => decide ((x.purpose == req.purpose &&
      coversRequest c x.destination request) = true ∧ x.live c state req = true)) =
      Consent.usable c state req request := by
    funext x
    rw [Consent.usable, Bool.decide_and, Bool.decide_eq_true, Bool.decide_eq_true]
  rw [husable]

theorem find?_usable_isSome :
    (∃ consent, state.consents.find? (Consent.usable c state req request) = some consent) ↔
      ∃ consent ∈ state.consents, consent.usable c state req request := by
  rw [← Option.isSome_iff_exists, find?_isSome]

def Allowlisted (c : EgressCrates) (state : EgressState) (req : EgressRequest)
    (request : Destination) : Prop :=
  ∃ e ∈ state.allowlist, e.removed = false ∧ e.purpose = req.purpose ∧
    coversRequest c e.destination request = true

theorem findAllowlist_cases (c : EgressCrates) (state : EgressState) (req : EgressRequest)
    (request : Destination) :
    findAllowlist c state req.purpose request = none ∧ ¬ Allowlisted c state req request ∨
      ∃ e, findAllowlist c state req.purpose request = some e ∧
        Allowlisted c state req request := by
  cases hfind : findAllowlist c state req.purpose request with
  | none =>
    rw [findAllowlist, find?_eq_none] at hfind
    refine .inl ⟨rfl, ?_⟩
    rintro ⟨e, he, hremoved, hpurpose, hcovers⟩
    exact hfind e he (by simp [hremoved, hpurpose, hcovers])
  | some e =>
    have hchecks := find?_some hfind
    simp only [Bool.and_eq_true, Bool.not_eq_true', beq_iff_eq] at hchecks
    exact .inr ⟨e, rfl, e, mem_of_find?_eq_some hfind, hchecks.1.1, hchecks.1.2, hchecks.2⟩

inductive Permits (c : EgressCrates) (state : EgressState) (req : EgressRequest)
    (request : Destination) : Prop
  | loopbackJudge (hpurpose : req.purpose = .semanticJudge)
      (hhost : isLoopbackHost request.host = true)
  | policyFetch (hpurpose : req.purpose = .policyFetch)
      (hclasses : req.classes.toList.any isUnrecognized = false)
      (hallowed : Allowlisted c state req request)
  | personal (hprofile : state.profile = .personal) (hspool : req.purpose ≠ .uploaderSpoolStream)
      (hfetch : req.purpose ≠ .policyFetch)
      (hclasses : req.classes.toList.any isUnrecognized = false)
      (hships : req.purpose.shipsEvidence = true → req.legacyCloudSyncGateOpen = true ∧
        req.classes.toList.all isUploadableClass = true)
      (hallowed : Allowlisted c state req request)
      (consent : Consent)
      (hfind : state.consents.find? (Consent.usable c state req request) = some consent)
  | corporate (hprofile : state.profile = .corporate) (hpurpose : req.purpose = .semanticJudge)
      (hclasses : req.classes.toList.any isUnrecognized = false)
      (hallowed : Allowlisted c state req request)
      (consent : Consent)
      (hfind : state.consents.find? (Consent.usable c state req request) = some consent)
      (hauthorized : consent.authorized = true)

theorem decidePolicyFetch_ok_iff {p : EgressPermit} :
    decidePolicyFetch c state req request = .ok p ↔
      Allowlisted c state req request ∧ permit req.purpose request none = p := by
  rw [decidePolicyFetch]
  rcases findAllowlist_cases c state req request with ⟨hnone, hnot⟩ | ⟨e, hsome, hallowed⟩
  · simp [hnone, hnot]
  · simp [hsome, hallowed]

theorem decideConsent_ok_iff :
    decideConsent c state req request = .ok consent ↔ Allowlisted c state req request ∧
      state.consents.find? (Consent.usable c state req request) = some consent := by
  rw [decideConsent, ← findConsent_ok_iff]
  rcases findAllowlist_cases c state req request with ⟨hnone, hnot⟩ | ⟨e, hsome, hallowed⟩
  · simp [hnone, hnot]
  · simp [hsome, hallowed]

theorem permits_of_decide {p : EgressPermit} (h : Egress.decide c state req = .ok p) :
    ∃ request, Destination.parse c req.url = .ok request ∧ Permits c state req request ∧
      ∀ id, p.consentId = some id → ∃ consent ∈ state.consents, consent.id = id ∧
        consent.usable c state req request := by
  unfold Egress.decide at h
  split at h
  · cases h
  rename_i request hparse
  refine ⟨request, hparse, ?_⟩
  split_ifs at h with hspool hjudge hclasses
  · obtain ⟨hpurpose, hhost⟩ := (Bool.and_eq_true _ _).mp hjudge
    cases h
    exact ⟨.loopbackJudge (of_decide_eq_true hpurpose) hhost, nofun⟩
  have hknown := Bool.eq_false_iff.mpr hclasses
  unfold decideProfile at h
  split at h
  · split_ifs at h with hships hfetch
    · obtain ⟨hallowed, rfl⟩ := decidePolicyFetch_ok_iff.mp h
      exact ⟨.policyFetch hfetch hknown hallowed, nofun⟩
    split at h
    · cases h
    · rename_i hprofile _ consent hconsent
      split_ifs at h with hauthorized
      cases h
      obtain ⟨hallowed, hfind⟩ := decideConsent_ok_iff.mp hconsent
      have hpurpose : req.purpose = .semanticJudge := by
        cases hpurpose : req.purpose <;> simp_all [Purpose.shipsEvidence]
      exact ⟨.corporate hprofile hpurpose hknown hallowed consent hfind hauthorized,
        fun id hid => ⟨consent, mem_of_find?_eq_some hfind, Option.some.inj hid, find?_some hfind⟩⟩
  · split_ifs at h with hfetch
    obtain ⟨hallowed, rfl⟩ := decidePolicyFetch_ok_iff.mp h
    exact ⟨.policyFetch hfetch hknown hallowed, nofun⟩
  · split_ifs at h with hfetch hgate huploadable
    · obtain ⟨hallowed, rfl⟩ := decidePolicyFetch_ok_iff.mp h
      exact ⟨.policyFetch hfetch hknown hallowed, nofun⟩
    split at h
    · cases h
    · rename_i hprofile _ consent hconsent
      cases h
      obtain ⟨hallowed, hfind⟩ := decideConsent_ok_iff.mp hconsent
      exact ⟨.personal hprofile hspool hfetch hknown (by simp_all) hallowed consent hfind,
        fun id hid => ⟨consent, mem_of_find?_eq_some hfind, Option.some.inj hid, find?_some hfind⟩⟩

theorem decide_isOk_iff : (Egress.decide c state req).isOk ↔
      ∃ request, Destination.parse c req.url = .ok request ∧ Permits c state req request := by
  constructor
  · intro h
    obtain ⟨p, hp⟩ := Fallible.exists_of_isOk h
    obtain ⟨request, hparse, hpermits, -⟩ := permits_of_decide hp
    exact ⟨request, hparse, hpermits⟩
  rintro ⟨request, hparse, hpermits⟩
  simp only [Egress.decide, hparse]
  by_cases hjudge : req.purpose = .semanticJudge ∧ isLoopbackHost request.host = true
  · simp [hjudge]
  cases hpermits with
  | loopbackJudge hpurpose hhost => exact absurd ⟨hpurpose, hhost⟩ hjudge
  | policyFetch hpurpose hclasses hallowed =>
    have hfetch := decidePolicyFetch_ok_iff.mpr ⟨hallowed, rfl⟩
    cases hprofile : state.profile <;>
      simp [decideProfile, hprofile, hpurpose, hclasses, hfetch, Purpose.shipsEvidence]
  | personal hprofile hspool hfetch hclasses hships hallowed consent hfind =>
    have hconsent := decideConsent_ok_iff.mpr ⟨hallowed, hfind⟩
    cases hevidence : req.purpose.shipsEvidence with
    | true =>
      simp [decideProfile, hprofile, hspool, hjudge, hclasses, hfetch, hevidence, hships hevidence,
        hconsent]
    | false =>
      simp [decideProfile, hprofile, hspool, hjudge, hclasses, hfetch, hevidence, hconsent]
  | corporate hprofile hpurpose hclasses hallowed consent hfind hauthorized =>
    have hconsent := decideConsent_ok_iff.mpr ⟨hallowed, hfind⟩
    have hremote : isLoopbackHost request.host ≠ true := fun hhost => hjudge ⟨hpurpose, hhost⟩
    simp [decideProfile, hprofile, hpurpose, hremote, hclasses, hconsent, hauthorized,
      Purpose.shipsEvidence]

structure Reordered (state other : EgressState) : Prop where
  profile : other.profile = state.profile
  generation : other.generation = state.generation
  consents : other.consents.Perm state.consents
  allowlist : other.allowlist.Perm state.allowlist

section Reordered

variable (h : Reordered state other)

include h

theorem Reordered.symm : Reordered other state :=
  ⟨h.profile.symm, h.generation.symm, h.consents.symm, h.allowlist.symm⟩

theorem Reordered.usable_eq :
    Consent.usable c other req request = Consent.usable c state req request := by
  funext consent
  rw [Consent.usable, Consent.usable, Consent.live, Consent.live, h.generation]

theorem Reordered.allowlisted
    (hallowed : Allowlisted c state req request) : Allowlisted c other req request := by
  obtain ⟨e, he, hchecks⟩ := hallowed
  exact ⟨e, h.allowlist.mem_iff.mpr he, hchecks⟩

/-- For a judge beyond the machine, with known classes and on the allowlist. -/
structure JudgeRequest (c : EgressCrates) (state : EgressState) (req : EgressRequest)
    (request : Destination) : Prop where
  parsed : Destination.parse c req.url = .ok request
  purpose : req.purpose = .semanticJudge
  remote : isLoopbackHost request.host = false
  classes : req.classes.toList.any isUnrecognized = false
  allowed : Allowlisted c state req request

/-- Under the corporate profile, usable consents with and without an authorization reference. -/
def MixedAuthorization (c : EgressCrates) (state : EgressState) (req : EgressRequest) : Prop :=
  state.profile = .corporate ∧ ∃ request, JudgeRequest c state req request ∧
    (∃ consent ∈ state.consents, consent.usable c state req request = true ∧
      consent.authorized = true) ∧
    ∃ consent ∈ state.consents, consent.usable c state req request = true ∧
      consent.authorized = false

theorem Reordered.permits (hparse : Destination.parse c req.url = .ok request)
    (hmixed : ¬ MixedAuthorization c state req) (hpermits : Permits c state req request) :
    Permits c other req request := by
  have hfound : ∀ consent,
      state.consents.find? (Consent.usable c state req request) = some consent →
      ∃ consent', other.consents.find? (Consent.usable c other req request) = some consent' := by
    intro consent hfind
    rw [find?_usable_isSome, h.usable_eq]
    exact ⟨consent, h.consents.mem_iff.mpr (mem_of_find?_eq_some hfind), find?_some hfind⟩
  cases hpermits with
  | loopbackJudge hpurpose hhost => exact .loopbackJudge hpurpose hhost
  | policyFetch hpurpose hclasses hallowed =>
    exact .policyFetch hpurpose hclasses (h.allowlisted hallowed)
  | personal hprofile hspool hfetch hclasses hships hallowed consent hfind =>
    obtain ⟨consent', hfind'⟩ := hfound consent hfind
    exact .personal (h.profile.trans hprofile) hspool hfetch hclasses hships
      (h.allowlisted hallowed) consent' hfind'
  | corporate hprofile hpurpose hclasses hallowed consent hfind hauthorized =>
    by_cases hhost : isLoopbackHost request.host = true
    · exact .loopbackJudge hpurpose hhost
    obtain ⟨consent', hfind'⟩ := hfound consent hfind
    refine .corporate (h.profile.trans hprofile) hpurpose hclasses (h.allowlisted hallowed)
      consent' hfind' ?_
    -- a usable consent without a reference beside this one would be the mixed case
    by_contra hnot
    rw [h.usable_eq] at hfind'
    refine hmixed ⟨hprofile, request, ⟨hparse, hpurpose, by simpa using hhost, hclasses, hallowed⟩,
      ⟨consent, mem_of_find?_eq_some hfind, find?_some hfind, hauthorized⟩,
      consent', h.consents.mem_iff.mp (mem_of_find?_eq_some hfind'),
      find?_some hfind', ?_⟩
    simpa using hnot

theorem Reordered.judge (hjudge : JudgeRequest c state req request) :
    JudgeRequest c other req request :=
  ⟨hjudge.parsed, hjudge.purpose, hjudge.remote, hjudge.classes, h.allowlisted hjudge.allowed⟩

theorem Reordered.mixed (hmixed : MixedAuthorization c state req) :
    MixedAuthorization c other req := by
  obtain ⟨hprofile, request, hjudge, ⟨x, hx, hxusable, hxauth⟩, y, hy, hyusable, hyauth⟩ := hmixed
  refine ⟨h.profile.trans hprofile, request, h.judge hjudge,
    ⟨x, h.consents.mem_iff.mpr hx, ?_, hxauth⟩, y, h.consents.mem_iff.mpr hy, ?_, hyauth⟩
  · rw [h.usable_eq]
    exact hxusable
  · rw [h.usable_eq]
    exact hyusable

end Reordered

theorem exists_reordered_first (hmem : consent ∈ state.consents)
    (husable : consent.usable c state req request) : ∃ other, Reordered state other ∧
      other.consents.find? (Consent.usable c other req request) = some consent := by
  let other : EgressState := { state with consents := consent :: state.consents.erase consent }
  have hreordered : Reordered state other :=
    ⟨rfl, rfl, (perm_cons_erase hmem).symm, List.Perm.refl _⟩
  refine ⟨other, hreordered, ?_⟩
  rw [hreordered.usable_eq]
  exact find?_cons_of_pos husable

theorem corporate_judge_isOk_iff (hprofile : state.profile = .corporate)
    (hjudge : JudgeRequest c state req request)
    (hfind : state.consents.find? (Consent.usable c state req request) = some consent) :
    (Egress.decide c state req).isOk ↔ consent.authorized := by
  rw [decide_isOk_iff]
  constructor
  · rintro ⟨request', hparse, hpermits⟩
    rw [hjudge.parsed] at hparse
    cases hparse
    cases hpermits with
    | loopbackJudge hpurpose hhost =>
      rw [hjudge.remote] at hhost
      cases hhost
    | policyFetch hpurpose =>
      rw [hjudge.purpose] at hpurpose
      cases hpurpose
    | personal hpersonal =>
      rw [hprofile] at hpersonal
      cases hpersonal
    | corporate _ _ _ _ consent' hfind' hauthorized =>
      rw [hfind] at hfind'
      cases hfind'
      exact hauthorized
  · intro hauthorized
    exact ⟨request, hjudge.parsed,
      .corporate hprofile hjudge.purpose hjudge.classes hjudge.allowed consent hfind hauthorized⟩

/-- A judge is asked for under a chosen profile, and some usable consent, a corporate one with a
reference, authorises it. -/
def JudgeAuthorized (c : EgressCrates) (state : EgressState) (req : EgressRequest) : Prop :=
  state.profile ≠ .unconfigured ∧ ∃ request, JudgeRequest c state req request ∧
    ∃ consent ∈ state.consents, consent.usable c state req request = true ∧
      (state.profile = .corporate → consent.authorized = true)

theorem decide_of_judgeAuthorized (hmixed : ¬ MixedAuthorization c state req)
    (h : JudgeAuthorized c state req) : (Egress.decide c state req).isOk := by
  obtain ⟨hprofile, request, hjudge, consent, hmem, husable, hauthorized⟩ := h
  obtain ⟨first, hfind⟩ := find?_usable_isSome.mpr ⟨consent, hmem, husable⟩
  cases hstate : state.profile with
  | unconfigured => exact absurd hstate hprofile
  | personal =>
    refine decide_isOk_iff.mpr ⟨request, hjudge.parsed, .personal hstate ?_ ?_ hjudge.classes ?_
      hjudge.allowed first hfind⟩
    · simp [hjudge.purpose]
    · simp [hjudge.purpose]
    · simp [hjudge.purpose, Purpose.shipsEvidence]
  | corporate =>
    refine (corporate_judge_isOk_iff hstate hjudge hfind).mpr ?_
    by_contra hnot
    exact hmixed ⟨hstate, request, hjudge, ⟨consent, hmem, husable, hauthorized hstate⟩,
      first, mem_of_find?_eq_some hfind, find?_some hfind, by simpa using hnot⟩

theorem MixedAuthorization.order_matters (h : MixedAuthorization c state req) :
    ∃ first second, Reordered state first ∧ Reordered state second ∧
      (Egress.decide c first req).isOk ∧ (Egress.decide c second req).isOk = false := by
  obtain ⟨hprofile, request, hjudge, ⟨x, hx, hxusable, hxauth⟩, y, hy, hyusable, hyauth⟩ := h
  obtain ⟨first, hfirst, hxfind⟩ := exists_reordered_first hx hxusable
  obtain ⟨second, hsecond, hyfind⟩ := exists_reordered_first hy hyusable
  refine ⟨first, second, hfirst, hsecond, ?_, ?_⟩
  · exact (corporate_judge_isOk_iff (hfirst.profile.trans hprofile) (hfirst.judge hjudge)
      hxfind).mpr hxauth
  · rw [← Bool.not_eq_true, corporate_judge_isOk_iff (hsecond.profile.trans hprofile)
      (hsecond.judge hjudge) hyfind, hyauth]
    exact Bool.false_ne_true

/-- The decision is free of the order of the records exactly outside the mixed case; there a
judge is also permitted on any consent that authorises it. -/
theorem decide_order_free_iff_not_mixed (c : EgressCrates) (state : EgressState)
    (req : EgressRequest) :
    ((∀ other, Reordered state other →
        (Egress.decide c other req).isOk = (Egress.decide c state req).isOk) ↔
      ¬ MixedAuthorization c state req) ∧
    (¬ MixedAuthorization c state req → JudgeAuthorized c state req →
      (Egress.decide c state req).isOk = true) := by
  refine ⟨⟨fun hfree hmixed => ?_, fun hmixed other hother => ?_⟩, decide_of_judgeAuthorized⟩
  · obtain ⟨first, second, hfirst, hsecond, hok, hdenied⟩ := hmixed.order_matters
    rw [hfree first hfirst, ← hfree second hsecond, hdenied] at hok
    cases hok
  · rw [Bool.eq_iff_iff, decide_isOk_iff, decide_isOk_iff]
    constructor
    · rintro ⟨request, hparse, hpermits⟩
      exact ⟨request, hparse, hother.symm.permits hparse
        (fun hm => hmixed (hother.symm.mixed hm)) hpermits⟩
    · rintro ⟨request, hparse, hpermits⟩
      exact ⟨request, hparse, hother.permits hparse hmixed hpermits⟩

def oneHost : EgressCrates where
  parseUrl raw :=
    if raw == "https://gateway.example.test/v1" then
      some ⟨"", none, none, none, "https", some "gateway.example.test", some 443, "/v1"⟩
    else none
  rfc3339 text :=
    if text == "2026-10-24T00:00:00Z" then some 1
    else if text == "2027-01-01T00:00:00Z" then some 2
    else none

def gatewayConsent (id : String) (authorizationRef : Option String) : Consent where
  id := id
  purpose := .semanticJudge
  destination := "https://gateway.example.test/v1"
  dataClasses := OrdSet.ofList ["claim_text"]
  grantedAt := "2026-01-01T00:00:00Z"
  expiresAt := "2027-01-01T00:00:00Z"
  revokedAt := none
  profileGeneration := 3
  authorizationRef := authorizationRef

def gatewayState (profile : Profile) (consents : List Consent) : EgressState :=
  ⟨profile, 3, consents, [⟨"a1", .semanticJudge, "https://gateway.example.test/v1", false⟩]⟩

def gatewayRequest : EgressRequest :=
  ⟨.semanticJudge, "https://gateway.example.test/v1", OrdSet.ofList [.claimText], false,
    "2026-10-24T00:00:00Z"⟩

/-- The consent with a reference is found only when it comes first. -/
theorem corporate_judge_depends_on_order :
    Egress.decide oneHost (gatewayState .corporate
      [gatewayConsent "c1" none, gatewayConsent "c2" (some "DPA-7")]) gatewayRequest =
        .error .missingAuthorizationRef ∧
    Egress.decide oneHost (gatewayState .corporate
      [gatewayConsent "c2" (some "DPA-7"), gatewayConsent "c1" none]) gatewayRequest =
        .ok ⟨.semanticJudge, "https://gateway.example.test:443/v1", some "c2"⟩ := by
  decide +kernel

theorem decide_order_free_iff_not_mixed_gateway :
    (Egress.decide oneHost (gatewayState .corporate
      [gatewayConsent "c2" (some "DPA-7")]) gatewayRequest).isOk = true := by
  have hrequest : Destination.parse oneHost gatewayRequest.url =
      .ok ⟨"https", "gateway.example.test", 443, "/v1"⟩ := by decide +kernel
  refine (decide_order_free_iff_not_mixed oneHost _ gatewayRequest).2 ?_ ?_
  · rintro ⟨-, request, -, -, consent, hmem, -, hauth⟩
    obtain rfl := mem_singleton.mp hmem
    revert hauth
    decide +kernel
  · refine ⟨by decide +kernel, _, ⟨hrequest, rfl, by decide +kernel, by decide +kernel, ?_⟩,
      gatewayConsent "c2" (some "DPA-7"), mem_singleton_self _, by decide +kernel,
      fun _ => by decide +kernel⟩
    exact ⟨_, mem_singleton_self _, rfl, rfl, by decide +kernel⟩

structure Covered (c : EgressCrates) (state : EgressState) (req : EgressRequest)
    (request : Destination) : Prop where
  consented : ∀ cls ∈ req.classes.toList, ∃ consent ∈ state.consents,
    consent.dataClasses.contains (classStr cls) = true ∧ consent.revokedAt = none ∧
      consent.profileGeneration = state.generation ∧
      isBefore c req.now consent.expiresAt = true ∧ consent.purpose = req.purpose ∧
      coversRequest c consent.destination request = true
  evidence : req.purpose.shipsEvidence = true →
    (∀ cls ∈ req.classes.toList, isUploadableClass cls = true) ∧
      req.legacyCloudSyncGateOpen = true ∧ state.profile = .personal

def ContentOnFetch (c : EgressCrates) (req : EgressRequest) : Prop :=
  req.purpose = .policyFetch ∧ req.classes.toList ≠ [] ∧
    req.classes.toList.any isUnrecognized = false ∧
    ∃ request, Destination.parse c req.url = .ok request ∧ isLoopbackHost request.host = false

theorem consented_of_usable (hmem : consent ∈ state.consents)
    (husable : consent.usable c state req request) {cls : EgressContentClass}
    (hcls : cls ∈ req.classes.toList) :
    ∃ consent ∈ state.consents, consent.dataClasses.contains (classStr cls) ∧
      consent.revokedAt = none ∧ consent.profileGeneration = state.generation ∧
      isBefore c req.now consent.expiresAt ∧ consent.purpose = req.purpose ∧
      coversRequest c consent.destination request := by
  simp only [Consent.usable, Consent.live, Consent.coversClasses, Bool.and_eq_true, beq_iff_eq,
    Option.isNone_iff_eq_none, all_eq_true] at husable
  obtain ⟨⟨hpurpose, hdestination⟩, ⟨⟨hrevoked, hgeneration⟩, hexpiry⟩, hclasses⟩ := husable
  exact ⟨consent, hmem, hclasses cls hcls, hrevoked, hgeneration, hexpiry, hpurpose, hdestination⟩

theorem Permits.covered (h : Permits c state req request)
    (hremote : isLoopbackHost request.host = false)
    (hfetch : req.purpose = .policyFetch → req.classes.toList = []) :
    Covered c state req request := by
  cases h with
  | loopbackJudge hpurpose hhost =>
    rw [hremote] at hhost
    cases hhost
  | policyFetch hpurpose =>
    constructor
    · rw [hfetch hpurpose]
      simp
    · simp [hpurpose, Purpose.shipsEvidence]
  | personal hprofile hspool hfetch' hclasses hships hallowed consent hfind =>
    refine ⟨fun cls => consented_of_usable (mem_of_find?_eq_some hfind)
      (find?_some hfind), fun hevidence => ?_⟩
    obtain ⟨hgate, huploadable⟩ := hships hevidence
    exact ⟨all_eq_true.mp huploadable, hgate, hprofile⟩
  | corporate hprofile hpurpose hclasses hallowed consent hfind =>
    refine ⟨fun cls => consented_of_usable (mem_of_find?_eq_some hfind) (find?_some hfind), ?_⟩
    simp [hpurpose, Purpose.shipsEvidence]

theorem stem_append_slashes (path : Text) :
    ∃ slashes, path = (path.reverse.dropWhile (· == '/')).reverse ++ slashes ∧
      ∀ ch ∈ slashes, ch = '/' := by
  refine ⟨(path.reverse.takeWhile (· == '/')).reverse, ?_, ?_⟩
  · rw [← reverse_append, takeWhile_append_dropWhile, reverse_reverse]
  · intro ch hch
    simpa using mem_takeWhile_imp (mem_reverse.mp hch)

theorem Destination.covers_self (d : Destination) : d.covers d := by
  obtain ⟨slashes, hpath, hslashes⟩ := stem_append_slashes d.pathPrefix.toList
  unfold Destination.covers
  simp only [bne_self_eq_false, Bool.or_self, Bool.false_eq_true, if_false]
  split
  · rfl
  · generalize (d.pathPrefix.toList.reverse.dropWhile (· == '/')).reverse = stem at hpath ⊢
    rw [hpath]
    cases slashes with
    | nil => simp
    | cons ch rest =>
      have hch : ch = '/' := hslashes ch mem_cons_self
      simp [hch]

/-- The content of every permitted request beyond the machine is covered by consents, whatever
the records, exactly when the request is not a policy fetch that names content. -/
theorem content_covered_iff_not_contentOnFetch (c : EgressCrates) (req : EgressRequest) :
    (∀ state permit, Egress.decide c state req = .ok permit → ∀ request,
      Destination.parse c req.url = .ok request → isLoopbackHost request.host = false →
      Covered c state req request) ↔ ¬ ContentOnFetch c req := by
  constructor
  · rintro hall ⟨hpurpose, hclasses, hknown, request, hparse, hremote⟩
    -- the address itself on the allowlist, and no consent at all
    let state : EgressState := ⟨.unconfigured, 0, [], [⟨"a1", .policyFetch, req.url, false⟩]⟩
    have hallowed : Allowlisted c state req request := by
      refine ⟨_, mem_singleton_self _, rfl, hpurpose.symm, ?_⟩
      simp only [coversRequest, hparse]
      exact request.covers_self
    have hok : (Egress.decide c state req).isOk :=
      decide_isOk_iff.mpr ⟨request, hparse, .policyFetch hpurpose hknown hallowed⟩
    obtain ⟨permit, hpermit⟩ := Fallible.exists_of_isOk hok
    have hcovered := hall state permit hpermit request hparse hremote
    obtain ⟨cls, hcls⟩ := exists_mem_of_ne_nil _ hclasses
    obtain ⟨consent, hconsent, -⟩ := hcovered.consented cls hcls
    exact not_mem_nil hconsent
  · intro hfetch state permit hpermit request hparse hremote
    have hok : (Egress.decide c state req).isOk := by rw [hpermit]; rfl
    obtain ⟨request', hparse', hpermits⟩ := decide_isOk_iff.mp hok
    rw [hparse] at hparse'
    cases hparse'
    refine hpermits.covered hremote fun hpurpose => ?_
    by_contra hclasses
    cases hpermits with
    | loopbackJudge _ hhost =>
      rw [hremote] at hhost
      cases hhost
    | policyFetch _ hknown => exact hfetch ⟨hpurpose, hclasses, hknown, request, hparse, hremote⟩
    | personal _ _ hnot => exact hnot hpurpose
    | corporate _ hjudge =>
      rw [hpurpose] at hjudge
      cases hjudge

def fetchState : EgressState :=
  ⟨.corporate, 3, [], [⟨"a1", .policyFetch, "https://gateway.example.test/v1", false⟩]⟩

def fetchWithContent : EgressRequest := { gatewayRequest with purpose := .policyFetch }

/-- Claim text passes as a policy fetch, under the corporate profile and without any consent. -/
theorem fetch_permitted_with_claim_text :
    Egress.decide oneHost fetchState fetchWithContent =
        .ok ⟨.policyFetch, "https://gateway.example.test:443/v1", none⟩ ∧
      Destination.parse oneHost fetchWithContent.url =
        .ok ⟨"https", "gateway.example.test", 443, "/v1"⟩ ∧
      isLoopbackHost "gateway.example.test" = false ∧
      .claimText ∈ fetchWithContent.classes.toList ∧ fetchState.consents = [] := by
  decide +kernel

end Fornax.Egress
