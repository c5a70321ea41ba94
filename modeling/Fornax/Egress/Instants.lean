import Fornax.Egress.Interleaving

namespace Fornax.Egress

open List

variable {c : EgressStoreCrates}

/-- A grant inserts its row after the generation it read has ended. -/
def LateGrant (s : EgressSystem) : EgressStatement → Prop
  | .insertGrant call _ _ =>
    ∃ g, s.grants[call]? = some g ∧ g.state.generation ≠ s.tables.generation
  | _ => False

/-- A consent usable for the request is revoked, or its generation ends. -/
def EndsConsent (c : EgressStoreCrates) (req : EgressRequest) (s : EgressSystem)
    (statement : EgressStatement) : Prop :=
  ∃ request, Destination.parse c.toEgressCrates req.url = .ok request ∧ ∃ k ∈ s.tables.consents,
      k.usable c.toEgressCrates s.tables.egressState req request = true ∧
      ¬ (k ∈ (systemStep c s statement).tables.consents ∧
        k.usable c.toEgressCrates (systemStep c s statement).tables.egressState req request = true)

def AddsEntry (c : EgressStoreCrates) (req : EgressRequest) (s : EgressSystem)
    (statement : EgressStatement) : Prop :=
  ∃ request, Destination.parse c.toEgressCrates req.url = .ok request ∧
    ∃ e ∈ (systemStep c s statement).tables.allowlist, e ∉ s.tables.allowlist ∧
      e.removed = false ∧ e.purpose = req.purpose ∧
      coversRequest c.toEgressCrates e.destination request = true

/-- Between the queries of the call no consent is inserted for a generation that has ended, and
no entry for the request is added after a consent for it has ended. -/
structure DecisionCall.Undisturbed (c : EgressStoreCrates) (req : EgressRequest)
    (d : DecisionCall) : Prop where
  no_late_grant : Runs.Along (systemStep c) (fun s a => ¬ LateGrant s a) d.start d.toConsents
  no_late_entry : ∀ before ending between adding after,
    d.toConsents ++ d.toAllowlist = before ++ ending :: (between ++ adding :: after) →
    EndsConsent c req (systemRun c d.start before) ending →
    ¬ AddsEntry c req (systemRun c d.start (before ++ ending :: between)) adding

theorem usable_eq_of_generation {c : EgressCrates} {state state' : EgressState}
    (h : state'.generation = state.generation) (req : EgressRequest) (request : Destination)
    (k : Consent) : k.usable c state' req request = k.usable c state req request := by
  rw [Consent.usable, Consent.usable, Consent.live, Consent.live, h]

theorem generation_of_usable {c : EgressCrates} {state : EgressState} {req : EgressRequest}
    {request : Destination} {k : Consent} (h : k.usable c state req request) :
    k.profileGeneration = state.generation ∧ k.revokedAt = none := by
  simp only [Consent.usable, Consent.live, Bool.and_eq_true, beq_iff_eq,
    Option.isNone_iff_eq_none] at h
  exact ⟨h.2.1.1.2, h.2.1.1.1⟩

variable {s s' : EgressSystem} {a : EgressStatement}

theorem Effect.allowlist_or (h : Effect c s a s') : s'.tables.allowlist = s.tables.allowlist ∨
      s'.tables.consents = s.tables.consents ∧ s'.tables.generation = s.tables.generation := by
  cases h with
  | allowlist allowlist => exact .inr ⟨rfl, rfl⟩
  | _ => exact .inl rfl

theorem Effect.rows_back (h : Effect c s a s') {k : Consent} (hk : k ∈ s'.tables.consents) :
    (∃ k₀ ∈ s.tables.consents, Held k₀ k) ∨ s'.tables.generation = s.tables.generation ∧
      (k.profileGeneration ≠ s.tables.generation → LateGrant s a) := by
  cases h with
  | profile _ _ f hheld | revoke f hheld =>
    obtain ⟨k₀, hk₀, rfl⟩ := mem_map.mp hk
    exact .inl ⟨k₀, hk₀, hheld k₀⟩
  | insert call g id now hcall hid =>
    rcases mem_append.mp hk with hold | hlast
    · exact .inl ⟨k, hold, Held.refl k⟩
    · rw [mem_singleton.mp hlast]
      exact .inr ⟨rfl, fun hstamp => ⟨g, hcall, hstamp⟩⟩
  | _ => exact .inl ⟨k, hk, Held.refl k⟩

def NoneLate (s s' : EgressSystem) : Prop :=
  ∀ k ∈ s'.tables.consents, k.profileGeneration < s.tables.generation →
    ∃ k₀ ∈ s.tables.consents, Held k₀ k

theorem Effect.noneLate (h : Effect c s a s') (hlate : ¬ LateGrant s a) : NoneLate s s' :=
  fun _ hk hstamp => (h.rows_back hk).resolve_right fun hnew => hlate (hnew.2 hstamp.ne)

theorem noneLate_run {statements : List EgressStatement}
    (h : Runs.Along (systemStep c) (fun s a => ¬ LateGrant s a) s statements) :
    NoneLate s (systemRun c s statements) := by
  have hboth : NoneLate s (systemRun c s statements) ∧
      s.tables.generation ≤ (systemRun c s statements).tables.generation := by
    refine Runs.run_invariant (P := fun t => NoneLate s t ∧ s.tables.generation ≤
      t.tables.generation) ⟨fun k hk _ => ⟨k, hk, Held.refl k⟩, le_rfl⟩ ?_ h
    rintro t a ⟨hold, hle⟩ hlate
    have heffect := systemStep_effect (c := c) t a
    refine ⟨?_, hle.trans heffect.later.generation⟩
    intro k hk hstamp
    obtain ⟨k₁, hk₁, hheld₁⟩ := heffect.noneLate hlate k hk (hstamp.trans_le hle)
    rw [hheld₁.generation_eq] at hstamp
    obtain ⟨k₀, hk₀, hheld₀⟩ := hold k₁ hk₁ hstamp
    exact ⟨k₀, hk₀, hheld₀.trans hheld₁⟩
  exact hboth.1

section Instant

variable {d : DecisionCall} {req : EgressRequest} {request : Destination} {k : Consent}

theorem DecisionCall.Undisturbed.allowlisted_before (hquiet : d.Undisturbed c req)
    (hparse : Destination.parse c.toEgressCrates req.url = .ok request)
    {before after : List EgressStatement} {ending : EgressStatement}
    (hsplit : d.toConsents ++ d.toAllowlist = before ++ ending :: after)
    (husable : k.usable c.toEgressCrates (systemRun c d.start before).tables.egressState req
      request) (hmem : k ∈ (systemRun c d.start before).tables.consents)
    (hends : ¬ (k ∈ (systemStep c (systemRun c d.start before) ending).tables.consents ∧
      (systemStep c (systemRun c d.start before) ending).tables.generation =
        (systemRun c d.start before).tables.generation))
    (hallowed : Allowlisted c.toEgressCrates (d.allowlistRead c).tables.egressState req request) :
    Allowlisted c.toEgressCrates (systemRun c d.start before).tables.egressState req request := by
  obtain ⟨e, he, hlive, hpurpose, hcovers⟩ := hallowed
  refine ⟨e, ?_, hlive, hpurpose, hcovers⟩
  have hend : EndsConsent c req (systemRun c d.start before) ending := by
    refine ⟨request, hparse, k, hmem, husable, fun ⟨hstays, hstill⟩ => hends ⟨hstays, ?_⟩⟩
    exact (generation_of_usable hstill).1.symm.trans (generation_of_usable husable).1
  -- the entry is not added after the end
  have hstep : e ∈ (systemStep c (systemRun c d.start before) ending).tables.allowlist := by
    by_contra habsent
    have hlast : systemRun c (systemStep c (systemRun c d.start before) ending) after =
        d.allowlistRead c := by
      rw [DecisionCall.allowlistRead, DecisionCall.consentsRead, ← systemRun_append, hsplit,
        systemRun_concat]
    have hthere : ¬ e ∉ (systemRun c (systemStep c (systemRun c d.start before) ending)
        after).tables.allowlist := by
      rw [hlast, not_not]
      exact he
    obtain ⟨between, adding, rest, hsplit', hout, hin⟩ := exists_leaving_statement
      (P := fun s => e ∉ s.tables.allowlist) _ after habsent hthere
    rw [not_not] at hin
    rw [← systemRun_concat] at hout hin
    refine hquiet.no_late_entry before ending between adding rest ?_ hend
      ⟨request, hparse, e, hin, hout, hlive, hpurpose, hcovers⟩
    rw [hsplit, hsplit']
  rcases (systemStep_effect (c := c) (systemRun c d.start before) ending).allowlist_or with
    hsame | ⟨hconsents, hgeneration⟩
  · rwa [hsame] at hstep
  · refine absurd ⟨?_, hgeneration⟩ hends
    rw [hconsents]
    exact hmem

theorem DecisionCall.Undisturbed.exists_instant (hquiet : d.Undisturbed c req)
    (hparse : Destination.parse c.toEgressCrates req.url = .ok request)
    (hmem : k ∈ (d.consentsRead c).tables.consents)
    (husable : k.usable c.toEgressCrates d.start.tables.egressState req request)
    (hallowed : Allowlisted c.toEgressCrates (d.allowlistRead c).tables.egressState req request) :
    ∃ l l', d.toConsents ++ d.toAllowlist = l ++ l' ∧
      (systemRun c d.start l).tables.generation = d.start.tables.generation ∧
      k ∈ (systemRun c d.start l).tables.consents ∧
      Allowlisted c.toEgressCrates (systemRun c d.start l).tables.egressState req request := by
  obtain ⟨hstamp, hlive⟩ := generation_of_usable husable
  -- an instant at which the consent is stored, in the generation the call has read
  obtain ⟨l, l', hwhole, hgeneration, hk⟩ : ∃ l l', d.toConsents ++ d.toAllowlist = l ++ l' ∧
      (systemRun c d.start l).tables.generation = d.start.tables.generation ∧
      k ∈ (systemRun c d.start l).tables.consents := by
    by_cases hread : (d.consentsRead c).tables.generation = d.start.tables.generation
    · exact ⟨_, _, rfl, hread, hmem⟩
    -- the generation ends before the consents are read, and none is inserted late
    obtain ⟨before, ending, after, hsplit, hgeneration, hends⟩ := exists_leaving_statement
      (P := fun s => s.tables.generation = d.start.tables.generation) _ d.toConsents rfl hread
    have heffect := systemStep_effect (c := c) (systemRun c d.start before) ending
    have hnew : d.start.tables.generation <
        (systemStep c (systemRun c d.start before) ending).tables.generation := by
      have hle := heffect.later.generation
      rw [hgeneration] at hle
      exact lt_of_le_of_ne hle (Ne.symm hends)
    have hrest : Runs.Along (systemStep c) (fun s a => ¬ LateGrant s a)
        (systemStep c (systemRun c d.start before) ending) after := by
      have hall := hquiet.no_late_grant
      rw [hsplit, append_cons] at hall
      have hright := hall.append_right
      rwa [Runs.run_append] at hright
    have hlate := noneLate_run hrest
    rw [← systemRun_concat, ← hsplit, ← DecisionCall.consentsRead] at hlate
    obtain ⟨k₁, hk₁, hheld₁⟩ := hlate k hmem (hstamp.trans_lt hnew)
    obtain rfl := hheld₁.eq_of_live hlive
    obtain ⟨k₀, hk₀, hheld₀⟩ := (heffect.rows_back hk₁).resolve_right fun hsame =>
      hends (hsame.1.trans hgeneration)
    obtain rfl := hheld₀.eq_of_live hlive
    refine ⟨before, ending :: (after ++ d.toAllowlist), ?_, hgeneration, hk₀⟩
    rw [hsplit, append_assoc, cons_append]
  have hend : systemRun c (systemRun c d.start l) l' = d.allowlistRead c := by
    rw [← systemRun_append, ← hwhole, systemRun_append]
    rfl
  by_cases hlast : k ∈ (d.allowlistRead c).tables.consents ∧
      (d.allowlistRead c).tables.generation = d.start.tables.generation
  · refine ⟨l ++ l', [], hwhole.trans (append_nil _).symm, ?_⟩
    rw [systemRun_append, hend]
    exact ⟨hlast.2, hlast.1, hallowed⟩
  · rw [← hend] at hlast
    obtain ⟨before, ending, after, hsplit, ⟨hk, hgeneration⟩, hends⟩ :=
      exists_leaving_statement (P := fun s => k ∈ s.tables.consents ∧
        s.tables.generation = d.start.tables.generation) _ l' ⟨hk, hgeneration⟩ hlast
    rw [← systemRun_append] at hk hgeneration hends
    have hsplit' : d.toConsents ++ d.toAllowlist = l ++ before ++ ending :: after := by
      rw [hwhole, hsplit, append_assoc]
    refine ⟨_, _, hsplit', hgeneration, hk, ?_⟩
    refine hquiet.allowlisted_before hparse hsplit'
      ((usable_eq_of_generation hgeneration req request k).trans husable) hk ?_ hallowed
    rwa [hgeneration]

theorem Permits.stored {p q r : EgressTables} {s : EgressSystem} (hs : Stamped s)
    (h : Permits c.toEgressCrates (assembledState p q r) req request)
    (hprofile : s.tables.profile = p.profile) (hmem : k ∈ s.tables.consents)
    (husable : k.usable c.toEgressCrates s.tables.egressState req request)
    (hallowed : Allowlisted c.toEgressCrates s.tables.egressState req request) :
    Permits c.toEgressCrates s.tables.egressState req request := by
  obtain ⟨found, hfound⟩ := find?_usable_isSome.mpr ⟨k, hmem, husable⟩
  cases h with
  | loopbackJudge hpurpose hhost => exact .loopbackJudge hpurpose hhost
  | policyFetch hpurpose hclasses => exact .policyFetch hpurpose hclasses hallowed
  | personal hpersonal hspool hfetch hclasses hships =>
    exact .personal (hprofile.trans hpersonal) hspool hfetch hclasses hships hallowed found hfound
  | corporate hcorporate hpurpose hclasses =>
    -- whichever consent is found, it was granted under the corporate profile
    have hfoundGeneration := (generation_of_usable (find?_some hfound)).1
    exact .corporate (hprofile.trans hcorporate) hpurpose hclasses hallowed found hfound
      (hs.authorized found (mem_of_find?_eq_some hfound) hfoundGeneration
        (hprofile.trans hcorporate))

end Instant

/-- If an undisturbed decision permits, then at some instant between its queries the stored state
does. -/
theorem permit_holds_at_an_instant (c : EgressStoreCrates) (before : List EgressStatement)
    (d : DecisionCall) (hstart : d.start = systemRun c .fresh before) (req : EgressRequest)
    (hquiet : d.Undisturbed c req) (permit : EgressPermit)
    (hpermit : d.decision c req = .ok permit) :
    ∃ l l', d.toConsents ++ d.toAllowlist = l ++ l' ∧
      (Egress.decide c.toEgressCrates (systemRun c d.start l).tables.egressState
        req).isOk = true := by
  have hok : (d.decision c req).isOk := by
    rw [hpermit]
    rfl
  obtain ⟨request, hparse, hpermits⟩ := decide_isOk_iff.mp hok
  have hconsented : ∀ k, (d.consentsRead c).tables.consents.find?
      (Consent.usable c.toEgressCrates d.start.tables.egressState req request) = some k →
      Allowlisted c.toEgressCrates (d.allowlistRead c).tables.egressState req request →
      ∃ l l', d.toConsents ++ d.toAllowlist = l ++ l' ∧
        (Egress.decide c.toEgressCrates (systemRun c d.start l).tables.egressState
          req).isOk = true := by
    intro k hfind hallowed
    have husable := find?_some hfind
    obtain ⟨l, l', hsplit, hgeneration, hmem, hallowed'⟩ :=
      hquiet.exists_instant hparse (mem_of_find?_eq_some hfind) husable hallowed
    refine ⟨l, l', hsplit, decide_isOk_iff.mpr ⟨request, hparse, ?_⟩⟩
    have hstamped : Stamped (systemRun c d.start l) := by
      rw [hstart, ← systemRun_append]
      exact stamped_run _
    exact hpermits.stored hstamped ((later_run d.start l).profile hgeneration) hmem
      ((usable_eq_of_generation hgeneration req request k).trans husable) hallowed'
  cases hpermits with
  | loopbackJudge hpurpose hhost =>
    exact ⟨[], _, rfl, decide_isOk_iff.mpr ⟨request, hparse, .loopbackJudge hpurpose hhost⟩⟩
  | policyFetch hpurpose hclasses hallowed =>
    refine ⟨_, [], (append_nil _).symm, decide_isOk_iff.mpr ⟨request, hparse, ?_⟩⟩
    rw [systemRun_append]
    exact .policyFetch hpurpose hclasses hallowed
  | personal _ _ _ _ _ hallowed k hfind => exact hconsented k hfind hallowed
  | corporate _ _ _ hallowed k hfind => exact hconsented k hfind hallowed

/-- The consent is revoked between its query and that of the allowlist, and only then is the
gateway put on the allowlist. -/
def revokedThenAllowed : DecisionCall where
  start := systemRun gatewayStore .fresh
    [.setProfile .personal false october, readJudgeGrant, .insertGrant 0 "c1" october]
  toConsents := []
  toAllowlist := [.revoke "c1" october, allowGateway]

/-- A permit that no stored state would have given. -/
theorem permitted_at_no_instant :
    revokedThenAllowed.decision gatewayStore judgeRequest =
        .ok ⟨.semanticJudge, "https://gateway.example.test:443/v1", some "c1"⟩ ∧
      ¬ ∃ l l', revokedThenAllowed.toConsents ++ revokedThenAllowed.toAllowlist = l ++ l' ∧
        (Egress.decide gatewayStore.toEgressCrates
          (systemRun gatewayStore revokedThenAllowed.start l).tables.egressState
          judgeRequest).isOk = true := by
  refine ⟨by decide +kernel, ?_⟩
  rintro ⟨l, l', hsplit, hok⟩
  have hdenied : ∀ l ∈ (revokedThenAllowed.toConsents ++ revokedThenAllowed.toAllowlist).inits,
      (Egress.decide gatewayStore.toEgressCrates
        (systemRun gatewayStore revokedThenAllowed.start l).tables.egressState
        judgeRequest).isOk = false := by decide +kernel
  rw [hdenied l (mem_inits _ _ |>.mpr ⟨l', hsplit.symm⟩)] at hok
  cases hok

example : (DecisionCall.mk (systemRun gatewayStore .fresh
      [.setProfile .personal false october, allowGateway, readJudgeGrant])
      [.setProfile .corporate false october, .insertGrant 0 "c1" october] []).decision gatewayStore
        judgeRequest =
    .ok ⟨.semanticJudge, "https://gateway.example.test:443/v1", some "c1"⟩ := by decide +kernel

def allowedMeanwhile : DecisionCall := { revokedThenAllowed with toAllowlist := [allowGateway] }

theorem permit_holds_at_an_instant_allowedMeanwhile :
    ∃ l l', allowedMeanwhile.toConsents ++ allowedMeanwhile.toAllowlist = l ++ l' ∧
      (Egress.decide gatewayStore.toEgressCrates
        (systemRun gatewayStore allowedMeanwhile.start l).tables.egressState
        judgeRequest).isOk = true := by
  refine permit_holds_at_an_instant gatewayStore _ allowedMeanwhile rfl judgeRequest ⟨?_, ?_⟩
    ⟨.semanticJudge, "https://gateway.example.test:443/v1", some "c1"⟩ (by decide +kernel)
  · exact Runs.along_nil _ _
  · intro before ending between adding after hsplit
    have hlength := congrArg length hsplit
    simp [allowedMeanwhile, revokedThenAllowed] at hlength
    omega

end Fornax.Egress
