import Fornax.Egress.Consents
import Fornax.Egress.Store
import Fornax.Lib.Runs

namespace Fornax.Egress

open List

def EgressTables.generation (db : EgressTables) : ℤ := (db.profileRow.getD (.unconfigured, 0)).2

def EgressTables.profile (db : EgressTables) : Profile := (db.profileRow.getD (.unconfigured, 0)).1

inductive GrantOutcome
  | waiting
  | refused
  | inserted (id : String)
  deriving DecidableEq, Repr

/-- A grant call past its checks: the state it read, what it will insert, and what became of it. -/
structure GrantCall where
  state : EgressState
  purpose : Purpose
  canonical : String
  classes : OrdSet EgressContentClass
  expiresInDays : ℤ
  authorizationRef : Option String
  outcome : GrantOutcome

structure EgressSystem where
  tables : EgressTables
  grants : List GrantCall

def EgressSystem.fresh : EgressSystem := ⟨EgressTables.fresh, []⟩

inductive EgressStatement
  | setProfile (profile : Profile) (confirmLeaveCorporate : Bool) (now : Instant)
  | readGrant (purpose : Purpose) (destination : String) (classes : OrdSet EgressContentClass)
      (expiresInDays : ℤ) (authorizationRef : Option String)
  | insertGrant (call : ℕ) (id : String) (now : Instant)
  | revoke (id : String) (now : Instant)
  | allow (purpose : Purpose) (destination id : String)
  | disallow (id : String)

variable (c : EgressStoreCrates)

def GrantCall.row (g : GrantCall) (id : String) (now : Instant) : Consent :=
  grantedConsent c g.state id g.purpose g.canonical g.classes g.expiresInDays g.authorizationRef now

def readGrant (s : EgressSystem) (purpose : Purpose) (destination : String)
    (classes : OrdSet EgressContentClass) (expiresInDays : ℤ) (authorizationRef : Option String) :
    EgressSystem :=
  match checkGrant c s.tables.egressState purpose destination classes expiresInDays
      authorizationRef with
  | .error _ => s
  | .ok canonical => { s with grants := s.grants ++ [⟨s.tables.egressState, purpose, canonical,
      classes, expiresInDays, authorizationRef, .waiting⟩] }

def insertGrant (s : EgressSystem) (call : ℕ) (id : String) (now : Instant) : EgressSystem :=
  match s.grants[call]? with
  | none => s
  | some g =>
    if g.outcome = .waiting then
      match insertConsent s.tables (g.row c id now) with
      | .error _ => { s with grants := s.grants.set call { g with outcome := .refused } }
      | .ok tables => ⟨tables, s.grants.set call { g with outcome := .inserted id }⟩
    else s

def systemStep (s : EgressSystem) : EgressStatement → EgressSystem
  | .setProfile profile confirm now =>
    { s with tables := (setEgressProfile c s.tables profile confirm now).toOption.getD s.tables }
  | .readGrant purpose destination classes days authorizationRef =>
    readGrant c s purpose destination classes days authorizationRef
  | .insertGrant call id now => insertGrant c s call id now
  | .revoke id now => { s with tables := (revokeEgressConsent c s.tables id now).2 }
  | .allow purpose destination id =>
    { s with tables :=
      (addEgressAllowlist c s.tables purpose destination id).toOption.getD s.tables }
  | .disallow id => { s with tables := (removeEgressAllowlist s.tables id).2 }

def systemRun (s : EgressSystem) (statements : List EgressStatement) : EgressSystem :=
  Runs.run (systemStep c) s statements

def assembledState (profileRead consentsRead allowlistRead : EgressTables) : EgressState :=
  ⟨profileRead.profile, profileRead.generation, consentsRead.consents, allowlistRead.allowlist⟩

def decideEgress (profileRead consentsRead allowlistRead : EgressTables) (req : EgressRequest) :
    Except EgressDenial EgressPermit :=
  Egress.decide c.toEgressCrates (assembledState profileRead consentsRead allowlistRead) req

def Held (k k' : Consent) : Prop :=
  k' = k ∨ ∃ revokedAt, k' = { k with revokedAt := some revokedAt }

namespace Held

variable {k k' k'' : Consent}

theorem refl (k : Consent) : Held k k := .inl rfl

theorem trans (h : Held k k') (h' : Held k' k'') : Held k k'' := by
  rcases h' with rfl | ⟨revokedAt, rfl⟩
  · exact h
  · rcases h with rfl | ⟨earlier, rfl⟩
    · exact .inr ⟨revokedAt, rfl⟩
    · exact .inr ⟨revokedAt, rfl⟩

theorem id_eq (h : Held k k') : k'.id = k.id := by
  rcases h with rfl | ⟨revokedAt, rfl⟩ <;> rfl

theorem generation_eq (h : Held k k') : k'.profileGeneration = k.profileGeneration := by
  rcases h with rfl | ⟨revokedAt, rfl⟩ <;> rfl

theorem authorized_eq (h : Held k k') : k'.authorized = k.authorized := by
  rcases h with rfl | ⟨revokedAt, rfl⟩ <;> rfl

theorem eq_of_live (h : Held k k') (hlive : k'.revokedAt = none) : k' = k := by
  rcases h with rfl | ⟨revokedAt, rfl⟩
  · rfl
  · cases hlive

end Held

inductive Effect (s : EgressSystem) : EgressStatement → EgressSystem → Prop
  | none {a : EgressStatement} : Effect s a s
  | profile {a : EgressStatement} (profile : Profile) (log : List (String × Profile))
      (f : Consent → Consent) (hheld : ∀ k, Held k (f k)) :
      Effect s a { s with tables := ⟨some (profile, s.tables.generation + 1),
        s.tables.consents.map f, s.tables.allowlist, log⟩ }
  | read {a : EgressStatement} (g : GrantCall) (hstate : g.state = s.tables.egressState)
      (houtcome : g.outcome = .waiting)
      (hcheck : s.tables.profile = .corporate →
        g.authorizationRef.any (fun r => !(Text.trim r.toList).isEmpty) = true) :
      Effect s a { s with grants := s.grants ++ [g] }
  | refuse {a : EgressStatement} (call : ℕ) (g : GrantCall) (hcall : s.grants[call]? = some g) :
      Effect s a { s with grants := s.grants.set call { g with outcome := .refused } }
  | insert (call : ℕ) (g : GrantCall) (id : String) (now : Instant)
      (hcall : s.grants[call]? = some g) (hid : ∀ k ∈ s.tables.consents, k.id ≠ id) :
      Effect s (.insertGrant call id now)
        ⟨{ s.tables with consents := s.tables.consents ++ [g.row c id now] },
          s.grants.set call { g with outcome := .inserted id }⟩
  | revoke {a : EgressStatement} (f : Consent → Consent) (hheld : ∀ k, Held k (f k)) :
      Effect s a { s with tables := { s.tables with consents := s.tables.consents.map f } }
  | allowlist {a : EgressStatement} (allowlist : List AllowlistEntry) :
      Effect s a { s with tables := { s.tables with allowlist := allowlist } }

variable {c}

theorem held_revokeIf (b : Bool) (k : Consent) (at' : String) :
    Held k (if b then { k with revokedAt := some at' } else k) := by
  cases b
  · exact .inl rfl
  · exact .inr ⟨at', rfl⟩

theorem setProfile_effect (s : EgressSystem) (a : EgressStatement) (profile : Profile)
    (confirm : Bool) (now : Instant) : Effect c s a { s with
      tables := (setEgressProfile c s.tables profile confirm now).toOption.getD s.tables } := by
  unfold setEgressProfile
  simp only
  split
  · exact .none
  · exact .profile profile _ _ fun k => held_revokeIf _ k _

theorem authorization_of_checkGrant {state : EgressState} {purpose : Purpose} {destination : String}
    {classes : OrdSet EgressContentClass} {days : ℤ} {authorizationRef : Option String}
    {canonical : String}
    (h : checkGrant c state purpose destination classes days authorizationRef = .ok canonical)
    (hprofile : state.profile = .corporate) :
    authorizationRef.any (fun r => !(Text.trim r.toList).isEmpty) := by
  unfold checkGrant at h
  split at h
  · cases h
  · by_contra hnone
    rw [Bool.not_eq_true] at hnone
    -- the fifth check refuses, unless an earlier one does
    simp only [hprofile, hnone, decide_true, Bool.not_false, Bool.and_true, if_true] at h
    split_ifs at h

theorem readGrant_effect (s : EgressSystem) (a : EgressStatement) (purpose : Purpose)
    (destination : String)
    (classes : OrdSet EgressContentClass) (days : ℤ) (authorizationRef : Option String) :
    Effect c s a (readGrant c s purpose destination classes days authorizationRef) := by
  unfold readGrant
  split
  · exact .none
  · rename_i canonical hcheck
    exact .read _ rfl rfl fun hprofile => authorization_of_checkGrant hcheck hprofile

theorem insertGrant_effect (s : EgressSystem) (call : ℕ) (id : String) (now : Instant) :
    Effect c s (.insertGrant call id now) (insertGrant c s call id now) := by
  unfold insertGrant
  split
  · exact .none
  rename_i g hcall
  split
  · unfold insertConsent
    split
    · exact .refuse call g hcall
    · rename_i tables hinsert
      split at hinsert
      · cases hinsert
      · rename_i hnew
        cases hinsert
        refine .insert call g id now hcall fun k hk hsame => hnew ?_
        exact any_eq_true.mpr ⟨k, hk, by simpa [GrantCall.row, grantedConsent] using hsame⟩
  · exact .none

theorem systemStep_effect (s : EgressSystem) (a : EgressStatement) :
    Effect c s a (systemStep c s a) := by
  cases a with
  | setProfile profile confirm now => exact setProfile_effect s _ profile confirm now
  | readGrant purpose destination classes days authorizationRef =>
    exact readGrant_effect s _ purpose destination classes days authorizationRef
  | insertGrant call id now => exact insertGrant_effect s call id now
  | revoke id now => exact .revoke _ fun k => held_revokeIf _ k _
  | allow purpose destination id =>
    simp only [systemStep, addEgressAllowlist]
    split
    · exact .none
    split
    · exact .none
    split
    · exact .none
    · exact .allowlist _
  | disallow id => exact .allowlist _

/-- Generations only grow, and each stands for one profile; rows are kept but for revocations, and a
grant call keeps what it read. -/
structure Later (s s' : EgressSystem) : Prop where
  generation : s.tables.generation ≤ s'.tables.generation
  profile : s'.tables.generation = s.tables.generation → s'.tables.profile = s.tables.profile
  rows : ∀ k ∈ s.tables.consents, ∃ k' ∈ s'.tables.consents, Held k k'
  calls : ∀ (call : ℕ) (g : GrantCall), s.grants[call]? = some g →
    ∃ g' : GrantCall, s'.grants[call]? = some g' ∧ g'.state = g.state

namespace Later

variable {s s' s'' : EgressSystem}

theorem refl (s : EgressSystem) : Later s s where
  generation := le_rfl
  profile _ := rfl
  rows k hk := ⟨k, hk, Held.refl k⟩
  calls _ g hcall := ⟨g, hcall, rfl⟩

theorem trans (s s' s'' : EgressSystem) (h : Later s s') (h' : Later s' s'') : Later s s'' where
  generation := h.generation.trans h'.generation
  profile := by
    intro hsame
    have hle := h.generation
    have hle' := h'.generation
    have hmid : s'.tables.generation = s.tables.generation := by omega
    rw [h'.profile (hsame.trans hmid.symm), h.profile hmid]
  rows := by
    intro k hk
    obtain ⟨k', hk', hheld⟩ := h.rows k hk
    obtain ⟨k'', hk'', hheld'⟩ := h'.rows k' hk'
    exact ⟨k'', hk'', hheld.trans hheld'⟩
  calls := by
    intro call g hcall
    obtain ⟨g', hcall', hstate⟩ := h.calls call g hcall
    obtain ⟨g'', hcall'', hstate'⟩ := h'.calls call g' hcall'
    exact ⟨g'', hcall'', hstate'.trans hstate⟩

end Later

theorem exists_set_outcome {grants : List GrantCall} {call : ℕ} {g : GrantCall}
    {outcome : GrantOutcome} (hcall : grants[call]? = some g) (i : ℕ) (g' : GrantCall)
    (hi : grants[i]? = some g') :
    ∃ g'', (grants.set call { g with outcome := outcome })[i]? = some g'' ∧
      g''.state = g'.state := by
  by_cases hsame : call = i
  · subst hsame
    rw [hcall] at hi
    cases hi
    have hlt : call < grants.length := (List.getElem?_eq_some_iff.mp hcall).1
    exact ⟨_, getElem?_set_self hlt, rfl⟩
  · exact ⟨g', by rw [getElem?_set_ne hsame, hi], rfl⟩

variable {s s' : EgressSystem} {a : EgressStatement}

theorem Effect.later (h : Effect c s a s') : Later s s' := by
  have hself := Later.refl s
  cases h with
  | none => exact hself
  | profile profile log f hheld =>
    refine ⟨?_, ?_, ?_, hself.calls⟩
    · exact (lt_add_one _).le
    · intro hsame
      exact absurd hsame (lt_add_one s.tables.generation).ne'
    · intro k hk
      exact ⟨f k, mem_map_of_mem hk, hheld k⟩
  | read g =>
    refine ⟨le_rfl, fun _ => rfl, hself.rows, ?_⟩
    intro call g' hcall
    have hlt : call < s.grants.length := (List.getElem?_eq_some_iff.mp hcall).1
    exact ⟨g', by rw [getElem?_append_left hlt, hcall], rfl⟩
  | refuse call g hcall => exact ⟨le_rfl, fun _ => rfl, hself.rows, exists_set_outcome hcall⟩
  | insert call g id now hcall =>
    refine ⟨le_rfl, fun _ => rfl, ?_, exists_set_outcome hcall⟩
    intro k hk
    exact ⟨k, mem_append_left _ hk, Held.refl k⟩
  | revoke f hheld =>
    refine ⟨le_rfl, fun _ => rfl, ?_, hself.calls⟩
    intro k hk
    exact ⟨f k, mem_map_of_mem hk, hheld k⟩
  | allowlist allowlist => exact ⟨le_rfl, fun _ => rfl, hself.rows, hself.calls⟩

theorem later_run (s : EgressSystem) (statements : List EgressStatement) :
    Later s (systemRun c s statements) :=
  Runs.run_related Later.refl Later.trans (fun s a => (systemStep_effect s a).later) s statements

/-- Consents and grant calls are stamped with generations up to the current one; what is stamped
with the current one was checked against the current profile. -/
structure Stamped (s : EgressSystem) : Prop where
  consents : ∀ k ∈ s.tables.consents, k.profileGeneration ≤ s.tables.generation
  authorized : ∀ k ∈ s.tables.consents, k.profileGeneration = s.tables.generation →
    s.tables.profile = .corporate → k.authorized = true
  calls : ∀ g ∈ s.grants, g.state.generation ≤ s.tables.generation
  current : ∀ g ∈ s.grants, g.state.generation = s.tables.generation →
    g.state.profile = s.tables.profile
  checked : ∀ g ∈ s.grants, g.state.profile = .corporate →
    g.authorizationRef.any (fun r => !(Text.trim r.toList).isEmpty) = true

/-- Each inserted row stands under an identifier of its own, with the stamp of its call. -/
structure Filed (s : EgressSystem) : Prop where
  ids : (s.tables.consents.map Consent.id).Nodup
  rows : ∀ g ∈ s.grants, ∀ id, g.outcome = .inserted id →
    ∃ k ∈ s.tables.consents, k.id = id ∧ k.profileGeneration = g.state.generation

theorem stamped_fresh : Stamped EgressSystem.fresh := by
  constructor <;> intro x hx <;> cases hx

theorem filed_fresh : Filed EgressSystem.fresh :=
  ⟨nodup_nil, fun g hg => by cases hg⟩

theorem forall_set_outcome {P : GrantCall → Prop} {grants : List GrantCall} {call : ℕ}
    {g : GrantCall} {outcome : GrantOutcome} (hall : ∀ g ∈ grants, P g)
    (hnew : P { g with outcome := outcome }) :
    ∀ g' ∈ grants.set call { g with outcome := outcome }, P g' := by
  intro g' hg'
  rcases mem_or_eq_of_mem_set hg' with hold | rfl
  · exact hall g' hold
  · exact hnew

theorem Effect.stamped (h : Effect c s a s') (hs : Stamped s) : Stamped s' := by
  cases h with
  | none => exact hs
  | profile profile log f hheld =>
    -- every stamp is now below the generation
    have hnew : ∀ x, x ≤ s.tables.generation → x ≠ s.tables.generation + 1 := by omega
    refine ⟨forall_mem_map.mpr fun k hk => ?_, forall_mem_map.mpr fun k hk hstamp => ?_,
      fun g hg => (hs.calls g hg).trans (lt_add_one _).le,
      fun g hg hstamp => absurd hstamp (hnew _ (hs.calls g hg)), hs.checked⟩
    · rw [(hheld k).generation_eq]
      exact (hs.consents k hk).trans (lt_add_one _).le
    · rw [(hheld k).generation_eq] at hstamp
      exact absurd hstamp (hnew _ (hs.consents k hk))
  | read g hstate houtcome hcheck =>
    refine ⟨hs.consents, hs.authorized,
      forall_mem_append.mpr ⟨hs.calls, forall_mem_singleton.mpr ?_⟩,
      forall_mem_append.mpr ⟨hs.current, forall_mem_singleton.mpr fun _ => ?_⟩,
      forall_mem_append.mpr ⟨hs.checked, forall_mem_singleton.mpr fun hprofile => hcheck ?_⟩⟩
    · rw [hstate]
      exact le_rfl
    · rw [hstate]
      rfl
    · rw [hstate] at hprofile
      exact hprofile
  | refuse call g hcall =>
    have hmem := mem_of_getElem? hcall
    exact ⟨hs.consents, hs.authorized, forall_set_outcome hs.calls (hs.calls g hmem),
      forall_set_outcome hs.current (hs.current g hmem),
      forall_set_outcome hs.checked (hs.checked g hmem)⟩
  | insert call g id now hcall hid =>
    have hmem := mem_of_getElem? hcall
    refine ⟨forall_mem_append.mpr ⟨hs.consents, forall_mem_singleton.mpr (hs.calls g hmem)⟩,
      forall_mem_append.mpr ⟨hs.authorized, forall_mem_singleton.mpr fun hstamp hprofile => ?_⟩,
      forall_set_outcome hs.calls (hs.calls g hmem),
      forall_set_outcome hs.current (hs.current g hmem),
      forall_set_outcome hs.checked (hs.checked g hmem)⟩
    exact hs.checked g hmem ((hs.current g hmem hstamp).trans hprofile)
  | revoke f hheld =>
    refine ⟨forall_mem_map.mpr fun k hk => ?_, forall_mem_map.mpr fun k hk hstamp hprofile => ?_,
      hs.calls, hs.current, hs.checked⟩
    · rw [(hheld k).generation_eq]
      exact hs.consents k hk
    · rw [(hheld k).generation_eq] at hstamp
      rw [(hheld k).authorized_eq]
      exact hs.authorized k hk hstamp hprofile
  | allowlist allowlist => exact ⟨hs.consents, hs.authorized, hs.calls, hs.current, hs.checked⟩

theorem Filed.map_held (hs : Filed s) {f : Consent → Consent} (hheld : ∀ k, Held k (f k))
    (row : Option (Profile × ℤ)) (log : List (String × Profile)) :
    Filed { s with tables := ⟨row, s.tables.consents.map f, s.tables.allowlist, log⟩ } := by
  constructor
  · have hids : (s.tables.consents.map f).map Consent.id = s.tables.consents.map Consent.id := by
      rw [map_map]
      exact map_congr_left fun k _ => (hheld k).id_eq
    rw [hids]
    exact hs.ids
  · intro g hg id houtcome
    obtain ⟨k, hk, hid, hstamp⟩ := hs.rows g hg id houtcome
    exact ⟨f k, mem_map_of_mem hk, (hheld k).id_eq.trans hid, (hheld k).generation_eq.trans hstamp⟩

theorem Effect.filed (h : Effect c s a s') (hs : Filed s) : Filed s' := by
  cases h with
  | none => exact hs
  | profile profile log f hheld => exact hs.map_held hheld _ _
  | read g hstate houtcome =>
    refine ⟨hs.ids, forall_mem_append.mpr ⟨hs.rows, forall_mem_singleton.mpr fun id h => ?_⟩⟩
    cases houtcome.symm.trans h
  | refuse call g hcall =>
    refine ⟨hs.ids, forall_set_outcome hs.rows ?_⟩
    intro id hinserted
    cases hinserted
  | insert call g id now hcall hid =>
    refine ⟨?_, forall_set_outcome ?_ ?_⟩
    · rw [map_append, map_singleton, nodup_append]
      refine ⟨hs.ids, nodup_singleton _, ?_⟩
      intro old hold new hnew
      obtain ⟨k, hk, rfl⟩ := mem_map.mp hold
      rw [mem_singleton.mp hnew]
      exact hid k hk
    · intro g' hg' id' hinserted
      obtain ⟨k, hk, hfacts⟩ := hs.rows g' hg' id' hinserted
      exact ⟨k, mem_append_left _ hk, hfacts⟩
    · intro id' hinserted
      cases hinserted
      exact ⟨_, mem_append_right _ (mem_singleton_self _), rfl, rfl⟩
  | revoke f hheld => exact hs.map_held hheld _ _
  | allowlist allowlist => exact ⟨hs.ids, hs.rows⟩

variable (statements : List EgressStatement)

theorem stamped_run : Stamped (systemRun c .fresh statements) :=
  Runs.run_always stamped_fresh (fun s a => (systemStep_effect s a).stamped) statements

theorem filed_run : Filed (systemRun c .fresh statements) :=
  Runs.run_always filed_fresh (fun s a => (systemStep_effect s a).filed) statements

theorem systemRun_append (s : EgressSystem) (before after : List EgressStatement) :
    systemRun c s (before ++ after) = systemRun c (systemRun c s before) after :=
  Runs.run_append _ s before after

theorem exists_leaving_statement {P : EgressSystem → Prop} (s : EgressSystem)
    (statements : List EgressStatement) (hstart : P s) (hend : ¬ P (systemRun c s statements)) :
    ∃ before ending after, statements = before ++ ending :: after ∧ P (systemRun c s before) ∧
      ¬ P (systemStep c (systemRun c s before) ending) :=
  Runs.exists_leaving_step hstart hend

theorem systemRun_concat (s : EgressSystem) (before after : List EgressStatement)
    (a : EgressStatement) : systemRun c s (before ++ a :: after) =
      systemRun c (systemStep c (systemRun c s before) a) after := by
  rw [systemRun_append]
  rfl

/-- The system at the first query of a `decide_egress` call, and what other calls commit between its
queries. -/
structure DecisionCall where
  start : EgressSystem
  toConsents : List EgressStatement
  toAllowlist : List EgressStatement

namespace DecisionCall

variable (c) in
def consentsRead (d : DecisionCall) : EgressSystem := systemRun c d.start d.toConsents

variable (c) in
def allowlistRead (d : DecisionCall) : EgressSystem := systemRun c (d.consentsRead c) d.toAllowlist

variable (c) in
def decision (d : DecisionCall) (req : EgressRequest) : Except EgressDenial EgressPermit :=
  decideEgress c d.start.tables (d.consentsRead c).tables (d.allowlistRead c).tables req

end DecisionCall

theorem generation_of_setEgressProfile {db db' : EgressTables} {profile : Profile} {confirm : Bool}
    {now : Instant} (h : setEgressProfile c db profile confirm now = .ok db') :
    db'.generation = db.generation + 1 := by
  unfold setEgressProfile at h
  simp only at h
  split at h
  · cases h
  · cases h
    rfl

/-- Once a profile change is committed, no decision whose profile is read after it rests on a
consent whose grant had read the state before it. -/
theorem profile_change_ends_consents (c : EgressStoreCrates)
    (before toProfile : List EgressStatement) (profile : Profile) (confirm : Bool) (now : Instant)
    (hcommit : (setEgressProfile c (systemRun c .fresh before).tables profile confirm
      now).isOk = true)
    (d : DecisionCall)
    (hstart : d.start = systemRun c .fresh (before ++ .setProfile profile confirm now :: toProfile))
    (req : EgressRequest) (permit : EgressPermit) (hpermit : d.decision c req = .ok permit)
    (rest : List EgressStatement) (call : ℕ) (g : GrantCall) (id : String)
    (hread : call < (systemRun c .fresh before).grants.length)
    (hcall : (systemRun c (d.allowlistRead c) rest).grants[call]? = some g)
    (hinserted : g.outcome = .inserted id) :
    permit.consentId ≠ some id := by
  intro hid
  -- the consent behind the permit is stamped with a generation after the change
  obtain ⟨request, -, -, hnamed⟩ := permits_of_decide hpermit
  obtain ⟨k, hk, hkid, husable⟩ := hnamed id hid
  simp only [Consent.usable, Consent.live, Bool.and_eq_true, beq_iff_eq] at husable
  have hstamp : k.profileGeneration = d.start.tables.generation := husable.2.1.1.2
  obtain ⟨db, hdb⟩ := Fallible.exists_of_isOk hcommit
  have hchange : (systemRun c .fresh before).tables.generation < d.start.tables.generation := by
    rw [hstart, systemRun_concat]
    refine lt_of_lt_of_le ?_ (later_run _ toProfile).generation
    simp only [systemStep, hdb]
    change _ < db.generation
    rw [generation_of_setEgressProfile hdb]
    exact lt_add_one _
  -- the call read at a generation before it
  have hend : systemRun c (d.allowlistRead c) rest = systemRun c .fresh (before ++
      .setProfile profile confirm now :: (toProfile ++ d.toConsents ++ d.toAllowlist ++ rest)) := by
    rw [DecisionCall.allowlistRead, DecisionCall.consentsRead, hstart, ← systemRun_append,
      ← systemRun_append, ← systemRun_append]
    simp only [append_assoc, cons_append]
  have hlater : Later (systemRun c .fresh before) (systemRun c (d.allowlistRead c) rest) := by
    rw [hend, systemRun_append]
    exact later_run _ _
  obtain ⟨g', hg', hstate⟩ := hlater.calls call _ (getElem?_eq_getElem hread)
  rw [hcall] at hg'
  cases hg'
  have hgrant : g.state.generation ≤ (systemRun c .fresh before).tables.generation := by
    rw [hstate]
    exact (stamped_run before).calls _ (getElem_mem hread)
  -- and the two rows are one, by their identifier
  have hfiled : Filed (systemRun c (d.allowlistRead c) rest) := by
    rw [hend]
    exact filed_run _
  obtain ⟨row, hrow, hrowid, hrowstamp⟩ := hfiled.rows g (mem_of_getElem? hcall) id hinserted
  have hkept : Later (d.consentsRead c) (systemRun c (d.allowlistRead c) rest) := by
    rw [DecisionCall.allowlistRead, ← systemRun_append]
    exact later_run _ _
  obtain ⟨k', hk', hheld⟩ := hkept.rows k hk
  have hsame : k' = row :=
    inj_on_of_nodup_map hfiled.ids hk' hrow (by rw [hheld.id_eq, hkid, hrowid])
  have hgeneration := hheld.generation_eq
  rw [hsame, hrowstamp, hstamp] at hgeneration
  omega

def october : Instant := 1792800000 * 1000000000

def gatewayStore : EgressStoreCrates where
  parseUrl raw :=
    if raw == "https://gateway.example.test/v1" || raw == "https://gateway.example.test:443/v1" then
      some ⟨"", none, none, none, "https", some "gateway.example.test", some 443, "/v1"⟩
    else none
  rfc3339 text :=
    if text == "2026-10-24T00:00:00+00:00" then some october
    else if text == "2026-11-23T00:00:00+00:00" then some (october + 30 * nanosPerDay)
    else none
  toRfc3339 t :=
    if t = october then "2026-10-24T00:00:00+00:00"
    else if t = october + 30 * nanosPerDay then "2026-11-23T00:00:00+00:00"
    else "1970-01-01T00:00:00+00:00"

def judgeRequest : EgressRequest :=
  ⟨.semanticJudge, "https://gateway.example.test/v1", OrdSet.ofList [.claimText], false,
    "2026-10-24T00:00:00+00:00"⟩

def readJudgeGrant : EgressStatement :=
  .readGrant .semanticJudge "https://gateway.example.test/v1" (OrdSet.ofList [.claimText]) 30 none

def allowGateway : EgressStatement := .allow .semanticJudge "https://gateway.example.test/v1" "a1"

/-- The first grant still has to insert its row when the profile is set again; the second reads
after that. -/
def twoGrants : DecisionCall where
  start := systemRun gatewayStore .fresh
    ([.setProfile .personal false october, allowGateway, readJudgeGrant] ++
      .setProfile .personal false october ::
        [.insertGrant 0 "c1" october, readJudgeGrant, .insertGrant 1 "c2" october])
  toConsents := []
  toAllowlist := []

theorem profile_change_ends_consents_twoGrants :
    twoGrants.decision gatewayStore judgeRequest =
        .ok ⟨.semanticJudge, "https://gateway.example.test:443/v1", some "c2"⟩ ∧
      twoGrants.start.tables.consents.map Consent.id = ["c1", "c2"] ∧ some "c2" ≠ some "c1" := by
  have hpermit : twoGrants.decision gatewayStore judgeRequest =
      .ok ⟨.semanticJudge, "https://gateway.example.test:443/v1", some "c2"⟩ := by decide +kernel
  refine ⟨hpermit, by decide +kernel, ?_⟩
  exact profile_change_ends_consents gatewayStore _ _ _ _ _ (by decide +kernel) twoGrants rfl
    judgeRequest _ hpermit [] 0 _ "c1" (by decide +kernel) rfl rfl

end Fornax.Egress
