import Fornax.Daemon.Redelivery
import Fornax.Daemon.Turnstile
import Fornax.Store.Erasure

namespace Fornax.Daemon

open List OrdMap Runs

inductive VerifyStage
  | checking
  | reading (incomplete : Bool)
  | judging (incomplete : Bool) (admitted : List EvidenceRow) (left : List Verifier)

structure Verification where
  claim : StoredClaim
  caps : RuntimeCapabilities
  stage : VerifyStage

def verifyStep (c : DaemonCrates) (a : Attempt) (pending : PendingHandoff) (store : DaemonStore)
    (v : Verification) : Option Verification × DaemonStore :=
  match v.stage with
  | .checking =>
    (some { v with stage := .reading (evidenceMayBeIncompleteFor pending v.claim.sessionId) },
      store)
  | .reading incomplete =>
    if a.fails .admittedEvidence then (none, store)
    else
      let read := c.admittedEvidenceForSession store.tables v.claim.sessionId
      (some { v with stage := .judging incomplete read.admitted (applicableVerifiers c v.claim) },
        recordRejections a v.claim read store)
  | .judging _ _ [] => (none, store)
  | .judging incomplete admitted (verifier :: left) =>
    match persistFinding a v.claim incomplete v.caps admitted verifier store with
    | (.error _, store) => (none, store)
    | (.ok (), store) => (some { v with stage := .judging incomplete admitted left }, store)

def Verification.persists (a : Attempt) (store : DaemonStore) (v : Verification) : List Finding :=
  match v.stage with
  | .judging incomplete admitted (verifier :: _) =>
    if (persistFinding a v.claim incomplete v.caps admitted verifier store).1.isOk then
      [(judgedFinding a v.claim incomplete v.caps admitted verifier store.consumption).1]
    else []
  | _ => []

def verifyToEnd (c : DaemonCrates) (a : Attempt) (pending : PendingHandoff) :
    ℕ → Option Verification × DaemonStore → Option Verification × DaemonStore
  | 0, state => state
  | _ + 1, (none, store) => (none, store)
  | n + 1, (some v, store) => verifyToEnd c a pending n (verifyStep c a pending store v)

variable (c : DaemonCrates) (a : Attempt) (pending : PendingHandoff)

theorem verifyToEnd_none (n : ℕ)
    (store : DaemonStore) : verifyToEnd c a pending n (none, store) = (none, store) := by
  cases n <;> rfl

section

variable (claim : StoredClaim) (caps : RuntimeCapabilities)

theorem verifyToEnd_judging (incomplete : Bool)
    (admitted : List EvidenceRow) (left : List Verifier) (store : DaemonStore) :
    verifyToEnd c a pending (left.length + 1)
        (some ⟨claim, caps, .judging incomplete admitted left⟩, store) =
      (none, (persistFindings a claim incomplete caps admitted left store).2) := by
  induction left generalizing store with
  | nil => rfl
  | cons verifier left ih =>
    rw [length_cons, verifyToEnd, verifyStep, persistFindings]
    cases hpersist : persistFinding a claim incomplete caps admitted verifier store with
    | mk out store' =>
      cases out with
      | error error =>
        simp only [hpersist]
        exact verifyToEnd_none c a pending _ store'
      | ok =>
        simp only [hpersist]
        exact ih store'

theorem verifyToEnd_eq (store : DaemonStore) :
    verifyToEnd c a pending ((applicableVerifiers c claim).length + 3)
        (some ⟨claim, caps, .checking⟩, store) = (none, (runVerifiersAndPersistFindings c a claim
        (evidenceMayBeIncompleteFor pending claim.sessionId) caps store).2) := by
  rw [verifyToEnd, verifyStep, verifyToEnd, verifyStep, runVerifiersAndPersistFindings]
  by_cases hfails : a.fails .admittedEvidence = true
  · simp only [if_pos hfails]
    exact verifyToEnd_none c a pending _ store
  · simp only [if_neg hfails]
    exact verifyToEnd_judging c a pending claim caps _ _ _ _

end

inductive Job
  /-- Parsed, and waiting for the lock. -/
  | waiting (message : IngestMessage)
  | verifying (v : Verification)

def Job.verification? : Job → Option Verification
  | .waiting _ => none
  | .verifying v => some v

structure AppState where
  turnstile : Turnstile
  /-- By the index of the connection's task; a connection without an entry reads. -/
  jobs : OrdMap ℕ Job
  /-- The task that holds the lock. -/
  processing : Option ℕ
  /-- Verifications for requests to the local interface. -/
  calls : OrdMap ℕ Verification
  store : DaemonStore

def AppState.fresh (store : DaemonStore) : AppState :=
  ⟨.fresh, empty, none, empty, store⟩

inductive AppStep
  | accept
  | turn (index : ℕ) (move : TaskMove)
  /-- A well-formed line is read. -/
  | read (index : ℕ) (message : IngestMessage)
  /-- The lock is taken for the line that was read. -/
  | handle (index : ℕ) (a : Attempt)
  /-- The next call of a line's verification. -/
  | verify (index : ℕ) (a : Attempt)
  /-- A request to verify a stored claim again. -/
  | request (call : ℕ) (claimKey : String)
  | verifyCall (call : ℕ) (a : Attempt)

section Step

variable (c : DaemonCrates) (s : AppState)

def turnOf (index : ℕ) (move : TaskMove) : AppState :=
  let turned := { s with turnstile := turnStep s.turnstile (.task index move) }
  match move with
  | .line _ => s
  | .finish | .handOff => if s.jobs.contains index then s else turned
  | .panic =>
    { turned with
      jobs := s.jobs.erase index
      processing := if s.processing = some index then none else s.processing }
  | _ => turned

def readLine (index : ℕ) (message : IngestMessage) : AppState :=
  match s.jobs.get? index, s.turnstile.tasks[index]? with
  | none, some t =>
    if (advance s.turnstile.shared t (.line message.named)).isSome then
      { s with jobs := s.jobs.insert index (.waiting message) }
    else s
  | _, _ => s

/-- `handle_message` up to the verification of a new claim. -/
def takeUp (a : Attempt) (index : ℕ) (hint : Option String) (message : IngestMessage) : AppState :=
  let s := { s with turnstile := turnStep s.turnstile (.task index (.line message.named)) }
  match message with
  | .claim claim =>
    match storeClaim c a claim s.store with
    | .ok (true, store) =>
      { s with
        store
        jobs := s.jobs.insert index
          (.verifying ⟨redactClaim c claim, capsOf store claim.sessionId, .checking⟩)
        processing := some index }
    | .ok (false, store) => { s with store, jobs := s.jobs.erase index }
    | .error _ => { s with jobs := s.jobs.erase index }
  | message =>
    { s with
      store := (handleMessage c a (fun _ => false) hint message s.store).2
      jobs := s.jobs.erase index }

def upNext (index : ℕ) : Option (ConnectionTask × IngestMessage) :=
  match s.processing, s.jobs.get? index, s.turnstile.tasks[index]? with
  | none, some (.waiting message), some t =>
    if (advance s.turnstile.shared t (.line message.named)).isSome then some (t, message) else none
  | _, _, _ => none

def appStep : AppStep → AppState
  | .accept => { s with turnstile := turnStep s.turnstile .accept }
  | .turn index move => turnOf s index move
  | .read index message => readLine s index message
  | .handle index a =>
    match upNext s index with
    | none => s
    | some (t, message) => takeUp c s a index t.sessionHint message
  | .verify index a =>
    match s.jobs.get? index with
    | some (.verifying v) =>
      match verifyStep c a s.turnstile.shared.pending s.store v with
      | (none, store) => { s with store, jobs := s.jobs.erase index, processing := none }
      | (some v, store) => { s with store, jobs := s.jobs.insert index (.verifying v) }
    | _ => s
  | .request call claimKey =>
    match s.calls.get? call, s.store.tables.claims.get? claimKey with
    | none, some claim =>
      { s with
        calls := s.calls.insert call ⟨claim, capsOf s.store claim.sessionId, .checking⟩ }
    | _, _ => s
  | .verifyCall call a =>
    match s.calls.get? call with
    | some v =>
      match verifyStep c a s.turnstile.shared.pending s.store v with
      | (none, store) => { s with store, calls := s.calls.erase call }
      | (some v, store) => { s with store, calls := s.calls.insert call v }
    | none => s

def persistedBy : AppStep → List (String × Finding)
  | .verify index a =>
    match s.jobs.get? index with
    | some (.verifying v) => (v.persists a s.store).map fun f => (v.claim.sessionId, f)
    | _ => []
  | .verifyCall call a =>
    match s.calls.get? call with
    | some v => (v.persists a s.store).map fun f => (v.claim.sessionId, f)
    | none => []
  | _ => []

def deliveredBy : AppStep → List (ℕ × String)
  | .handle index _ =>
    match upNext s index with
    | some (_, .event e) => [(index, e.sessionId)]
    | some (_, .evidence ev) => [(index, ev.sessionId)]
    | _ => []
  | _ => []

def AppState.HandedOff (index : ℕ) (token : HandoffToken) : Prop :=
  ∃ t, s.turnstile.tasks[index]? = some t ∧ t.phase.guard = some token

def Verification.trusts (v : Verification) : Bool :=
  match v.stage with
  | .checking => false
  | .reading incomplete | .judging incomplete _ _ => !incomplete

def AppState.underway : List Verification :=
  s.jobs.values.filterMap Job.verification? ++ s.calls.values

def Foretold : AppStep → Bool
  | .handle index _ =>
    match upNext s index with
    | some (t, message) =>
      match t.phase.guard, message with
      | some (.session sid), .event e => e.sessionId == sid
      | some (.session sid), .evidence ev => ev.sessionId == sid
      | _, _ => true
    | none => true
  | _ => true

/-- No connection is handed off under a session, or under none, while a verification for that
session is between its look at the registry and its last finding. -/
def Undisturbed : AppStep → Bool
  | .turn index .handOff =>
    match s.turnstile.tasks[index]? with
    | some t =>
      s.jobs.contains index || t.phase != .draining ||
        s.underway.all fun v => !v.trusts || t.sessionHint.any fun sid => sid != v.claim.sessionId
    | none => true
  | _ => true

end Step

def appRun (c : DaemonCrates) (store : DaemonStore) (steps : List AppStep) : AppState :=
  run (appStep c) (.fresh store) steps

variable {c : DaemonCrates} {a : Attempt} {s : AppState}
  {v : Verification}

theorem mem_underway : v ∈ s.underway ↔
    (∃ index, s.jobs.get? index = some (.verifying v)) ∨ ∃ call, s.calls.get? call = some v := by
  rw [AppState.underway, mem_append, mem_filterMap, mem_values]
  refine or_congr ⟨?_, ?_⟩ Iff.rfl
  · rintro ⟨job, hjob, hv⟩
    obtain ⟨index, hindex⟩ := mem_values.mp hjob
    cases job with
    | waiting => cases hv
    | verifying w =>
      cases hv
      exact ⟨index, hindex⟩
  · rintro ⟨index, hindex⟩
    exact ⟨_, mem_values.mpr ⟨index, hindex⟩, rfl⟩

theorem trusts_of_verifyStep {pending : PendingHandoff} {store store' : DaemonStore}
    {v' : Verification} (h : verifyStep c a pending store v = (some v', store'))
    (htrusts : v'.trusts) : v'.claim = v.claim ∧
      (v.trusts ∨ evidenceMayBeIncompleteFor pending v.claim.sessionId = false) := by
  obtain ⟨claim, caps, stage⟩ := v
  cases stage with
  | checking =>
    cases h
    refine ⟨rfl, .inr ?_⟩
    simpa [Verification.trusts] using htrusts
  | reading incomplete =>
    simp only [verifyStep] at h
    split at h
    · cases h
    · cases h
      exact ⟨rfl, .inl htrusts⟩
  | judging incomplete admitted left =>
    cases left with
    | nil => cases h
    | cons verifier left =>
      simp only [verifyStep] at h
      split at h
      · cases h
      · cases h
        exact ⟨rfl, .inl htrusts⟩

variable {step : AppStep} {f : Finding} {sid : String}

theorem guardReplay_definite {claim : StoredClaim} {name : String} {db : ConsumptionTables}
    (h : Verdict.isDefinite (guardReplay a claim name db f).1.verdict) :
    Verdict.isDefinite f.verdict := by
  unfold guardReplay at h
  split at h
  · rename_i hverified
    rw [hverified]
    rfl
  · exact h

theorem trusts_of_definite {store : DaemonStore} (hf : f ∈ v.persists a store)
    (hdefinite : Verdict.isDefinite f.verdict) : v.trusts := by
  obtain ⟨claim, caps, stage⟩ := v
  cases stage with
  | checking | reading incomplete => cases hf
  | judging incomplete admitted left =>
    cases left with
    | nil => cases hf
    | cons verifier left =>
      simp only [Verification.persists] at hf
      split at hf
      · rw [mem_singleton.mp hf] at hdefinite
        have hbefore := guardReplay_definite hdefinite
        cases incomplete with
        | false => rfl
        | true =>
          -- what is not downgraded was not definite
          unfold downgradeIncomplete at hbefore
          split at hbefore
          · cases hbefore
          · rename_i hnot
            exact absurd (by rw [hbefore]; rfl) hnot
      · cases hf

theorem turnOf_turnstile (s : AppState) (index : ℕ) (move : TaskMove) :
    (turnOf s index move).turnstile = s.turnstile ∨
      (turnOf s index move).turnstile = turnStep s.turnstile (.task index move) ∧
        (move = .handOff → s.jobs.contains index = false) := by
  by_cases hbusy : s.jobs.contains index = true
  · cases move with
    | line named => exact .inl rfl
    | finish | handOff => exact .inl (by simp only [turnOf, if_pos hbusy])
    | _ => exact .inr ⟨rfl, nofun⟩
  · cases move with
    | line named => exact .inl rfl
    | finish | handOff =>
      exact .inr ⟨by simp only [turnOf, if_neg hbusy], fun _ => Bool.eq_false_iff.mpr hbusy⟩
    | _ => exact .inr ⟨rfl, nofun⟩

theorem appStep_turnstile (c : DaemonCrates) (s : AppState) (step : AppStep) :
    (appStep c s step).turnstile = s.turnstile ∨
      ∃ turn, (appStep c s step).turnstile = turnStep s.turnstile turn ∧
        ∀ k, turn = .task k .handOff → step = .turn k .handOff ∧ s.jobs.contains k = false := by
  cases step with
  | accept => exact .inr ⟨.accept, rfl, nofun⟩
  | turn index move =>
    rcases turnOf_turnstile s index move with hsame | ⟨hturn, hidle⟩
    · exact .inl hsame
    · refine .inr ⟨.task index move, hturn, ?_⟩
      intro k hk
      cases hk
      exact ⟨rfl, hidle rfl⟩
  | read index message =>
    simp only [appStep, readLine]
    repeat' split
    all_goals exact .inl rfl
  | handle index a =>
    simp only [appStep]
    split
    · exact .inl rfl
    · rename_i t message _
      refine .inr ⟨.task index (.line message.named), ?_, nofun⟩
      simp only [takeUp]
      repeat' split
      all_goals rfl
  | verify index a | verifyCall index a | request index a =>
    simp only [appStep]
    repeat' split
    all_goals exact .inl rfl

def GoesOn (c : DaemonCrates) (s : AppState) (step : AppStep) (w v : Verification) : Prop :=
  ∃ a store, verifyStep c a s.turnstile.shared.pending s.store w = (some v, store) ∧
    (appStep c s step).turnstile = s.turnstile

theorem appStep_jobs {index : ℕ} (hv : (appStep c s step).jobs.get? index = some (.verifying v))
    (htrusts : v.trusts) : s.jobs.get? index = some (.verifying v) ∨
      ∃ w, s.jobs.get? index = some (.verifying w) ∧ GoesOn c s step w v := by
  unfold GoesOn
  cases step with
  | accept => exact .inl hv
  | turn i move =>
    refine .inl ?_
    simp only [appStep, turnOf] at hv
    repeat' split at hv
    all_goals first | exact hv | exact get?_of_get?_erase hv
  | read i message =>
    refine .inl ?_
    simp only [appStep, readLine] at hv
    repeat' split at hv
    all_goals try exact hv
    obtain ⟨-, hnew⟩ | hold := get?_insert_cases hv
    · cases hnew
    · exact hold
  | handle i a =>
    refine .inl ?_
    simp only [appStep, takeUp] at hv
    repeat' split at hv
    all_goals first | exact hv | exact get?_of_get?_erase hv | skip
    obtain ⟨-, hnew⟩ | hold := get?_insert_cases hv
    · cases hnew
      cases htrusts
    · exact hold
  | verify i a =>
    simp only [appStep] at hv ⊢
    split at hv
    · next w hjob =>
      split at hv
      · exact .inl (get?_of_get?_erase hv)
      · next w' store hstep =>
        obtain ⟨rfl, hnew⟩ | hold := get?_insert_cases hv
        · cases hnew
          exact .inr ⟨w, hjob, a, store, hstep, rfl⟩
        · exact .inl hold
    · exact .inl hv
  | request call key | verifyCall call a =>
    refine .inl ?_
    simp only [appStep] at hv
    repeat' split at hv
    all_goals exact hv

theorem appStep_calls {call : ℕ} (hv : (appStep c s step).calls.get? call = some v)
    (htrusts : v.trusts) :
    s.calls.get? call = some v ∨ ∃ w, s.calls.get? call = some w ∧ GoesOn c s step w v := by
  unfold GoesOn
  cases step with
  | accept => exact .inl hv
  | turn i move | read i message | handle i a | verify i a =>
    refine .inl ?_
    simp only [appStep, turnOf, readLine, takeUp] at hv
    repeat' split at hv
    all_goals exact hv
  | request i key =>
    refine .inl ?_
    simp only [appStep] at hv
    split at hv
    · obtain ⟨-, hnew⟩ | hold := get?_insert_cases hv
      · subst hnew
        cases htrusts
      · exact hold
    · exact hv
  | verifyCall i a =>
    simp only [appStep] at hv ⊢
    split at hv
    · next w hcall =>
      split at hv
      · exact .inl (get?_of_get?_erase hv)
      · next w' store hstep =>
        obtain ⟨rfl, hnew⟩ | hold := get?_insert_cases hv
        · cases hnew
          exact .inr ⟨w, hcall, a, store, hstep, rfl⟩
        · exact .inl hold
    · exact .inl hv

theorem appStep_underway (hv : v ∈ (appStep c s step).underway) (htrusts : v.trusts) :
    (∃ w ∈ s.underway, w.trusts ∧ w.claim = v.claim) ∨
      (evidenceMayBeIncompleteFor s.turnstile.shared.pending v.claim.sessionId = false ∧
        (appStep c s step).turnstile = s.turnstile) := by
  have hcases : v ∈ s.underway ∨ ∃ w ∈ s.underway, GoesOn c s step w v := by
    rcases mem_underway.mp hv with ⟨index, hindex⟩ | ⟨call, hcall⟩
    · exact (appStep_jobs hindex htrusts).imp (fun hold => mem_underway.mpr (.inl ⟨index, hold⟩))
        fun ⟨w, hw, hstep⟩ => ⟨w, mem_underway.mpr (.inl ⟨index, hw⟩), hstep⟩
    · exact (appStep_calls hcall htrusts).imp (fun hold => mem_underway.mpr (.inr ⟨call, hold⟩))
        fun ⟨w, hw, hstep⟩ => ⟨w, mem_underway.mpr (.inr ⟨call, hw⟩), hstep⟩
  rcases hcases with hold | ⟨w, hw, a, store, hstep, hsame⟩
  · exact .inl ⟨v, hold, htrusts, rfl⟩
  · obtain ⟨hclaim, hbefore | hlooked⟩ := trusts_of_verifyStep hstep htrusts
    · exact .inl ⟨w, hw, hbefore, hclaim.symm⟩
    · rw [← hclaim] at hlooked
      exact .inr ⟨hlooked, hsame⟩

/-- No connection is handed off under the session of a verification that trusts the evidence, or
under none. -/
structure Trusted (s : AppState) : Prop where
  orderly : Orderly s.turnstile
  quiet : ∀ {v : Verification} {k : ℕ} {token : HandoffToken}, v ∈ s.underway → v.trusts = true →
    s.HandedOff k token → token ≠ .session v.claim.sessionId ∧ token ≠ .unknown

theorem trusted_fresh (store : DaemonStore) : Trusted (.fresh store) := by
  refine ⟨orderly_fresh, ?_⟩
  intro v k token hv
  rcases mem_underway.mp hv with ⟨index, hindex⟩ | ⟨call, hcall⟩
  · cases hindex
  · cases hcall

theorem quiet_of_complete (h : Orderly s.turnstile)
    (hcomplete : evidenceMayBeIncompleteFor s.turnstile.shared.pending sid = false) {k : ℕ}
    {token : HandoffToken} (hguard : s.HandedOff k token) :
    token ≠ .session sid ∧ token ≠ .unknown := by
  obtain ⟨t, htask, htoken⟩ := hguard
  have hnot : ¬ ∃ token ∈ s.turnstile.tasks.filterMap fun t => t.phase.guard,
      token = .session sid ∨ token = .unknown := by
    rw [← h.tracked.incomplete_iff, hcomplete]
    exact Bool.false_ne_true
  have hmem : token ∈ s.turnstile.tasks.filterMap fun t => t.phase.guard :=
    mem_filterMap.mpr ⟨t, mem_of_getElem? htask, htoken⟩
  exact ⟨fun htok => hnot ⟨token, hmem, .inl htok⟩, fun htok => hnot ⟨token, hmem, .inr htok⟩⟩

theorem undisturbed_handOff {k : ℕ} {t : ConnectionTask}
    (h : Undisturbed s (.turn k .handOff)) (hidle : s.jobs.contains k = false)
    (htask : s.turnstile.tasks[k]? = some t) (hphase : t.phase = .draining) (hv : v ∈ s.underway)
    (htrusts : v.trusts) : ∃ sid, t.sessionHint = some sid ∧ sid ≠ v.claim.sessionId := by
  simp only [Undisturbed, htask, hidle, hphase, Bool.false_or, bne_self_eq_false, all_eq_true] at h
  have hhint := h v hv
  rw [htrusts, Bool.not_true, Bool.false_or] at hhint
  cases hsession : t.sessionHint with
  | none =>
    rw [hsession] at hhint
    cases hhint
  | some sid =>
    rw [hsession] at hhint
    exact ⟨sid, rfl, by simpa using hhint⟩

theorem trusted_step (h : Trusted s) (step : AppStep) (hquiet : Undisturbed s step) :
    Trusted (appStep c s step) := by
  constructor
  · rcases appStep_turnstile c s step with hsame | ⟨turn, hturn, -⟩
    · rw [hsame]
      exact h.orderly
    · rw [hturn]
      exact orderly_step h.orderly turn
  · rintro v k token hv htrusts ⟨t, htask, htoken⟩
    rcases appStep_underway hv htrusts with ⟨w, hw, hwtrusts, hclaim⟩ | ⟨hcomplete, hsame⟩
    · rw [← hclaim]
      rcases appStep_turnstile c s step with hsame | ⟨turn, hturn, hhand⟩
      · rw [hsame] at htask
        exact h.quiet hw hwtrusts ⟨t, htask, htoken⟩
      · rw [hturn] at htask
        rcases guard_of_step htask htoken with ⟨u, hu, huguard⟩ | ⟨hturn', u, hu, hphase, rfl⟩
        · exact h.quiet hw hwtrusts ⟨u, hu, huguard⟩
        · obtain ⟨rfl, hidle⟩ := hhand k hturn'
          obtain ⟨sid, hhint, hne⟩ := undisturbed_handOff hquiet hidle hu hphase hw hwtrusts
          rw [hhint]
          exact ⟨fun hsid => hne (HandoffToken.session.inj hsid), nofun⟩
    · rw [hsame] at htask
      exact quiet_of_complete h.orderly hcomplete ⟨t, htask, htoken⟩

theorem guardsSettled_appRun (c : DaemonCrates) (s : AppState) (steps : List AppStep) :
    GuardsSettled s.turnstile (run (appStep c) s steps).turnstile := by
  refine run_related (R := fun s s' : AppState => GuardsSettled s.turnstile s'.turnstile)
    (fun s => GuardsSettled.refl _) (fun _ _ _ h h' => GuardsSettled.trans h h') ?_ s steps
  intro s step
  rcases appStep_turnstile c s step with hsame | ⟨turn, hturn, -⟩
  · rw [hsame]
    exact GuardsSettled.refl _
  · rw [hturn]
    exact guardsSettled_step s.turnstile turn

theorem underway_of_persisted (hf : (sid, f) ∈ persistedBy s step) :
    ∃ v ∈ s.underway, v.claim.sessionId = sid ∧ ∃ a, f ∈ v.persists a s.store := by
  cases step with
  | verify index a =>
    simp only [persistedBy] at hf
    split at hf
    · rename_i v hjob
      obtain ⟨g, hg, heq⟩ := mem_map.mp hf
      cases heq
      exact ⟨v, mem_underway.mpr (.inl ⟨index, hjob⟩), rfl, a, hg⟩
    · cases hf
  | verifyCall call a =>
    simp only [persistedBy] at hf
    split at hf
    · rename_i v hcall
      obtain ⟨g, hg, heq⟩ := mem_map.mp hf
      cases heq
      exact ⟨v, mem_underway.mpr (.inr ⟨call, hcall⟩), rfl, a, hg⟩
    · cases hf
  | _ => cases hf

theorem TaskPhase.settled_of_guard {phase : TaskPhase} {token : HandoffToken}
    (h : phase.guard = some token) : phase.settled := by
  cases phase <;> first | rfl | cases h

theorem upNext_spec {index : ℕ} {t : ConnectionTask} {message : IngestMessage}
    (h : upNext s index = some (t, message)) : s.turnstile.tasks[index]? = some t ∧
      (t.phase = .draining ∨ ∃ token, t.phase = .handed token) := by
  unfold upNext at h
  split at h
  · rename_i u htask
    split at h
    · rename_i hline
      cases h
      refine ⟨htask, ?_⟩
      cases hphase : t.phase <;> simp [advance, hphase] at hline ⊢
    · cases h
  · cases h

theorem session_of_delivered {k : ℕ} (hforetold : Foretold s step)
    (h : (k, sid) ∈ deliveredBy s step) :
    ∃ t, s.turnstile.tasks[k]? = some t ∧ (t.phase = .draining ∨ ∃ token, t.phase = .handed token) ∧
      ∀ other, t.phase.guard = some (.session other) → other = sid := by
  cases step with
  | handle index a =>
    simp only [deliveredBy] at h
    split at h
    case _ t _ hnext | _ t _ hnext =>
      cases mem_singleton.mp h
      obtain ⟨htask, hphase⟩ := upNext_spec hnext
      refine ⟨t, htask, hphase, ?_⟩
      intro other hguard
      simp only [Foretold, hnext, hguard] at hforetold
      exact (eq_of_beq hforetold).symm
    case _ => cases h
  | _ => cases h

/-- When a definite finding is stored, no connection that is handed off at the time delivers an
event or evidence for the claim's session afterwards. -/
theorem no_definite_verdict_in_transit (c : DaemonCrates) (store : DaemonStore)
    (steps : List AppStep)
    (hforetold : Along (appStep c) (fun s step => Foretold s step = true) (.fresh store) steps)
    (hquiet : Along (appStep c) (fun s step => Undisturbed s step = true) (.fresh store) steps)
    (before : List AppStep) (step : AppStep) (middle : List AppStep) (delivery : AppStep)
    (after : List AppStep) (hsplit : steps = before ++ step :: (middle ++ delivery :: after))
    (sid : String) (f : Finding) (hf : (sid, f) ∈ persistedBy (appRun c store before) step)
    (hdefinite : Verdict.isDefinite f.verdict = true) (k : ℕ) (token : HandoffToken)
    (hhanded : (appRun c store before).HandedOff k token) :
    (k, sid) ∉ deliveredBy (appRun c store (before ++ step :: middle)) delivery := by
  intro hdelivered
  subst hsplit
  have htrusted : Trusted (appRun c store before) :=
    run_invariant (trusted_fresh store) (fun _ step h hstep => trusted_step h step hstep)
      hquiet.append_left
  obtain ⟨v, hv, rfl, a, hpersists⟩ := underway_of_persisted hf
  obtain ⟨hother, hknown⟩ := htrusted.quiet hv (trusts_of_definite hpersists hdefinite) hhanded
  obtain ⟨t, htask, htoken⟩ := hhanded
  -- the connection keeps its guard until it ends
  have hrun : appRun c store (before ++ step :: middle) =
      run (appStep c) (appRun c store before) (step :: middle) := run_append ..
  obtain ⟨u, hu, husettled, husame⟩ := guardsSettled_appRun c (appRun c store before)
    (step :: middle) htask (TaskPhase.settled_of_guard htoken)
  rw [← hrun] at hu
  have hsteps : before ++ step :: (middle ++ delivery :: after) =
      (before ++ step :: middle) ++ delivery :: after := by simp
  have hline : Foretold (appRun c store (before ++ step :: middle)) delivery :=
    hforetold _ delivery after hsteps
  obtain ⟨w, hw, hphase, hsession⟩ := session_of_delivered hline hdelivered
  rw [hu] at hw
  cases hw
  rcases hphase with hphase | ⟨token', hphase⟩
  · rw [hphase] at husettled
    cases husettled
  · have hguard : u.phase.guard = some token' := by rw [hphase]; rfl
    have hsame := husame token' hguard
    rw [htoken] at hsame
    cases hsame
    cases token with
    | session other => exact hother (by rw [hsession other hguard])
    | unknown => exact hknown rfl

def admittingCrates : DaemonCrates :=
  { labCrates with
    admittedEvidenceForSession := fun db sid =>
      ⟨(db.evidence.values.filter fun e => e.sessionId == sid).map fun e =>
        ⟨e.id, e.kind, e.provenance, e.payload, none⟩, []⟩ }

def noFailure : Attempt := labAttempt fun _ => false

def commitEvidence (id : Uuid) (outcome : String) : ObservedEvidence :=
  { id, sourceEventId := 1, kind := .processObservation, observedAt := "2026-01-01T00:00:00Z"
    source := none, sessionId := "session", provenance := "lab", extension := none
    evidencePurged := false
    payload := .object [("observation", .object [("observation_kind", .string "vcs_operation"),
      ("operation", .string "commit"), ("outcome", .string outcome)])] }

def eventFor (id : Uuid) (sid : String) : IngestMessage :=
  .event { labEvent with id, sessionId := sid }

def labCapabilities : AnnouncedCapabilities :=
  ⟨⟨[⟨.toolTrace, .available⟩]⟩, .claudeCode, some "session"⟩

/-- A connection that serves another session is handed off; a second one brings a commit, the claim
of it, and the claim is about to be found verified. -/
def handedOffThenClaimed : List AppStep :=
  [.accept, .turn 0 .subscribe, .turn 0 .check, .read 0 (eventFor 9 "other"), .handle 0 noFailure,
    .turn 0 .handOff, .turn 0 .release, .turn 0 .notify, .accept, .turn 1 .subscribe,
    .turn 1 .check, .read 1 (.capabilities labCapabilities), .handle 1 noFailure,
    .read 1 (eventFor 1 "session"), .handle 1 noFailure,
    .read 1 (.evidence (commitEvidence 4 "created")), .handle 1 noFailure,
    .read 1 (.claim labClaim),
    .handle 1 noFailure, .verify 1 noFailure, .verify 1 noFailure]

def storesFinding : AppStep := .verify 1 noFailure

def takesLine : AppStep := .handle 0 noFailure

def ownSession : List AppStep :=
  [.verify 1 noFailure, .turn 1 .finish, .read 0 (eventFor 10 "other")]

def claimedSession : List AppStep :=
  [.verify 1 noFailure, .read 0 (.evidence (commitEvidence 5 "nothing_to_commit"))]

def staysWithItsSession : List AppStep :=
  handedOffThenClaimed ++ storesFinding :: (ownSession ++ takesLine :: [])

theorem no_definite_verdict_in_transit_staysWithItsSession :
    (0, "session") ∉ deliveredBy (appRun admittingCrates .fresh
      (handedOffThenClaimed ++ storesFinding :: ownSession)) takesLine := by
  have hforetold : checkAlong (appStep admittingCrates) Foretold (.fresh .fresh)
      staysWithItsSession = true := by decide +kernel
  have hquiet : checkAlong (appStep admittingCrates) Undisturbed (.fresh .fresh)
      staysWithItsSession = true := by decide +kernel
  have hfound : (persistedBy (appRun admittingCrates .fresh handedOffThenClaimed)
      storesFinding).any (fun found => found.1 == "session" &&
        Verdict.isDefinite found.2.verdict) = true := by decide +kernel
  have hguard : ((appRun admittingCrates .fresh handedOffThenClaimed).turnstile.tasks[0]?).any
      (fun t => t.phase.guard == some (.session "other")) = true := by decide +kernel
  obtain ⟨⟨sid, f⟩, hf, hsession⟩ := any_eq_true.mp hfound
  obtain ⟨hsid, hdefinite⟩ := Bool.and_eq_true_iff.mp hsession
  obtain ⟨t, htask, htoken⟩ := (Option.any_eq_true ..).mp hguard
  cases eq_of_beq hsid
  exact no_definite_verdict_in_transit admittingCrates .fresh staysWithItsSession
    (along_of_check hforetold) (along_of_check hquiet) handedOffThenClaimed
    storesFinding ownSession takesLine [] rfl "session" f hf hdefinite 0 (.session "other")
    ⟨t, htask, eq_of_beq htoken⟩

theorem verified_before_evidence_arrived :
    (persistedBy (appRun admittingCrates .fresh handedOffThenClaimed) storesFinding).map
        (fun found => (found.1, found.2.verdict)) = [("session", .verified)] ∧
      (appRun admittingCrates .fresh handedOffThenClaimed).turnstile.tasks.map
        (fun t => t.phase) = [.handed (.session "other"), .draining] ∧
      deliveredBy (appRun admittingCrates .fresh
        (handedOffThenClaimed ++ storesFinding :: claimedSession)) takesLine =
        [(0, "session")] := by
  refine ⟨?_, ?_, ?_⟩ <;> decide +kernel

theorem verifyStep_tagged (pending : PendingHandoff) {store : DaemonStore}
    (h : store.tables.Tagged) : (verifyStep c a pending store v).2.tables.Tagged := by
  obtain ⟨claim, caps, stage⟩ := v
  rcases stage with - | incomplete | ⟨incomplete, admitted, - | ⟨verifier, left⟩⟩
  · exact h
  · simp only [verifyStep]
    split <;> exact h
  · exact h
  · have hpersist :
        (persistFinding a claim incomplete caps admitted verifier store).2.tables.Tagged := by
      simp only [persistFinding]
      repeat' split
      · exact h
      · exact h
      · exact insertFinding_tagged h ‹_›
    simp only [verifyStep]
    split <;> rename_i hout <;> rwa [hout] at hpersist

theorem takeUp_tagged {index : ℕ} {hint : Option String} {message : IngestMessage}
    (h : s.store.tables.Tagged) : (takeUp c s a index hint message).store.tables.Tagged := by
  cases message with
  | capabilities caps =>
    simp only [takeUp, handleMessage, handleCapabilities]
    repeat' split
    all_goals exact h
  | event e =>
    simp only [takeUp, handleMessage, handleEvent]
    repeat' split
    · exact h
    · exact h
    · rename_i hinsert
      exact insertEvent_tagged h hinsert
  | evidence ev =>
    simp only [takeUp, handleMessage, handleEvidence]
    repeat' split
    · exact h
    · exact h
    · rename_i hinsert
      exact insertEvidence_tagged h hinsert
  | policyEnvelope => exact h
  | claim claim =>
    simp only [takeUp, storeClaim]
    by_cases hfails : a.fails .insertClaim = true
    · simpa only [if_pos hfails] using h
    · simp only [if_neg hfails]
      cases hinsert : insertClaim s.store.tables (redactClaim c claim)
          (some (claimMatchesCompletion (redactClaim c claim))) (a.clock .insertClaim) with
      | error error => exact h
      | ok out =>
        obtain ⟨_ | _, tables⟩ := out <;> exact insertClaim_tagged h hinsert

theorem appStep_tagged (s : AppState) (step : AppStep) (h : s.store.tables.Tagged) :
    (appStep c s step).store.tables.Tagged := by
  cases step with
  | accept => exact h
  | turn i move | read i message | request i key =>
    simp only [appStep, turnOf, readLine]
    repeat' split
    all_goals exact h
  | handle index a =>
    simp only [appStep]
    split
    · exact h
    · exact takeUp_tagged h
  | verify i a | verifyCall i a =>
    simp only [appStep]
    split
    · rename_i v _
      have hverify := verifyStep_tagged (c := c) (a := a) (v := v) s.turnstile.shared.pending h
      split <;> rename_i hout <;> rwa [hout] at hverify
    · exact h

/-- However connections and requests interleave and wherever a call fails, every row has its tag,
and a tenant can be erased exactly if no row refers to one of its rows. -/
theorem appRun_erasure (c : DaemonCrates) (steps : List AppStep) (tenant : String) :
    let db := (appRun c .fresh steps).store.tables
    db.Tagged ∧
      ((∃ out, deleteRecordsForTenant db tenant = .ok out) ↔ db.Unreferenced tenant) := by
  intro db
  have htagged : db.Tagged :=
    run_always (P := fun s : AppState => s.store.tables.Tagged) fresh_tagged appStep_tagged steps
  exact ⟨htagged, deleteRecordsForTenant_ok_iff htagged tenant⟩

end Fornax.Daemon
