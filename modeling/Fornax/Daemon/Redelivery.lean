import Fornax.Daemon.Verification

namespace Fornax.Daemon

open List Runs

/-- A line for `handle_message`, with what the daemon's other state says at the time. -/
structure Delivery where
  attempt : Attempt
  incomplete : String → Bool
  hint : Option String
  message : IngestMessage

variable (c : DaemonCrates)

def deliver (db : DaemonStore) (d : Delivery) : Handled :=
  handleMessage c d.attempt d.incomplete d.hint d.message db

def ingestStep (db : DaemonStore) (d : Delivery) : DaemonStore := (deliver c db d).2

def HasFinding (db : RecordTables) (claimKey name : String) : Prop :=
  ∃ id f, db.findings.get? id = some f ∧ f.claimId.text = claimKey ∧ f.verifierName = name

/-- A delivery that can store the claim reads the evidence and stores each finding without a
failure, under an identifier that no finding has. -/
def Completes (claimKey : String) (db : DaemonStore) (d : Delivery) : Bool :=
  match d.message with
  | .claim claim =>
    if claim.id.text = claimKey ∧ d.attempt.fails .insertClaim = false ∧
        db.tables.claims.contains claimKey = false then
      !d.attempt.fails .admittedEvidence &&
        (verifiers c.text).all fun v => !v.appliesTo claim.subject ||
          (!d.attempt.fails (.insertFinding v.name) &&
            !db.tables.findings.contains (d.attempt.drawn (.insertFinding v.name)).text)
    else true
  | _ => true

structure Kept (db db' : RecordTables) : Prop where
  claims : ∀ {key : String} {claim : StoredClaim},
    db.claims.get? key = some claim → db'.claims.get? key = some claim
  findings : ∀ {id : String} {f : Finding},
    db.findings.get? id = some f → db'.findings.get? id = some f

structure Grown (db db' : RecordTables) : Prop where
  claims : db'.claims = db.claims
  findings : ∀ {id : String} {f : Finding},
    db.findings.get? id = some f → db'.findings.get? id = some f

variable {c} {db db' : RecordTables}

theorem Grown.refl (db : RecordTables) : Grown db db := ⟨rfl, id⟩

theorem Grown.trans {db'' : RecordTables} (h : Grown db db') (h' : Grown db' db'') :
    Grown db db'' :=
  ⟨h'.claims.trans h.claims, fun hf => h'.findings (h.findings hf)⟩

theorem Grown.kept (h : Grown db db') : Kept db db' := ⟨fun hc => by rwa [h.claims], h.findings⟩

theorem Kept.refl (db : RecordTables) : Kept db db := ⟨id, id⟩

theorem Kept.trans {db'' : RecordTables} (h : Kept db db') (h' : Kept db' db'') : Kept db db'' :=
  ⟨fun hc => h'.claims (h.claims hc), fun hf => h'.findings (h.findings hf)⟩

theorem HasFinding.kept {key name : String} (h : HasFinding db key name) (hkept : Kept db db') :
    HasFinding db' key name := by
  obtain ⟨id, f, hf, hclaim, hname⟩ := h
  exact ⟨id, f, hkept.findings hf, hclaim, hname⟩

variable {now : String} {f : Finding}

theorem insertEvent_same {e : AgentEvent} {out : InsertOutcome × RecordTables}
    (h : insertEvent c.records db e now = .ok out) :
    out.2.claims = db.claims ∧ out.2.findings = db.findings := by
  unfold insertEvent at h
  split at h
  · cases h
  split at h
  · split at h
    · cases h
      exact ⟨rfl, rfl⟩
    · cases h
  · cases h
    unfold RecordTables.insertEventAttribution
    split <;> exact ⟨rfl, rfl⟩

theorem insertEvidence_same {ev : ObservedEvidence} {origin : Option String}
    {out : InsertOutcome × RecordTables} (h : insertEvidence c.records db ev origin now = .ok out) :
    out.2.claims = db.claims ∧ out.2.findings = db.findings := by
  unfold insertEvidence at h
  split at h
  · cases h
  split at h
  · split at h
    · cases h
      exact ⟨rfl, rfl⟩
    · cases h
  · split at h
    · cases h
    · cases h
      exact ⟨rfl, rfl⟩

theorem insertFinding_ok (h : insertFinding db f now = .ok db') :
    db.findings.contains f.id.text = false ∧ db'.claims = db.claims ∧
      db'.findings = db.findings.insert f.id.text f := by
  unfold insertFinding at h
  split at h
  · cases h
  · rename_i hfresh
    split at h
    · cases h
    · cases h
      exact ⟨Bool.eq_false_iff.mpr hfresh, rfl, rfl⟩

theorem insertFinding_grown (h : insertFinding db f now = .ok db') : Grown db db' := by
  obtain ⟨hfresh, hclaims, hfindings⟩ := insertFinding_ok h
  refine ⟨hclaims, ?_⟩
  intro id g hg
  rw [hfindings, OrdMap.get?_insert_of_ne _ _ ?_]
  · exact hg
  · rintro rfl
    rw [OrdMap.contains, hg] at hfresh
    cases hfresh

theorem insertFinding_isOk (now : String) {claim : StoredClaim}
    (hfresh : db.findings.contains f.id.text = false)
    (hclaim : db.claims.get? f.claimId.text = some claim) :
    ∃ db', insertFinding db f now = .ok db' := by
  unfold insertFinding
  rw [if_neg (by rw [hfresh]; exact Bool.false_ne_true), hclaim]
  exact ⟨_, rfl⟩

theorem insertClaim_ok {claim : StoredClaim} {check : Option (AgentEvent → Bool)} {isNew : Bool}
    (h : insertClaim db claim check now = .ok (isNew, db')) : (isNew = false ∧ db' = db ∧
      ∃ stored, db.claims.get? claim.id.text = some stored ∧ stored.subject = claim.subject) ∨
    (isNew ∧ db.claims.get? claim.id.text = none ∧ db'.findings = db.findings ∧
      db'.claims = db.claims.insert claim.id.text claim) := by
  unfold insertClaim at h
  split at h
  · cases h
  split at h
  · cases h
  split at h
  · rename_i stored hstored
    split at h
    · rename_i hsame
      cases h
      refine .inl ⟨rfl, rfl, stored, hstored, ?_⟩
      simp only [sameClaim, Bool.and_eq_true, beq_iff_eq] at hsame
      exact hsame.2
    · cases h
  · rename_i hnone
    split at h
    · cases h
    · cases h
      exact .inr ⟨rfl, hnone, rfl, rfl⟩

section Persist

variable {a : Attempt} {claim : StoredClaim} {incomplete : Bool} {caps : RuntimeCapabilities}
  {admitted : List EvidenceRow} {v : Verifier} {store store' : DaemonStore}

section

variable {id claimId : Uuid} {name : String} (h : Stamped f id claimId name)

include h

theorem downgradeIncomplete_stamped :
    Stamped (downgradeIncomplete incomplete f) id claimId name := by
  unfold downgradeIncomplete
  split <;> exact h

theorem guardReplay_stamped (db : ConsumptionTables) :
    Stamped (guardReplay a claim name db f).1 id claimId name := by
  unfold guardReplay
  split <;> exact h

end

theorem judgedFinding_stamped (a : Attempt) (claim : StoredClaim) (incomplete : Bool)
    (caps : RuntimeCapabilities) (admitted : List EvidenceRow) (hv : v ∈ verifiers c.text)
    (consumption : ConsumptionTables) :
    Stamped (judgedFinding a claim incomplete caps admitted v consumption).1
      (a.drawn (.insertFinding v.name)) claim.id v.name :=
  guardReplay_stamped (downgradeIncomplete_stamped
    (stamped_of_mem_verifiers c.text hv _ _ (subjectClaim claim) admitted caps)) consumption

variable {out : Except HandleError Unit}

theorem persistFinding_spec (hv : v ∈ verifiers c.text)
    (h : persistFinding a claim incomplete caps admitted v store = (out, store')) :
    Grown store.tables store'.tables ∧
      (out = .ok () → HasFinding store'.tables claim.id.text v.name) := by
  obtain ⟨-, hclaim, hname⟩ :=
    judgedFinding_stamped a claim incomplete caps admitted hv store.consumption
  unfold persistFinding at h
  simp only at h
  split at h
  · cases h
    exact ⟨.refl _, nofun⟩
  · split at h
    · cases h
      exact ⟨.refl _, nofun⟩
    · rename_i tables hinsert
      cases h
      obtain ⟨-, -, hfindings⟩ := insertFinding_ok hinsert
      exact ⟨insertFinding_grown hinsert, fun _ => ⟨_, _,
        (congrArg (OrdMap.get? · _) hfindings).trans (OrdMap.get?_insert_self _ _ _),
        by rw [hclaim], hname⟩⟩

theorem persistFinding_isOk (hv : v ∈ verifiers c.text)
    (hfails : a.fails (.insertFinding v.name) = false)
    (hfresh : store.tables.findings.contains (a.drawn (.insertFinding v.name)).text = false)
    {stored : StoredClaim} (hstored : store.tables.claims.get? claim.id.text = some stored) :
    ∃ store', persistFinding a claim incomplete caps admitted v store = (.ok (), store') := by
  obtain ⟨hid, hclaim, -⟩ :=
    judgedFinding_stamped a claim incomplete caps admitted hv store.consumption
  rw [← hid] at hfresh
  rw [← hclaim] at hstored
  obtain ⟨tables, hinsert⟩ := insertFinding_isOk (a.clock (.insertFinding v.name)) hfresh hstored
  unfold persistFinding
  simp only [hfails, Bool.false_eq_true, if_false, hinsert]
  exact ⟨_, rfl⟩

theorem persistFindings_spec {vs : List Verifier} (hvs : ∀ v ∈ vs, v ∈ verifiers c.text)
    (h : persistFindings a claim incomplete caps admitted vs store = (out, store')) :
    Grown store.tables store'.tables ∧
      (out = .ok () → ∀ v ∈ vs, HasFinding store'.tables claim.id.text v.name) := by
  induction vs generalizing store with
  | nil =>
    cases h
    exact ⟨.refl _, fun _ => nofun⟩
  | cons v rest ih =>
    obtain ⟨hv, hrest⟩ := forall_mem_cons.mp hvs
    rw [persistFindings] at h
    split at h
    · rename_i hpersist
      cases h
      exact ⟨(persistFinding_spec hv hpersist).1, nofun⟩
    · rename_i hpersist
      obtain ⟨hgrown, hfound⟩ := persistFinding_spec hv hpersist
      obtain ⟨hgrown', hfound'⟩ := ih hrest h
      refine ⟨hgrown.trans hgrown', fun hok => forall_mem_cons.mpr ⟨?_, hfound' hok⟩⟩
      exact (hfound rfl).kept hgrown'.kept

theorem mem_applicableVerifiers :
    v ∈ applicableVerifiers c claim ↔ v ∈ verifiers c.text ∧ v.appliesTo claim.subject :=
  mem_filter

theorem runVerifiers_spec
    (h : runVerifiersAndPersistFindings c a claim incomplete caps store = (out, store')) :
    Grown store.tables store'.tables ∧
      (out = .ok () → ∀ v ∈ applicableVerifiers c claim,
        HasFinding store'.tables claim.id.text v.name) := by
  unfold runVerifiersAndPersistFindings at h
  split at h
  · cases h
    exact ⟨.refl _, nofun⟩
  · have hspec := persistFindings_spec (fun v hv => (mem_applicableVerifiers.mp hv).1) h
    exact hspec

theorem runVerifiers_isOk (incomplete : Bool) (caps : RuntimeCapabilities)
    (hread : a.fails .admittedEvidence = false)
    (hfindings : ∀ v ∈ applicableVerifiers c claim, a.fails (.insertFinding v.name) = false ∧
      store.tables.findings.contains (a.drawn (.insertFinding v.name)).text = false)
    {stored : StoredClaim} (hstored : store.tables.claims.get? claim.id.text = some stored) :
    ∃ store', runVerifiersAndPersistFindings c a claim incomplete caps store =
      (.ok (), store') := by
  unfold runVerifiersAndPersistFindings
  rw [if_neg (by rw [hread]; exact Bool.false_ne_true)]
  cases hvs : applicableVerifiers c claim with
  | nil => exact ⟨_, rfl⟩
  | cons v rest =>
    -- a subject has one verifier, so the loop ends after its finding
    have hrest : rest = [] := by
      have hlength := applicable_length_le_one c.text claim.subject
      change (applicableVerifiers c claim).length ≤ 1 at hlength
      rw [hvs, length_cons] at hlength
      exact eq_nil_of_length_eq_zero (by omega)
    have hv : v ∈ applicableVerifiers c claim := by
      rw [hvs]
      exact mem_cons_self
    obtain ⟨hfails, hfresh⟩ := hfindings v hv
    have hpersist : ∀ read : AdmittedEvidenceRead, ∃ store',
        persistFinding a claim incomplete caps read.admitted v
          (recordRejections a claim read store) = (.ok (), store') :=
      fun read => persistFinding_isOk (mem_applicableVerifiers.mp hv).1 hfails hfresh hstored
    obtain ⟨store', hok⟩ := hpersist (c.admittedEvidenceForSession store.tables claim.sessionId)
    rw [hrest]
    simp only [persistFindings, hok]
    exact ⟨store', rfl⟩

end Persist

section Deliver

variable {d : Delivery} {store store' : DaemonStore} {key : String}
  {claim : StoredClaim}

theorem handleClaim_cases {a : Attempt} {incomplete : Bool} {out : Except HandleError Unit}
    (h : handleClaim c a incomplete claim store = (out, store')) :
    ((∃ error, out = .error error) ∧ store'.tables = store.tables) ∨
    (out = .ok () ∧ store'.tables = store.tables ∧
      ∃ stored, store.tables.claims.get? claim.id.text = some stored ∧
        stored.subject = claim.subject) ∨
    (a.fails .insertClaim = false ∧ store.tables.claims.get? claim.id.text = none ∧
      ∃ middle, middle.tables.findings = store.tables.findings ∧
        middle.tables.claims = store.tables.claims.insert claim.id.text (redactClaim c claim) ∧
        runVerifiersAndPersistFindings c a (redactClaim c claim) incomplete
          (capsOf middle claim.sessionId) middle = (out, store')) := by
  unfold handleClaim storeClaim at h
  by_cases hfails : a.fails .insertClaim = true
  · rw [if_pos hfails] at h
    cases h
    exact .inl ⟨⟨_, rfl⟩, rfl⟩
  · rw [if_neg hfails] at h
    cases hinsert : insertClaim store.tables (redactClaim c claim)
        (some (claimMatchesCompletion (redactClaim c claim))) (a.clock .insertClaim) with
    | error error =>
      rw [hinsert] at h
      cases h
      exact .inl ⟨⟨_, rfl⟩, rfl⟩
    | ok inserted =>
      obtain ⟨isNew, tables⟩ := inserted
      rw [hinsert] at h
      rcases insertClaim_ok hinsert with ⟨rfl, rfl, stored, hstored, hsubject⟩ |
        ⟨rfl, hnone, hfindings, hclaims⟩
      · cases h
        exact .inr (.inl ⟨rfl, rfl, stored, hstored, hsubject⟩)
      · refine .inr (.inr ⟨Bool.eq_false_iff.mpr hfails, hnone, { store with tables }, hfindings,
          hclaims, h⟩)

theorem deliver_claim (store : DaemonStore) (hmessage : d.message = .claim claim) :
    handleClaim c d.attempt (d.incomplete claim.sessionId) claim store =
      ((deliver c store d).1, ingestStep c store d) := by
  simp only [ingestStep, deliver, handleMessage, hmessage]

theorem deliver_cases (store : DaemonStore) (d : Delivery) :
    ((ingestStep c store d).tables.claims = store.tables.claims ∧
      (ingestStep c store d).tables.findings = store.tables.findings) ∨
    ∃ claim middle, d.message = .claim claim ∧ d.attempt.fails .insertClaim = false ∧
      store.tables.claims.get? claim.id.text = none ∧
      middle.tables.findings = store.tables.findings ∧
      middle.tables.claims = store.tables.claims.insert claim.id.text (redactClaim c claim) ∧
      runVerifiersAndPersistFindings c d.attempt (redactClaim c claim)
        (d.incomplete claim.sessionId) (capsOf middle claim.sessionId) middle =
        ((deliver c store d).1, ingestStep c store d) := by
  cases hmessage : d.message with
  | claim claim =>
    rcases handleClaim_cases (deliver_claim store hmessage) with ⟨-, hsame⟩ | ⟨-, hsame, -⟩ |
      ⟨hfails, hnone, middle, hfindings, hclaims, hrun⟩
    · exact .inl ⟨by rw [hsame], by rw [hsame]⟩
    · exact .inl ⟨by rw [hsame], by rw [hsame]⟩
    · exact .inr ⟨claim, middle, rfl, hfails, hnone, hfindings, hclaims, hrun⟩
  | capabilities caps =>
    simp only [ingestStep, deliver, handleMessage, hmessage, handleCapabilities]
    repeat' split
    all_goals exact .inl ⟨rfl, rfl⟩
  | event e =>
    simp only [ingestStep, deliver, handleMessage, hmessage, handleEvent]
    split
    · exact .inl ⟨rfl, rfl⟩
    · split
      · exact .inl ⟨rfl, rfl⟩
      · rename_i hinsert
        exact .inl (insertEvent_same hinsert)
  | evidence ev =>
    simp only [ingestStep, deliver, handleMessage, hmessage, handleEvidence]
    split
    · exact .inl ⟨rfl, rfl⟩
    · split
      · exact .inl ⟨rfl, rfl⟩
      · rename_i hinsert
        exact .inl (insertEvidence_same hinsert)
  | policyEnvelope =>
    exact .inl (by simp [ingestStep, deliver, handleMessage, hmessage])

theorem kept_insertClaim (hnone : db.claims.get? key = none)
    (hfindings : db'.findings = db.findings) (hclaims : db'.claims = db.claims.insert key claim) :
    Kept db db' := by
  refine ⟨?_, fun hf => by rwa [hfindings]⟩
  intro other stored hstored
  rw [hclaims, OrdMap.get?_insert_of_ne]
  · exact hstored
  · rintro rfl
    rw [hnone] at hstored
    cases hstored

theorem deliver_kept (store : DaemonStore) (d : Delivery) :
    Kept store.tables (ingestStep c store d).tables := by
  rcases deliver_cases (c := c) store d with ⟨hclaims, hfindings⟩ |
    ⟨claim, middle, -, -, hnone, hfindings, hclaims, hrun⟩
  · exact ⟨fun hc => by rwa [hclaims], fun hf => by rwa [hfindings]⟩
  · exact (kept_insertClaim hnone hfindings hclaims).trans (runVerifiers_spec hrun).1.kept

def AllFound (c : DaemonCrates) (key : String) (db : RecordTables) : Prop :=
  ∀ stored, db.claims.get? key = some stored →
    ∀ v ∈ verifiers c.text, v.appliesTo stored.subject = true → HasFinding db key v.name

theorem AllFound.kept (h : AllFound c key db) (hclaims : db'.claims.get? key = db.claims.get? key)
    (hkept : Kept db db') : AllFound c key db' := by
  intro stored hstored v hv happlies
  rw [hclaims] at hstored
  exact (h stored hstored v hv happlies).kept hkept

theorem completes_spec (h : Completes c key store d) (hmessage : d.message = .claim claim)
    (hkey : claim.id.text = key) (hfails : d.attempt.fails .insertClaim = false)
    (hnone : store.tables.claims.get? key = none) : d.attempt.fails .admittedEvidence = false ∧
      ∀ v ∈ applicableVerifiers c claim, d.attempt.fails (.insertFinding v.name) = false ∧
        store.tables.findings.contains (d.attempt.drawn (.insertFinding v.name)).text = false := by
  have hcontains : store.tables.claims.contains key = false := by
    rw [OrdMap.contains, hnone]
    rfl
  simp only [Completes, hmessage] at h
  rw [if_pos ⟨hkey, hfails, hcontains⟩, Bool.and_eq_true, Bool.not_eq_true', all_eq_true] at h
  refine ⟨h.1, fun v hv => ?_⟩
  obtain ⟨hmem, happlies⟩ := mem_applicableVerifiers.mp hv
  simpa [happlies] using h.2 v hmem

theorem allFound_step (h : AllFound c key store.tables) (hcompletes : Completes c key store d) :
    AllFound c key (ingestStep c store d).tables := by
  have hkept := deliver_kept (c := c) store d
  rcases deliver_cases (c := c) store d with ⟨hclaims, -⟩ |
    ⟨claim, middle, hmessage, hfails, hnone, hfindings, hclaims, hrun⟩
  · exact h.kept (by rw [hclaims]) hkept
  · obtain ⟨hgrown, hfound⟩ := runVerifiers_spec hrun
    by_cases hkey : claim.id.text = key
    · subst hkey
      have hmiddle : middle.tables.claims.get? claim.id.text = some (redactClaim c claim) := by
        rw [hclaims, OrdMap.get?_insert_self]
      obtain ⟨hread, hfresh⟩ := completes_spec hcompletes hmessage rfl hfails hnone
      rw [← hfindings] at hfresh
      obtain ⟨done, hok⟩ : ∃ done, runVerifiersAndPersistFindings c d.attempt
          (redactClaim c claim) (d.incomplete claim.sessionId) (capsOf middle claim.sessionId)
          middle = (.ok (), done) := runVerifiers_isOk _ _ hread hfresh hmiddle
      intro stored hstored v hv happlies
      rw [hgrown.claims, hmiddle] at hstored
      cases hstored
      exact hfound (Prod.mk.inj (hrun.symm.trans hok)).1 v
        (mem_applicableVerifiers.mpr ⟨hv, happlies⟩)
    · refine h.kept ?_ hkept
      rw [hgrown.claims, hclaims, OrdMap.get?_insert_of_ne _ _ (Ne.symm hkey)]

theorem stored_of_accepted (hmessage : d.message = .claim claim)
    (hok : (deliver c store d).1 = .ok ()) :
    ∃ stored, (ingestStep c store d).tables.claims.get? claim.id.text = some stored ∧
      stored.subject = claim.subject := by
  have hstep := deliver_claim (c := c) store hmessage
  rw [hok] at hstep
  rcases handleClaim_cases hstep with ⟨⟨error, herror⟩, -⟩ | ⟨-, hsame, stored, hstored, hsubject⟩ |
    ⟨-, -, middle, -, hclaims, hrun⟩
  · cases herror
  · rw [hsame]
    exact ⟨stored, hstored, hsubject⟩
  · refine ⟨redactClaim c claim, ?_, rfl⟩
    rw [(runVerifiers_spec hrun).1.claims, hclaims, OrdMap.get?_insert_self]

end Deliver

/-- No claim and no finding that is stored is changed or lost, whatever is delivered later and
wherever the store fails. -/
theorem deliveries_keep_records (c : DaemonCrates) (start : DaemonStore)
    (deliveries : List Delivery) :
    Kept start.tables (run (ingestStep c) start deliveries).tables :=
  run_always (P := fun s => Kept start.tables s.tables) (.refl _)
    (fun s d h => h.trans (deliver_kept s d)) deliveries

/-- Where every delivery that stores a claim completes its verification, a claim whose line was ever
accepted has a finding of every verifier that applies to it. -/
theorem accepted_claim_verified (c : DaemonCrates) (claim : StoredClaim) (start : DaemonStore)
    (hnew : start.tables.claims.get? claim.id.text = none) (deliveries : List Delivery)
    (hcompletes : Along (ingestStep c)
      (fun db d => Completes c claim.id.text db d = true) start deliveries)
    (before : List Delivery) (d : Delivery) (after : List Delivery)
    (hsplit : deliveries = before ++ d :: after) (hmessage : d.message = .claim claim)
    (hok : (deliver c (run (ingestStep c) start before) d).1 = .ok ()) :
    ∀ v ∈ verifiers c.text, v.appliesTo claim.subject = true →
      HasFinding (run (ingestStep c) start deliveries).tables claim.id.text v.name := by
  have hfresh : AllFound c claim.id.text start.tables := by
    intro stored hstored
    rw [hnew] at hstored
    cases hstored
  have hall : AllFound c claim.id.text (run (ingestStep c) start deliveries).tables :=
    run_invariant (P := fun db => AllFound c claim.id.text db.tables) hfresh
      (fun _ _ h hstep => allFound_step h hstep) hcompletes
  obtain ⟨stored, hstored, hsubject⟩ := stored_of_accepted hmessage hok
  have hrun : run (ingestStep c) start deliveries =
      run (ingestStep c) (ingestStep c (run (ingestStep c) start before) d) after := by
    rw [hsplit, run_append]
    rfl
  have hkept : Kept (ingestStep c (run (ingestStep c) start before) d).tables
      (run (ingestStep c) start deliveries).tables := by
    rw [hrun]
    exact run_related (R := fun db db' : DaemonStore => Kept db.tables db'.tables)
      (fun db => .refl _) (fun _ _ _ h h' => h.trans h') deliver_kept _ after
  intro v hv happlies
  rw [← hsubject] at happlies
  exact hall stored (hkept.claims hstored) v hv happlies

def labCrates : DaemonCrates where
  text := ⟨fun _ => false, fun ch => [ch], fun _ => false, fun _ => false, fun _ => []⟩
  records := ⟨fun _ _ => true, fun _ _ => (none, none), fun _ _ => none⟩
  redactText := id
  redactJson := id
  redactExtension := id
  admittedEvidenceForSession := fun _ _ => ⟨[], []⟩

def labEvent : AgentEvent :=
  ⟨1, "session", .claudeCode, .postToolUse, "2026-01-01T00:00:00Z", none, none, none, .null⟩

def labClaim : StoredClaim :=
  { id := 2, claimedAt := "2026-01-01T00:00:01Z", sessionId := "session", sourceEventId := 1
    text := "I committed the change.", subject := "git_commit" }

def labAttempt (fails : StoreCall → Bool) : Attempt :=
  ⟨fails, fun _ => 3, fun _ => "2026-01-01T00:00:02Z"⟩

def labDelivery (fails : StoreCall → Bool) (message : IngestMessage) : Delivery :=
  ⟨labAttempt fails, fun _ => false, none, message⟩

def sentTwice : List Delivery :=
  [labDelivery (fun _ => false) (.event labEvent), labDelivery (fun _ => false) (.claim labClaim),
    labDelivery (fun _ => false) (.claim labClaim)]

theorem accepted_claim_verified_sentTwice :
    HasFinding (run (ingestStep labCrates) .fresh sentTwice).tables labClaim.id.text
      GitOperationVerifier.name := by
  have hcheck : checkAlong (ingestStep labCrates) (Completes labCrates labClaim.id.text) .fresh
      sentTwice = true := by decide +kernel
  have hok : (deliver labCrates (run (ingestStep labCrates) .fresh
      [labDelivery (fun _ => false) (.event labEvent)])
      (labDelivery (fun _ => false) (.claim labClaim))).1 = .ok () := by decide +kernel
  have hall := accepted_claim_verified labCrates labClaim .fresh rfl sentTwice
    (along_of_check hcheck) _ _ [labDelivery (fun _ => false) (.claim labClaim)] rfl rfl hok
  exact hall _ (mem_of_getElem? (i := 4) rfl) (by decide +kernel)

def failedOnce : List Delivery :=
  [labDelivery (fun _ => false) (.event labEvent),
    labDelivery (fun call => call == .insertFinding GitOperationVerifier.name) (.claim labClaim),
    labDelivery (fun _ => false) (.claim labClaim)]

theorem accepted_claim_without_finding :
    (outputs (ingestStep labCrates)
      (fun db d => [(deliver labCrates db d).1]) .fresh failedOnce =
      [.ok (), .error (.unavailable (.insertFinding GitOperationVerifier.name)), .ok ()]) ∧
      (verifiers labCrates.text).any
        (fun v => v.appliesTo labClaim.subject && v.name == GitOperationVerifier.name) = true ∧
      (run (ingestStep labCrates) .fresh failedOnce).tables.findings.entries = [] := by
  refine ⟨?_, ?_, ?_⟩ <;> decide +kernel

end Fornax.Daemon
