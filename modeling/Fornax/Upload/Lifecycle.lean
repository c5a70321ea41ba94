import Fornax.Lib.Evolution
import Fornax.Upload.Outbox

namespace Fornax.Upload

open Egress OrdMap Relation List UploadStore

variable {c : UploadCrates} {R : String → String → Prop}

def OutboxRow.Sound (row : OutboxRow) : Prop :=
  row.batchId = none ↔ row.state = .pending ∨ row.state = .expired

/-- What any statement but the seal leaves of a row; `R` relates consents to those that replace
them. -/
structure Tends (R : String → String → Prop) (row row' : OutboxRow) : Prop where
  sound : row'.Sound
  batch : row'.batchId = row.batchId
  member : row'.memberJson = row.memberJson
  pending : row'.state = .pending → row.state = .pending
  consent : ReflTransGen R row.consentId row'.consentId

def Tended (R : String → String → Prop) (row row' : OutboxRow) : Prop :=
  row.Sound → Tends R row row'

def Incoming (row : OutboxRow) : Prop := row.Sound ∧ row.batchId = none

variable (row : OutboxRow)

theorem Tended.refl : Tended R row row := fun hsound =>
  ⟨hsound, rfl, rfl, id, .refl⟩

theorem Tended.trans (u v w : OutboxRow) (huv : Tended R u v) (hvw : Tended R v w) :
    Tended R u w := by
  intro hsound
  have h₁ := huv hsound
  have h₂ := hvw h₁.sound
  exact ⟨h₂.sound, h₂.batch.trans h₁.batch, h₂.member.trans h₁.member,
    fun hp => h₁.pending (h₂.pending hp), h₁.consent.trans h₂.consent⟩

theorem Tended.mono {R' : String → String → Prop} (hR : ∀ a b, R a b → R' a b)
    {row row' : OutboxRow} (h : Tended R row row') : Tended R' row row' := by
  intro hsound
  have ht := h hsound
  exact ⟨ht.sound, ht.batch, ht.member, ht.pending, ReflTransGen.mono hR _ _ ht.consent⟩

theorem Incoming.tended (v w : OutboxRow) (hv : Incoming v) (h : Tended R v w) : Incoming w := by
  have ht := h hv.1
  exact ⟨ht.sound, ht.batch.trans hv.2⟩

theorem tended_expire (cond : Bool) : Tended R row
      (if row.state = .pending && cond then { row with state := .expired } else row) := by
  split
  · next h =>
    simp only [Bool.and_eq_true, decide_eq_true_eq] at h
    intro hsound
    have hbatch : row.batchId = none := hsound.mpr (.inl h.1)
    exact ⟨by simp [OutboxRow.Sound, hbatch], rfl, rfl, nofun, .refl⟩
  · exact Tended.refl row

theorem tended_close (batchId : String) {state : OutboxState}
    (hclosed : state = .acknowledged ∨ state = .poison) :
    Tended R row (if row.batchId == some batchId then { row with state := state } else row) := by
  split
  · next h =>
    have hbatch : row.batchId = some batchId := by simpa using h
    intro _
    refine ⟨?_, rfl, rfl, fun hp => ?_, .refl⟩
    · rcases hclosed with rfl | rfl <;> simp [OutboxRow.Sound, hbatch]
    · rcases hclosed with rfl | rfl <;> cases hp
  · exact Tended.refl row

variable {consentId windowId : String} {db : UploadTables}

theorem tended_move {older : String} (hR : R older consentId) :
    Tended R row (if row.state = .pending && row.consentId == older then
      { row with consentId := consentId } else row) := by
  split
  · next h =>
    simp only [Bool.and_eq_true, decide_eq_true_eq, beq_iff_eq] at h
    intro hsound
    exact ⟨hsound, rfl, rfl, id, .single (h.2 ▸ hR)⟩
  · exact Tended.refl row

def BatchKept (batch batch' : BatchRow) : Prop :=
  batch'.membersJson = batch.membersJson ∧ batch'.manifestSha256 = batch.manifestSha256

theorem BatchKept.refl (batch : BatchRow) : BatchKept batch batch := ⟨rfl, rfl⟩

theorem BatchKept.trans (u v w : BatchRow) (huv : BatchKept u v) (hvw : BatchKept v w) :
    BatchKept u w := ⟨hvw.1.trans huv.1, hvw.2.trans huv.2⟩

def BatchRow.Hashed (c : UploadCrates) (batch : BatchRow) : Prop :=
  batch.manifestSha256 = sha256Hex c (utf8Bytes batch.membersJson)

theorem BatchRow.Hashed.kept (v w : BatchRow) (hv : v.Hashed c) (h : BatchKept v w) :
    w.Hashed c := by
  rw [BatchRow.Hashed, h.1, h.2]
  exact hv

structure Upkeep (R : String → String → Prop) (db db' : UploadTables) : Prop where
  outbox : Evolves (Tended R) Incoming db.outbox db'.outbox
  batches : Evolves BatchKept (fun _ => False) db.batches db'.batches

variable (db) (batchId : String)

namespace Upkeep

theorem refl : Upkeep R db db where
  outbox := .refl Tended.refl _
  batches := .refl BatchKept.refl _

theorem trans {db db' db'' : UploadTables} (h₁ : Upkeep R db db') (h₂ : Upkeep R db' db'') :
    Upkeep R db db'' where
  outbox := .trans Tended.trans Incoming.tended h₁.outbox h₂.outbox
  batches := .trans BatchKept.trans (fun _ _ h _ => h) h₁.batches h₂.batches

theorem foldl {S E : Type*} (tables : S → UploadTables) {turn : S → E → S} {l : List E}
    (hturn : ∀ s, ∀ e ∈ l, Upkeep R (tables s) (tables (turn s e))) (s : S) :
    Upkeep R (tables s) (tables (l.foldl turn s)) where
  outbox := Evolves.foldl Tended.refl Tended.trans Incoming.tended
    (fun s => (tables s).outbox) (fun s e he => (hturn s e he).outbox) s
  batches := Evolves.foldl BatchKept.refl BatchKept.trans (fun _ _ h _ => h)
    (fun s => (tables s).batches) (fun s e he => (hturn s e he).batches) s

theorem rows {f : MemberKey → OutboxRow → OutboxRow} (hf : ∀ key row, Tended R row (f key row)) :
    Upkeep R db { db with outbox := db.outbox.mapRows f } where
  outbox := .mapRows hf db.outbox
  batches := .refl BatchKept.refl _

theorem batch {f : BatchRow → BatchRow} (hf : ∀ batch, BatchKept batch (f batch)) :
    Upkeep R db { db with batches := db.batches.update batchId f } where
  outbox := .refl Tended.refl _
  batches := .update BatchKept.refl hf db.batches batchId

theorem gap (windowId : String) (reason : GapReason) (dropped : ℕ)
    (now : Instant) : Upkeep R db (db.recordGap c windowId reason dropped now) where
  outbox := .refl Tended.refl _
  batches := .refl BatchKept.refl _

end Upkeep

theorem closeBatch_upkeep {state : OutboxState}
    (hclosed : state = .acknowledged ∨ state = .poison) {batch : BatchRow → BatchRow}
    (hbatch : ∀ b, BatchKept b (batch b)) : Upkeep R db (closeBatch db batchId state batch) :=
  (Upkeep.batch db batchId hbatch).trans
    (Upkeep.rows _ fun _ row => tended_close row batchId hclosed)

theorem acknowledge_upkeep (now : Instant) :
    Upkeep R db (acknowledgeUploadBatch c db batchId now) :=
  closeBatch_upkeep db batchId (.inl rfl) fun _ => ⟨rfl, rfl⟩

theorem poison_upkeep (reason : String) : Upkeep R db (poisonUploadBatch db batchId reason) :=
  closeBatch_upkeep db batchId (.inr rfl) fun _ => ⟨rfl, rfl⟩

theorem attempt_upkeep (error : Option String)
    (now : Instant) : Upkeep R db (recordUploadAttempt c db batchId error now) :=
  Upkeep.batch db batchId fun _ => ⟨rfl, rfl⟩

theorem expireWhere_upkeep (cond : OutboxRow → Bool) : Upkeep R db (expireWhere db cond) :=
  Upkeep.rows db fun _ row => tended_expire row (cond row)

theorem expireKey_upkeep (entry : MemberKey × OutboxRow) : Upkeep R db (expireKey db entry)where
  outbox := by
    refine .update Tended.refl (fun row => ?_) db.outbox entry.1
    have hexpire := @tended_expire R row true
    simpa using hexpire
  batches := .refl BatchKept.refl _

theorem retireGroup_upkeep (isLive : String → Bool) (now : Instant) (acc : ℕ × UploadTables)
    (group : (String ×ₗ String) × List OutboxRow) :
    Upkeep R acc.2 (retireGroup c isLive now acc group).2 := by
  unfold retireGroup
  split
  · exact Upkeep.refl _
  · exact (expireWhere_upkeep acc.2 _).trans (Upkeep.gap _ _ _ _ now)

theorem retireBatch_upkeep (isLive : String → Bool) (db : UploadTables)
    (batch : String × BatchRow) : Upkeep R db (retireBatch isLive db batch) := by
  unfold retireBatch
  split
  · exact Upkeep.refl _
  · exact poison_upkeep db batch.1 _

theorem retire_upkeep (live : List String) (now : Instant) :
    Upkeep R db (retireUnauthorizedUploadWork c db live now).2 := by
  have hgroups : Upkeep R db
      ((pendingGroups db).foldl (retireGroup c live.contains now) (0, db)).2 :=
    Upkeep.foldl Prod.snd
      (fun acc group _ => retireGroup_upkeep live.contains now acc group) (0, db)
  exact hgroups.trans
    (Upkeep.foldl id (fun db batch _ => retireBatch_upkeep live.contains db batch) _)

theorem enforce_upkeep (maxBytes : ℤ) (now : Instant) :
    Upkeep R db (enforceOutboxBound c db maxBytes now).2 := by
  dsimp only [enforceOutboxBound]
  exact ((Upkeep.foldl id (fun db entry _ => expireKey_upkeep db entry) db).trans
    (expireWhere_upkeep _ _)).trans (Upkeep.foldl id (fun db gap _ => Upkeep.gap db _ _ _ now) _)

variable {db} (s : UploadStore) (records : RecordTables) (ctx : StageContext)

theorem memberRow_incoming (window : String) (member : List (String × Json)) :
    Incoming (memberRow c ctx window member) := by
  simp [Incoming, OutboxRow.Sound, memberRow]

section

variable (kind : MemberKind) (acc : ℕ × OrdMap MemberKey OutboxRow)

theorem stageCandidate_evolves (cand : Candidate) :
    Evolves (Tended R) Incoming acc.2 (stageCandidate c ctx kind acc cand).2 := by
  unfold stageCandidate
  cases candidateWindow c ctx cand with
  | none => exact .refl Tended.refl _
  | some window =>
    exact .insertNew Tended.refl acc.2 _ (memberRow_incoming ctx window cand.member)

theorem stageCandidates_evolves (l : List Candidate) :
    Evolves (Tended R) Incoming acc.2 (l.foldl (stageCandidate c ctx kind) acc).2 :=
  Evolves.foldl Tended.refl Tended.trans Incoming.tended Prod.snd
    (fun acc cand _ => stageCandidate_evolves ctx kind acc cand) acc

end

theorem stageMembers_evolves (outbox : OrdMap MemberKey OutboxRow) :
    Evolves (Tended R) Incoming outbox (stageMembers c records ctx outbox).2 := by
  have hevents : Evolves (Tended R) Incoming outbox
      (stageKind c records ctx (0, outbox) .events).2 :=
    stageCandidates_evolves ctx .events (0, outbox) _
  have hsessions := hevents.trans Tended.trans Incoming.tended
    (@stageCandidates_evolves c R ctx .sessions _
      ((stagedSessions c records ctx outbox).filterMap (sessionCandidate records)))
  exact hsessions.trans Tended.trans Incoming.tended
    (Evolves.foldl Tended.refl Tended.trans Incoming.tended Prod.snd
      (fun acc kind _ => stageCandidates_evolves ctx kind acc _) _)

def LiveTogether (c : UploadCrates) (egress : EgressTables) (now : Instant) (a b : String) : Prop :=
  ∃ older ∈ liveUploadConsents c egress now, ∃ newer ∈ liveUploadConsents c egress now,
    older.id = a ∧ newer.id = b ∧ older.destination = newer.destination ∧
      older.dataClasses = newer.dataClasses

theorem renewedBy_liveTogether {egress : EgressTables} {now : Instant} {consent o : Consent}
    {older : List Consent} (hlive : liveUploadConsents c egress now = consent :: older)
    (ho : o ∈ renewedBy consent older) : LiveTogether c egress now o.id consent.id := by
  obtain ⟨hmem, hsame⟩ := mem_filter.mp ho
  simp only [Bool.and_eq_true, beq_iff_eq] at hsame
  refine ⟨o, ?_, consent, ?_, rfl, rfl, hsame.1, hsame.2⟩
  · rw [hlive]
    exact mem_cons_of_mem _ hmem
  · rw [hlive]
    exact mem_cons_self

theorem moveRows_upkeep (db : UploadTables) (consentId : String) {older : Consent}
    (hR : R older.id consentId) : Upkeep R db (moveRows consentId db older) :=
  Upkeep.rows db fun _ row => tended_move row hR

theorem stageUnder_upkeep {egress : EgressTables} {clock : StageClock} {consent : Consent}
    {older : List Consent} (hlive : liveUploadConsents c egress clock.live = consent :: older)
    (retired : ℕ) (db : UploadTables) : Upkeep (LiveTogether c egress clock.live) db
      (stageUnder c records egress clock consent older retired db).2 := by
  have hmoved : Upkeep (LiveTogether c egress clock.live) db
      ((renewedBy consent older).foldl (moveRows consent.id) db) :=
    Upkeep.foldl id (fun db o ho =>
      moveRows_upkeep db consent.id (renewedBy_liveTogether hlive ho)) db
  dsimp only [stageUnder]
  cases c.rfc3339 (eligibleSince consent (renewedBy consent older)) with
  | none => exact hmoved
  | some since =>
    cases profileHistory c egress with
    | none => exact hmoved
    | some history =>
      refine (hmoved.trans ⟨?_, ?_⟩).trans (enforce_upkeep _ outboxMaxBytes clock.bounded)
      · exact stageMembers_evolves records _ _
      · exact .refl BatchKept.refl _

theorem stage_upkeep (egress : EgressTables) (db : UploadTables) (clock : StageClock) :
    Upkeep (LiveTogether c egress clock.live) db
      (stageUploadRecords c records egress db clock).2 := by
  dsimp only [stageUploadRecords]
  cases hlive : liveUploadConsents c egress clock.live with
  | nil => exact retire_upkeep db _ clock.retired
  | cons consent older =>
    exact (retire_upkeep db _ clock.retired).trans (stageUnder_upkeep records hlive _ _)

structure SealedMember where
  key : MemberKey
  batchId : String
  consentId : String
  deriving DecidableEq

def sealedBy (c : UploadCrates) (s : UploadStore) : UploadOp → List SealedMember
  | .sealBatch windowId consentId destination batchId now =>
    match sealUploadBatch c s.upload windowId consentId destination batchId now with
    | .ok (some batch, _) => (sealable s.upload windowId consentId).map fun entry =>
        ⟨entry.1, batch.batchId, batch.consentId⟩
    | _ => []
  | _ => []

theorem mem_sealable {entry : MemberKey × OutboxRow} (h : entry ∈ sealable db windowId consentId) :
    db.outbox.get? entry.1 = some entry.2 ∧ entry.2.state = .pending ∧
      entry.2.consentId = consentId := by
  have hmem := mem_of_mem_take h
  simp only [mem_filter, Bool.and_eq_true, decide_eq_true_eq, beq_iff_eq] at hmem
  exact ⟨mem_entries.mp hmem.1, hmem.2.1.1, hmem.2.2⟩

theorem nodup_sealable (db : UploadTables) (windowId consentId : String) :
    ((sealable db windowId consentId).map Prod.fst).Nodup := by
  have hsub : (sealable db windowId consentId).Sublist db.outbox.entries :=
    (take_sublist _ _).trans filter_sublist
  exact db.outbox.nodup_keys.sublist (hsub.map Prod.fst)

theorem sealUploadBatch_cases (db : UploadTables)
    (windowId consentId destination batchId : String) (now : Instant) :
    sealUploadBatch c db windowId consentId destination batchId now = .ok (none, db) ∨
    (∃ e, sealUploadBatch c db windowId consentId destination batchId now = .error e) ∨
    db.batches.get? batchId = none ∧ ∃ batch : BatchRow, ∃ sealed : SealedBatch,
      batch.Hashed c ∧ sealed.batchId = batchId ∧ sealed.consentId = consentId ∧
      sealUploadBatch c db windowId consentId destination batchId now = .ok (some sealed, { db with
          batches := db.batches.insert batchId batch
          outbox := (sealable db windowId consentId).foldl (markInflight batchId) db.outbox }) := by
  dsimp only [sealUploadBatch]
  by_cases hrows : (sealable db windowId consentId).isEmpty = true
  · exact .inl (if_pos hrows)
  · rw [if_neg hrows]
    cases (sealable db windowId consentId).mapM (fun entry =>
        (c.parseJson entry.2.memberJson).map fun value => ((ofLex entry.1).1, value)) with
    | none => exact .inr (.inl ⟨.json, rfl⟩)
    | some members =>
      by_cases htaken : db.batches.contains batchId = true
      · exact .inr (.inl ⟨.primaryKey, if_pos htaken⟩)
      · have hfree : db.batches.get? batchId = none := by simpa [OrdMap.contains] using htaken
        exact .inr (.inr ⟨hfree, newBatch c windowId consentId destination
          (canonicalJson c (membersDocument members)) _ now, _, rfl, rfl, rfl, if_neg htaken⟩)

theorem get?_markInflight_of_mem {entry : MemberKey × OutboxRow}
    (h : entry ∈ sealable db windowId consentId) (batchId : String) :
    ((sealable db windowId consentId).foldl (markInflight batchId) db.outbox).get? entry.1 =
      some { entry.2 with state := .inflight, batchId := some batchId } := by
  refine (get?_foldl_update _ (nodup_sealable db windowId consentId) db.outbox _).trans ?_
  rw [if_pos (mem_map_of_mem h), (mem_sealable h).1]
  rfl

theorem get?_markInflight_of_notMem {key : MemberKey}
    (h : key ∉ (sealable db windowId consentId).map Prod.fst) (batchId : String) :
    ((sealable db windowId consentId).foldl (markInflight batchId) db.outbox).get? key =
      db.outbox.get? key :=
  (get?_foldl_update _ (nodup_sealable db windowId consentId) db.outbox key).trans (if_neg h)

def StepRenewal (c : UploadCrates) (s : UploadStore) (op : UploadOp) (a b : String) : Prop :=
  ∃ clock, op = .stage clock ∧ LiveTogether c s.egress clock.live a b

/-- Upkeep, or a new batch of the rows the step found. -/
inductive StepOutcome (c : UploadCrates) (s : UploadStore) (op : UploadOp) : Prop
  | upkeep : Upkeep (StepRenewal c s op) s.upload (uploadStep c s op).upload →
      sealedBy c s op = [] → StepOutcome c s op
  | batch (windowId consentId batchId : String) (batch : BatchRow) :
      s.upload.batches.get? batchId = none → batch.Hashed c →
      (uploadStep c s op).upload.batches = s.upload.batches.insert batchId batch →
      (uploadStep c s op).upload.outbox =
        (sealable s.upload windowId consentId).foldl (markInflight batchId) s.upload.outbox →
      sealedBy c s op = (sealable s.upload windowId consentId).map
        (fun entry => ⟨entry.1, batchId, consentId⟩) → StepOutcome c s op

theorem seal_outcome (windowId consentId destination batchId : String) (now : Instant) :
    StepOutcome c s (.sealBatch windowId consentId destination batchId now) := by
  rcases @sealUploadBatch_cases c s.upload windowId consentId destination batchId now with
    hseal | ⟨e, hseal⟩ | ⟨hfree, batch, sealed, hhashed, rfl, rfl, hseal⟩
  · refine .upkeep ?_ ?_
    · simp only [uploadStep, sealStep, hseal]
      exact Upkeep.refl _
    · simp only [sealedBy, hseal]
  · refine .upkeep ?_ ?_
    · simp only [uploadStep, sealStep, hseal]
      exact Upkeep.refl _
    · simp only [sealedBy, hseal]
  · refine .batch windowId sealed.consentId sealed.batchId batch hfree hhashed ?_ ?_ ?_
    · simp only [uploadStep, sealStep, hseal]
    · simp only [uploadStep, sealStep, hseal]
    · simp only [sealedBy, hseal]

theorem Upkeep.mono {R' : String → String → Prop} {db' : UploadTables} (hR : ∀ a b, R a b → R' a b)
    (h : Upkeep R db db') : Upkeep R' db db' where
  outbox := h.outbox.mono (fun _ _ ht => ht.mono hR) fun _ hnew => hnew
  batches := h.batches

theorem step_outcome (op : UploadOp) : StepOutcome c s op := by
  cases op with
  | records _ => exact .upkeep (Upkeep.refl _) rfl
  | egress _ => exact .upkeep (Upkeep.refl _) rfl
  | stage clock =>
    refine .upkeep ?_ rfl
    exact (stage_upkeep s.records s.egress s.upload clock).mono fun a b h => ⟨clock, rfl, h⟩
  | enforce maxBytes now => exact .upkeep (enforce_upkeep s.upload maxBytes now) rfl
  | retire live now => exact .upkeep (retire_upkeep s.upload live now) rfl
  | sealBatch windowId consentId destination batchId now =>
    exact seal_outcome s windowId consentId destination batchId now
  | attempt batchId error now => exact .upkeep (attempt_upkeep s.upload batchId error now) rfl
  | acknowledge batchId now => exact .upkeep (acknowledge_upkeep s.upload batchId now) rfl
  | poison batchId reason => exact .upkeep (poison_upkeep s.upload batchId reason) rfl

/-- A row leaves `pending` for `inflight` or `expired` only, and never comes back. -/
def StateMove (state state' : OutboxState) : Prop :=
  (state = .pending → state' = .pending ∨ state' = .inflight ∨ state' = .expired) ∧
    (state ≠ .pending → state' ≠ .pending)

structure Turns (R : String → String → Prop) (row row' : OutboxRow) : Prop where
  sound : row'.Sound
  batch : row.batchId ≠ none → row'.batchId = row.batchId
  consent : ReflTransGen R row.consentId row'.consentId
  move : StateMove row.state row'.state

theorem Tends.turns {row row' : OutboxRow} (hsound : row.Sound) (h : Tends R row row') :
    Turns R row row' := by
  refine ⟨h.sound, fun _ => h.batch, h.consent, fun hpending => ?_,
    fun hne hpending => hne (h.pending hpending)⟩
  have hbatch : row'.batchId = none := h.batch.trans (hsound.mpr (.inl hpending))
  rcases h.sound.mp hbatch with h' | h'
  · exact .inl h'
  · exact .inr (.inr h')

theorem seal_evolves (batchId : String) :
    Evolves (fun row row' => row.Sound → Turns R row row') Incoming db.outbox
      ((sealable db windowId consentId).foldl (markInflight batchId) db.outbox) where
  kept {key row} hrow := by
    by_cases hkey : key ∈ (sealable db windowId consentId).map Prod.fst
    · obtain ⟨entry, hentry, rfl⟩ := mem_map.mp hkey
      obtain ⟨hget, hpending, -⟩ := mem_sealable hentry
      obtain rfl : entry.2 = row := Option.some.inj (hget.symm.trans hrow)
      refine ⟨_, get?_markInflight_of_mem hentry batchId, fun hsound => ?_⟩
      exact ⟨by simp [OutboxRow.Sound], fun hne => (hne (hsound.mpr (.inl hpending))).elim, .refl,
        fun _ => .inr (.inl rfl), fun hne => (hne hpending).elim⟩
    · exact ⟨row, (get?_markInflight_of_notMem hkey batchId).trans hrow,
        fun hsound => (Tended.refl row hsound).turns hsound⟩
  fresh {key row} hnone hrow := by
    have hkey : key ∉ (sealable db windowId consentId).map Prod.fst := by
      intro hkey
      obtain ⟨entry, hentry, rfl⟩ := mem_map.mp hkey
      cases hnone.symm.trans (mem_sealable hentry).1
    rw [get?_markInflight_of_notMem hkey, hnone] at hrow
    cases hrow

theorem step_outbox (op : UploadOp) :
    Evolves (fun row row' => row.Sound → Turns (StepRenewal c s op) row row') Incoming
      s.upload.outbox (uploadStep c s op).upload.outbox := by
  rcases @step_outcome c s op with ⟨hupkeep, -⟩ | ⟨_, _, batchId, _, -, -, -, houtbox, -⟩
  · exact hupkeep.outbox.mono (fun _ _ h hsound => (h hsound).turns hsound) fun _ => id
  · rw [houtbox]
    exact seal_evolves batchId

theorem step_sealed (op : UploadOp) : ((sealedBy c s op).map SealedMember.key).Nodup ∧
    ∀ m ∈ sealedBy c s op, ∃ row row', s.upload.outbox.get? m.key = some row ∧
      row.state = .pending ∧ row.consentId = m.consentId ∧
      (uploadStep c s op).upload.outbox.get? m.key = some row' ∧ row'.batchId = some m.batchId := by
  rcases @step_outcome c s op with
    ⟨-, hsealed⟩ | ⟨windowId, consentId, batchId, _, -, -, -, houtbox, hsealed⟩
  · simp [hsealed]
  · rw [hsealed, houtbox, List.map_map]
    refine ⟨nodup_sealable _ windowId consentId, fun m hm => ?_⟩
    obtain ⟨entry, hentry, rfl⟩ := mem_map.mp hm
    obtain ⟨hget, hpending, hconsent⟩ := mem_sealable hentry
    exact ⟨entry.2, _, hget, hpending, hconsent, get?_markInflight_of_mem hentry batchId, rfl⟩

theorem step_batches (op : UploadOp) :
    Evolves BatchKept (BatchRow.Hashed c) s.upload.batches (uploadStep c s op).upload.batches := by
  rcases @step_outcome c s op with
    ⟨hupkeep, -⟩ | ⟨_, _, batchId, batch, hfree, hhashed, hbatches, -⟩
  · exact hupkeep.batches.mono (fun _ _ h => h) fun _ h => h.elim
  · rw [hbatches]
    have hnew : s.upload.batches.insertNew batchId batch =
        s.upload.batches.insert batchId batch := by
      simp [OrdMap.insertNew, OrdMap.contains, hfree]
    rw [← hnew]
    exact .insertNew BatchKept.refl s.upload.batches batchId hhashed

def sealedMembers (c : UploadCrates) (ops : List UploadOp) : List SealedMember :=
  Runs.outputs (uploadStep c) (sealedBy c) fresh ops

structure StagedMember where
  key : MemberKey
  consentId : String
  deriving DecidableEq

def newRows (m n : OrdMap MemberKey OutboxRow) : List StagedMember :=
  (n.entries.filter fun entry => !m.contains entry.1).map fun entry =>
    ⟨entry.1, entry.2.consentId⟩

theorem mem_newRows {m n : OrdMap MemberKey OutboxRow} {e : StagedMember} : e ∈ newRows m n ↔
      m.get? e.key = none ∧ ∃ row, n.get? e.key = some row ∧ row.consentId = e.consentId := by
  simp only [newRows, mem_map, mem_filter, OrdMap.contains, Bool.not_eq_true',
    Option.isSome_eq_false_iff, Option.isNone_iff_eq_none]
  constructor
  · rintro ⟨⟨key, row⟩, ⟨hmem, hnone⟩, rfl⟩
    exact ⟨hnone, row, mem_entries.mp hmem, rfl⟩
  · rintro ⟨hnone, row, hrow, hconsent⟩
    refine ⟨(e.key, row), ⟨mem_entries.mpr hrow, hnone⟩, ?_⟩
    rw [hconsent]

theorem nodup_newRows (m n : OrdMap MemberKey OutboxRow) :
    ((newRows m n).map StagedMember.key).Nodup := by
  rw [newRows, List.map_map]
  exact n.nodup_keys.sublist (List.filter_sublist.map Prod.fst)

def stagedMembers (c : UploadCrates) (ops : List UploadOp) : List StagedMember :=
  Runs.outputs (uploadStep c)
    (fun s op => newRows s.upload.outbox (uploadStep c s op).upload.outbox) fresh ops

/-- Two consents that a staging call found live together, with one destination and the same classes.
-/
def Renewal (c : UploadCrates) (ops : List UploadOp) (a b : String) : Prop :=
  ∃ before clock after, ops = before ++ .stage clock :: after ∧
    LiveTogether c (uploadRun c fresh before).egress clock.live a b

theorem Renewal.concat {ops : List UploadOp} {a b : String} (h : Renewal c ops a b)
    (op : UploadOp) : Renewal c (ops ++ [op]) a b := by
  obtain ⟨before, clock, after, rfl, hlive⟩ := h
  refine ⟨before, clock, after ++ [op], ?_, hlive⟩
  rw [append_assoc, cons_append]

theorem StepRenewal.renewal {ops : List UploadOp} {op : UploadOp} {a b : String}
    (h : StepRenewal c (uploadRun c fresh ops) op a b) : Renewal c (ops ++ [op]) a b := by
  obtain ⟨clock, rfl, hlive⟩ := h
  exact ⟨ops, clock, [], rfl, hlive⟩

theorem uploadRun_concat (ops : List UploadOp) (op : UploadOp) : uploadRun c fresh (ops ++ [op]) =
      uploadStep c (uploadRun c fresh ops) op :=
  Runs.run_append _ _ ops [op]

structure OutboxTrace (c : UploadCrates) (ops : List UploadOp) : Prop where
  sound : ∀ {key row}, (uploadRun c fresh ops).upload.outbox.get? key = some row → row.Sound
  origin : ∀ {key row}, (uploadRun c fresh ops).upload.outbox.get? key = some row →
    ∃ e ∈ stagedMembers c ops, e.key = key ∧ ReflTransGen (Renewal c ops) e.consentId row.consentId
  stored : ∀ e ∈ stagedMembers c ops,
    ∃ row, (uploadRun c fresh ops).upload.outbox.get? e.key = some row
  stagedOnce : ((stagedMembers c ops).map StagedMember.key).Nodup
  placed : ∀ m ∈ sealedMembers c ops,
    ∃ row, (uploadRun c fresh ops).upload.outbox.get? m.key = some row ∧
      row.batchId = some m.batchId
  sealedOnce : ((sealedMembers c ops).map SealedMember.key).Nodup
  continued : ∀ m ∈ sealedMembers c ops, ∃ e ∈ stagedMembers c ops, e.key = m.key ∧
    ReflTransGen (Renewal c ops) e.consentId m.consentId

theorem OutboxTrace.nil : OutboxTrace c [] where
  sound h := by cases h
  origin h := by cases h
  stored e he := by cases he
  stagedOnce := nodup_nil
  placed m hm := by cases hm
  sealedOnce := nodup_nil
  continued m hm := by cases hm

section Concat

variable {ops : List UploadOp} {op : UploadOp}

theorem stagedMembers_concat : stagedMembers c (ops ++ [op]) = stagedMembers c ops ++
    newRows (uploadRun c fresh ops).upload.outbox
      (uploadRun c fresh (ops ++ [op])).upload.outbox := by
  rw [uploadRun_concat]
  exact Runs.outputs_concat _ _ ops op

theorem sealedMembers_concat : sealedMembers c (ops ++ [op]) = sealedMembers c ops ++
    sealedBy c (uploadRun c fresh ops) op := Runs.outputs_concat _ _ ops op

theorem chain_concat {a b : String} (h : ReflTransGen (Renewal c ops) a b) :
    ReflTransGen (Renewal c (ops ++ [op])) a b :=
  ReflTransGen.mono (fun _ _ hr => hr.concat op) _ _ h

theorem OutboxTrace.concat (h : OutboxTrace c ops) (op : UploadOp) :
    OutboxTrace c (ops ++ [op]) := by
  have hstep := @step_outbox c (uploadRun c fresh ops) op
  obtain ⟨hnodup, hsealed⟩ := @step_sealed c (uploadRun c fresh ops) op
  rw [← uploadRun_concat] at hstep hsealed
  constructor
  · intro key row' hrow'
    cases hbefore : (uploadRun c fresh ops).upload.outbox.get? key with
    | none => exact (hstep.fresh hbefore hrow').1
    | some row => exact (hstep.back hbefore hrow' (h.sound hbefore)).sound
  · intro key row' hrow'
    rw [stagedMembers_concat]
    cases hbefore : (uploadRun c fresh ops).upload.outbox.get? key with
    | none =>
      exact ⟨⟨key, row'.consentId⟩, mem_append_right _
        (mem_newRows.mpr ⟨hbefore, row', hrow', rfl⟩), rfl, .refl⟩
    | some row =>
      obtain ⟨e, he, hkey, hchain⟩ := h.origin hbefore
      have hturn := hstep.back hbefore hrow' (h.sound hbefore)
      exact ⟨e, mem_append_left _ he, hkey, (chain_concat hchain).trans
        (ReflTransGen.mono (fun _ _ hr => hr.renewal) _ _ hturn.consent)⟩
  · intro e he
    rw [stagedMembers_concat] at he
    rcases mem_append.mp he with hold | hnew
    · obtain ⟨row, hrow⟩ := h.stored e hold
      obtain ⟨row', hrow', -⟩ := hstep.kept hrow
      exact ⟨row', hrow'⟩
    · obtain ⟨-, row, hrow, -⟩ := mem_newRows.mp hnew
      exact ⟨row, hrow⟩
  · rw [stagedMembers_concat, map_append, nodup_append']
    refine ⟨h.stagedOnce, nodup_newRows _ _, ?_⟩
    -- A row that comes in was not there, while everything staged before has its row.
    intro key hold hnew
    obtain ⟨e, he, rfl⟩ := mem_map.mp hold
    obtain ⟨e', he', hkey⟩ := mem_map.mp hnew
    obtain ⟨row, hrow⟩ := h.stored e he
    obtain ⟨hnone, -⟩ := mem_newRows.mp he'
    rw [hkey, hrow] at hnone
    cases hnone
  · intro m hm
    rw [sealedMembers_concat] at hm
    rcases mem_append.mp hm with hold | hnew
    · obtain ⟨row, hrow, hbatch⟩ := h.placed m hold
      obtain ⟨row', hrow', hturn⟩ := hstep.kept hrow
      exact ⟨row', hrow', ((hturn (h.sound hrow)).batch (by simp [hbatch])).trans hbatch⟩
    · obtain ⟨row, row', -, -, -, hrow', hbatch⟩ := hsealed m hnew
      exact ⟨row', hrow', hbatch⟩
  · rw [sealedMembers_concat, map_append, nodup_append']
    refine ⟨h.sealedOnce, hnodup, ?_⟩
    -- What is sealed was pending, while everything sealed before is in a batch.
    intro key hold hnew
    obtain ⟨m, hm, rfl⟩ := mem_map.mp hold
    obtain ⟨m', hm', hkey⟩ := mem_map.mp hnew
    obtain ⟨row, hrow, hbatch⟩ := h.placed m hm
    obtain ⟨row', -, hrow', hpending, -⟩ := hsealed m' hm'
    rw [hkey, hrow] at hrow'
    obtain rfl : row = row' := Option.some.inj hrow'
    rw [(h.sound hrow).mpr (.inl hpending)] at hbatch
    cases hbatch
  · intro m hm
    rw [sealedMembers_concat] at hm
    rw [stagedMembers_concat]
    obtain ⟨e, he, hkey, hchain⟩ : ∃ e ∈ stagedMembers c ops, e.key = m.key ∧
        ReflTransGen (Renewal c ops) e.consentId m.consentId := by
      rcases mem_append.mp hm with hold | hnew
      · exact h.continued m hold
      · obtain ⟨row, -, hrow, -, hconsent, -⟩ := hsealed m hnew
        exact hconsent ▸ h.origin hrow
    exact ⟨e, mem_append_left _ he, hkey, chain_concat hchain⟩

end Concat

theorem outboxTrace (ops : List UploadOp) : OutboxTrace c ops := by
  induction ops using reverseRecOn with
  | nil => exact OutboxTrace.nil
  | append_singleton ops op ih => exact ih.concat op

theorem step_stateMove (ops : List UploadOp) (op : UploadOp) {key : MemberKey} {row : OutboxRow}
    (hrow : (uploadRun c fresh ops).upload.outbox.get? key = some row) :
    ∃ row', (uploadRun c fresh (ops ++ [op])).upload.outbox.get? key = some row' ∧
      StateMove row.state row'.state := by
  rw [uploadRun_concat]
  obtain ⟨row', hrow', hturn⟩ := (@step_outbox c (uploadRun c fresh ops) op).kept hrow
  exact ⟨row', hrow', (hturn ((outboxTrace ops).sound hrow)).move⟩

def BatchesKept (c : UploadCrates) (s t : UploadStore) : Prop :=
  Evolves BatchKept (BatchRow.Hashed c) s.upload.batches t.upload.batches

theorem run_batches (before after : List UploadOp) : BatchesKept c (uploadRun c fresh before)
      (uploadRun c fresh (before ++ after)) := by
  rw [uploadRun, uploadRun, Runs.run_append]
  refine Runs.run_related (fun s => ?_) (fun s t u h₁ h₂ => ?_) step_batches _ after
  · exact Evolves.refl BatchKept.refl s.upload.batches
  · exact Evolves.trans BatchKept.trans BatchRow.Hashed.kept h₁ h₂

structure OutboxLifecycle (c : UploadCrates) (ops : List UploadOp) : Prop where
  once : ((sealedMembers c ops).map SealedMember.key).Nodup
  placed : ∀ m ∈ sealedMembers c ops,
    ∃ row, (uploadRun c fresh ops).upload.outbox.get? m.key = some row ∧
      row.batchId = some m.batchId
  kept : ∀ before after, ops = before ++ after → ∀ id batch,
    (uploadRun c fresh before).upload.batches.get? id = some batch →
    ∃ batch', (uploadRun c fresh ops).upload.batches.get? id = some batch' ∧ BatchKept batch batch'
  hashed : ∀ id batch, (uploadRun c fresh ops).upload.batches.get? id = some batch → batch.Hashed c
  moves : ∀ before op after, ops = before ++ op :: after → ∀ key row,
    (uploadRun c fresh before).upload.outbox.get? key = some row →
    ∃ row', (uploadRun c fresh (before ++ [op])).upload.outbox.get? key = some row' ∧
      StateMove row.state row'.state
  staged : ∀ m ∈ sealedMembers c ops, ∃ e ∈ stagedMembers c ops, e.key = m.key
  consent : ∀ m ∈ sealedMembers c ops, ∀ e ∈ stagedMembers c ops, e.key = m.key →
    ReflTransGen (Renewal c ops) e.consentId m.consentId

theorem outbox_lifecycle (c : UploadCrates) (ops : List UploadOp) : OutboxLifecycle c ops := by
  have htrace := @outboxTrace c ops
  refine ⟨htrace.sealedOnce, htrace.placed, ?_, ?_, ?_, ?_, ?_⟩
  · rintro before after rfl id batch hbatch
    exact (run_batches before after).kept hbatch
  · intro id batch hbatch
    exact (run_batches [] ops).fresh rfl hbatch
  · intro before op _ _ key row hrow
    exact step_stateMove before op hrow
  · intro m hm
    obtain ⟨e, he, hkey, -⟩ := htrace.continued m hm
    exact ⟨e, he, hkey⟩
  · intro m hm e he hkey
    -- A record is staged once, so this is the entry its row goes back to.
    obtain ⟨e', he', hkey', hchain⟩ := htrace.continued m hm
    obtain rfl : e = e' :=
      inj_on_of_nodup_map htrace.stagedOnce he he' (hkey.trans hkey'.symm)
    exact hchain

def hour : ℤ := 3600 * 1000000000

def labCrates : UploadCrates where
  parseUrl _ := some ⟨"", none, none, none, "https", some "cloud.example.test", some 443, "/v1"⟩
  rfc3339 text := ((range 64).find? fun h => String.ofList (hexDigits 4 h) == text).map
    fun h => h * hour
  toRfc3339 t := String.ofList (hexDigits 4 (t / hour).toNat)
  sha256 _ := Vector.replicate 32 0
  jsonText json := json.asStr.getD ""
  parseJson text := some (.string text)
  windowOf _ := "2026-11"

def labEvent : AgentEvent where
  id := 7
  sessionId := "s1"
  provider := .claudeCode
  kind := .postToolUse
  observedAt := "0001"
  toolName := none
  toolInput := none
  toolResponse := none
  raw := .null

def labRecords : RecordTables :=
  { RecordTables.fresh with agentEvents := OrdMap.empty.insert labEvent.id.text labEvent }

def labGrant (id : String) (now : Instant) : UploadOp :=
  .egress (.grant .evidenceBatchUpload "https://cloud.example.test/v1"
    (OrdSet.ofList [.evidenceMetadata]) 1 none id now)

def labStage (now : Instant) : UploadOp := .stage ⟨now, now, now, now⟩

/-- Consents of one day each, the second granted after twelve hours, the third after thirty. A pass
runs under each of them. -/
def labRenewals : List UploadOp :=
  [.egress (.setProfile .personal false 0), .records labRecords, labGrant "first" hour,
    labStage (2 * hour), labGrant "second" (13 * hour), labStage (14 * hour),
    labGrant "third" (30 * hour), labStage (31 * hour),
    .sealBatch "2026-11" "third" "https://cloud.example.test:443/v1" "batch" (32 * hour)]

/-- The event is sealed under a consent granted only after the one it was staged under had
expired. -/
theorem sealed_under_later_consent :
    ∃ e ∈ stagedMembers labCrates labRenewals, ∃ m ∈ sealedMembers labCrates labRenewals,
      e.key = m.key ∧
      ∃ a ∈ (uploadRun labCrates fresh labRenewals).egress.consents,
      ∃ b ∈ (uploadRun labCrates fresh labRenewals).egress.consents,
        a.id = e.consentId ∧ b.id = m.consentId ∧
        isBefore labCrates.toEgressCrates a.expiresAt b.grantedAt = true := by
  decide +kernel

end Fornax.Upload
