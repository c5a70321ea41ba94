import Fornax.Store.PolicyRuns

namespace Fornax

open OrdMap

variable {c : Crates} {db : Tables} {envelope : Bytes} {trusted : TrustedVerificationKeys}
  {now : Instant}

def activeMemberKey (db : Tables) (p : Uuid) : Option BundleKey :=
  (activeSlot db).bind fun g => (db.generations.get? g).bind fun row => row.members.get? p

/-- The active generation has the candidate as its member for `p`, confirmed at `now`. -/
def ActiveConfirmed (c : Crates) (db : Tables) (p : Uuid) (cand : VerifiedPolicyBundle)
    (now : Instant) : Prop :=
  ∃ state gen, loadState c db = .ok state ∧ state.active = some gen ∧
    ∃ m ∈ gen.members, m.policyId = p ∧ m.bundleId = cand.bundleId ∧
      m.payloadDigest = cand.payloadDigest ∧ m.confirmedAt = now

theorem activeMemberKey_eq {p : Uuid} {key : BundleKey} :
    activeMemberKey db p = some key ↔ ∃ g row, activeSlot db = some g ∧
      db.generations.get? g = some row ∧ row.members.get? p = some key := by
  unfold activeMemberKey
  constructor
  · intro h
    obtain ⟨g, hg, h⟩ := Option.bind_eq_some_iff.mp h
    obtain ⟨row, hrow, h⟩ := Option.bind_eq_some_iff.mp h
    exact ⟨g, row, hg, hrow, h⟩
  · intro h
    obtain ⟨g, row, hg, hrow, h⟩ := h
    rw [hg, Option.bind_some, hrow, Option.bind_some, h]

namespace Confirmation

variable (k : Confirmation c db envelope trusted now)

theorem row_cases {key : BundleKey} {b : BundleRow} (h : k.after.bundles.get? key = some b) :
    ∃ b', db.bundles.get? key = some b' ∧
      (b = b' ∨ key = k.cand.key ∧ b = { b' with confirmedAt := c.toRfc3339 now }) :=
  get?_update_cases h

theorem own_row_confirmedAt {b : BundleRow} (h : k.after.bundles.get? k.cand.key = some b) :
    b.confirmedAt = c.toRfc3339 now := by
  change (db.bundles.update k.cand.key _).get? k.cand.key = some b at h
  rw [get?_update_self] at h
  obtain ⟨b', _, rfl⟩ := Option.map_eq_some_iff.mp h
  rfl

section

variable (hcov : Covered db) (hnow : c.Reads (c.toRfc3339 now))

include hcov hnow

theorem loadGeneration_after {g : ℕ} {gen : CacheGeneration} (h : loadGeneration c db g = .ok gen) :
    ∃ gen', loadGeneration c k.after g = .ok gen' := by
  obtain ⟨row, hrow, hstored⟩ := loadGeneration_loadsAs (hcov.stored g) h
  refine loadGeneration_isOk hrow.row_eq ((k.covered hcov).stored g row hrow.row_eq)
    hrow.writtenAt fun p key b hkey hb => ?_
  obtain ⟨m, _, b₀, hb₀, _, hgives⟩ := hrow.exists_member hstored hkey
  obtain ⟨b', hb', heq⟩ := k.row_cases hb
  cases hb₀.symm.trans hb'
  have hread := hgives.readable
  rcases heq with rfl | ⟨_, rfl⟩
  · exact hread
  · exact ⟨hread.notBefore, hread.expiresAt, hread.firstActivatedAt, hnow⟩

theorem loadSlot_after {slot : Option ℕ}
    {gen : Option CacheGeneration} (h : loadSlot c db slot = .ok gen) :
    ∃ gen', loadSlot c k.after slot = .ok gen' := by
  cases slot with
  | none => exact ⟨none, rfl⟩
  | some g =>
    obtain ⟨gen₀, hg, _⟩ := Fallible.map_eq_ok.mp h
    obtain ⟨gen', hgen'⟩ := k.loadGeneration_after hcov hnow hg
    exact ⟨some gen', Fallible.map_eq_ok.mpr ⟨gen', hgen', rfl⟩⟩

theorem loadState_after : ∃ state, loadState c k.after = .ok state := by
  have hstate := loadState_stateOf k.loaded
  have hhw : ∃ hw, k.after.highWater.collect (HighWaterRow.intoHighWater c) = .ok hw := by
    refine collect_isOk fun key row hrow => ?_
    obtain ⟨row', hrow', heq⟩ := get?_update_cases hrow
    rcases heq with rfl | ⟨_, rfl⟩
    · exact collect_rows hstate.highWater hrow'
    · exact intoHighWater_isOk hnow key
  obtain ⟨hw, hhw⟩ := hhw
  obtain ⟨active, hactive⟩ := k.loadSlot_after hcov hnow hstate.active
  obtain ⟨lkg, hlkg⟩ := k.loadSlot_after hcov hnow hstate.lastKnownGood
  obtain ⟨state, hload, _⟩ := loadState_isOk hhw hactive hlkg
  exact ⟨state, hload⟩

end

theorem activeConfirmed_iff (hcov : Covered db) :
    ActiveConfirmed c k.after k.cand.policyId k.cand now ↔
      activeMemberKey db k.cand.policyId = some k.cand.key ∧
        c.parseRfc3339 (c.toRfc3339 now) = .ok now := by
  have hcov' := k.covered hcov
  constructor
  · intro h
    obtain ⟨state, gen, hload, hactive, m, hm, hp, hid, hdigest, hconf⟩ := h
    have hslot := (loadState_stateOf hload).active
    rw [hactive] at hslot
    obtain ⟨g, hg, hgen⟩ := loadSlot_some hslot
    obtain ⟨row, hrow, hstored⟩ := loadGeneration_loadsAs (hcov'.stored g) hgen
    obtain ⟨hlisted, b, hb, hgives⟩ := hrow.member hstored hm
    have hkey : m.key = k.cand.key := by
      unfold CachedBundleRef.key VerifiedPolicyBundle.key
      rw [hid, hdigest]
    rw [hp, hkey] at hlisted
    refine ⟨activeMemberKey_eq.mpr ⟨g, row, hg, hrow.row_eq, hlisted⟩, ?_⟩
    have hread := hgives.confirmedAt_eq
    rw [k.own_row_confirmedAt (hkey ▸ hb), hconf] at hread
    exact hread
  · intro h
    obtain ⟨hlisted, hnow⟩ := h
    obtain ⟨g, row, hg, hrow, hkey⟩ := activeMemberKey_eq.mp hlisted
    obtain ⟨state, hload⟩ := k.loadState_after hcov ⟨now, hnow⟩
    have hslot := (loadState_stateOf hload).active
    have hg' : activeSlot k.after = some g := hg
    rw [hg'] at hslot
    obtain ⟨gen, hgen, hactive⟩ := Fallible.map_eq_ok.mp hslot
    obtain ⟨row', hrow', hstored⟩ := loadGeneration_loadsAs (hcov'.stored g) hgen
    cases hrow.symm.trans hrow'.row_eq
    obtain ⟨m, hm, b, hb, hp, hgives⟩ := hrow'.exists_member hstored hkey
    have hpair : (m.bundleId, m.payloadDigest) = (k.cand.bundleId, k.cand.payloadDigest) :=
      toLex.injective hgives.key_eq
    obtain ⟨hid, hdigest⟩ := Prod.mk.inj hpair
    refine ⟨state, gen, hload, hactive.symm, m, hm, hgives.policyId_eq.trans hp, hid, hdigest, ?_⟩
    have hread := hgives.confirmedAt_eq
    rw [k.own_row_confirmedAt hb, hnow] at hread
    exact (Except.ok.inj hread).symm

end Confirmation

def CacheOp.isRollback : CacheOp → Bool
  | .rollback _ => true
  | _ => false

/-- The active generation lists, for every lineage, the bundle that set its mark. -/
def Current (db : Tables) : Prop :=
  ∀ issuer p row, db.highWater.get? (toLex (issuer, p)) = some row →
    activeMemberKey db p = some (toLex (row.lastBundleId, row.lastPayloadDigest))

theorem Activation.active_listed (a : Activation c db envelope trusted now) (hcov : Covered db)
    {p : Uuid} {key : BundleKey} (h : activeMemberKey db p = some key) :
    ∃ m ∈ activeMembers a.state, m.policyId = p ∧ m.key = key := by
  obtain ⟨g, row, hg, hrow, hkey⟩ := activeMemberKey_eq.mp h
  have hslot := (loadState_stateOf a.loaded).active
  rw [hg] at hslot
  obtain ⟨gen, hgen, hactive⟩ := Fallible.map_eq_ok.mp hslot
  obtain ⟨row', hrow', hstored⟩ := loadGeneration_loadsAs (hcov.stored g) hgen
  cases hrow.symm.trans hrow'.row_eq
  obtain ⟨m, hm, b, _, hp, hgives⟩ := hrow'.exists_member hstored hkey
  refine ⟨m, ?_, hgives.policyId_eq.trans hp, hgives.key_eq⟩
  unfold activeMembers
  rw [← hactive]
  exact hm

theorem Activation.current (a : Activation c db envelope trusted now) (hcov : Covered db)
    (hown : OwnRow db a.state a.cand) (hcur : Current db) : Current a.after := by
  have hactive : ∀ p, activeMemberKey a.after p = a.rows.get? p := by
    intro p
    change ((db.generations.insert (nextGeneration db) _).get? (nextGeneration db)).bind _ = _
    rw [get?_insert_self]
    rfl
  intro issuer p row hrow
  change (db.highWater.insert a.cand.lineage _).get? _ = some row at hrow
  rw [get?_insert] at hrow
  rw [hactive]
  by_cases hk : toLex (issuer, p) = a.cand.lineage
  · rw [if_pos hk] at hrow
    have hp : p = a.cand.policyId := congrArg (fun k => (ofLex k).2) hk
    rw [← Option.some.inj hrow, hp]
    exact (a.rows_iff hown).mpr (.inl ⟨rfl, rfl⟩)
  · rw [if_neg hk] at hrow
    obtain ⟨m, hm, hp, hkey⟩ := a.active_listed hcov (hcur issuer p row hrow)
    have hne : m.policyId ≠ a.cand.policyId := by
      intro heq
      rw [← hp, heq] at hrow
      have hissuer := a.issuer_eq (contains_of_get? hrow)
      exact hk (by rw [hissuer, ← hp, heq]; rfl)
    exact (a.rows_iff hown).mpr (.inr ⟨m, hm, hne, hp, hkey⟩)

theorem cacheStep_current (c : Crates) (db : Tables) (op : CacheOp)
    (h : Covered db ∧ Current db) (hcond : storesOwnRow c db op ∧ op.isRollback = false) :
    Covered (cacheStep c db op) ∧ Current (cacheStep c db op) := by
  refine ⟨cacheStep_covered c db op h.1 hcond.1, ?_⟩
  have hstep := cacheStep_stepTo c db op
  generalize cacheStep c db op = db' at hstep
  cases hstep with
  | unchanged => exact h.2
  | activated a => exact a.current h.1 (a.ownRow hcond.1) h.2
  | confirmed k =>
    intro issuer p row hrow
    obtain ⟨row', hrow', heq⟩ := get?_update_cases hrow
    have hlisted := h.2 issuer p row' hrow'
    rcases heq with rfl | ⟨_, rfl⟩
    · exact hlisted
    · exact hlisted
  | revoked => exact h.2
  | rolledBack => cases hcond.2

theorem cacheRun_current {ops : List CacheOp} (hown : OwnRows c ops)
    (hforward : ∀ op ∈ ops, op.isRollback = false) : Current (cacheRun c ops) := by
  have hfresh : Current Tables.fresh := fun issuer p row h => by cases h
  have hcond : Runs.Along (cacheStep c)
      (fun db op => storesOwnRow c db op = true ∧ op.isRollback = false) Tables.fresh ops := by
    intro before op after hsplit
    refine ⟨hown before op after hsplit, hforward op ?_⟩
    rw [hsplit]
    exact List.mem_append_right _ List.mem_cons_self
  exact (Runs.run_invariant (P := fun db => Covered db ∧ Current db) ⟨covered_fresh, hfresh⟩
    (cacheStep_current c) hcond).2

theorem Confirmation.mark_row (k : Confirmation c db envelope trusted now) :
    ∃ row, db.highWater.get? k.cand.lineage = some row ∧
      toLex (row.lastBundleId, row.lastPayloadDigest) = k.cand.key := by
  obtain ⟨row, hrow, _, hid, hdigest⟩ := (loadState_stateOf k.loaded).row_of_highWater k.marked
  refine ⟨row, hrow, ?_⟩
  rw [← hid, ← hdigest, k.bundleId_eq, k.payloadDigest_eq]
  rfl

/-- In a run whose activations store their own bundle rows, a confirmation speaks about
what is active exactly when the active generation lists the candidate and `now` reads
back from its text; without a rollback in the run it always lists it. -/
theorem confirmed_names_active_iff (c : Crates) (ops : List CacheOp) (envelope : Bytes)
    (trusted : TrustedVerificationKeys) (now t : Instant) (cand : VerifiedPolicyBundle) (g : ℕ)
    (p : Uuid) (db' : Tables) (hown : OwnRows c ops)
    (hcand : verifyBundle c envelope trusted now = .ok cand)
    (hconf : submitPolicyBundle c (cacheRun c ops) envelope trusted now =
      (.ok (.confirmed g p t), db')) :
    (ActiveConfirmed c db' p cand now ↔ activeMemberKey (cacheRun c ops) p = some cand.key ∧
        c.parseRfc3339 (c.toRfc3339 now) = .ok now) ∧
    ((∀ op ∈ ops, op.isRollback = false) → activeMemberKey (cacheRun c ops) p = some cand.key) := by
  obtain ⟨k, rfl, rfl⟩ := submitPolicyBundle_confirmed hconf
  cases hcand.symm.trans k.verified
  refine ⟨k.activeConfirmed_iff (cacheRun_covered hown), fun hforward => ?_⟩
  obtain ⟨row, hrow, hkey⟩ := k.mark_row
  rw [← hkey]
  exact cacheRun_current hown hforward _ _ row hrow

/-- `A2` replaces `A1` and is rolled back; submitted again it is confirmed, while the
active generation lists `A1`. -/
theorem confirmed_after_rollback_not_active :
    ¬ ∀ (c : Crates) (ops : List CacheOp) (envelope : Bytes) (trusted : TrustedVerificationKeys)
      (now t : Instant) (cand : VerifiedPolicyBundle) (g : ℕ) (p : Uuid) (db' : Tables),
      verifyBundle c envelope trusted now = .ok cand →
      submitPolicyBundle c (cacheRun c ops) envelope trusted now = (.ok (.confirmed g p t), db') →
      ActiveConfirmed c db' p cand now := by
  intro h
  obtain ⟨cand, hcand⟩ := Fallible.exists_of_isOk
    (show (verifyBundle lab (asciiBytes "A2") labKeys labNow).isOk = true by decide)
  have hid : (verifyBundle lab (asciiBytes "A2") labKeys labNow).map (fun v => v.bundleId) =
      .ok 12 := by decide
  have hconf : (submitPolicyBundle lab
      (cacheRun lab [labSubmit "A1", labSubmit "A2", .rollback labNow]) (asciiBytes "A2") labKeys
      labNow).1 = .ok (.confirmed 1 1 labNow) := by decide
  have hactive : (loadState lab
      (cacheRun lab [labSubmit "A1", labSubmit "A2", .rollback labNow, labSubmit "A2"])).map
      (fun state => (activeMembers state).map fun m => m.bundleId) = .ok [11] := by decide
  obtain ⟨state, gen, hload, hgen, m, hm, _, hmid, _⟩ := h lab _ _ labKeys labNow labNow cand 1 1 _
    hcand (Prod.ext hconf rfl)
  have hload' : loadState lab
      (cacheRun lab [labSubmit "A1", labSubmit "A2", .rollback labNow, labSubmit "A2"]) =
      .ok state := hload
  rw [hload'] at hactive
  rw [hcand] at hid
  have hcandId : cand.bundleId = 12 := Except.ok.inj hid
  have hlist : (activeMembers state).map (fun m => m.bundleId) = [11] := Except.ok.inj hactive
  have hmem : m.bundleId ∈ (activeMembers state).map fun m => m.bundleId := by
    refine List.mem_map_of_mem ?_
    unfold activeMembers
    rw [hgen]
    exact hm
  rw [hlist, hmid, hcandId] at hmem
  exact absurd hmem (by decide)

/-- A bundle submitted twice is confirmed in the active generation. -/
theorem confirmed_names_active_resubmitted :
    ∃ cand, verifyBundle lab (asciiBytes "A1") labKeys labNow = .ok cand ∧
      ActiveConfirmed lab (cacheRun lab [labSubmit "A1", labSubmit "A1"]) 1 cand labNow := by
  obtain ⟨cand, hcand⟩ := Fallible.exists_of_isOk
    (show (verifyBundle lab (asciiBytes "A1") labKeys labNow).isOk = true by decide)
  have hconf : (submitPolicyBundle lab (cacheRun lab [labSubmit "A1"]) (asciiBytes "A1") labKeys
      labNow).1 = .ok (.confirmed 1 1 labNow) := by decide
  have hboth := confirmed_names_active_iff lab [labSubmit "A1"] _ labKeys labNow labNow cand 1 1 _
    (Runs.along_cons (by decide) (Runs.along_nil _ _)) hcand (Prod.ext hconf rfl)
  exact ⟨cand, hcand, hboth.1.mpr ⟨hboth.2 (by decide), by decide⟩⟩

end Fornax
