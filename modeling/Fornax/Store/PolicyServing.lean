import Fornax.Store.PolicyRuns

namespace Fornax

open Option

variable {c : Crates} {db : Tables} {envelope : Bytes} {trusted : TrustedVerificationKeys}
  {now : Instant}

def Loaded (c : Crates) (db : Tables) (trusted : TrustedVerificationKeys) (now : Instant) : Prop :=
  ∃ load, loadPolicyCache c db (some trusted) now = .ok load ∧ load.loadedSlot ≠ none

instance : Decidable (Loaded c db trusted now) :=
  decidable_of_iff ((loadPolicyCache c db (some trusted) now).toOption.any
    (fun load => load.loadedSlot.isSome) = true) (by
      unfold Loaded
      cases loadPolicyCache c db (some trusted) now with
      | error e => simp [Except.toOption]
      | ok load => simp [Except.toOption, isSome_iff_ne_none])

def Usable (c : Crates) (db : Tables) (trusted : TrustedVerificationKeys)
    (revocations : RevocationSet) (now : Instant) (m : CachedBundleRef) : Prop :=
  ∃ bound, reloadMember c db trusted revocations now m = .ok bound

def SlotUsable (c : Crates) (db : Tables) (trusted : TrustedVerificationKeys)
    (revocations : RevocationSet) (now : Instant) (slot : Option CacheGeneration) : Prop :=
  ∃ gen, slot = some gen ∧ ∀ m ∈ gen.members, Usable c db trusted revocations now m

theorem trySlot_isOk (revocations : RevocationSet) (slot : Option CacheGeneration) :
    (∃ usable, trySlot c db trusted revocations now slot = .ok usable) ↔
      SlotUsable c db trusted revocations now slot := by
  cases slot with
  | none => simp [trySlot, SlotUsable]
  | some gen =>
    unfold trySlot tryGenerationUsable
    simp only [Fallible.mapError_eq_ok, Fallible.map_eq_ok]
    constructor
    · rintro ⟨_, bound, hbound, -⟩
      exact ⟨gen, rfl, Fallible.mapM_isOk_iff.mp ⟨bound, hbound⟩⟩
    · rintro ⟨gen', heq, h⟩
      cases heq
      obtain ⟨bound, hbound⟩ := Fallible.mapM_isOk_iff.mpr h
      exact ⟨_, bound, hbound, rfl⟩

theorem loaded_iff : Loaded c db trusted now ↔ ∃ state, loadState c db = .ok state ∧
    (SlotUsable c db trusted state.revocations now state.active ∨
      SlotUsable c db trusted state.revocations now state.lastKnownGood) := by
  unfold Loaded loadPolicyCache
  cases hs : loadState c db with
  | error e => simp
  | ok state =>
    have hchoose : (chooseSlot c db trusted now state
        (unrecognizedWarning state.revocations)).loadedSlot ≠ none ↔
        (SlotUsable c db trusted state.revocations now state.active ∨
          SlotUsable c db trusted state.revocations now state.lastKnownGood) := by
      rw [← trySlot_isOk, ← trySlot_isOk]
      unfold chooseSlot
      cases trySlot c db trusted state.revocations now state.active with
      | ok usable => simp
      | error ds =>
        cases trySlot c db trusted state.revocations now state.lastKnownGood with
        | ok usable => simp
        | error ds' => simp
    constructor
    · intro h
      obtain ⟨load, hload, hslot⟩ := h
      cases hload
      exact ⟨state, rfl, hchoose.mp hslot⟩
    · intro h
      obtain ⟨state', heq, h⟩ := h
      cases heq
      exact ⟨_, rfl, hchoose.mpr h⟩

theorem reloadMember_eq {db' : Tables} {key : BundleKey} {b : BundleRow} {m m' : CachedBundleRef}
    (revocations : RevocationSet) (hm : b.Gives c key m) (hm' : b.Gives c key m')
    (hrow : db'.bundles.get? key = db.bundles.get? key) :
    reloadMember c db' trusted revocations now m' =
      reloadMember c db trusted revocations now m := by
  have hpair : (m'.bundleId, m'.payloadDigest) = (m.bundleId, m.payloadDigest) :=
    toLex.injective (hm'.key_eq.trans hm.key_eq.symm)
  obtain ⟨hid, hdigest⟩ := Prod.mk.inj hpair
  have hrev : m'.revisionDigest = m.revisionDigest :=
    hm'.revisionDigest_eq.trans hm.revisionDigest_eq.symm
  unfold reloadMember
  rw [hm'.key_eq, hm.key_eq, hrow, hid, hdigest, hrev]

theorem loadGeneration_congr {db' : Tables} {g : ℕ} {row : GenerationRow}
    (hrow : db.generations.get? g = some row) (hrow' : db'.generations.get? g = some row)
    (hagree : ∀ p key, row.members.get? p = some key → db'.bundles.get? key = db.bundles.get? key) :
    loadGeneration c db' g = loadGeneration c db g := by
  have hjoin : joinedRows db'.bundles row.members.entries =
      joinedRows db.bundles row.members.entries := by
    unfold joinedRows
    congr 1
    refine List.filterMap_congr fun e he => ?_
    rw [hagree e.1 e.2 (OrdMap.mem_entries.mp he)]
  unfold loadGeneration
  rw [hrow, hrow']
  simp only
  rw [hjoin]

structure StampsRead (c : Crates) (cand : VerifiedPolicyBundle) (now : Instant) : Prop where
  now : c.Reads (c.toRfc3339 now)
  notBefore : ∀ t, c.parseDateTime cand.payload.notBefore = some t → c.Reads (c.toRfc3339 t)
  expiresAt : ∀ t, c.parseDateTime cand.payload.expiresAt = some t → c.Reads (c.toRfc3339 t)

namespace Activation

variable (a : Activation c db envelope trusted now)

theorem get?_old_row {key : BundleKey} {b : BundleRow} (h : db.bundles.get? key = some b) :
    a.after.bundles.get? key = some b :=
  OrdMap.get?_insertNew_of_some h _ _

theorem loadGeneration_old (hcov : Covered db) {g : ℕ} {gen : CacheGeneration}
    (h : loadGeneration c db g = .ok gen) : loadGeneration c a.after g = .ok gen := by
  obtain ⟨row, hrow⟩ := loadGeneration_row h
  rw [← h]
  refine loadGeneration_congr hrow (a.kept.generations g row hrow) fun p key hkey => ?_
  obtain ⟨b, hb, _⟩ := hcov.stored g row hrow p key hkey
  rw [hb]
  exact a.get?_old_row hb

theorem lastKnownGood_after (hcov : Covered db) :
    loadSlot c a.after (lastKnownGoodSlot a.after) = .ok a.state.active := by
  change loadSlot c a.after (activeSlot db) = .ok a.state.active
  have hslot := (loadState_stateOf a.loaded).active
  cases hactive : activeSlot db with
  | none =>
    rw [hactive] at hslot
    exact hslot
  | some g =>
    rw [hactive] at hslot
    obtain ⟨gen, hg, heq⟩ := Fallible.map_eq_ok.mp hslot
    exact Fallible.map_eq_ok.mpr ⟨gen, a.loadGeneration_old hcov hg, heq⟩

theorem new_row : a.after.generations.get? (nextGeneration db) = some ⟨c.toRfc3339 now, a.rows⟩ :=
  OrdMap.get?_insert_self _ _ _

theorem own_row_readable (hown : OwnRow db a.state a.cand) :
    (newBundleRow c envelope a.stored).Readable c ↔ StampsRead c a.cand now := by
  obtain ⟨nb, ea, hnb, hea, hstored, _⟩ := a.stored_eq hown
  rw [hstored]
  constructor
  · intro h
    refine ⟨h.confirmedAt, fun t ht => ?_, fun t ht => ?_⟩
    · rw [← some.inj (hnb.symm.trans ht)]
      exact h.notBefore
    · rw [← some.inj (hea.symm.trans ht)]
      exact h.expiresAt
  · intro h
    exact ⟨h.notBefore nb hnb, h.expiresAt ea hea, h.now, h.now⟩

theorem old_usable_iff (hcov : Covered db) {m m' : CachedBundleRef}
    (hm : m ∈ activeMembers a.state) {b : BundleRow} (hb : a.after.bundles.get? m.key = some b)
    (hgives : b.Gives c m.key m') : Usable c a.after trusted a.state.revocations now m' ↔
      Usable c db trusted a.state.revocations now m := by
  obtain ⟨b', hb', hgives'⟩ := a.active_stored hcov hm
  have hrow := a.get?_old_row hb'
  rw [hrow] at hb
  rw [← some.inj hb] at hgives
  unfold Usable
  rw [reloadMember_eq a.state.revocations hgives' hgives (hrow.trans hb'.symm)]

def OthersUsable : Prop :=
  ∀ m ∈ activeMembers a.state, m.policyId ≠ a.cand.policyId →
    Usable c db trusted a.state.revocations now m

variable (hcov : Covered db) (hown : OwnRow db a.state a.cand)

include hcov hown

theorem loadState_after (hstamps : StampsRead c a.cand now) :
    ∃ state gen, loadState c a.after = .ok state ∧ state.active = some gen ∧
      loadGeneration c a.after (nextGeneration db) = .ok gen ∧
      state.lastKnownGood = a.state.active ∧ state.revocations = a.state.revocations := by
  have hstate := loadState_stateOf a.loaded
  have hhw : ∃ hw, a.after.highWater.collect (HighWaterRow.intoHighWater c) = .ok hw := by
    refine OrdMap.collect_isOk fun k row hrow => ?_
    change (db.highWater.insert a.cand.lineage _).get? k = some row at hrow
    rw [OrdMap.get?_insert] at hrow
    by_cases hk : k = a.cand.lineage
    · rw [if_pos hk] at hrow
      rw [← some.inj hrow]
      exact intoHighWater_isOk hstamps.now k
    · rw [if_neg hk] at hrow
      exact OrdMap.collect_rows hstate.highWater hrow
  have hgen : ∃ gen, loadGeneration c a.after (nextGeneration db) = .ok gen := by
    refine loadGeneration_isOk a.new_row
      ((a.covered hcov hown).stored _ _ a.new_row) hstamps.now fun p key b hkey hb => ?_
    rcases (a.rows_iff hown).mp hkey with ⟨_, rfl⟩ | ⟨m, hm, _, _, rfl⟩
    · rw [a.get?_own_row hcov hown] at hb
      rw [← some.inj hb]
      exact (a.own_row_readable hown).mpr hstamps
    · obtain ⟨b', hb', hgives⟩ := a.active_stored hcov hm
      rw [a.get?_old_row hb'] at hb
      rw [← some.inj hb]
      exact hgives.readable
  obtain ⟨hw, hhw⟩ := hhw
  obtain ⟨gen, hgen⟩ := hgen
  have hslot : loadSlot c a.after (activeSlot a.after) = .ok (some gen) :=
    Fallible.map_eq_ok.mpr ⟨gen, hgen, rfl⟩
  obtain ⟨state, hload, hactive, hlkg, hrev⟩ :=
    loadState_isOk hhw hslot (a.lastKnownGood_after hcov)
  exact ⟨state, gen, hload, hactive, hgen, hlkg, hrev.trans hstate.revocations.symm⟩

theorem new_loadsAs {gen : CacheGeneration}
    (hgen : loadGeneration c a.after (nextGeneration db) = .ok gen) :
    LoadsAs c a.after (nextGeneration db) ⟨c.toRfc3339 now, a.rows⟩ gen ∧
      MembersStored a.after ⟨c.toRfc3339 now, a.rows⟩ := by
  obtain ⟨row, hrow, hstored⟩ := loadGeneration_loadsAs ((a.covered hcov hown).stored _) hgen
  cases hrow.row_eq.symm.trans a.new_row
  exact ⟨hrow, hstored⟩

theorem stampsRead_of_loadState
    {state : PolicyCacheState} (h : loadState c a.after = .ok state) : StampsRead c a.cand now := by
  obtain ⟨gen, hgen, -⟩ := Fallible.map_eq_ok.mp (loadState_stateOf h).active
  obtain ⟨hrow, hstored⟩ := a.new_loadsAs hcov hown hgen
  obtain ⟨m, _, b, hb, _, hgives⟩ :=
    hrow.exists_member hstored ((a.rows_iff hown).mpr (.inl ⟨rfl, rfl⟩))
  rw [a.get?_own_row hcov hown] at hb
  rw [← some.inj hb] at hgives
  exact (a.own_row_readable hown).mp hgives.readable

theorem own_usable {m : CachedBundleRef}
    (hm : (newBundleRow c envelope a.stored).Gives c a.cand.key m) :
    Usable c a.after trusted a.state.revocations now m := by
  obtain ⟨nb, ea, _, _, hstored, _⟩ := a.stored_eq hown
  obtain ⟨bound, hbound⟩ := a.activates.binds
  have hpair : (m.bundleId, m.payloadDigest) = (a.cand.bundleId, a.cand.payloadDigest) :=
    toLex.injective hm.key_eq
  have hdigest : m.payloadDigest = a.cand.payloadDigest := (Prod.mk.inj hpair).2
  have hrev : m.revisionDigest = a.cand.revision.digest := by
    rw [hm.revisionDigest_eq, hstored]
    rfl
  refine ⟨bound, ?_⟩
  unfold reloadMember
  rw [hrev, hdigest, a.activates.notRevoked, hm.key_eq, a.get?_own_row hcov hown]
  simp only [newBundleRow, reverify, a.verified, rebind, hbound]

theorem new_usable_iff
    {gen : CacheGeneration} (hgen : loadGeneration c a.after (nextGeneration db) = .ok gen) :
    (∀ m ∈ gen.members, Usable c a.after trusted a.state.revocations now m) ↔ a.OthersUsable := by
  obtain ⟨hrow, hstored⟩ := a.new_loadsAs hcov hown hgen
  constructor
  · intro h m hm hne
    obtain ⟨m', hm', b, hb, _, hgives⟩ :=
      hrow.exists_member hstored ((a.rows_iff hown).mpr (.inr ⟨m, hm, hne, rfl, rfl⟩))
    exact (a.old_usable_iff hcov hm hb hgives).mp (h m' hm')
  · intro h m hm
    obtain ⟨hlisted, b, hb, hgives⟩ := hrow.member hstored hm
    rcases (a.rows_iff hown).mp hlisted with ⟨_, hkey⟩ | ⟨m₀, hm₀, hne, _, hkey⟩
    · rw [hkey, a.get?_own_row hcov hown] at hb
      rw [← some.inj hb, hkey] at hgives
      exact a.own_usable hcov hown hgives
    · rw [← hkey] at hb hgives
      exact (a.old_usable_iff hcov hm₀ hb hgives).mpr (h m₀ hm₀ hne)

theorem loaded_after_iff :
    Loaded c a.after trusted now ↔ StampsRead c a.cand now ∧ a.OthersUsable := by
  rw [loaded_iff]
  constructor
  · intro h
    obtain ⟨state, hload, husable⟩ := h
    have hstamps := a.stampsRead_of_loadState hcov hown hload
    obtain ⟨state', gen, hload', hactive, hgen, hlkg, hrev⟩ := a.loadState_after hcov hown hstamps
    cases hload.symm.trans hload'
    rw [hrev, hactive, hlkg] at husable
    refine ⟨hstamps, ?_⟩
    rcases husable with ⟨gen', heq, hall⟩ | ⟨gen', heq, hall⟩
    · cases heq
      exact (a.new_usable_iff hcov hown hgen).mp hall
    · -- the former active generation is usable as a whole
      intro m hm _
      have hmem : m ∈ gen'.members := by
        unfold activeMembers at hm
        rw [heq] at hm
        exact hm
      obtain ⟨b, hb, hgives⟩ := a.active_stored hcov hm
      exact (a.old_usable_iff hcov hm (a.get?_old_row hb) hgives).mp (hall m hmem)
  · intro h
    obtain ⟨state, gen, hload, hactive, hgen, _, hrev⟩ := a.loadState_after hcov hown h.1
    refine ⟨state, hload, .inl ⟨gen, hactive, ?_⟩⟩
    rw [hrev]
    exact (a.new_usable_iff hcov hown hgen).mpr h.2

end Activation

/-- In a run whose activations store their own bundle rows, an activation keeps the
cache loaded exactly when the timestamps it writes read back and every active member
of another lineage is usable. -/
theorem activation_keeps_policy_iff (c : Crates) (ops : List CacheOp) (envelope : Bytes)
    (trusted : TrustedVerificationKeys) (now : Instant) (cand : VerifiedPolicyBundle)
    (state : PolicyCacheState) (g : ℕ) (superseded : Option ℕ) (replaced : Option Uuid)
    (db' : Tables) (hown : OwnRows c (ops ++ [.submitBundle envelope trusted now]))
    (hcand : verifyBundle c envelope trusted now = .ok cand)
    (hstate : loadState c (cacheRun c ops) = .ok state)
    (hact : submitPolicyBundle c (cacheRun c ops) envelope trusted now =
      (.ok (.activated g superseded replaced), db')) :
    Loaded c (cacheRun c ops) trusted now → (Loaded c db' trusted now ↔ StampsRead c cand now ∧
        ∀ m ∈ activeMembers state, m.policyId ≠ cand.policyId →
          Usable c (cacheRun c ops) trusted state.revocations now m) := by
  intro _
  obtain ⟨a, rfl⟩ := submitPolicyBundle_activated hact
  cases hcand.symm.trans a.verified
  cases hstate.symm.trans a.loaded
  exact a.loaded_after_iff (cacheRun_covered hown.append_left) (a.ownRow hown.last)

/-- `B1` is revoked, so `A1` alone is served from the last known good generation; the
activation of `C1` takes `B1` over into the new generation and drops the old one. -/
theorem activation_loses_usable_policy :
    ¬ ∀ (c : Crates) (ops : List CacheOp) (envelope : Bytes) (trusted : TrustedVerificationKeys)
      (now : Instant) (g : ℕ) (superseded : Option ℕ) (replaced : Option Uuid) (db' : Tables),
      submitPolicyBundle c (cacheRun c ops) envelope trusted now =
        (.ok (.activated g superseded replaced), db') →
      Loaded c (cacheRun c ops) trusted now → Loaded c db' trusted now := by
  intro h
  have hact : (submitPolicyBundle lab
      (cacheRun lab [labSubmit "A1", labSubmit "B1", labRevoke "R1"]) (asciiBytes "C1") labKeys
      labNow).1 = .ok (.activated 3 (some 2) none) := by decide
  have hbefore : Loaded lab (cacheRun lab [labSubmit "A1", labSubmit "B1", labRevoke "R1"])
      labKeys labNow := by decide
  have hafter : ¬ Loaded lab
      (cacheRun lab [labSubmit "A1", labSubmit "B1", labRevoke "R1", labSubmit "C1"])
      labKeys labNow := by decide
  exact hafter (h lab _ _ labKeys labNow 3 (some 2) none _ (Prod.ext hact rfl) hbefore)

theorem lab_reads (t : Instant) : lab.Reads (lab.toRfc3339 t) := by
  change ∃ u, labParse (labFormat t) = .ok u
  unfold labFormat
  split
  · exact ⟨labNow, by decide⟩
  · exact ⟨labExpiry, by decide⟩

/-- The activation of a second lineage beside a usable one. -/
theorem activation_keeps_policy_second_lineage :
    Loaded lab (cacheRun lab [labSubmit "A1", labSubmit "B1"]) labKeys labNow := by
  have hown : OwnRows lab ([labSubmit "A1"] ++ [labSubmit "B1"]) :=
    Runs.along_cons (by decide) (Runs.along_cons (by decide) (Runs.along_nil _ _))
  obtain ⟨cand, hcand⟩ := Fallible.exists_of_isOk
    (show (verifyBundle lab (asciiBytes "B1") labKeys labNow).isOk = true by decide)
  obtain ⟨state, hstate⟩ := Fallible.exists_of_isOk
    (show (loadState lab (cacheRun lab [labSubmit "A1"])).isOk = true by decide)
  have hact : (submitPolicyBundle lab (cacheRun lab [labSubmit "A1"]) (asciiBytes "B1") labKeys
      labNow).1 = .ok (.activated 2 (some 1) none) := by decide
  have husable : (loadState lab (cacheRun lab [labSubmit "A1"])).map (fun state =>
      (activeMembers state).all fun m => (reloadMember lab (cacheRun lab [labSubmit "A1"]) labKeys
        state.revocations labNow m).isOk) = .ok true := by decide
  rw [hstate] at husable
  refine (activation_keeps_policy_iff lab [labSubmit "A1"] _ labKeys labNow cand state 2 (some 1)
    none _ hown hcand hstate (Prod.ext hact rfl) (by decide)).mpr ⟨?_, fun m hm _ => ?_⟩
  · exact ⟨lab_reads _, fun t _ => lab_reads t, fun t _ => lab_reads t⟩
  · exact Fallible.exists_of_isOk (List.all_eq_true.mp (Except.ok.inj husable) m hm)

end Fornax
