import Fornax.Store.PolicyCache

namespace Fornax

open List OrdMap Fallible

def Crates.Reads (c : Crates) (text : String) : Prop := ∃ t, c.parseRfc3339 text = .ok t

variable {c : Crates} {m : CachedBundleRef} {db : Tables} {g : ℕ} {gen : CacheGeneration}
  {state : PolicyCacheState}

theorem readTime_ok {field value : String} {t : Instant} :
    readTime c field value = .ok t ↔ c.parseRfc3339 value = .ok t := by
  unfold readTime
  cases c.parseRfc3339 value with
  | error e => simp
  | ok u => simp

theorem readTime_isOk {value : String} (h : c.Reads value) (field : String) :
    ∃ t, readTime c field value = .ok t := by
  obtain ⟨t, ht⟩ := h
  exact ⟨t, readTime_ok.mpr ht⟩

structure BundleRow.Readable (c : Crates) (row : BundleRow) : Prop where
  notBefore : c.Reads row.notBefore
  expiresAt : c.Reads row.expiresAt
  firstActivatedAt : c.Reads row.firstActivatedAt
  confirmedAt : c.Reads row.confirmedAt

structure BundleRow.Gives (c : Crates) (key : BundleKey) (row : BundleRow) (m : CachedBundleRef) :
    Prop where
  key_eq : m.key = key
  issuer_eq : m.issuer = row.issuer
  sequence_eq : m.sequence = row.sequence
  policyId_eq : m.policyId = row.policyId
  revisionDigest_eq : m.revisionDigest = row.revisionDigest
  confirmedAt_eq : c.parseRfc3339 row.confirmedAt = .ok m.confirmedAt
  readable : row.Readable c

theorem BundleRow.gives_of_ok {key : BundleKey} {row : BundleRow}
    (h : row.intoCachedBundleRef c key = .ok m) : row.Gives c key m := by
  obtain ⟨nb, hnb, h⟩ := bind_eq_ok.mp h
  obtain ⟨ea, hea, h⟩ := bind_eq_ok.mp h
  obtain ⟨fa, hfa, h⟩ := bind_eq_ok.mp h
  obtain ⟨ca, hca, h⟩ := bind_eq_ok.mp h
  have hm := (Except.ok.inj h).symm
  rw [readTime_ok] at hnb hea hfa hca
  exact {
    key_eq := by rw [hm]; rfl
    issuer_eq := by rw [hm]
    sequence_eq := by rw [hm]
    policyId_eq := by rw [hm]
    revisionDigest_eq := by rw [hm]
    confirmedAt_eq := by rw [hm]; exact hca
    readable := ⟨⟨nb, hnb⟩, ⟨ea, hea⟩, ⟨fa, hfa⟩, ⟨ca, hca⟩⟩ }

theorem BundleRow.intoCachedBundleRef_isOk {row : BundleRow} (h : row.Readable c)
    (key : BundleKey) : ∃ m, row.intoCachedBundleRef c key = .ok m := by
  obtain ⟨nb, hnb⟩ := readTime_isOk h.notBefore "not_before"
  obtain ⟨ea, hea⟩ := readTime_isOk h.expiresAt "expires_at"
  obtain ⟨fa, hfa⟩ := readTime_isOk h.firstActivatedAt "first_activated_at"
  obtain ⟨ca, hca⟩ := readTime_isOk h.confirmedAt "confirmed_at"
  refine ⟨_, bind_eq_ok.mpr ⟨nb, hnb, bind_eq_ok.mpr ⟨ea, hea,
    bind_eq_ok.mpr ⟨fa, hfa, bind_eq_ok.mpr ⟨ca, hca, rfl⟩⟩⟩⟩⟩

def MembersStored (db : Tables) (row : GenerationRow) : Prop :=
  ∀ p key, row.members.get? p = some key → ∃ b, db.bundles.get? key = some b ∧ b.policyId = p

variable {row : GenerationRow} {key : LineageKey}

theorem MembersStored.nodup_keys (h : MembersStored db row) :
    (row.members.entries.map Prod.snd).Nodup := by
  refine pairwise_map.mpr ((pairwise_map.mp row.members.sorted).imp_of_mem ?_)
  intro e e' he he' hlt heq
  obtain ⟨b, hb, hbp⟩ := h e.1 e.2 (mem_entries.mp he)
  obtain ⟨b', hb', hbp'⟩ := h e'.1 e'.2 (mem_entries.mp he')
  rw [heq, hb'] at hb
  cases hb
  exact absurd (hbp.symm.trans hbp') (ne_of_lt hlt)

def memberRef (c : Crates) (bundles : OrdMap BundleKey BundleRow) (e : Uuid × BundleKey) :
    Except StoreError CachedBundleRef :=
  match bundles.get? e.2 with
  | some row => row.intoCachedBundleRef c e.2
  | none => .ok (danglingRef e.1 e.2)

theorem get?_joinedRows {bundles : OrdMap BundleKey BundleRow} {raw : List (Uuid × BundleKey)}
    (hnodup : (raw.map Prod.snd).Nodup) {e : Uuid × BundleKey} (he : e ∈ raw) :
    (joinedRows bundles raw).get? e.2 = bundles.get? e.2 := by
  have hsub : ∀ l : List (Uuid × BundleKey), ((l.filterMap fun e =>
      (bundles.get? e.2).map fun row => (e.2, row)).map Prod.fst).Sublist (l.map Prod.snd) := by
    intro l
    induction l with
    | nil => exact List.Sublist.refl []
    | cons e l ih =>
      rw [filterMap_cons]
      cases bundles.get? e.2 with
      | none => exact ih.cons _
      | some row => exact ih.cons_cons _
  refine Option.ext fun row => ?_
  rw [joinedRows, get?_ofList (hnodup.sublist (hsub raw)), mem_filterMap]
  constructor
  · intro h
    obtain ⟨e', _, he'⟩ := h
    obtain ⟨row', hrow', heq⟩ := Option.map_eq_some_iff.mp he'
    obtain ⟨hkey, hrow⟩ := Prod.mk.inj heq
    rw [← hkey, ← hrow]
    exact hrow'
  · intro h
    exact ⟨e, he, by rw [h]; rfl⟩

theorem resolveMembers_eq_mapM (c : Crates) {bundles : OrdMap BundleKey BundleRow} :
    ∀ {raw : List (Uuid × BundleKey)} {resolved : OrdMap BundleKey BundleRow},
      (raw.map Prod.snd).Nodup → (∀ e ∈ raw, resolved.get? e.2 = bundles.get? e.2) →
      resolveMembers c resolved raw = raw.mapM (memberRef c bundles) := by
  intro raw
  induction raw with
  | nil => exact fun _ _ => rfl
  | cons e raw ih =>
    obtain ⟨p, key⟩ := e
    intro resolved hnodup hagree
    rw [map_cons, nodup_cons] at hnodup
    have hhead := hagree (p, key) mem_cons_self
    have htail : ∀ e ∈ raw, resolved.get? e.2 = bundles.get? e.2 := fun e he =>
      hagree e (mem_cons_of_mem _ he)
    rw [mapM_cons, resolveMembers, memberRef]
    simp only at hhead
    rw [hhead]
    cases hb : bundles.get? key with
    | none =>
      simp only
      rw [ih hnodup.2 htail]
      rfl
    | some row =>
      simp only
      -- the row that is taken out is named by no later member row
      have herase : ∀ e ∈ raw, (resolved.erase key).get? e.2 = bundles.get? e.2 := by
        intro e he
        have hne : e.2 ≠ key := fun heq => hnodup.1 (mem_map.mpr ⟨e, he, heq⟩)
        rw [get?_erase_of_ne resolved hne, htail e he]
      rw [ih hnodup.2 herase]

theorem loadGeneration_eq (c : Crates) (hrow : db.generations.get? g = some row)
    (hstored : MembersStored db row) : loadGeneration c db g = (do
      let members ← row.members.entries.mapM (memberRef c db.bundles)
      let writtenAt ← readTime c "written_at" row.writtenAt return ⟨g, members, writtenAt⟩) := by
  have hnodup := hstored.nodup_keys
  unfold loadGeneration
  rw [hrow]
  simp only
  rw [resolveMembers_eq_mapM c hnodup fun e he => get?_joinedRows hnodup he]

theorem loadGeneration_row (h : loadGeneration c db g = .ok gen) :
    ∃ row, db.generations.get? g = some row := by
  rw [← Option.ne_none_iff_exists']
  intro hnone
  rw [loadGeneration, hnone] at h
  cases h

structure LoadsAs (c : Crates) (db : Tables) (g : ℕ) (row : GenerationRow)
    (gen : CacheGeneration) : Prop where
  row_eq : db.generations.get? g = some row
  number : gen.generation = g
  members : row.members.entries.mapM (memberRef c db.bundles) = .ok gen.members
  writtenAt : c.Reads row.writtenAt

theorem loadGeneration_loadsAs
    (hstored : ∀ row, db.generations.get? g = some row → MembersStored db row)
    (h : loadGeneration c db g = .ok gen) :
    ∃ row, LoadsAs c db g row gen ∧ MembersStored db row := by
  obtain ⟨row, hrow⟩ := loadGeneration_row h
  rw [loadGeneration_eq c hrow (hstored row hrow)] at h
  obtain ⟨members, hmembers, h⟩ := bind_eq_ok.mp h
  obtain ⟨writtenAt, hwritten, h⟩ := bind_eq_ok.mp h
  cases h
  exact ⟨row, ⟨hrow, rfl, hmembers, writtenAt, readTime_ok.mp hwritten⟩, hstored row hrow⟩

theorem memberRef_ok (hstored : MembersStored db row) {e : Uuid × BundleKey}
    (he : e ∈ row.members.entries) (h : memberRef c db.bundles e = .ok m) :
    ∃ b, db.bundles.get? e.2 = some b ∧ b.policyId = e.1 ∧ b.Gives c e.2 m := by
  obtain ⟨b, hb, hp⟩ := hstored e.1 e.2 (mem_entries.mp he)
  unfold memberRef at h
  rw [hb] at h
  exact ⟨b, hb, hp, BundleRow.gives_of_ok h⟩

section Members

variable (h : LoadsAs c db g row gen) (hstored : MembersStored db row)

include h hstored

theorem LoadsAs.exists_member {p : Uuid} {key : BundleKey} (hkey : row.members.get? p = some key) :
    ∃ m ∈ gen.members, ∃ b, db.bundles.get? key = some b ∧ b.policyId = p ∧ b.Gives c key m := by
  have hmem := mem_entries.mpr hkey
  obtain ⟨m, hm, href⟩ := mapM_ok_of_mem h.members hmem
  exact ⟨m, hm, memberRef_ok hstored hmem href⟩

theorem LoadsAs.member (hm : m ∈ gen.members) : row.members.get? m.policyId = some m.key ∧
      ∃ b, db.bundles.get? m.key = some b ∧ b.Gives c m.key m := by
  obtain ⟨e, he, href⟩ := mem_of_mapM_ok h.members hm
  obtain ⟨b, hb, hp, hgives⟩ := memberRef_ok hstored he href
  have hkey := hgives.key_eq
  have hpolicy : m.policyId = e.1 := hgives.policyId_eq.trans hp
  rw [hkey, hpolicy]
  exact ⟨mem_entries.mp he, b, hb, hkey ▸ hgives⟩

theorem LoadsAs.policyIds :
    gen.members.map (fun m => m.policyId) = row.members.entries.map Prod.fst := by
  have hall : ∀ {raw : List (Uuid × BundleKey)} {ms : List CachedBundleRef},
      List.Forall₂ (fun e m => memberRef c db.bundles e = .ok m) raw ms →
      (∀ e ∈ raw, e ∈ row.members.entries) →
      ms.map (fun m => m.policyId) = raw.map Prod.fst := by
    intro raw ms hrefs
    induction hrefs with
    | nil => exact fun _ => rfl
    | cons href _ ih =>
      intro hmem
      obtain ⟨b, _, hp, hgives⟩ := memberRef_ok hstored (hmem _ mem_cons_self) href
      rw [map_cons, map_cons, ih fun e he => hmem e (mem_cons_of_mem _ he), hgives.policyId_eq, hp]
  exact hall (mapM_ok_iff.mp h.members) fun _ he => he

theorem LoadsAs.sorted : gen.members.Pairwise fun m m' => m.policyId < m'.policyId := by
  have hsorted := row.members.sorted
  rw [← h.policyIds hstored] at hsorted
  exact pairwise_map.mp hsorted

end Members

theorem loadGeneration_isOk (hrow : db.generations.get? g = some row)
    (hstored : MembersStored db row) (hwritten : c.Reads row.writtenAt)
    (hreadable : ∀ p key b, row.members.get? p = some key → db.bundles.get? key = some b →
      b.Readable c)
    : ∃ gen, loadGeneration c db g = .ok gen := by
  have hmembers : ∃ ms, row.members.entries.mapM (memberRef c db.bundles) = .ok ms := by
    refine mapM_isOk_iff.mpr fun e he => ?_
    have hkey := mem_entries.mp he
    obtain ⟨b, hb, _⟩ := hstored e.1 e.2 hkey
    unfold memberRef
    rw [hb]
    exact BundleRow.intoCachedBundleRef_isOk (hreadable e.1 e.2 b hkey hb) e.2
  obtain ⟨ms, hms⟩ := hmembers
  obtain ⟨t, ht⟩ := readTime_isOk hwritten "written_at"
  rw [loadGeneration_eq c hrow hstored]
  exact ⟨_, bind_eq_ok.mpr ⟨ms, hms, bind_eq_ok.mpr ⟨t, ht, rfl⟩⟩⟩

def activeSlot (db : Tables) : Option ℕ := db.slots.bind fun s => s.activeGeneration

def lastKnownGoodSlot (db : Tables) : Option ℕ := db.slots.bind fun s => s.lastKnownGoodGeneration

def everConfigured (db : Tables) : Bool := (db.slots.map fun s => s.everConfigured).getD false

structure StateOf (c : Crates) (db : Tables) (state : PolicyCacheState) : Prop where
  highWater : db.highWater.collect (HighWaterRow.intoHighWater c) = .ok state.highWater
  active : loadSlot c db (activeSlot db) = .ok state.active
  lastKnownGood : loadSlot c db (lastKnownGoodSlot db) = .ok state.lastKnownGood
  revocations : state.revocations = loadRevocations db
  everConfigured : state.everConfigured = everConfigured db

theorem loadState_eq (c : Crates) (db : Tables) : loadState c db = (do
    let highWater ← db.highWater.collect (HighWaterRow.intoHighWater c)
    let active ← loadSlot c db (activeSlot db)
    let lastKnownGood ← loadSlot c db (lastKnownGoodSlot db)
    return ⟨(db.slots.map fun s => s.schemaVersion).getD policyCacheSchemaVersion, active, none,
      lastKnownGood, highWater, everConfigured db, loadRevocations db⟩) := by
  unfold loadState activeSlot lastKnownGoodSlot everConfigured
  cases db.slots with
  | none => rfl
  | some slots => rfl

theorem loadState_stateOf (h : loadState c db = .ok state) : StateOf c db state := by
  rw [loadState_eq] at h
  obtain ⟨highWater, hhw, h⟩ := bind_eq_ok.mp h
  obtain ⟨active, hactive, h⟩ := bind_eq_ok.mp h
  obtain ⟨lkg, hlkg, h⟩ := bind_eq_ok.mp h
  cases h
  exact ⟨hhw, hactive, hlkg, rfl, rfl⟩

theorem loadState_isOk {highWater : OrdMap LineageKey SequenceHighWater}
    {active lkg : Option CacheGeneration}
    (hhw : db.highWater.collect (HighWaterRow.intoHighWater c) = .ok highWater)
    (hactive : loadSlot c db (activeSlot db) = .ok active)
    (hlkg : loadSlot c db (lastKnownGoodSlot db) = .ok lkg) :
    ∃ state, loadState c db = .ok state ∧ state.active = active ∧ state.lastKnownGood = lkg ∧
      state.revocations = loadRevocations db := by
  rw [loadState_eq]
  exact ⟨_, bind_eq_ok.mpr ⟨highWater, hhw, bind_eq_ok.mpr ⟨active, hactive,
    bind_eq_ok.mpr ⟨lkg, hlkg, rfl⟩⟩⟩, rfl, rfl, rfl⟩

theorem loadSlot_some {slot : Option ℕ} (h : loadSlot c db slot = .ok (some gen)) :
    ∃ g, slot = some g ∧ loadGeneration c db g = .ok gen := by
  cases slot with
  | none => cases h
  | some g =>
    obtain ⟨gen', hg, heq⟩ := map_eq_ok.mp h
    exact ⟨g, rfl, Option.some.inj heq ▸ hg⟩

theorem intoHighWater_ok {row : HighWaterRow} {hw : SequenceHighWater}
    (h : row.intoHighWater c key = .ok hw) :
    hw.maxSequence = row.maxSequence ∧ hw.lastBundleId = row.lastBundleId ∧
      hw.lastPayloadDigest = row.lastPayloadDigest ∧ c.Reads row.lastSeenAt := by
  obtain ⟨t, ht, h⟩ := bind_eq_ok.mp h
  cases h
  exact ⟨rfl, rfl, rfl, ⟨t, readTime_ok.mp ht⟩⟩

theorem intoHighWater_isOk {row : HighWaterRow} (h : c.Reads row.lastSeenAt) (key : LineageKey) :
    ∃ hw, row.intoHighWater c key = .ok hw := by
  obtain ⟨t, ht⟩ := readTime_isOk h "last_seen_at"
  exact ⟨_, bind_eq_ok.mpr ⟨t, ht, rfl⟩⟩

theorem StateOf.highWater_of_row (h : StateOf c db state) {row : HighWaterRow}
    (hrow : db.highWater.get? key = some row) :
    ∃ hw, state.highWater.get? key = some hw ∧ hw.maxSequence = row.maxSequence := by
  obtain ⟨hw, hhw⟩ := collect_rows h.highWater hrow
  exact ⟨hw, (get?_collect h.highWater).mpr ⟨row, hrow, hhw⟩, (intoHighWater_ok hhw).1⟩

theorem StateOf.row_of_highWater (h : StateOf c db state) {hw : SequenceHighWater}
    (hhw : state.highWater.get? key = some hw) :
    ∃ row, db.highWater.get? key = some row ∧ hw.maxSequence = row.maxSequence ∧
      hw.lastBundleId = row.lastBundleId ∧ hw.lastPayloadDigest = row.lastPayloadDigest := by
  obtain ⟨row, hrow, hinto⟩ := (get?_collect h.highWater).mp hhw
  obtain ⟨hmax, hid, hdigest, _⟩ := intoHighWater_ok hinto
  exact ⟨row, hrow, hmax, hid, hdigest⟩

end Fornax
