import Fornax.Store.PolicyRuns

namespace Fornax

open Fallible

variable {c : Crates} {db : Tables} {trusted : TrustedVerificationKeys} {now : Instant}

structure MemberHolds (c : Crates) (db : Tables) (m : CachedBundleRef)
    (bound : List BoundRevision) : Prop where
  stored : ∃ row payload, db.bundles.get? m.key = some row ∧
    carriedPayload c row.envelope = some payload ∧
    payload.bindings.mapM (fun b => BoundRevision.new b payload.revision) = .ok bound

structure Unrevoked (db : Tables) (rev : RevisionDigest) (payload : PayloadDigest) : Prop where
  revision : ∀ issuer key, (RevocationTarget.revisionDigest rev).rowKey issuer = some key →
    db.revocations.contains key = false
  payload : ∀ issuer key, (RevocationTarget.payloadDigest payload).rowKey issuer = some key →
    db.revocations.contains key = false

theorem hit_eq_none {s : RevocationSet} {rev : RevisionDigest} {payload : PayloadDigest}
    (h : s.hit rev payload = none) :
    s.revokes (.revisionDigest rev) = false ∧ s.revokes (.payloadDigest payload) = false := by
  unfold RevocationSet.hit at h
  cases hrev : s.revisionDigests.get? rev with
  | some hitMeta => simp [hrev] at h
  | none =>
    simp only [hrev, Option.map_eq_none_iff] at h
    simp [RevocationSet.revokes, OrdMap.contains, hrev, h]

theorem unrevoked_of_hit {rev : RevisionDigest} {payload : PayloadDigest}
    (h : (loadRevocations db).hit rev payload = none) : Unrevoked db rev payload := by
  obtain ⟨hrev, hpay⟩ := hit_eq_none h
  have habsent : ∀ {t : RevocationTarget}, (loadRevocations db).revokes t = false →
      ∀ issuer key, t.rowKey issuer = some key → db.revocations.contains key = false := by
    intro t ht issuer key hkey
    by_contra hcontains
    rw [Bool.not_eq_false] at hcontains
    have hrevoked := (revokes_loadRevocations db t).mpr ⟨issuer, key, hkey, hcontains⟩
    rw [ht] at hrevoked
    cases hrevoked
  exact ⟨habsent hrev, habsent hpay⟩

variable {bound : List BoundRevision} {envelope : Bytes}

theorem rebind_ok {v : VerifiedPolicyBundle} {id : Uuid} {detail : String}
    (h : rebind v id detail = .ok bound) :
    v.payload.bindings.mapM (fun b => BoundRevision.new b v.payload.revision) = .ok bound := by
  unfold rebind at h
  cases hv : v.intoBoundRevisions with
  | error e => simp [hv] at h
  | ok bound' =>
    simp only [hv, Except.ok.injEq] at h
    rw [← h]
    exact hv

section

variable {id : Uuid} (h : reverify c envelope id trusted now = .ok bound)

include h

theorem reverify_cases : Authenticated (verifyBundle c envelope trusted now) ∧
      ∃ t v, verifyBundle c envelope trusted t = .ok v ∧
        v.payload.bindings.mapM (fun b => BoundRevision.new b v.payload.revision) = .ok bound := by
  unfold reverify at h
  split at h
  · rename_i v hv
    rw [hv]
    exact ⟨trivial, now, v, hv, rebind_ok h⟩
  · rename_i expiresAt _ hexpired
    rw [hexpired]
    split at h
    · cases h
    · rename_i rewindNow _
      split at h
      · rename_i v hv
        exact ⟨trivial, rewindNow, v, hv, rebind_ok h⟩
      · cases h
  · cases h

theorem reverify_ok :
    CurrentlySigned c trusted now envelope ∧ ∃ payload, carriedPayload c envelope = some payload ∧
      payload.bindings.mapM (fun b => BoundRevision.new b payload.revision) = .ok bound := by
  obtain ⟨hauth, t, v, hv, hbound⟩ := reverify_cases h
  obtain ⟨-, -, hsigned, -⟩ := verifyBundle_authenticated hauth
  exact ⟨hsigned, v.payload, (verifyBundle_carried hv).1, hbound⟩

end

theorem reloadMember_ok {m : CachedBundleRef}
    (h : reloadMember c db trusted (loadRevocations db) now m = .ok bound) :
    MemberHolds c db m bound ∧ Unrevoked db m.revisionDigest m.payloadDigest ∧
      ∃ row, db.bundles.get? m.key = some row ∧ CurrentlySigned c trusted now row.envelope := by
  unfold reloadMember at h
  cases hhit : (loadRevocations db).hit m.revisionDigest m.payloadDigest with
  | some hit => simp [hhit] at h
  | none =>
    simp only [hhit] at h
    cases hrow : db.bundles.get? m.key with
    | none => simp [hrow] at h
    | some row =>
      simp only [hrow] at h
      obtain ⟨hsigned, payload, hcarried, hbound⟩ := reverify_ok h
      exact ⟨⟨row, payload, hrow, hcarried, hbound⟩, unrevoked_of_hit hhit, row, rfl, hsigned⟩

theorem danglingRef_key (p : Uuid) (key : BundleKey) : (danglingRef p key).key = key := rfl

theorem resolveMembers_keys {resolved : OrdMap BundleKey BundleRow}
    {raw : List (Uuid × BundleKey)} {members : List CachedBundleRef}
    (h : resolveMembers c resolved raw = .ok members) :
    members.map CachedBundleRef.key = raw.map Prod.snd := by
  induction raw generalizing resolved members with
  | nil =>
    rw [← Except.ok.inj h]
    rfl
  | cons e rest ih =>
    obtain ⟨p, key⟩ := e
    rw [resolveMembers] at h
    cases hrow : resolved.get? key with
    | some row =>
      simp only [hrow] at h
      obtain ⟨m, hm, h⟩ := bind_eq_ok.mp h
      obtain ⟨ms, hms, h⟩ := bind_eq_ok.mp h
      rw [← Except.ok.inj h, List.map_cons, List.map_cons, ih hms,
        (BundleRow.gives_of_ok hm).key_eq]
    | none =>
      simp only [hrow] at h
      obtain ⟨ms, hms, h⟩ := bind_eq_ok.mp h
      rw [← Except.ok.inj h, List.map_cons, List.map_cons, ih hms, danglingRef_key]

structure StoredGeneration (db : Tables) (slot : Option ℕ) (gen : CacheGeneration) : Prop where
  rows : ∃ g row, slot = some g ∧ db.generations.get? g = some row ∧
    gen.members.map CachedBundleRef.key = row.members.values

theorem storedGeneration_of_load {slot : Option ℕ} {gen : CacheGeneration}
    (h : loadSlot c db slot = .ok (some gen)) : StoredGeneration db slot gen := by
  obtain ⟨g, hslot, hload⟩ := loadSlot_some h
  unfold loadGeneration at hload
  cases hrow : db.generations.get? g with
  | none => simp [hrow] at hload
  | some row =>
    simp only [hrow] at hload
    obtain ⟨members, hmembers, hload⟩ := bind_eq_ok.mp hload
    obtain ⟨writtenAt, -, hload⟩ := bind_eq_ok.mp hload
    rw [← Except.ok.inj hload]
    exact ⟨g, row, hslot, hrow, resolveMembers_keys hmembers⟩

/-- What is served of a generation: the revisions of all its members, each unrevoked and signed by a
current key. -/
structure ServesWhole (c : Crates) (db : Tables) (trusted : TrustedVerificationKeys)
    (now : Instant) (gen : CacheGeneration) (usable : List BoundRevision) : Prop where
  whole : ∃ bounds, List.Forall₂ (MemberHolds c db) gen.members bounds ∧ usable = bounds.flatten
  unrevoked : ∀ m ∈ gen.members, Unrevoked db m.revisionDigest m.payloadDigest
  signed : ∀ m ∈ gen.members, ∃ row, db.bundles.get? m.key = some row ∧
    CurrentlySigned c trusted now row.envelope

theorem trySlot_ok {slot : Option CacheGeneration} {usable : List BoundRevision}
    (h : trySlot c db trusted (loadRevocations db) now slot = .ok usable) :
    ∃ gen, slot = some gen ∧ ServesWhole c db trusted now gen usable := by
  cases slot with
  | none => cases h
  | some gen =>
    unfold trySlot tryGenerationUsable at h
    obtain ⟨bounds, hm, hflat⟩ := map_eq_ok.mp (mapError_eq_ok.mp h)
    have hall := mapM_ok_iff.mp hm
    refine ⟨gen, rfl, ⟨bounds, ?_, hflat.symm⟩, fun m hmem => ?_, fun m hmem => ?_⟩
    · exact hall.imp fun m bound hok => (reloadMember_ok hok).1
    · obtain ⟨bound, -, hok⟩ := mapM_ok_of_mem hm hmem
      exact (reloadMember_ok hok).2.1
    · obtain ⟨bound, -, hok⟩ := mapM_ok_of_mem hm hmem
      exact (reloadMember_ok hok).2.2

theorem chooseSlot_served {state : PolicyCacheState} {ds : List PolicyDiagnostic}
    (hrev : state.revocations = loadRevocations db) :
    let load := chooseSlot c db trusted now state ds
    (load.loadedSlot = none ∧ load.usable = []) ∨
      ∃ gen, ((load.loadedSlot = some .active ∧ state.active = some gen) ∨
          (load.loadedSlot = some .lastKnownGood ∧ state.lastKnownGood = some gen)) ∧
        ServesWhole c db trusted now gen load.usable := by
  unfold chooseSlot
  rw [hrev]
  cases hactive : trySlot c db trusted (loadRevocations db) now state.active with
  | ok usable =>
    obtain ⟨gen, hgen, hserves⟩ := trySlot_ok hactive
    exact .inr ⟨gen, Or.inl ⟨rfl, hgen⟩, hserves⟩
  | error ds' =>
    cases hlkg : trySlot c db trusted (loadRevocations db) now state.lastKnownGood with
    | ok usable =>
      obtain ⟨gen, hgen, hserves⟩ := trySlot_ok hlkg
      exact .inr ⟨gen, Or.inr ⟨rfl, hgen⟩, hserves⟩
    | error ds'' => exact .inl ⟨rfl, rfl⟩

theorem served_generation_whole (c : Crates) (db : Tables)
    (trusted : Option TrustedVerificationKeys) (now : Instant) (load : PolicyCacheLoad)
    (h : loadPolicyCache c db trusted now = .ok load) :
    (load.loadedSlot = none ∧ load.usable = []) ∨ ∃ keys gen, trusted = some keys ∧
        ((load.loadedSlot = some .active ∧ StoredGeneration db (activeSlot db) gen) ∨
          (load.loadedSlot = some .lastKnownGood ∧
            StoredGeneration db (lastKnownGoodSlot db) gen)) ∧
        ServesWhole c db keys now gen load.usable := by
  unfold loadPolicyCache at h
  cases hstate : loadState c db with
  | error e => simp [hstate] at h
  | ok state =>
    have hparts := loadState_stateOf hstate
    cases trusted with
    | none =>
      simp only [hstate, Except.ok.injEq] at h
      rw [← h]
      exact .inl ⟨rfl, rfl⟩
    | some keys =>
      simp only [hstate, Except.ok.injEq] at h
      rw [← h]
      rcases chooseSlot_served hparts.revocations with hnone | ⟨gen, hslot, hserves⟩
      · exact .inl hnone
      · refine Or.inr ⟨keys, gen, rfl, ?_, hserves⟩
        rcases hslot with ⟨hloaded, hgen⟩ | ⟨hloaded, hgen⟩
        · refine Or.inl ⟨hloaded, storedGeneration_of_load (c := c) ?_⟩
          rw [hparts.active, hgen]
        · refine Or.inr ⟨hloaded, storedGeneration_of_load (c := c) ?_⟩
          rw [hparts.lastKnownGood, hgen]

/-- After `B1` is revoked and every bundle has expired, `A1` alone is served, from the
last known good generation. -/
theorem served_generation_whole_expired :
    ∃ load, loadPolicyCache lab (cacheRun lab [labSubmit "A1", labSubmit "B1", labRevoke "R1"])
        (some labKeys) (labExpiry + 1) = .ok load ∧ load.usable.length = 1 ∧
      ∃ gen, StoredGeneration (cacheRun lab [labSubmit "A1", labSubmit "B1", labRevoke "R1"])
          (some 1) gen ∧
        ServesWhole lab (cacheRun lab [labSubmit "A1", labSubmit "B1", labRevoke "R1"]) labKeys
          (labExpiry + 1) gen load.usable := by
  have hserved : (loadPolicyCache lab
      (cacheRun lab [labSubmit "A1", labSubmit "B1", labRevoke "R1"]) (some labKeys)
      (labExpiry + 1)).map (fun load => (load.loadedSlot, load.usable.length)) =
        .ok (some .lastKnownGood, 1) := by decide
  obtain ⟨load, hload, hserved⟩ := map_eq_ok.mp hserved
  obtain ⟨hslot, hlength⟩ := Prod.mk.inj hserved
  refine ⟨load, hload, hlength, ?_⟩
  rcases served_generation_whole lab _ (some labKeys) _ load hload with
    ⟨hnone, -⟩ | ⟨keys, gen, hkeys, ⟨hactive, -⟩ | ⟨-, hstored⟩, hserves⟩
  · rw [hslot] at hnone
    cases hnone
  · rw [hslot] at hactive
    cases hactive
  · rw [← Option.some.inj hkeys] at hserves
    exact ⟨gen, hstored, hserves⟩

theorem Unrevoked.not_revokes {rev : RevisionDigest} {payload : PayloadDigest}
    (h : Unrevoked db rev payload) {t : RevocationTarget} (ht : (loadRevocations db).revokes t) :
    t ≠ .revisionDigest rev ∧ t ≠ .payloadDigest payload := by
  obtain ⟨issuer, k, hk, hcontains⟩ := (revokes_loadRevocations db t).mp ht
  constructor
  · rintro rfl
    rw [h.revision issuer k hk] at hcontains
    cases hcontains
  · rintro rfl
    rw [h.payload issuer k hk] at hcontains
    cases hcontains

end Fornax
