import Fornax.Store.PolicySteps

namespace Fornax

open List OrdMap

def RevocationSet.revokes (s : RevocationSet) : RevocationTarget → Bool
  | .revisionDigest d => s.revisionDigests.contains d
  | .payloadDigest d => s.payloadDigests.contains d
  | .unrecognized => false

theorem revokes_addRevocation (s : RevocationSet) (e : RevocationKey × RevocationRow)
    (t : RevocationTarget) : (addRevocation s e).revokes t ↔
      s.revokes t ∨ ∃ issuer, t.rowKey issuer = some e.1 := by
  have hkey : e.1 =
      toLex ((ofLex e.1).1, toLex (RevocationKey.kind e.1, RevocationKey.digest e.1)) := rfl
  have hrow : ∀ kind d, (∃ issuer, some (toLex (issuer, toLex (kind, d))) = some e.1) ↔
      RevocationKey.kind e.1 = kind ∧ RevocationKey.digest e.1 = d := by
    intro kind d
    constructor
    · intro h
      obtain ⟨issuer, h⟩ := h
      rw [← Option.some.inj h]
      exact ⟨rfl, rfl⟩
    · intro h
      refine ⟨(ofLex e.1).1, ?_⟩
      rw [← h.1, ← h.2, ← hkey]
  unfold addRevocation
  cases t with
  | unrecognized => split_ifs <;> simp [RevocationSet.revokes, RevocationTarget.rowKey]
  | revisionDigest d | payloadDigest d =>
    simp only [RevocationTarget.rowKey, hrow]
    split_ifs with hrev hpay
    · simp only [RevocationSet.revokes, OrdMap.contains_insert, hrev]
      grind
    · simp only [RevocationSet.revokes, OrdMap.contains_insert, hpay]
      grind
    · simp [RevocationSet.revokes, hrev, hpay]

theorem revokes_foldl_addRevocation (l : List (RevocationKey × RevocationRow)) (s : RevocationSet)
    (t : RevocationTarget) : (l.foldl addRevocation s).revokes t ↔
      s.revokes t ∨ ∃ e ∈ l, ∃ issuer, t.rowKey issuer = some e.1 := by
  induction l generalizing s with
  | nil => simp
  | cons e l ih =>
    rw [foldl_cons, ih, revokes_addRevocation]
    simp only [mem_cons, exists_eq_or_imp]
    tauto

theorem revokes_foldl_addRevocationState (l : List (String × RevocationStateRow))
    (s : RevocationSet) (t : RevocationTarget) :
    (l.foldl addRevocationState s).revokes t = s.revokes t := by
  refine foldlRecOn (motive := fun s' : RevocationSet => s'.revokes t = s.revokes t) l _ rfl
    fun s' hs e _ => ?_
  rw [← hs]
  cases t <;> rfl

theorem revokes_loadRevocations (db : Tables) (t : RevocationTarget) :
    (loadRevocations db).revokes t ↔
      ∃ issuer k, t.rowKey issuer = some k ∧ db.revocations.contains k := by
  have hnone : RevocationSet.none.revokes t = false := by cases t <;> rfl
  rw [loadRevocations, revokes_foldl_addRevocation, revokes_foldl_addRevocationState, hnone]
  constructor
  · intro h
    rcases h with h | ⟨e, he, issuer, hk⟩
    · cases h
    · exact ⟨issuer, e.1, hk, contains_of_get? (mem_entries.mp he)⟩
  · intro h
    obtain ⟨issuer, k, hk, hcontains⟩ := h
    obtain ⟨row, hrow⟩ := Option.isSome_iff_exists.mp hcontains
    exact .inr ⟨(k, row), mem_entries.mpr hrow, issuer, hk⟩

theorem contains_foldl_insertRevocation (c : Crates) (issuer : String) (sequence : ℕ)
    (now : Instant) (entries : List RevocationEntry) (rows : OrdMap RevocationKey RevocationRow)
    {k : RevocationKey} (h : rows.contains k) :
    (entries.foldl (insertRevocation c issuer sequence now) rows).contains k := by
  refine foldlRecOn (motive := fun rows : OrdMap RevocationKey RevocationRow => rows.contains k)
    entries _ h fun rows hrows e _ => ?_
  unfold insertRevocation
  cases e.target.rowKey issuer with
  | none => exact hrows
  | some j => exact (contains_insertNew rows j k _).mpr (.inr hrows)

variable {c : Crates} {db : Tables} {envelope : Bytes} {trusted : TrustedVerificationKeys}
  {now : Instant}

structure Kept (before after : Tables) : Prop where
  highWater : ∀ k row, before.highWater.get? k = some row →
    ∃ row', after.highWater.get? k = some row' ∧ row.maxSequence ≤ row'.maxSequence
  generations : ∀ g row, before.generations.get? g = some row → after.generations.get? g = some row
  numbers : ∀ g g', after.generations.contains g = true → before.generations.contains g = false →
    before.generations.contains g' = true → g' < g
  configured : everConfigured before = true → everConfigured after = true
  revoked : ∀ t, (loadRevocations before).revokes t = true →
    (loadRevocations after).revokes t = true

theorem Kept.refl (db : Tables) : Kept db db where
  highWater := fun _ row h => ⟨row, h, le_refl _⟩
  generations := fun _ _ h => h
  numbers := fun g _ h h' => by rw [h] at h'; cases h'
  configured := fun h => h
  revoked := fun _ h => h

theorem Kept.trans {a b d : Tables} (hab : Kept a b) (hbd : Kept b d) : Kept a d where
  highWater := by
    intro k row h
    obtain ⟨row', h', hle⟩ := hab.highWater k row h
    obtain ⟨row'', h'', hle'⟩ := hbd.highWater k row' h'
    exact ⟨row'', h'', hle.trans hle'⟩
  generations := fun g row h => hbd.generations g row (hab.generations g row h)
  numbers := by
    intro g g' hd ha hg'
    obtain ⟨row, hrow⟩ := Option.isSome_iff_exists.mp hg'
    have hb' : b.generations.contains g' = true :=
      contains_of_get? (hab.generations g' row hrow)
    cases hb : b.generations.contains g with
    | true => exact hab.numbers g g' hb ha hg'
    | false => exact hbd.numbers g g' hd hb hb'
  configured := fun h => hbd.configured (hab.configured h)
  revoked := fun t h => hbd.revoked t (hab.revoked t h)

variable (a : Activation c db envelope trusted now)

theorem Activation.advances {row : HighWaterRow} (h : db.highWater.get? a.cand.lineage = some row) :
    row.maxSequence < a.cand.sequence := by
  obtain ⟨hw, hhw, hmax⟩ := (loadState_stateOf a.loaded).highWater_of_row h
  have hlt := a.activates.advances hw hhw
  omega

theorem Activation.kept : Kept db a.after where
  highWater := by
    intro k row h
    change ∃ row', (db.highWater.insert a.cand.lineage _).get? k = some row' ∧ _
    rw [get?_insert]
    by_cases hk : k = a.cand.lineage
    · rw [if_pos hk]
      rw [hk] at h
      exact ⟨_, rfl, le_of_lt (a.advances h)⟩
    · rw [if_neg hk]
      exact ⟨row, h, le_refl _⟩
  generations := by
    intro g row h
    have hlt := lt_nextGeneration (contains_of_get? h)
    change (db.generations.insert (nextGeneration db) _).get? g = some row
    rw [get?_insert_of_ne _ _ (by omega)]
    exact h
  numbers := by
    intro g g' hafter hbefore hg'
    rcases (contains_insert _ _ _ _).mp hafter with rfl | h
    · exact lt_nextGeneration hg'
    · rw [hbefore] at h
      cases h
  configured := fun _ => rfl
  revoked := fun _ h => h

theorem Confirmation.kept (k : Confirmation c db envelope trusted now) : Kept db k.after where
  highWater := by
    intro key row h
    change ∃ row', (db.highWater.update k.cand.lineage _).get? key = some row' ∧ _
    rw [get?_update]
    by_cases hk : key = k.cand.lineage
    · rw [if_pos hk, ← hk, h]
      exact ⟨_, rfl, le_refl _⟩
    · rw [if_neg hk]
      exact ⟨row, h, le_refl _⟩
  generations := fun _ _ h => h
  numbers := (Kept.refl db).numbers
  configured := fun h => h
  revoked := fun _ h => h

theorem cacheStep_kept (c : Crates) (db : Tables) (op : CacheOp) : Kept db (cacheStep c db op) := by
  have hstep := cacheStep_stepTo c db op
  generalize cacheStep c db op = db' at hstep
  cases hstep with
  | unchanged => exact Kept.refl db
  | activated a => exact a.kept
  | confirmed k => exact k.kept
  | @revoked envelope trusted now list issuer sequence newEntries =>
    refine ⟨(Kept.refl db).highWater, fun _ _ h => h, (Kept.refl db).numbers, fun h => h, ?_⟩
    intro t h
    rw [revokes_loadRevocations] at h ⊢
    obtain ⟨i, k, hk, hcontains⟩ := h
    exact ⟨i, k, hk, contains_foldl_insertRevocation c issuer sequence now newEntries _ hcontains⟩
  | rolledBack state =>
    refine ⟨(Kept.refl db).highWater, fun _ _ h => h, (Kept.refl db).numbers, ?_, fun _ h => h⟩
    intro h
    unfold everConfigured at h ⊢
    cases hs : db.slots with
    | none =>
      rw [hs] at h
      cases h
    | some s =>
      rw [hs] at h
      exact h

theorem cacheRun_kept (c : Crates) (before after : List CacheOp) :
    Kept (cacheRun c before) (cacheRun c (before ++ after)) := by
  rw [cacheRun_append]
  exact Runs.run_related Kept.refl (fun _ _ _ => Kept.trans) (cacheStep_kept c) _ after

def OneIssuer (db : Tables) : Prop :=
  ∀ p issuer issuer', db.highWater.contains (toLex (issuer, p)) = true →
    db.highWater.contains (toLex (issuer', p)) = true → issuer = issuer'

theorem Activation.issuer_eq {issuer : String}
    (h : db.highWater.contains (toLex (issuer, a.cand.policyId))) : issuer = a.cand.issuer := by
  obtain ⟨row, hrow⟩ := Option.isSome_iff_exists.mp h
  obtain ⟨hw, hhw, _⟩ := (loadState_stateOf a.loaded).highWater_of_row hrow
  exact boundElsewhere_eq_none a.activates.unbound (contains_of_get? hhw)

theorem cacheStep_oneIssuer (c : Crates) (db : Tables) (op : CacheOp) (h : OneIssuer db) :
    OneIssuer (cacheStep c db op) := by
  have hstep := cacheStep_stepTo c db op
  generalize cacheStep c db op = db' at hstep
  cases hstep with
  | unchanged => exact h
  | activated a =>
    intro p issuer issuer' h₁ h₂
    by_cases hp : p = a.cand.policyId
    · have hbound : ∀ i, a.after.highWater.contains (toLex (i, p)) = true → i = a.cand.issuer := by
        intro i hmem
        rcases (contains_insert _ _ _ _).mp hmem with heq | hold
        · exact congrArg (fun k => (ofLex k).1) heq
        · exact a.issuer_eq (hp ▸ hold)
      rw [hbound issuer h₁, hbound issuer' h₂]
    · have hold : ∀ i, a.after.highWater.contains (toLex (i, p)) = true →
          db.highWater.contains (toLex (i, p)) = true := fun i hmem =>
        ((contains_insert _ _ _ _).mp hmem).resolve_left fun heq =>
          hp (congrArg (fun k => (ofLex k).2) heq)
      exact h p issuer issuer' (hold _ h₁) (hold _ h₂)
  | confirmed k =>
    intro p issuer issuer' h₁ h₂
    change (db.highWater.update _ _).contains _ = true at h₁ h₂
    rw [contains_update] at h₁ h₂
    exact h p issuer issuer' h₁ h₂
  | revoked => exact h
  | rolledBack => exact h

/-- An activation stores the bundle row of its own candidate: no active member that sorts before it
has its `bundle_id`, and a row already stored under its key is its own, unless two payloads have one
digest. -/
structure OwnRow (db : Tables) (state : PolicyCacheState) (cand : VerifiedPolicyBundle) :
    Prop where
  bundleId_free : ∀ m ∈ activeMembers state, m.policyId < cand.policyId → m.bundleId ≠ cand.bundleId
  row_agrees : ∀ row ∈ db.bundles.get? cand.key, row.issuer = cand.issuer ∧
    row.policyId = cand.policyId ∧ row.sequence = cand.sequence

instance (db : Tables) (state : PolicyCacheState) (cand : VerifiedPolicyBundle) :
    Decidable (OwnRow db state cand) :=
  decidable_of_iff
    ((∀ m ∈ activeMembers state, m.policyId < cand.policyId → m.bundleId ≠ cand.bundleId) ∧
      ∀ row ∈ db.bundles.get? cand.key, row.issuer = cand.issuer ∧
        row.policyId = cand.policyId ∧ row.sequence = cand.sequence)
    ⟨fun h => ⟨h.1, h.2⟩, fun h => ⟨h.bundleId_free, h.row_agrees⟩⟩

def storesOwnRow (c : Crates) (db : Tables) : CacheOp → Bool
  | .submitBundle envelope trusted now =>
    match verifyBundle c envelope trusted now, loadState c db with
    | .ok cand, .ok state =>
      match evaluateActivation c cand state now with
      | .ok (.activate _ _) => decide (OwnRow db state cand)
      | _ => true
    | _, _ => true
  | _ => true

def OwnRows (c : Crates) (ops : List CacheOp) : Prop :=
  Runs.Along (cacheStep c) (fun db op => storesOwnRow c db op = true) Tables.fresh ops

theorem Activation.ownRow (h : storesOwnRow c db (.submitBundle envelope trusted now)) :
    OwnRow db a.state a.cand := by
  simp only [storesOwnRow, a.verified, a.loaded, a.decided] at h
  exact of_decide_eq_true h

def Marked (db : Tables) (issuer : String) (policyId : Uuid) (sequence : ℕ) : Prop :=
  ∃ row, db.highWater.get? (toLex (issuer, policyId)) = some row ∧ sequence ≤ row.maxSequence

structure Covered (db : Tables) : Prop where
  stored : ∀ g row, db.generations.get? g = some row → MembersStored db row
  marked : ∀ key b, db.bundles.get? key = some b → Marked db b.issuer b.policyId b.sequence

theorem Marked.kept {db' : Tables} (hkept : Kept db db') {issuer : String} {policyId : Uuid}
    {sequence : ℕ} (h : Marked db issuer policyId sequence) :
    Marked db' issuer policyId sequence := by
  obtain ⟨row, hrow, hle⟩ := h
  obtain ⟨row', hrow', hle'⟩ := hkept.highWater _ row hrow
  exact ⟨row', hrow', hle.trans hle'⟩

theorem Activation.active_stored (hcov : Covered db) {m : CachedBundleRef}
    (hm : m ∈ activeMembers a.state) : ∃ b, db.bundles.get? m.key = some b ∧ b.Gives c m.key m := by
  unfold activeMembers at hm
  cases hgen : a.state.active with
  | none =>
    rw [hgen] at hm
    cases hm
  | some gen =>
    rw [hgen] at hm
    have hslot := (loadState_stateOf a.loaded).active
    rw [hgen] at hslot
    obtain ⟨g, _, hg⟩ := loadSlot_some hslot
    obtain ⟨row, hrow, hstored⟩ := loadGeneration_loadsAs (hcov.stored g) hg
    exact (hrow.member hstored hm).2

theorem Activation.stored_eq (hown : OwnRow db a.state a.cand) :
    ∃ notBefore expiresAt, c.parseDateTime a.cand.payload.notBefore = some notBefore ∧
      c.parseDateTime a.cand.payload.expiresAt = some expiresAt ∧
      a.stored = newMember a.cand notBefore expiresAt now ∧
      a.members = nextMembers a.state (newMember a.cand notBefore expiresAt now) := by
  obtain ⟨nb, ea, hnb, hea, hmembers⟩ := a.activates.window
  have hfind := a.found
  rw [hmembers] at hfind
  have hown' := find?_nextMembers a.state (newMember a.cand nb ea now) hown.bundleId_free
  exact ⟨nb, ea, hnb, hea, Option.some.inj (hfind.symm.trans hown'), hmembers⟩

theorem Activation.key_free (hcov : Covered db) (hown : OwnRow db a.state a.cand) :
    db.bundles.get? a.cand.key = none := by
  cases hrow : db.bundles.get? a.cand.key with
  | none => rfl
  | some b =>
    obtain ⟨hissuer, hpolicy, hseq⟩ := hown.row_agrees b hrow
    obtain ⟨mark, hmark, hle⟩ := hcov.marked _ b hrow
    rw [hissuer, hpolicy] at hmark
    have hlt := a.advances hmark
    omega

theorem Activation.get?_own_row (hcov : Covered db) (hown : OwnRow db a.state a.cand) :
    a.after.bundles.get? a.cand.key = some (newBundleRow c envelope a.stored) := by
  obtain ⟨nb, ea, _, _, hstored, _⟩ := a.stored_eq hown
  have hkey : a.stored.key = a.cand.key := by
    rw [hstored]
    rfl
  change (db.bundles.insertNew a.stored.key _).get? _ = _
  rw [hkey]
  exact get?_insertNew_of_none _ (a.key_free hcov hown)

theorem Activation.rows_iff (hown : OwnRow db a.state a.cand) {p : Uuid} {key : BundleKey} :
    a.rows.get? p = some key ↔ (p = a.cand.policyId ∧ key = a.cand.key) ∨
      ∃ m ∈ activeMembers a.state, m.policyId ≠ a.cand.policyId ∧ m.policyId = p ∧ m.key = key := by
  obtain ⟨nb, ea, _, _, _, hmembers⟩ := a.stored_eq hown
  rw [insertMembers_get? a.inserted, hmembers]
  simp only [mem_nextMembers]
  constructor
  · rintro ⟨m, ⟨hactive, hne⟩ | rfl, hp, hkey⟩
    · exact .inr ⟨m, hactive, hne, hp, hkey⟩
    · exact .inl ⟨hp.symm, hkey.symm⟩
  · rintro (⟨rfl, rfl⟩ | ⟨m, hactive, hne, hp, hkey⟩)
    · exact ⟨_, .inr rfl, rfl, rfl⟩
    · exact ⟨m, .inl ⟨hactive, hne⟩, hp, hkey⟩

theorem Activation.covered (hcov : Covered db) (hown : OwnRow db a.state a.cand) :
    Covered a.after where
  stored := by
    have hold : ∀ {key : BundleKey} {b : BundleRow}, db.bundles.get? key = some b →
        a.after.bundles.get? key = some b := fun h => get?_insertNew_of_some h _ _
    intro g row hrow p key hkey
    change (db.generations.insert (nextGeneration db) _).get? g = some row at hrow
    rw [get?_insert] at hrow
    by_cases hg : g = nextGeneration db
    · rw [if_pos hg] at hrow
      rw [← Option.some.inj hrow] at hkey
      rcases (a.rows_iff hown).mp hkey with ⟨rfl, rfl⟩ | ⟨m, hm, _, rfl, rfl⟩
      · obtain ⟨nb, ea, _, _, hstored, _⟩ := a.stored_eq hown
        refine ⟨_, a.get?_own_row hcov hown, ?_⟩
        rw [hstored]
        rfl
      · obtain ⟨b, hb, hgives⟩ := a.active_stored hcov hm
        exact ⟨b, hold hb, hgives.policyId_eq.symm⟩
    · rw [if_neg hg] at hrow
      obtain ⟨b, hb, hp⟩ := hcov.stored g row hrow p key hkey
      exact ⟨b, hold hb, hp⟩
  marked := by
    intro key b hb
    by_cases hkey : key = a.cand.key
    · rw [hkey, a.get?_own_row hcov hown] at hb
      obtain ⟨nb, ea, _, _, hstored, _⟩ := a.stored_eq hown
      rw [← Option.some.inj hb, hstored]
      exact ⟨newHighWater c a.cand now, get?_insert_self _ _ _, le_refl _⟩
    · obtain ⟨nb, ea, _, _, hstored, _⟩ := a.stored_eq hown
      have hne : key ≠ a.stored.key := by
        rw [hstored]
        exact hkey
      change (db.bundles.insertNew a.stored.key _).get? key = some b at hb
      rw [get?_insertNew_of_ne _ _ hne] at hb
      exact (hcov.marked key b hb).kept a.kept

theorem Confirmation.covered (k : Confirmation c db envelope trusted now) (hcov : Covered db) :
    Covered k.after where
  stored := by
    intro g row hrow p key hkey
    obtain ⟨b, hb, hp⟩ := hcov.stored g row hrow p key hkey
    change ∃ b, (db.bundles.update k.cand.key _).get? key = some b ∧ _
    rw [get?_update]
    by_cases hk : key = k.cand.key
    · rw [if_pos hk, ← hk, hb]
      exact ⟨_, rfl, hp⟩
    · rw [if_neg hk]
      exact ⟨b, hb, hp⟩
  marked := by
    intro key b hb
    obtain ⟨b', hb', heq⟩ := get?_update_cases hb
    have hmarked := (hcov.marked key b' hb').kept k.kept
    rcases heq with rfl | ⟨_, rfl⟩
    · exact hmarked
    · exact hmarked

theorem Covered.of_slots (hcov : Covered db) (slots : Option SlotsRow) :
    Covered { db with slots := slots } :=
  ⟨hcov.stored, hcov.marked⟩

theorem cacheStep_covered (c : Crates) (db : Tables) (op : CacheOp) (hcov : Covered db)
    (hown : storesOwnRow c db op) : Covered (cacheStep c db op) := by
  have hstep := cacheStep_stepTo c db op
  generalize cacheStep c db op = db' at hstep
  cases hstep with
  | unchanged => exact hcov
  | activated a => exact a.covered hcov (a.ownRow hown)
  | confirmed k => exact k.covered hcov
  | revoked => exact ⟨hcov.stored, hcov.marked⟩
  | rolledBack state _ => exact hcov.of_slots _

theorem covered_fresh : Covered Tables.fresh where
  stored := fun g row h => by cases h
  marked := fun key b h => by cases h

theorem cacheRun_covered {ops : List CacheOp} (hown : OwnRows c ops) : Covered (cacheRun c ops) :=
  Runs.run_invariant covered_fresh (fun db op hcov h => cacheStep_covered c db op hcov h) hown

/-- Every generation has at most one member per `policy_id`, in order, and every member's sequence
is at most the mark of its lineage, as stored and as loaded. -/
structure MembersMarked (c : Crates) (db : Tables) : Prop where
  rows : ∀ g row, db.generations.get? g = some row → ∀ p key, row.members.get? p = some key →
    ∃ b, db.bundles.get? key = some b ∧ b.policyId = p ∧ Marked db b.issuer p b.sequence
  loaded : ∀ g gen, loadGeneration c db g = .ok gen →
    (gen.members.Pairwise fun m m' => m.policyId < m'.policyId) ∧
      ∀ m ∈ gen.members, Marked db m.issuer m.policyId m.sequence

theorem Covered.membersMarked (hcov : Covered db) (c : Crates) : MembersMarked c db where
  rows := by
    intro g row hrow p key hkey
    obtain ⟨b, hb, hp⟩ := hcov.stored g row hrow p key hkey
    have hmarked := hcov.marked key b hb
    rw [hp] at hmarked
    exact ⟨b, hb, hp, hmarked⟩
  loaded := by
    intro g gen hgen
    obtain ⟨row, hrow, hstored⟩ := loadGeneration_loadsAs (hcov.stored g) hgen
    refine ⟨hrow.sorted hstored, fun m hm => ?_⟩
    obtain ⟨_, b, hb, hgives⟩ := hrow.member hstored hm
    rw [hgives.issuer_eq, hgives.policyId_eq, hgives.sequence_eq]
    exact hcov.marked m.key b hb

/-- The invariants over every run; the last one for runs whose activations store
their own bundle rows. -/
theorem policy_cache_run_invariants (c : Crates) (ops : List CacheOp) :
    (∀ before after, ops = before ++ after → Kept (cacheRun c before) (cacheRun c ops)) ∧
    OneIssuer (cacheRun c ops) ∧
    (∀ op : CacheOp, op.Rejected c (cacheRun c ops) →
      cacheStep c (cacheRun c ops) op = cacheRun c ops) ∧
    (OwnRows c ops → MembersMarked c (cacheRun c ops)) := by
  refine ⟨?_, ?_, fun op h => cacheStep_of_rejected h, fun hown => ?_⟩
  · intro before after hsplit
    rw [hsplit]
    exact cacheRun_kept c before after
  · have hfresh : OneIssuer Tables.fresh := fun p issuer issuer' h => by cases h
    exact Runs.run_always hfresh (cacheStep_oneIssuer c) ops
  · exact (cacheRun_covered hown).membersMarked c

/-! ### A small installation

One trusted key, five published bundles of four lineages and one revocation list.
Signatures verify and digests are the payload bytes; the timestamps read as RFC 3339. -/

def labNow : Instant := 1767225600000000000

def labExpiry : Instant := 1798761600000000000

def labParse (text : String) : Except String Instant :=
  if text = "2026-01-01T00:00:00Z" ∨ text = "2026-01-01T00:00:00+00:00" then .ok labNow
  else if text = "2027-01-01T00:00:00Z" ∨ text = "2027-01-01T00:00:00+00:00" then .ok labExpiry
  else .error "input contains invalid characters"

def labFormat (t : Instant) : String :=
  if t = labNow then "2026-01-01T00:00:00+00:00" else "2027-01-01T00:00:00+00:00"

def hexOf (bytes : Bytes) : String :=
  String.ofList (bytes.flatMap fun b => [hexDigit (b.toNat / 16), hexDigit b.toNat])

def labRevisionJson (body : PolicyRevisionBody) : Bytes :=
  [UInt8.ofNat body.policyId.val, UInt8.ofNat body.revision]

def labRevision (policyId : Uuid) (revision : ℕ) : PolicyRevisionWire :=
  let body : PolicyRevisionBody := ⟨1, policyId, revision, none, "2026-01-01T00:00:00Z", "policy",
    PolicyContent.unset, OrdSet.empty⟩
  ⟨body, "sha256:" ++ hexOf (labRevisionJson body)⟩

def labPayload (bundleId policyId : Uuid) (sequence : ℕ) : BundlePayloadWire :=
  let revision := labRevision policyId sequence
  ⟨1, bundleId, sequence, "2026-01-01T00:00:00Z", "2026-01-01T00:00:00Z", "2027-01-01T00:00:00Z",
    ⟨"acme", none, none⟩, revision,
    [⟨bundleId, .org "acme", TargetSelector.any, ⟨policyId, sequence, revision.digest⟩⟩]⟩

/-- The published bundles, by name; the last one has the `bundle_id` of the first. -/
def labPayloads : List (Bytes × BundlePayloadWire) :=
  [(asciiBytes "A1", labPayload 11 1 1), (asciiBytes "A2", labPayload 12 1 2),
    (asciiBytes "B1", labPayload 21 2 1), (asciiBytes "C1", labPayload 31 3 1),
    (asciiBytes "D1", labPayload 11 4 1)]

/-- The published revocation list: it names the payload of `B1`. -/
def labRevocations : List (Bytes × RevocationPayload) :=
  [(asciiBytes "R1", ⟨1, "acme", 1, "2026-01-01T00:00:00Z",
    [⟨.payloadDigest ("sha256:" ++ hexOf (asciiBytes "B1")), "2026-01-01T00:00:00Z",
      "signing key leaked", none, none⟩]⟩)]

def labSignature : BundleSignature :=
  ⟨"k1", .ed25519, String.ofList (replicate 64 's')⟩

def labName (bytes : Bytes) : String := String.ofList (bytes.map fun b => Char.ofNat b.toNat)

def lab : Crates where
  parseRfc3339 := labParse
  parseDateTime := fun text => (labParse text).toOption
  toRfc3339 := labFormat
  displayInstant := labFormat
  debugStr := fun s => "\"" ++ s ++ "\""
  decodeBase64 := fun text => .ok (asciiBytes text)
  isVerifyingKey := fun _ => true
  verifyStrict := fun _ _ _ => true
  sha256Hex := hexOf
  revisionJson := labRevisionJson
  readBundle := fun bytes => .ok ⟨1, labName bytes, [labSignature]⟩
  readPayload := fun bytes =>
    match labPayloads.find? fun e => e.1 = bytes with
    | some e => .ok e.2
    | none => .error "expected value at line 1 column 1"
  readRevocationList := fun bytes => .ok ⟨1, labName bytes, [labSignature]⟩
  readRevocationPayload := fun bytes =>
    match labRevocations.find? fun e => e.1 = bytes with
    | some e => .ok e.2
    | none => .error "expected value at line 1 column 1"
  conversionError := fun _ text => text

def labKeys : TrustedVerificationKeys :=
  ⟨1, [⟨"k1", .ed25519, String.ofList (replicate 32 'k'), none, none, none⟩]⟩

def labSubmit (name : String) : CacheOp := .submitBundle (asciiBytes name) labKeys labNow

def labRevoke (name : String) : CacheOp := .submitRevocation (asciiBytes name) labKeys labNow

/-- `D1` is activated beside `A1`, whose `bundle_id` it has: it is loaded as a
placeholder without an issuer, and no high-water row bounds its sequence. -/
theorem reused_bundle_id_unmarked :
    ¬ ∀ (c : Crates) (ops : List CacheOp) (g : ℕ) (gen : CacheGeneration),
      loadGeneration c (cacheRun c ops) g = .ok gen →
      ∀ m ∈ gen.members, Marked (cacheRun c ops) m.issuer m.policyId m.sequence := by
  intro h
  have hload : (loadGeneration lab (cacheRun lab [labSubmit "A1", labSubmit "D1"]) 2).map
      (fun gen => gen.members.map fun m => (m.issuer, m.policyId)) =
        .ok [("acme", 1), ("", 4)] := by decide
  obtain ⟨gen, hgen, hlist⟩ := Fallible.map_eq_ok.mp hload
  have hmem : ("", (4 : Uuid)) ∈ gen.members.map fun m => (m.issuer, m.policyId) := by
    rw [hlist]
    decide
  obtain ⟨m, hm, heq⟩ := mem_map.mp hmem
  obtain ⟨hissuer, hpolicy⟩ := Prod.mk.inj heq
  obtain ⟨row, hrow, _⟩ := h lab _ 2 gen hgen m hm
  have hnone : (cacheRun lab [labSubmit "A1", labSubmit "D1"]).highWater.get?
      (toLex ("", 4)) = none := by decide
  rw [hissuer, hpolicy, hnone] at hrow
  cases hrow

/-- Two lineages and a revocation: the condition holds, and so does every invariant. -/
theorem policy_cache_run_invariants_two_lineages :
    OwnRows lab [labSubmit "A1", labSubmit "B1", labRevoke "R1"] ∧
      MembersMarked lab (cacheRun lab [labSubmit "A1", labSubmit "B1", labRevoke "R1"]) := by
  have hown : OwnRows lab [labSubmit "A1", labSubmit "B1", labRevoke "R1"] :=
    Runs.along_cons (by decide) (Runs.along_cons (by decide) (Runs.along_cons (by decide)
      (Runs.along_nil _ _)))
  exact ⟨hown, (policy_cache_run_invariants lab _).2.2.2 hown⟩

end Fornax
