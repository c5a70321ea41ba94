import Fornax.Evidence.Reference

namespace Fornax

open List OrdMap

theorem FamilyBasisTag.intoBasis_injective : Function.Injective FamilyBasisTag.intoBasis := by
  intro s t h
  cases s <;> cases t <;> simp_all [FamilyBasisTag.intoBasis]

theorem contains_record (b : FamilyBuild) (p : FamilyPair)
    (entry : Uuid ×ₗ Uuid ×ₗ FamilyBasisTag) : (b.record p).basesByPair.contains entry ↔
      entry = toLex (min p.fst p.snd, toLex (max p.fst p.snd, p.tag)) ∨
        b.basesByPair.contains entry :=
  OrdSet.contains_add _ _ _

theorem contains_recordAll (pairs : List FamilyPair) (b : FamilyBuild)
    (entry : Uuid ×ₗ Uuid ×ₗ FamilyBasisTag) : (b.recordAll pairs).basesByPair.contains entry ↔
      (∃ p ∈ pairs, entry = toLex (min p.fst p.snd, toLex (max p.fst p.snd, p.tag))) ∨
        b.basesByPair.contains entry := by
  induction pairs generalizing b with
  | nil => simp [FamilyBuild.recordAll]
  | cons p pairs ih =>
    have hstep : (b.recordAll (p :: pairs)) = (b.record p).recordAll pairs := rfl
    rw [hstep, ih, contains_record]
    simp only [mem_cons, exists_eq_or_imp]
    rw [or_left_comm, or_assoc]

theorem min_max_iff (P : Uuid → Prop) (x y : Uuid) : P (min x y) ∧ P (max x y) ↔ P x ∧ P y := by
  rcases le_total x y with h | h
  · rw [min_eq_left h, max_eq_right h]
  · rw [min_eq_right h, max_eq_left h, and_comm]

theorem tagWithin_familyBuild (pool : List Evidence) (P : Uuid → Prop) (tag : FamilyBasisTag) :
    TagWithin (familyBuild (sortById pool)).basesByPair.toList P tag ↔
      ∃ p ∈ familyPairs pool, P p.fst ∧ P p.snd ∧ p.tag = tag := by
  have hentries : ∀ entry, entry ∈ (familyBuild (sortById pool)).basesByPair.toList ↔
      ∃ p ∈ familyPairs pool,
        entry = toLex (min p.fst p.snd, toLex (max p.fst p.snd, p.tag)) := by
    intro entry
    have hrecorded := contains_recordAll (familyPairs pool) (.initial (sortById pool)) entry
    refine OrdSet.mem_toList.trans (hrecorded.trans (or_iff_left ?_))
    simp [FamilyBuild.initial]
  constructor
  · rintro ⟨entry, hentry, hfst, hsnd, rfl⟩
    obtain ⟨p, hp, rfl⟩ := (hentries entry).mp hentry
    obtain ⟨hx, hy⟩ := (min_max_iff P p.fst p.snd).mp ⟨hfst, hsnd⟩
    exact ⟨p, hp, hx, hy, rfl⟩
  · rintro ⟨p, hp, hx, hy, rfl⟩
    obtain ⟨hmin, hmax⟩ := (min_max_iff P p.fst p.snd).mpr ⟨hx, hy⟩
    exact ⟨_, (hentries _).mpr ⟨p, hp, rfl⟩, hmin, hmax, rfl⟩

variable {pool : List Evidence} {t : Uuid}

theorem mem_poolFamily_bases {k : Uuid} {vs : List Uuid} (h : (familyBuckets pool).get? k = some vs)
    {tag : FamilyBasisTag} (htag : tag ≠ .unknownProvenance) :
    tag.intoBasis ∈ (poolFamily pool (k, vs)).bases ↔
      ∃ p ∈ familyPairs pool, p.fst ∈ vs ∧ p.snd ∈ vs ∧ p.tag = tag := by
  have hkeys : ∀ x, (((assembleMembers (familyForest pool) (sortById pool)).valueToKeys.get? x).getD
      OrdSet.empty).contains k = true ↔ x ∈ vs := by
    intro x
    have hmatch := keysMatch_assembleMembers (familyForest pool) (sortById pool) x k
    rwa [assembleMembers_members, h, Option.getD_some] at hmatch
  rw [poolFamily, familyOfBucket, mem_map_of_injective FamilyBasisTag.intoBasis_injective,
    OrdSet.mem_toList, OrdSet.contains_addAll, OrdSet.mem_toList, contains_basesByFamily,
    tagWithin_familyBuild]
  simp only [hkeys]
  refine or_iff_left ?_
  split
  · rw [OrdSet.contains_add]
    simp [htag]
  · simp

theorem source_of_agentTurn {e : Evidence} (h : e.agentTurn = some t) : e.source.isSome := by
  have hchannel := (agentTurn_eq_some.mp h).1
  cases hs : e.source with
  | none => simp [Evidence.onAgentChannel, hs] at hchannel
  | some s => rfl

theorem familyKey_eq_of_turn (hids : (pool.map Evidence.id).Nodup) {a b : Evidence} (ha : a ∈ pool)
    (hb : b ∈ pool) (hta : a.agentTurn = some t) (htb : b.agentTurn = some t) :
    familyKey (familyForest pool) a = familyKey (familyForest pool) b := by
  rw [familyKey_of_source (source_of_agentTurn hta), familyKey_of_source (source_of_agentTurn htb),
    familyForest_rootOf_eq hids]
  obtain ⟨hca, hea⟩ := agentTurn_eq_some.mp hta
  obtain ⟨hcb, heb⟩ := agentTurn_eq_some.mp htb
  exact .single ⟨a, ha, b, hb, rfl, rfl, .inr (.inr (.inr ⟨hea.trans heb.symm, hca, hcb⟩))⟩

theorem mem_bucketPairs {key : Evidence → Option Uuid} {tag : Uuid → FamilyBasisTag}
    {l : List Evidence} {p : FamilyPair} :
    p ∈ bucketPairs key tag l ↔ ∃ k vs, (groupBy key Evidence.id l).get? k = some vs ∧
      (p.fst, p.snd) ∈ windows2 vs ∧ p.tag = tag k := by
  constructor
  · intro hp
    obtain ⟨⟨k, vs⟩, hbucket, hp⟩ := mem_flatMap.mp hp
    obtain ⟨⟨x, y⟩, hw, rfl⟩ := mem_map.mp hp
    exact ⟨k, vs, mem_entries.mp hbucket, hw, rfl⟩
  · rintro ⟨k, vs, hget, hw, htag⟩
    refine mem_flatMap.mpr ⟨(k, vs), mem_entries.mpr hget, ?_⟩
    exact mem_map.mpr ⟨(p.fst, p.snd), hw, by rw [← htag]⟩

theorem mem_agentTurnPairs_of_tag {p : FamilyPair} (hp : p ∈ familyPairs pool)
    (htag : p.tag = .sameAgentTurn t) :
    ∃ vs, (groupBy Evidence.agentTurn Evidence.id (sortById pool)).get? t = some vs ∧
      (p.fst, p.snd) ∈ windows2 vs := by
  rcases mem_append.mp hp with hp | hp
  · rcases mem_append.mp hp with hp | hp
    · obtain ⟨k, vs, -, -, hk⟩ := mem_bucketPairs.mp hp
      rw [htag] at hk
      cases hk
    · obtain ⟨e, -, hp⟩ := mem_flatMap.mp hp
      obtain ⟨anc, -, rfl⟩ := mem_map.mp hp
      cases htag
  · obtain ⟨k, vs, hget, hw, hk⟩ := mem_bucketPairs.mp hp
    rw [htag] at hk
    cases hk
    exact ⟨vs, hget, hw⟩

section

variable (hids : (pool.map Evidence.id).Nodup)

include hids

theorem nodup_turnBucket {vs : List Uuid}
    (h : (groupBy Evidence.agentTurn Evidence.id (sortById pool)).get? t = some vs) : vs.Nodup := by
  rw [(get?_groupBy.mp h).1]
  exact (nodup_ids_sortById hids).sublist (filter_sublist.map _)

theorem familyOf_eq_poolFamily {a : Evidence} (ha : a ∈ pool)
    {fam : SourceFamily} (hfam : (SourceFamilyMap.build pool).familyOf a.id = some fam) :
    ∃ vs, (familyBuckets pool).get? (familyKey (familyForest pool) a) = some vs ∧
      fam = poolFamily pool (familyKey (familyForest pool) a, vs) := by
  obtain ⟨i, -, hi⟩ := Option.bind_eq_some_iff.mp hfam
  obtain ⟨k, vs, hget, rfl⟩ := mem_families.mp (mem_of_getElem? hi)
  have hkey := (mem_family_iff_key hids ha hget).mp (familyOf_mem hfam)
  exact ⟨vs, hkey ▸ hget, by rw [hkey]⟩

theorem sameAgentTurn_mem_bases_iff {a : Evidence}
    (ha : a ∈ pool) (hta : a.agentTurn = some t) {fam : SourceFamily}
    (hfam : (SourceFamilyMap.build pool).familyOf a.id = some fam) :
    .sameAgentTurn t ∈ fam.bases ↔ ∃ b ∈ pool, b.id ≠ a.id ∧ b.agentTurn = some t := by
  obtain ⟨vs, hget, rfl⟩ := familyOf_eq_poolFamily hids ha hfam
  have hknown : FamilyBasisTag.sameAgentTurn t ≠ .unknownProvenance := by simp
  refine (mem_poolFamily_bases hget hknown).trans ⟨?_, ?_⟩
  · rintro ⟨p, hp, -, -, htag⟩
    obtain ⟨turn, hturn, hw⟩ := mem_agentTurnPairs_of_tag hp htag
    have hne := ne_of_mem_windows2 (nodup_turnBucket hids hturn) hw
    -- one of the two ends is another record
    have hother : ∃ x ∈ turn, x ≠ a.id := by
      obtain ⟨hx, hy⟩ := mem_of_mem_windows2 hw
      by_cases hfst : p.fst = a.id
      · exact ⟨p.snd, hy, fun h => hne (hfst.trans h.symm)⟩
      · exact ⟨p.fst, hx, hfst⟩
    obtain ⟨x, hx, hxa⟩ := hother
    obtain ⟨b, hb, htb, rfl⟩ := (mem_bucket hturn).mp hx
    exact ⟨b, mem_sortById.mp hb, hxa, htb⟩
  · rintro ⟨b, hb, hne, htb⟩
    have hbucket : ∃ turn, (groupBy Evidence.agentTurn Evidence.id
        (sortById pool)).get? t = some turn ∧ a.id ∈ turn :=
      exists_bucket (mem_sortById.mpr ha) hta
    obtain ⟨turn, hturn, haturn⟩ := hbucket
    have hbturn : b.id ∈ turn := (mem_bucket hturn).mpr ⟨b, mem_sortById.mpr hb, htb, rfl⟩
    obtain ⟨⟨x, y⟩, hw⟩ := exists_mem_windows2 haturn hbturn (Ne.symm hne)
    have hin : ∀ z ∈ turn, z ∈ vs := by
      intro z hz
      obtain ⟨e, he, hte, rfl⟩ := (mem_bucket hturn).mp hz
      have he' := mem_sortById.mp he
      exact (mem_familyBuckets hget).mpr ⟨e, he', familyKey_eq_of_turn hids he' ha hte hta, rfl⟩
    obtain ⟨hx, hy⟩ := mem_of_mem_windows2 hw
    refine ⟨⟨x, y, .sameAgentTurn t⟩, ?_, hin x hx, hin y hy, rfl⟩
    exact mem_append_right _ (mem_bucketPairs.mpr ⟨t, turn, hturn, hw, rfl⟩)

end

end Fornax
