import Fornax.Evidence.Independence
import Fornax.Lib.SortDedup

namespace Fornax

open List OrdMap SourceFamilyMap SortDedup
open Relation (EqvGen ReflTransGen TransGen)

def Indexes (byId : OrdMap Uuid Evidence) (pool : List Evidence) : Prop :=
  ∀ x e, byId.get? x = some e ↔ e ∈ pool ∧ e.id = x

variable {pool l : List Evidence} {e a b : Evidence} {byId : OrdMap Uuid Evidence} {x y k : Uuid}
  {vs : List Uuid} {fam : SourceFamily}

theorem mem_sortById : e ∈ sortById pool ↔ e ∈ pool :=
  mem_insertionSort _

section

variable (hids : (pool.map Evidence.id).Nodup)

include hids

theorem nodup_ids_sortById : ((sortById pool).map Evidence.id).Nodup :=
  ((perm_insertionSort _ pool).map Evidence.id).nodup_iff.mpr hids

theorem eq_of_id_eq (ha : a ∈ pool) (hb : b ∈ pool) (h : a.id = b.id) : a = b :=
  inj_on_of_nodup_map hids ha hb h

theorem indexes_indexById : Indexes (indexById pool) pool := fun _ _ => get?_indexed hids

theorem indexes_sorted : Indexes (indexById (sortById pool)) pool := by
  intro x e
  rw [indexes_indexById (nodup_ids_sortById hids) x e, mem_sortById]

end

theorem Indexes.contains (h : Indexes byId pool) (x : Uuid) :
    byId.contains x ↔ ∃ e ∈ pool, e.id = x := by
  rw [OrdMap.contains, Option.isSome_iff_exists]
  exact exists_congr fun e => h x e

theorem get?_indexById_some (h : (indexById pool).get? x = some e) : e ∈ pool ∧ e.id = x :=
  mem_of_get?_indexed h

theorem contains_indexById (pool : List Evidence) (x : Uuid) :
    (indexById pool).contains x ↔ ∃ e ∈ pool, e.id = x := by
  rw [indexById, contains_ofList]
  simp only [map_map, mem_map, Function.comp_apply]

theorem indexById_sortById (pool : List Evidence) : indexById (sortById pool) = indexById pool := by
  apply ext_get?
  intro x
  have hlast : ∀ l : List Evidence,
      (indexById l).get? x = (word Evidence.id x l).getLast? := by
    intro l
    rw [indexById, get?_ofList_last, filter_map, getLast?_map, Option.map_map]
    simp only [Function.comp_def, Option.map_id', word]
  have hsort : sortById pool = sortBy Evidence.id pool := rfl
  rw [hlast, hlast, hsort, word_sortBy]

theorem get?_isNoSource (evidence : List Evidence) (x : Uuid) : (isNoSource evidence).get? x =
      (evidence.find? fun e => e.id = x).map fun e => e.source.isNone := by
  have hfold : ∀ (l : List Evidence) (m : OrdMap Uuid Bool),
      (l.foldl (fun m e => m.alter e.id fun old => old.getD e.source.isNone) m).get? x =
        (m.get? x).or ((l.find? fun e => e.id = x).map fun e => e.source.isNone) := by
    intro l
    induction l with
    | nil => simp
    | cons e l ih =>
      intro m
      rw [foldl_cons, ih, get?_alter, find?_cons]
      by_cases hx : e.id = x
      · subst hx
        cases m.get? e.id <;> simp
      · have hx' : ¬ x = e.id := fun h => hx h.symm
        simp [hx, hx']
  exact hfold evidence empty

def NamesParent (pool : List Evidence) (child parent : Uuid) : Prop :=
  ∃ e ∈ pool, e.id = child ∧ parent ∈ e.parents ∧ ∃ p ∈ pool, p.id = parent

def Ancestor (pool : List Evidence) (x anc : Uuid) : Prop :=
  TransGen (NamesParent pool) x anc

def DerivesFrom (byId : OrdMap Uuid Evidence) (child parent : Uuid) : Prop :=
  ∃ e, byId.get? child = some e ∧ parent ∈ e.parents ∧ byId.contains parent = true

theorem mem_parentEdges (byId : OrdMap Uuid Evidence) (start cur p : Uuid) :
    p ∈ parentEdges byId start cur ↔ DerivesFrom byId cur p ∧ p ≠ start := by
  unfold parentEdges DerivesFrom
  cases byId.get? cur with
  | none => simp
  | some e => simp [and_comm, and_left_comm]

theorem Indexes.derivesFrom (h : Indexes byId pool) : DerivesFrom byId = NamesParent pool := by
  funext child parent
  simp only [DerivesFrom, NamesParent, h.contains, h child, and_assoc]

theorem parentEdges_off_keys (byId : OrdMap Uuid Evidence) (start x : Uuid)
    (hx : x ∉ byId.keys) : parentEdges byId start x = [] := by
  rw [OrdMap.mem_keys] at hx
  unfold parentEdges
  cases h : byId.get? x with
  | none => rfl
  | some e => simp [h] at hx

theorem contains_ancestors (byId : OrdMap Uuid Evidence) (x y : Uuid) :
    (ancestorsOfIndexed x byId).contains y ↔ y ≠ x ∧ TransGen (DerivesFrom byId) x y := by
  have hrel : (fun a b => b ∈ parentEdges byId x a) = fun a b => DerivesFrom byId a b ∧ b ≠ x := by
    funext a b
    exact propext (mem_parentEdges byId x a b)
  rw [ancestorsOfIndexed, Worklist.contains_reached byId.nodup_keys
    (parentEdges_off_keys byId x), hrel, Worklist.transGen_avoid_start]

theorem contains_ancestorsOfIndexed (h : Indexes byId pool) (x y : Uuid) :
    (ancestorsOfIndexed x byId).contains y ↔ y ≠ x ∧ Ancestor pool x y := by
  rw [contains_ancestors, h.derivesFrom]
  rfl

/-- Over any index, cyclic or with dangling parents, the walk ends, and what it returns is what
the steps inside the index reach. -/
theorem ancestor_walk_reaches (byId : OrdMap Uuid Evidence) (start : Uuid) :
    Worklist.Drains (parentEdges byId start) [start] OrdSet.empty OrdSet.empty
        (ancestorsOfIndexed start byId) ∧
      ∀ y, (ancestorsOfIndexed start byId).contains y = true ↔
        y ≠ start ∧ TransGen (DerivesFrom byId) start y :=
  ⟨(Worklist.reached_drained byId.nodup_keys (parentEdges_off_keys byId start) start).1,
    contains_ancestors byId start⟩

theorem Ancestor.in_pool (h : Ancestor pool x y) :
    (∃ a ∈ pool, a.id = x) ∧ ∃ b ∈ pool, b.id = y := by
  induction h with
  | single h =>
    obtain ⟨a, ha, hx, -, hb⟩ := h
    exact ⟨⟨a, ha, hx⟩, hb⟩
  | tail _ h ih =>
    obtain ⟨a, ha, hx, -, hb⟩ := h
    exact ⟨ih.1, hb⟩

/-- Equal correlation group, ancestry in either direction, or the same event on
the agent-reported channel. -/
def Linked (pool : List Evidence) (a b : Evidence) : Prop :=
  (∃ g, a.group = some g ∧ b.group = some g) ∨
  Ancestor pool a.id b.id ∨ Ancestor pool b.id a.id ∨
  (a.sourceEventId = b.sourceEventId ∧ a.onAgentChannel = true ∧ b.onAgentChannel = true)

def LinkedIds (pool : List Evidence) (x y : Uuid) : Prop :=
  ∃ a ∈ pool, ∃ b ∈ pool, a.id = x ∧ b.id = y ∧ Linked pool a b

theorem Linked.symm (h : Linked pool a b) : Linked pool b a := by
  rcases h with ⟨g, ha, hb⟩ | h | h | ⟨he, ha, hb⟩
  · exact .inl ⟨g, hb, ha⟩
  · exact .inr (.inr (.inl h))
  · exact .inr (.inl h)
  · exact .inr (.inr (.inr ⟨he.symm, hb, ha⟩))

theorem LinkedIds.symm (h : LinkedIds pool x y) : LinkedIds pool y x := by
  obtain ⟨a, ha, b, hb, hx, hy, hl⟩ := h
  exact ⟨b, hb, a, ha, hy, hx, hl.symm⟩

def Connected (pool : List Evidence) (x y : Uuid) : Prop :=
  ReflTransGen (LinkedIds pool) x y

instance : Std.Symm (LinkedIds pool) := ⟨fun _ _ => LinkedIds.symm⟩

theorem Connected.symm (h : Connected pool x y) : Connected pool y x :=
  Std.Symm.symm (r := ReflTransGen (LinkedIds pool)) _ _ h

theorem Connected.trans {z : Uuid} (h : Connected pool x y) (h' : Connected pool y z) :
    Connected pool x z :=
  ReflTransGen.trans h h'

theorem eqvGen_iff_connected (pool : List Evidence) (x y : Uuid) :
    EqvGen (LinkedIds pool) x y ↔ Connected pool x y := by
  rw [Relation.EqvGen.eqvGen_eq_reflTransGen, Connected]

def Joins (pairs : List FamilyPair) (x y : Uuid) : Prop := ∃ p ∈ pairs, p.fst = x ∧ p.snd = y

theorem recordAll_parent (b : FamilyBuild) (pairs : List FamilyPair) :
    (b.recordAll pairs).parent = b.parent.unionAll (pairs.map fun p => (p.fst, p.snd)) := by
  rw [Forest.unionAll, foldl_map]
  exact (foldl_hom FamilyBuild.parent fun _ _ => rfl).symm

theorem rootOf_recordAll (sorted : List Evidence) (pairs : List FamilyPair) (x y : Uuid) :
    ((FamilyBuild.initial sorted).recordAll pairs).parent.rootOf x =
        ((FamilyBuild.initial sorted).recordAll pairs).parent.rootOf y ↔
      EqvGen (Joins pairs) x y := by
  have hrel : (fun x y => (x, y) ∈ pairs.map fun p => (p.fst, p.snd)) = Joins pairs := by
    funext x y
    simp [Joins]
  rw [recordAll_parent, FamilyBuild.initial, Forest.unionAll_root, hrel]

section

variable {key : Evidence → Option Uuid} {tag : Uuid → FamilyBasisTag}

theorem Joins.of_bucketPairs (h : Joins (bucketPairs key tag l) x y) :
    ∃ a ∈ l, ∃ b ∈ l, a.id = x ∧ b.id = y ∧ ∃ k, key a = some k ∧ key b = some k := by
  obtain ⟨p, hp, rfl, rfl⟩ := h
  obtain ⟨⟨k, vs⟩, hbucket, hp⟩ := mem_flatMap.mp hp
  obtain ⟨⟨x, y⟩, hw, rfl⟩ := mem_map.mp hp
  have hget := mem_entries.mp hbucket
  obtain ⟨hx, hy⟩ := mem_of_mem_windows2 hw
  obtain ⟨a, ha, hka, hax⟩ := (mem_bucket hget).mp hx
  obtain ⟨b, hb, hkb, hby⟩ := (mem_bucket hget).mp hy
  exact ⟨a, ha, b, hb, hax, hby, k, hka, hkb⟩

theorem eqvGen_bucketPairs (ha : a ∈ l) (hb : b ∈ l) (hka : key a = some k) (hkb : key b = some k) :
    EqvGen (Joins (bucketPairs key tag l)) a.id b.id := by
  have hbucket : ∃ vs, (groupBy key Evidence.id l).get? k = some vs ∧ a.id ∈ vs :=
    exists_bucket ha hka
  obtain ⟨vs, hget, hav⟩ := hbucket
  have hbv : b.id ∈ vs := (mem_bucket hget).mpr ⟨b, hb, hkb, rfl⟩
  refine (eqvGen_windows2 vs _ hav _ hbv).mono ?_
  intro x y hxy
  refine ⟨⟨x, y, tag k⟩, mem_flatMap.mpr ⟨(k, vs), mem_entries.mpr hget, ?_⟩, rfl, rfl⟩
  exact mem_map.mpr ⟨(x, y), hxy, rfl⟩

end

theorem joins_ancestryPairs (h : Indexes byId pool) (hl : ∀ e, e ∈ l ↔ e ∈ pool) (x y : Uuid) :
    Joins (ancestryPairs byId l) x y ↔ y ≠ x ∧ Ancestor pool x y := by
  have hmem : Joins (ancestryPairs byId l) x y ↔ ∃ e ∈ l, e.id = x ∧ byId.contains y = true ∧
        (ancestorsOfIndexed e.id byId).contains y = true := by
    constructor
    · rintro ⟨p, hp, rfl, rfl⟩
      obtain ⟨e, he, hp⟩ := mem_flatMap.mp hp
      obtain ⟨a, ha, rfl⟩ := mem_map.mp hp
      obtain ⟨hanc, hin⟩ := mem_filter.mp ha
      exact ⟨e, he, rfl, hin, OrdSet.mem_toList.mp hanc⟩
    · rintro ⟨e, he, rfl, hin, hanc⟩
      refine ⟨⟨e.id, y, .derivationAncestry y e.id⟩, mem_flatMap.mpr ⟨e, he, ?_⟩, rfl, rfl⟩
      exact mem_map.mpr ⟨y, mem_filter.mpr ⟨OrdSet.mem_toList.mpr hanc, hin⟩, rfl⟩
  rw [hmem]
  constructor
  · rintro ⟨e, -, rfl, -, hanc⟩
    exact (contains_ancestorsOfIndexed h e.id y).mp hanc
  · intro hxy
    obtain ⟨⟨a, ha, rfl⟩, hb⟩ := hxy.2.in_pool
    exact ⟨a, (hl a).mpr ha, rfl, (h.contains y).mpr hb,
      (contains_ancestorsOfIndexed h a.id y).mpr hxy⟩

theorem agentTurn_eq_some : e.agentTurn = some k ↔ e.onAgentChannel ∧ e.sourceEventId = k := by
  unfold Evidence.agentTurn
  cases e.onAgentChannel <;> simp

theorem joins_append (p q : List FamilyPair) (x y : Uuid) :
    Joins (p ++ q) x y ↔ Joins p x y ∨ Joins q x y := by
  simp only [Joins, mem_append, or_and_right, exists_or]

def familyPairs (pool : List Evidence) : List FamilyPair :=
  groupPairs (sortById pool) ++ ancestryPairs (indexById (sortById pool)) (sortById pool) ++
    agentTurnPairs (sortById pool)

section

variable (hids : (pool.map Evidence.id).Nodup)

include hids

theorem joins_familyPairs (x y : Uuid) :
    Joins (familyPairs pool) x y ↔ (Joins (groupPairs (sortById pool)) x y ∨
      (y ≠ x ∧ Ancestor pool x y)) ∨ Joins (agentTurnPairs (sortById pool)) x y := by
  rw [familyPairs, joins_append, joins_append,
    joins_ancestryPairs (indexes_sorted hids) fun e => mem_sortById]

theorem Joins.linkedIds (h : Joins (familyPairs pool) x y) : LinkedIds pool x y := by
  rcases (joins_familyPairs hids x y).mp h with (hg | ⟨-, ha⟩) | ht
  · obtain ⟨a, ha, b, hb, hx, hy, g, hga, hgb⟩ := Joins.of_bucketPairs hg
    exact ⟨a, mem_sortById.mp ha, b, mem_sortById.mp hb, hx, hy, Or.inl ⟨g, hga, hgb⟩⟩
  · obtain ⟨⟨a, hap, rfl⟩, b, hbp, rfl⟩ := ha.in_pool
    exact ⟨a, hap, b, hbp, rfl, rfl, Or.inr (Or.inl ha)⟩
  · obtain ⟨a, ha, b, hb, hx, hy, t, hta, htb⟩ := Joins.of_bucketPairs ht
    obtain ⟨hca, hea⟩ := agentTurn_eq_some.mp hta
    obtain ⟨hcb, heb⟩ := agentTurn_eq_some.mp htb
    exact ⟨a, mem_sortById.mp ha, b, mem_sortById.mp hb, hx, hy,
      Or.inr (Or.inr (Or.inr ⟨hea.trans heb.symm, hca, hcb⟩))⟩

theorem Ancestor.joined (h : Ancestor pool x y) :
    EqvGen (Joins (familyPairs pool)) x y := by
  by_cases hxy : y = x
  · rw [hxy]
    exact .refl _
  · exact .rel _ _ ((joins_familyPairs hids x y).mpr (Or.inl (Or.inr ⟨hxy, h⟩)))

theorem LinkedIds.joined (h : LinkedIds pool x y) :
    EqvGen (Joins (familyPairs pool)) x y := by
  obtain ⟨a, ha, b, hb, rfl, rfl, hlink⟩ := h
  have ha' := mem_sortById.mpr ha
  have hb' := mem_sortById.mpr hb
  rcases hlink with ⟨g, hga, hgb⟩ | h | h | ⟨he, hca, hcb⟩
  · have hg : EqvGen (Joins (groupPairs (sortById pool))) a.id b.id :=
      eqvGen_bucketPairs ha' hb' hga hgb
    exact hg.mono fun c d hcd => (joins_familyPairs hids c d).mpr (Or.inl (Or.inl hcd))
  · exact h.joined hids
  · exact (h.joined hids).symm _ _
  · have ht : EqvGen (Joins (agentTurnPairs (sortById pool))) a.id b.id :=
      eqvGen_bucketPairs ha' hb' (agentTurn_eq_some.mpr ⟨hca, he⟩)
        (agentTurn_eq_some.mpr ⟨hcb, rfl⟩)
    exact ht.mono fun c d hcd => (joins_familyPairs hids c d).mpr (Or.inr hcd)

end

def familyForest (pool : List Evidence) : Forest Uuid := (familyBuild (sortById pool)).parent

theorem familyForest_rootOf_eq (hids : (pool.map Evidence.id).Nodup) (x y : Uuid) :
    (familyForest pool).rootOf x = (familyForest pool).rootOf y ↔ Connected pool x y := by
  have hroots : (familyForest pool).rootOf x = (familyForest pool).rootOf y ↔
      EqvGen (Joins (familyPairs pool)) x y := rootOf_recordAll _ _ x y
  rw [hroots, ← eqvGen_iff_connected]
  exact ⟨fun h => h.mono fun _ _ => Joins.linkedIds hids,
    eqvGen_of_forall_rel fun _ _ huv => huv.joined hids⟩

def familyKey (f : Forest Uuid) (e : Evidence) : Uuid :=
  if e.source.isNone then e.id else f.rootOf e.id

theorem foldl_place_members (f : Forest Uuid) (l : List Evidence) (a : Assembly)
    (ha : ∀ x, a.parent.rootOf x = f.rootOf x) : (l.foldl Assembly.place a).membersByRoot =
      l.foldl (fun m e => m.pushAt (familyKey f e) e.id) a.membersByRoot := by
  induction l generalizing a with
  | nil => rfl
  | cons e l ih =>
    have hkey : (a.place e).membersByRoot = a.membersByRoot.pushAt (familyKey f e) e.id := by
      unfold Assembly.place familyKey
      cases e.source.isNone
      · simp [ha]
      · rfl
    have hroots : ∀ x, (a.place e).parent.rootOf x = f.rootOf x := by
      intro x
      unfold Assembly.place
      cases e.source.isNone
      · simp only [Bool.false_eq_true, if_false, Forest.rootOf_find, ha]
      · exact ha x
    rw [foldl_cons, foldl_cons, ih _ hroots, hkey]

def familyBuckets (pool : List Evidence) : OrdMap Uuid (List Uuid) :=
  groupBy (fun e => some (familyKey (familyForest pool) e)) Evidence.id (sortById pool)

theorem assembleMembers_members (pool : List Evidence) :
    (assembleMembers (familyForest pool) (sortById pool)).membersByRoot = familyBuckets pool :=
  foldl_place_members (familyForest pool) (sortById pool) _ fun _ => rfl

theorem mem_familyBuckets (h : (familyBuckets pool).get? k = some vs) :
    x ∈ vs ↔ ∃ e ∈ pool, familyKey (familyForest pool) e = k ∧ e.id = x := by
  rw [mem_bucket h]
  simp only [mem_sortById, Option.some.injEq]

theorem familyBuckets_ne_nil (h : (familyBuckets pool).get? k = some vs) : vs ≠ [] :=
  (get?_groupBy.mp h).2

theorem nodup_familyBuckets (hids : (pool.map Evidence.id).Nodup)
    (h : (familyBuckets pool).get? k = some vs) : vs.Nodup := by
  rw [(get?_groupBy.mp h).1]
  exact (nodup_ids_sortById hids).sublist (filter_sublist.map _)

theorem evidenceIds_familyOfBucket (noSource : OrdMap Uuid Bool)
    (bases : OrdMap Uuid (OrdSet FamilyBasisTag)) (k : Uuid) (hvs : vs.Nodup) :
    (familyOfBucket noSource bases (k, vs)).evidenceIds = vs.insertionSort (· ≤ ·) := by
  have hnodup : (vs.insertionSort (· ≤ ·)).Nodup := (perm_insertionSort _ vs).nodup_iff.mpr hvs
  exact destutter_of_isChain _ _ hnodup.isChain

def poolFamily (pool : List Evidence) (bucket : Uuid × List Uuid) : SourceFamily :=
  familyOfBucket (isNoSource pool) (basesByFamily (familyBuild (sortById pool)).basesByPair
    (assembleMembers (familyForest pool) (sortById pool)).valueToKeys) bucket

theorem build_families (pool : List Evidence) : (build pool).families =
      ((familyBuckets pool).entries.map (poolFamily pool)).insertionSort firstIdLe := by
  rw [← assembleMembers_members]
  rfl

theorem mem_families : fam ∈ (build pool).families ↔
      ∃ k vs, (familyBuckets pool).get? k = some vs ∧ poolFamily pool (k, vs) = fam := by
  rw [build_families, mem_insertionSort, mem_map]
  simp only [Prod.exists, mem_entries]

theorem mem_poolFamily (hids : (pool.map Evidence.id).Nodup)
    (h : (familyBuckets pool).get? k = some vs) : x ∈ (poolFamily pool (k, vs)).evidenceIds ↔
      ∃ e ∈ pool, familyKey (familyForest pool) e = k ∧ e.id = x := by
  rw [poolFamily, evidenceIds_familyOfBucket _ _ k (nodup_familyBuckets hids h),
    mem_insertionSort, mem_familyBuckets h]

theorem mem_dedupSorted : x ∈ (vs.insertionSort (· ≤ ·)).destutter (· ≠ ·) ↔ x ∈ vs := by
  have hmem : x ∈ sortDedup id vs ↔ x ∈ vs := mem_sortDedup
  exact hmem

theorem family_of_index {fs : List SourceFamily} {i : ℕ} (h : (ofList (fs.zipIdx.flatMap fun p =>
      p.1.evidenceIds.map fun id => (id, p.2))).get? x = some i) :
    ∃ fam, fs[i]? = some fam ∧ x ∈ fam.evidenceIds := by
  obtain ⟨p, hp, hpe⟩ := mem_flatMap.mp (mem_of_get?_ofList h)
  obtain ⟨y, hy, heq⟩ := mem_map.mp hpe
  cases heq
  exact ⟨p.1, mem_zipIdx_iff_getElem?.mp hp, hy⟩

theorem familyOf_mem (h : (build pool).familyOf x = some fam) : x ∈ fam.evidenceIds := by
  obtain ⟨i, hi, hfam⟩ := Option.bind_eq_some_iff.mp h
  obtain ⟨fam', hfam', hx⟩ := family_of_index hi
  have heq : some fam' = some fam := hfam'.symm.trans hfam
  rw [← Option.some.inj heq]
  exact hx

theorem exists_family (ha : a ∈ pool) : ∃ vs,
    (familyBuckets pool).get? (familyKey (familyForest pool) a) = some vs ∧ a.id ∈ vs :=
  exists_bucket (mem_sortById.mpr ha) rfl

theorem exists_familyOf (he : e ∈ pool) : ∃ fam, (build pool).familyOf e.id = some fam := by
  obtain ⟨vs, hget, hvs⟩ := exists_family he
  have hfam : poolFamily pool (familyKey (familyForest pool) e, vs) ∈
      (build pool).families := mem_families.mpr ⟨_, vs, hget, rfl⟩
  have hid : e.id ∈ (poolFamily pool (familyKey (familyForest pool) e, vs)).evidenceIds :=
    mem_dedupSorted.mpr hvs
  obtain ⟨i, hi⟩ := mem_iff_getElem?.mp hfam
  have hkey : (build pool).index.contains e.id := by
    refine contains_ofList.mpr (mem_map.mpr ⟨(e.id, i), ?_, rfl⟩)
    exact mem_flatMap.mpr ⟨(poolFamily pool (familyKey (familyForest pool) e, vs), i),
      mem_zipIdx_iff_getElem?.mpr hi, mem_map.mpr ⟨e.id, hid, rfl⟩⟩
  obtain ⟨j, hj⟩ := Option.isSome_iff_exists.mp hkey
  obtain ⟨fam, hj', -⟩ := family_of_index hj
  exact ⟨fam, Option.bind_eq_some_iff.mpr ⟨j, hj, hj'⟩⟩

def SameFamily (m : SourceFamilyMap) (x y : Uuid) : Prop :=
  ∃ fam ∈ m.families, x ∈ fam.evidenceIds ∧ y ∈ fam.evidenceIds

instance : Std.Total firstIdLe := ⟨by
  intro f g
  unfold firstIdLe
  cases f.evidenceIds <;> cases g.evidenceIds <;> simp [le_total]⟩

instance : IsTrans SourceFamily firstIdLe := ⟨by
  intro f g h hfg hgh
  unfold firstIdLe at *
  cases hf : f.evidenceIds with
  | nil => trivial
  | cons a l =>
    cases hg : g.evidenceIds with
    | nil => simp [hf, hg] at hfg
    | cons b m =>
      cases hh : h.evidenceIds with
      | nil => simp [hg, hh] at hgh
      | cons c n =>
        simp only [hf, hg] at hfg
        simp only [hg, hh] at hgh
        exact hfg.trans hgh⟩

def IsMinId (f : SourceFamily) (x : Uuid) : Prop :=
  x ∈ f.evidenceIds ∧ ∀ y ∈ f.evidenceIds, x ≤ y

def MinIdLt (f g : SourceFamily) : Prop := ∃ x y, IsMinId f x ∧ IsMinId g y ∧ x < y

section

variable (hids : (pool.map Evidence.id).Nodup)

include hids

theorem mem_family_iff_key (ha : a ∈ pool) (h : (familyBuckets pool).get? k = some vs) :
    a.id ∈ (poolFamily pool (k, vs)).evidenceIds ↔ familyKey (familyForest pool) a = k := by
  rw [mem_poolFamily hids h]
  refine ⟨?_, fun hk => ⟨a, ha, hk, rfl⟩⟩
  rintro ⟨e, he, hk, hid⟩
  rw [← eq_of_id_eq hids he ha hid]
  exact hk

theorem sameFamily_iff_key (ha : a ∈ pool) (hb : b ∈ pool) : SameFamily (build pool) a.id b.id ↔
      familyKey (familyForest pool) a = familyKey (familyForest pool) b := by
  constructor
  · rintro ⟨fam, hfam, hfa, hfb⟩
    obtain ⟨k, vs, hget, rfl⟩ := mem_families.mp hfam
    rw [(mem_family_iff_key hids ha hget).mp hfa, (mem_family_iff_key hids hb hget).mp hfb]
  · intro hk
    obtain ⟨vs, hget, -⟩ := exists_family ha
    exact ⟨_, mem_families.mpr ⟨_, vs, hget, rfl⟩, (mem_family_iff_key hids ha hget).mpr rfl,
      (mem_family_iff_key hids hb hget).mpr hk.symm⟩

theorem existsUnique_family (ha : a ∈ pool) :
    ∃! fam, fam ∈ (build pool).families ∧ a.id ∈ fam.evidenceIds := by
  obtain ⟨vs, hget, -⟩ := exists_family ha
  refine ⟨poolFamily pool (_, vs), ⟨mem_families.mpr ⟨_, vs, hget, rfl⟩,
    (mem_family_iff_key hids ha hget).mpr rfl⟩, ?_⟩
  rintro fam ⟨hfam, hin⟩
  obtain ⟨k, ws, hget', rfl⟩ := mem_families.mp hfam
  have hk := (mem_family_iff_key hids ha hget').mp hin
  subst hk
  rw [hget] at hget'
  rw [Option.some.inj hget']

theorem ids_in_pool (h : fam ∈ (build pool).families) (hx : x ∈ fam.evidenceIds) :
    ∃ e ∈ pool, e.id = x := by
  obtain ⟨k, vs, hget, rfl⟩ := mem_families.mp h
  obtain ⟨e, he, -, hid⟩ := (mem_poolFamily hids hget).mp hx
  exact ⟨e, he, hid⟩

theorem family_first (h : fam ∈ (build pool).families) :
    ∃ a m, fam.evidenceIds = a :: m ∧ IsMinId fam a := by
  obtain ⟨k, vs, hget, rfl⟩ := mem_families.mp h
  have hsort : (poolFamily pool (k, vs)).evidenceIds = vs.insertionSort (· ≤ ·) :=
    evidenceIds_familyOfBucket _ _ k (nodup_familyBuckets hids hget)
  have hpw := pairwise_insertionSort (· ≤ ·) vs
  unfold IsMinId
  rw [hsort]
  cases hs : vs.insertionSort (· ≤ ·) with
  | nil =>
    have hlen := length_insertionSort (· ≤ ·) vs
    rw [hs] at hlen
    exact absurd (eq_nil_of_length_eq_zero hlen.symm) (familyBuckets_ne_nil hget)
  | cons a m =>
    rw [hs] at hpw
    refine ⟨a, m, rfl, mem_cons_self, ?_⟩
    intro b hb
    rcases mem_cons.mp hb with rfl | hb
    · exact le_refl _
    · exact (pairwise_cons.mp hpw).1 b hb

theorem families_disjoint : (build pool).families.Pairwise fun f g =>
      ∀ x ∈ f.evidenceIds, x ∉ g.evidenceIds := by
  rw [build_families]
  refine (perm_insertionSort _ _).symm.pairwise ?_ ?_
  · rw [pairwise_map]
    have hkeys : (familyBuckets pool).entries.Pairwise fun b c => b.1 < c.1 :=
      pairwise_map.mp (familyBuckets pool).sorted
    refine hkeys.imp_of_mem ?_
    rintro ⟨j, vs⟩ ⟨k, ws⟩ hj hk hlt x hx hx'
    have hj := mem_entries.mp hj
    have hk := mem_entries.mp hk
    obtain ⟨e, he, hkey, rfl⟩ := (mem_poolFamily hids hj).mp hx
    have hkey' := (mem_family_iff_key hids he hk).mp hx'
    exact absurd (hkey.symm.trans hkey') hlt.ne
  · intro f g hfg x hg hf
    exact hfg x hf hg

theorem families_sorted : (build pool).families.Pairwise MinIdLt := by
  have hle : (build pool).families.Pairwise firstIdLe := by
    rw [build_families]
    exact pairwise_insertionSort firstIdLe _
  refine (hle.and (families_disjoint hids)).imp_of_mem ?_
  rintro f g hf hg ⟨hfg, hdisj⟩
  obtain ⟨a, l, hfa, hfmin⟩ := family_first hids hf
  obtain ⟨b, m, hgb, hgmin⟩ := family_first hids hg
  refine ⟨a, b, hfmin, hgmin, lt_of_le_of_ne ?_ ?_⟩
  · simpa [firstIdLe, hfa, hgb] using hfg
  · rintro rfl
    exact hdisj a (by simp [hfa]) (by simp [hgb])

end

theorem familyKey_of_source {f : Forest Uuid} (h : e.source.isSome) :
    familyKey f e = f.rootOf e.id := by
  unfold familyKey
  cases hs : e.source with
  | none => simp [hs] at h
  | some s => rfl

/-- Families are exactly the connected components of the three rules, every
record is in one of them, and they are listed by increasing minimum id. -/
theorem build_families_components (pool : List Evidence) (hids : (pool.map Evidence.id).Nodup)
    (hsrc : ∀ e ∈ pool, e.source.isSome = true) :
    (∀ a ∈ pool, ∀ b ∈ pool, SameFamily (build pool) a.id b.id ↔ Connected pool a.id b.id) ∧
    (∀ e ∈ pool, ∃! fam, fam ∈ (build pool).families ∧ e.id ∈ fam.evidenceIds) ∧
    (∀ fam ∈ (build pool).families, ∀ x ∈ fam.evidenceIds, ∃ e ∈ pool, e.id = x) ∧
    (build pool).families.Pairwise MinIdLt := by
  refine ⟨?_, fun e he => existsUnique_family hids he, fun fam h x hx => ids_in_pool hids h hx,
    families_sorted hids⟩
  intro a ha b hb
  rw [sameFamily_iff_key hids ha hb, familyKey_of_source (hsrc a ha),
    familyKey_of_source (hsrc b hb), familyForest_rootOf_eq hids]

def agentRecord (id event : Uuid) (group : Option Uuid) (parents : List Uuid) : Evidence where
  id := id
  sourceEventId := event
  kind := .toolResult
  observedAt := "2026-09-20T12:00:00Z"
  source := some ⟨.agentAdjacent, group, parents⟩

def cyclicPool : List Evidence :=
  [agentRecord 5 100 none [2], agentRecord 9 101 (some 40) [], agentRecord 2 102 (some 40) [5]]

theorem build_families_components_cyclicPool : Connected cyclicPool 5 9 :=
  ((build_families_components cyclicPool (by decide) (by decide)).1
    (agentRecord 5 100 none [2]) (by decide) (agentRecord 9 101 (some 40) []) (by decide)).mp
    (by unfold SameFamily; decide)

theorem familyKey_of_none {f : Forest Uuid} (h : e.source = none) : familyKey f e = e.id := by
  simp [familyKey, h]

theorem parents_of_none (h : e.source = none) : e.parents = [] := by
  simp [Evidence.parents, h]

theorem source_of_mem_parents {p : Uuid} (h : p ∈ e.parents) : e.source.isSome := by
  cases hs : e.source with
  | none => simp [parents_of_none hs] at h
  | some s => rfl

theorem linked_of_none (hids : (pool.map Evidence.id).Nodup) {u : Evidence} (hu : u ∈ pool)
    (hs : u.source = none) (h : Linked pool u b) : ∃ e ∈ pool, u.id ∈ e.parents := by
  rcases h with ⟨g, hg, -⟩ | h | h | ⟨-, hc, -⟩
  · simp [Evidence.group, hs] at hg
  · obtain ⟨c, ⟨e, he, hid, hc, -⟩, -⟩ := TransGen.head'_iff.mp h
    rw [eq_of_id_eq hids he hu hid, parents_of_none hs] at hc
    cases hc
  · cases h with
    | single h => exact h.imp fun e h => ⟨h.1, h.2.2.1⟩
    | tail _ h => exact h.imp fun e h => ⟨h.1, h.2.2.1⟩
  · simp [Evidence.onAgentChannel, hs] at hc

def UnknownAlone (pool : List Evidence) : Prop :=
  ∀ u ∈ pool, u.source = none → ∀ fam ∈ (build pool).families,
    u.id ∈ fam.evidenceIds → fam.evidenceIds = [u.id]

def Evidence.rename (ρ : Uuid → Uuid) (e : Evidence) : Evidence :=
  { e with
    id := ρ e.id
    source := e.source.map fun s => { s with derivedFrom := s.derivedFrom.map ρ } }

/-- Whether two sourced records share a family is the same after any injective
renaming of the ids. -/
def SharingIgnoresIds (pool : List Evidence) : Prop :=
  ∀ ρ : Uuid → Uuid, Function.Injective ρ → ∀ a ∈ pool, ∀ b ∈ pool,
    a.source.isSome = true → b.source.isSome = true →
      (SameFamily (build (pool.map (Evidence.rename ρ))) (ρ a.id) (ρ b.id) ↔
        SameFamily (build pool) a.id b.id)

variable (ρ : Uuid → Uuid)

theorem parents_rename (e : Evidence) : (e.rename ρ).parents = e.parents.map ρ := by
  unfold Evidence.parents Evidence.rename
  cases e.source <;> rfl

theorem group_rename (e : Evidence) : (e.rename ρ).group = e.group := by
  unfold Evidence.group Evidence.rename
  cases e.source <;> rfl

theorem onAgentChannel_rename (e : Evidence) : (e.rename ρ).onAgentChannel = e.onAgentChannel := by
  unfold Evidence.onAgentChannel Evidence.rename
  cases e.source <;> rfl

theorem NamesParent.rename (h : NamesParent pool x y) :
    NamesParent (pool.map (Evidence.rename ρ)) (ρ x) (ρ y) := by
  obtain ⟨e, he, rfl, hy, p, hp, rfl⟩ := h
  refine ⟨e.rename ρ, mem_map_of_mem he, rfl, ?_, p.rename ρ, mem_map_of_mem hp, rfl⟩
  rw [parents_rename]
  exact mem_map_of_mem hy

theorem Ancestor.rename (h : Ancestor pool x y) :
    Ancestor (pool.map (Evidence.rename ρ)) (ρ x) (ρ y) :=
  TransGen.lift ρ (fun _ _ (h : NamesParent pool _ _) => h.rename ρ) _ _ h

theorem LinkedIds.rename (h : LinkedIds pool x y) :
    LinkedIds (pool.map (Evidence.rename ρ)) (ρ x) (ρ y) := by
  obtain ⟨a, ha, b, hb, rfl, rfl, hl⟩ := h
  refine ⟨a.rename ρ, mem_map_of_mem ha, b.rename ρ, mem_map_of_mem hb, rfl, rfl, ?_⟩
  unfold Linked
  rw [group_rename, group_rename, onAgentChannel_rename, onAgentChannel_rename]
  rcases hl with hg | h | h | ht
  · exact .inl hg
  · exact .inr (.inl (h.rename ρ))
  · exact .inr (.inr (.inl (h.rename ρ)))
  · exact .inr (.inr (.inr ht))

theorem Connected.rename (h : Connected pool x y) :
    Connected (pool.map (Evidence.rename ρ)) (ρ x) (ρ y) :=
  ReflTransGen.lift ρ (fun _ _ (h : LinkedIds pool _ _) => h.rename ρ) _ _ h

theorem rename_rename {ρ σ : Uuid → Uuid} (h : ∀ x, σ (ρ x) = x) (e : Evidence) :
    (e.rename ρ).rename σ = e := by
  obtain ⟨id, ev, kind, obs, source⟩ := e
  cases source with
  | none => simp [Evidence.rename, h]
  | some s =>
    have hmap : (s.derivedFrom.map ρ).map σ = s.derivedFrom := by
      rw [map_map]
      exact map_id'' h s.derivedFrom
    simp [Evidence.rename, h, hmap]

theorem connected_rename_iff {ρ : Uuid → Uuid} (hρ : Function.Injective ρ) (x y : Uuid) :
    Connected (pool.map (Evidence.rename ρ)) (ρ x) (ρ y) ↔ Connected pool x y := by
  refine ⟨?_, Connected.rename ρ⟩
  intro h
  obtain ⟨σ, hσ⟩ := hρ.hasLeftInverse
  have hback := h.rename σ
  rw [map_map] at hback
  have hid : Evidence.rename σ ∘ Evidence.rename ρ = id := funext fun e => rename_rename hσ e
  rw [hid, map_id, hσ, hσ] at hback
  exact hback

theorem sharing_ignores_ids (hids : (pool.map Evidence.id).Nodup) : SharingIgnoresIds pool := by
  intro ρ hρ a ha b hb hsa hsb
  have hids' : ((pool.map (Evidence.rename ρ)).map Evidence.id).Nodup := by
    have hmap : (pool.map (Evidence.rename ρ)).map Evidence.id = (pool.map Evidence.id).map ρ := by
      rw [map_map, map_map]
      rfl
    rw [hmap]
    exact hids.map hρ
  have hsrc : ∀ e : Evidence, e.source.isSome → (e.rename ρ).source.isSome := by
    intro e he
    simpa [Evidence.rename] using he
  show SameFamily _ (a.rename ρ).id (b.rename ρ).id ↔ _
  rw [sameFamily_iff_key hids' (mem_map_of_mem ha) (mem_map_of_mem hb),
    familyKey_of_source (hsrc a hsa), familyKey_of_source (hsrc b hsb),
    familyForest_rootOf_eq hids', sameFamily_iff_key hids ha hb, familyKey_of_source hsa,
    familyKey_of_source hsb, familyForest_rootOf_eq hids]
  exact connected_rename_iff hρ a.id b.id

/-- A source-less record that another record names as a parent is connected to
a smaller id. -/
def NoUnknownRoot (pool : List Evidence) : Prop :=
  ∀ u ∈ pool, u.source = none → ∀ e ∈ pool, u.id ∈ e.parents → ∃ x, Connected pool u.id x ∧ x < u.id

section

variable (hids : (pool.map Evidence.id).Nodup)

include hids

theorem rootOf_eq_iff_connected_least (x r : Uuid) : (familyForest pool).rootOf x = r ↔
      Connected pool x r ∧ ∀ y, Connected pool r y → r ≤ y := by
  rw [Forest.rootOf_eq_iff_least, familyForest_rootOf_eq hids]
  refine and_congr_right fun hxr => forall_congr' fun y => ?_
  rw [familyForest_rootOf_eq hids]
  have hy : Connected pool y x ↔ Connected pool r y :=
    ⟨fun h => (Connected.trans h hxr).symm, fun h => (Connected.trans hxr h).symm⟩
  rw [hy]

theorem alone_of_noUnknownRoot (h : NoUnknownRoot pool) : UnknownAlone pool := by
  intro u hu hs fam hfam hin
  obtain ⟨k, vs, hget, rfl⟩ := mem_families.mp hfam
  have hk := (mem_family_iff_key hids hu hget).mp hin
  rw [familyKey_of_none hs] at hk
  have hall : ∀ x ∈ (poolFamily pool (k, vs)).evidenceIds, x = u.id := by
    intro x hx
    obtain ⟨e, he, hkey, rfl⟩ := (mem_poolFamily hids hget).mp hx
    cases hes : e.source with
    | none => rw [familyKey_of_none hes] at hkey; exact hkey.trans hk.symm
    | some s =>
      rw [familyKey_of_source (by simp [hes]), ← hk, rootOf_eq_iff_connected_least hids] at hkey
      obtain ⟨hconn, hleast⟩ := hkey
      -- a chain that leaves `u` starts with a record naming it
      rcases ReflTransGen.cases_head hconn.symm with heq | ⟨z, hz, -⟩
      · exact heq.symm
      · obtain ⟨a, ha, b, -, hau, -, hl⟩ := hz
        rw [eq_of_id_eq hids ha hu hau] at hl
        obtain ⟨p, hp, hpu⟩ := linked_of_none hids hu hs hl
        obtain ⟨y, hy, hlt⟩ := h u hu hs p hp hpu
        exact absurd (hleast y hy) (not_le.mpr hlt)
  have hnodup : (poolFamily pool (k, vs)).evidenceIds.Nodup := by
    rw [poolFamily, evidenceIds_familyOfBucket _ _ k (nodup_familyBuckets hids hget)]
    exact (perm_insertionSort _ vs).nodup_iff.mpr (nodup_familyBuckets hids hget)
  refine perm_singleton.mp ((perm_ext_iff_of_nodup hnodup (nodup_singleton _)).mpr ?_)
  intro x
  rw [mem_singleton]
  exact ⟨hall x, fun hx => hx ▸ hin⟩

theorem noUnknownRoot_of_alone (h : UnknownAlone pool) : NoUnknownRoot pool := by
  intro u hu hs e he hue
  by_contra hno
  have hleast : ∀ y, Connected pool u.id y → u.id ≤ y :=
    fun y hy => not_lt.mp fun hlt => hno ⟨y, hy, hlt⟩
  have hanc : Ancestor pool e.id u.id := .single ⟨e, he, rfl, hue, u, hu, rfl⟩
  have hconn : Connected pool e.id u.id := .single ⟨e, he, u, hu, rfl, rfl, Or.inr (Or.inl hanc)⟩
  have hkey : familyKey (familyForest pool) e = familyKey (familyForest pool) u := by
    rw [familyKey_of_source (source_of_mem_parents hue), familyKey_of_none hs]
    exact (rootOf_eq_iff_connected_least hids e.id u.id).mpr ⟨hconn, hleast⟩
  obtain ⟨fam, hfam, hfe, hfu⟩ := (sameFamily_iff_key hids he hu).mpr hkey
  rw [h u hu hs fam hfam hfu, mem_singleton] at hfe
  rw [eq_of_id_eq hids he hu hfe, parents_of_none hs] at hue
  cases hue

end

/-- Sharing between sourced records never depends on the ids; a source-less
record is alone exactly when it is not the least id of a class of others. -/
theorem unknown_provenance_alone_iff (pool : List Evidence) (hids : (pool.map Evidence.id).Nodup) :
    (UnknownAlone pool ∧ SharingIgnoresIds pool) ↔ NoUnknownRoot pool := by
  refine ⟨fun h => noUnknownRoot_of_alone hids h.1, fun h => ⟨alone_of_noUnknownRoot hids h, ?_⟩⟩
  exact sharing_ignores_ids hids

def unsourcedRecord (id : Uuid) : Evidence where
  id := id
  sourceEventId := 0
  kind := .fileDiff
  observedAt := "2026-09-20T12:00:00Z"
  source := none

theorem unknown_provenance_alone_named_later :
    UnknownAlone [agentRecord 3 100 none [7], unsourcedRecord 7] := by
  refine ((unknown_provenance_alone_iff _ (by decide)).mpr ?_).1
  intro u hu hs e he hue
  have hu7 : u = unsourcedRecord 7 := by
    rcases mem_cons.mp hu with rfl | hu
    · cases hs
    · exact mem_singleton.mp hu
  subst hu7
  have hanc : Ancestor [agentRecord 3 100 none [7], unsourcedRecord 7] 3 7 :=
    .single ⟨agentRecord 3 100 none [7], by decide, rfl, by decide, unsourcedRecord 7, hu, rfl⟩
  exact ⟨3, .single ⟨_, hu, agentRecord 3 100 none [7], by decide, rfl, rfl,
    Or.inr (Or.inr (Or.inl hanc))⟩, by decide⟩

/-- The source-less record 1 is named by record 2, becomes the root and is
listed with it. -/
theorem unknown_provenance_shares_family :
    (unsourcedRecord 1).source = none ∧
    (build [unsourcedRecord 1, agentRecord 2 100 none [1]]).families.map
      SourceFamily.evidenceIds = [[1, 2]] := by
  decide

end Fornax
