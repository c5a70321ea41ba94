import Fornax.Evidence.Families

namespace Fornax

open List OrdMap OrdSet

def ancestorsOfReference (evidenceId : Uuid) (evidence : List Evidence) : OrdSet Uuid :=
  ancestorsOfIndexed evidenceId (indexById evidence)

/-- Parents lie below their children, so the recursion ends within as many calls as the map has
entries. -/
def findReference (parent : OrdMap Uuid Uuid) (x : Uuid) : Uuid × OrdMap Uuid Uuid :=
  Forest.findRec parent.size parent x

def unionReference (parent : OrdMap Uuid Uuid) (a b : Uuid) : OrdMap Uuid Uuid :=
  let (ra, parent) := findReference parent a
  let (rb, parent) := findReference parent b
  if ra = rb then parent
  else if ra < rb then parent.insert rb ra
  else parent.insert ra rb

structure ReferenceBuild where
  parent : OrdMap Uuid Uuid
  basesByPair : OrdSet (Uuid ×ₗ Uuid ×ₗ FamilyBasisTag)

def ReferenceBuild.record (b : ReferenceBuild) (p : FamilyPair) : ReferenceBuild where
  parent := unionReference b.parent p.fst p.snd
  basesByPair := b.basesByPair.add (toLex (min p.fst p.snd, toLex (max p.fst p.snd, p.tag)))

def ReferenceBuild.initial (sorted : List Evidence) : ReferenceBuild where
  parent := ofList ((sorted.map Evidence.id).map fun x => (x, x))
  basesByPair := OrdSet.empty

def ancestryPairsReference (evidence : List Evidence) (byId : OrdMap Uuid Evidence)
    (sorted : List Evidence) : List FamilyPair :=
  sorted.flatMap fun e => ancestryPairsOf byId e.id (ancestorsOfReference e.id evidence)

def placeReference (st : OrdMap Uuid Uuid × OrdMap Uuid (List Uuid)) (e : Evidence) :
    OrdMap Uuid Uuid × OrdMap Uuid (List Uuid) :=
  if e.source.isNone then (st.1, st.2.pushAt e.id e.id)
  else
    let (root, parent) := findReference st.1 e.id
    (parent, st.2.pushAt root e.id)

def scanPairs (ids : List Uuid) (basesByPair : OrdSet (Uuid ×ₗ Uuid ×ₗ FamilyBasisTag))
    (own : OrdSet FamilyBasisTag) : OrdSet FamilyBasisTag :=
  basesByPair.toList.foldl (fun bases entry =>
    let (a, rest) := ofLex entry
    let (b, tag) := ofLex rest
    if ids.contains a && ids.contains b then bases.add tag else bases) own

def familyReference (evidence : List Evidence)
    (basesByPair : OrdSet (Uuid ×ₗ Uuid ×ₗ FamilyBasisTag)) (members : List Uuid) : SourceFamily :=
  let ids := (members.insertionSort (· ≤ ·)).destutter (· ≠ ·)
  let first := ids.head?.bind fun id => evidence.find? fun e => e.id = id
  let own : OrdSet FamilyBasisTag :=
    if ids.length = 1 ∧ (first.map fun e => e.source.isNone).getD false = true
    then OrdSet.empty.add .unknownProvenance else OrdSet.empty
  { evidenceIds := ids
    bases := (scanPairs ids basesByPair own).toList.map FamilyBasisTag.intoBasis }

def buildReference (evidence : List Evidence) : SourceFamilyMap :=
  let sorted := sortById evidence
  let b := (groupPairs sorted ++ ancestryPairsReference evidence (indexById sorted) sorted ++
    agentTurnPairs sorted).foldl ReferenceBuild.record (ReferenceBuild.initial sorted)
  let membersByRoot := (sorted.foldl placeReference (b.parent, empty)).2
  let families := (membersByRoot.entries.map fun bucket =>
    familyReference evidence b.basesByPair bucket.2).insertionSort firstIdLe
  { families
    index := ofList (families.zipIdx.flatMap fun p =>
      p.1.evidenceIds.map fun id => (id, p.2)) }

theorem findReference_eq (f : Forest Uuid) (x : Uuid) :
    findReference f.parent x = ((f.find x).1, (f.find x).2.parent) :=
  Forest.findRec_find f x

theorem unionReference_eq (f : Forest Uuid) (a b : Uuid) :
    unionReference f.parent a b = (f.union a b).parent := by
  simp only [unionReference, findReference_eq, Forest.union]
  split
  · rfl
  · split <;> rfl

def FamilyBuild.toReference (b : FamilyBuild) : ReferenceBuild := ⟨b.parent.parent, b.basesByPair⟩

theorem toReference_record (b : FamilyBuild) (p : FamilyPair) :
    (b.record p).toReference = b.toReference.record p := by
  simp only [FamilyBuild.toReference, FamilyBuild.record, ReferenceBuild.record, unionReference_eq]

theorem toReference_recordAll (b : FamilyBuild) (pairs : List FamilyPair) :
    (b.recordAll pairs).toReference = pairs.foldl ReferenceBuild.record b.toReference :=
  (foldl_hom FamilyBuild.toReference fun b p => (toReference_record b p).symm).symm

variable (evidence : List Evidence)

theorem ancestryPairsReference_eq :
    ancestryPairsReference evidence (indexById (sortById evidence)) (sortById evidence) =
      ancestryPairs (indexById (sortById evidence)) (sortById evidence) := by
  simp only [ancestryPairsReference, ancestryPairs, ancestorsOfReference, indexById_sortById]

theorem familyBuild_toReference : (familyBuild (sortById evidence)).toReference =
      (groupPairs (sortById evidence) ++
        ancestryPairsReference evidence (indexById (sortById evidence)) (sortById evidence) ++
        agentTurnPairs (sortById evidence)).foldl ReferenceBuild.record
          (ReferenceBuild.initial (sortById evidence)) := by
  rw [ancestryPairsReference_eq, familyBuild, toReference_recordAll]
  rfl

theorem placeReference_eq (a : Assembly) (e : Evidence) :
    placeReference (a.parent.parent, a.membersByRoot) e =
      ((a.place e).parent.parent, (a.place e).membersByRoot) := by
  unfold placeReference Assembly.place
  cases e.source.isNone
  · simp only [Bool.false_eq_true, if_false, findReference_eq]
  · rfl

theorem foldl_placeReference (l : List Evidence) (a : Assembly) :
    l.foldl placeReference (a.parent.parent, a.membersByRoot) =
      ((l.foldl Assembly.place a).parent.parent, (l.foldl Assembly.place a).membersByRoot) :=
  foldl_hom (fun a : Assembly => (a.parent.parent, a.membersByRoot)) placeReference_eq

def KeysMatch (a : Assembly) : Prop :=
  ∀ x k, ((a.valueToKeys.get? x).getD OrdSet.empty).contains k = true ↔
    x ∈ (a.membersByRoot.get? k).getD []

theorem KeysMatch.place {a : Assembly} (h : KeysMatch a) (e : Evidence) :
    KeysMatch (a.place e) := by
  -- both tables are extended under the same key
  have hkey : ∃ key, (a.place e).membersByRoot = a.membersByRoot.pushAt key e.id ∧
      (a.place e).valueToKeys =
        a.valueToKeys.alter e.id fun old => (old.getD OrdSet.empty).add key := by
    unfold Assembly.place
    cases e.source.isNone
    · exact ⟨(a.parent.find e.id).1, rfl, rfl⟩
    · exact ⟨e.id, rfl, rfl⟩
  obtain ⟨key, hmembers, hkeys⟩ := hkey
  intro x k
  have hxk := h x k
  rw [hmembers, hkeys, pushAt, get?_alter, get?_alter]
  by_cases hx : x = e.id
  · by_cases hk : k = key
    · simp [hx, hk, contains_add]
    · rw [hx] at hxk
      simp [hx, hk, contains_add, hxk]
  · by_cases hk : k = key
    · rw [hk] at hxk
      simp [hx, hk, hxk]
    · simp [hx, hk, hxk]

theorem keysMatch_assembleMembers (parent : Forest Uuid) (sorted : List Evidence) :
    KeysMatch (assembleMembers parent sorted) := by
  refine foldlRecOn (motive := KeysMatch) sorted Assembly.place ?_ fun a h e _ => h.place e
  intro x k
  simp

def TagWithin (entries : List (Uuid ×ₗ Uuid ×ₗ FamilyBasisTag)) (P : Uuid → Prop)
    (tag : FamilyBasisTag) : Prop :=
  ∃ entry ∈ entries, P (ofLex entry).1 ∧ P (ofLex (ofLex entry).2).1 ∧
    tag = (ofLex (ofLex entry).2).2

theorem tagWithin_cons (entry : Uuid ×ₗ Uuid ×ₗ FamilyBasisTag)
    (rest : List (Uuid ×ₗ Uuid ×ₗ FamilyBasisTag)) (P : Uuid → Prop) (tag : FamilyBasisTag) :
    TagWithin (entry :: rest) P tag ↔
      (P (ofLex entry).1 ∧ P (ofLex (ofLex entry).2).1 ∧ tag = (ofLex (ofLex entry).2).2) ∨
        TagWithin rest P tag := by
  unfold TagWithin
  simp only [mem_cons, exists_eq_or_imp]

theorem contains_scanPairs (ids : List Uuid)
    (basesByPair : OrdSet (Uuid ×ₗ Uuid ×ₗ FamilyBasisTag)) (own : OrdSet FamilyBasisTag)
    (tag : FamilyBasisTag) : (scanPairs ids basesByPair own).contains tag ↔
      TagWithin basesByPair.toList (· ∈ ids) tag ∨ own.contains tag := by
  unfold scanPairs
  generalize basesByPair.toList = entries
  induction entries generalizing own with
  | nil => simp [TagWithin]
  | cons entry rest ih =>
    rw [foldl_cons, ih, tagWithin_cons]
    simp only [Bool.and_eq_true, contains_iff_mem]
    by_cases h : (ofLex entry).1 ∈ ids ∧ (ofLex (ofLex entry).2).1 ∈ ids
    · simp only [h, and_self, if_true, contains_add]
      tauto
    · simp only [h, if_false]
      tauto

theorem contains_basesByFamily (basesByPair : OrdSet (Uuid ×ₗ Uuid ×ₗ FamilyBasisTag))
    (valueToKeys : OrdMap Uuid (OrdSet Uuid)) (k : Uuid) (t : FamilyBasisTag) :
    (((basesByFamily basesByPair valueToKeys).get? k).getD OrdSet.empty).contains t ↔
      TagWithin basesByPair.toList
        (fun x => ((valueToKeys.get? x).getD OrdSet.empty).contains k = true) t := by
  have hempty : ¬ (((empty : OrdMap Uuid (OrdSet FamilyBasisTag)).get? k).getD
      OrdSet.empty).contains t = true := by simp
  refine Iff.trans ?_ (or_iff_left hempty)
  unfold basesByFamily
  generalize basesByPair.toList = entries
  generalize (empty : OrdMap Uuid (OrdSet FamilyBasisTag)) = acc
  clear hempty
  induction entries generalizing acc with
  | nil => simp [TagWithin]
  | cons entry rest ih =>
    rw [foldl_cons, ih, tagWithin_cons]
    -- an id without recorded keys adds nothing
    cases ha : valueToKeys.get? (ofLex entry).1 with
    | none => simp [ha]
    | some keysA =>
      cases hb : valueToKeys.get? (ofLex (ofLex entry).2).1 with
      | none => simp [ha, hb]
      | some keysB =>
        simp [ha, hb, contains_foldl_enter fun key => key, OrdSet.mem_toList]
        tauto

theorem familyOfBucket_eq_reference (a : Assembly) (ha : KeysMatch a)
    (basesByPair : OrdSet (Uuid ×ₗ Uuid ×ₗ FamilyBasisTag)) {k : Uuid} {vs : List Uuid}
    (hk : a.membersByRoot.get? k = some vs) :
    familyOfBucket (isNoSource evidence) (basesByFamily basesByPair a.valueToKeys) (k, vs) =
      familyReference evidence basesByPair vs := by
  have hwithin : ∀ t, TagWithin basesByPair.toList
      (· ∈ (vs.insertionSort (· ≤ ·)).destutter (· ≠ ·)) t ↔ TagWithin basesByPair.toList
      (fun x => ((a.valueToKeys.get? x).getD OrdSet.empty).contains k = true) t := by
    intro t
    unfold TagWithin
    simp only [mem_dedupSorted, ha _ k, hk, Option.getD_some]
  unfold familyOfBucket familyReference
  simp only [get?_isNoSource, Option.map_bind, Function.comp_def, SourceFamily.mk.injEq, true_and]
  congr 2
  apply ext_contains
  intro t
  rw [contains_addAll, mem_toList, contains_basesByFamily, contains_scanPairs, hwithin]

/-- The optimised construction returns the map of the reference construction:
the families with their bases, and the family of every id. -/
theorem build_refines_reference (evidence : List Evidence) :
    SourceFamilyMap.build evidence = buildReference evidence := by
  have hstate := familyBuild_toReference evidence
  have hmembers := foldl_placeReference (sortById evidence)
    ⟨(familyBuild (sortById evidence)).parent, empty, empty⟩
  have hfamilies : (assembleMembers (familyBuild (sortById evidence)).parent
        (sortById evidence)).membersByRoot.entries.map (familyOfBucket (isNoSource evidence)
          (basesByFamily (familyBuild (sortById evidence)).basesByPair
            (assembleMembers (familyBuild (sortById evidence)).parent
              (sortById evidence)).valueToKeys)) =
      (assembleMembers (familyBuild (sortById evidence)).parent
        (sortById evidence)).membersByRoot.entries.map fun bucket =>
          familyReference evidence (familyBuild (sortById evidence)).basesByPair bucket.2 := by
    apply map_congr_left
    intro bucket hbucket
    exact familyOfBucket_eq_reference evidence _ (keysMatch_assembleMembers _ _) _
      (mem_entries.mp hbucket)
  unfold SourceFamilyMap.build buildReference assembleFamilies
  simp only [hfamilies, ← hstate, FamilyBuild.toReference, hmembers]
  rfl

end Fornax
