import Fornax.Evidence.Families
import Fornax.Lib.Metered

namespace Fornax

open List SourceFamilyMap

/-- The edges of `x` and of its ancestors that resolve and do not lead back to `x`. -/
def edgesVisited (byId : OrdMap Uuid Evidence) (x : Uuid) : ℕ :=
  ((byId.keys.filter fun y => y = x ∨ (ancestorsOfIndexed x byId).contains y = true).map
    fun y => (parentEdges byId x y).length).sum

def ancestorCount (byId : OrdMap Uuid Evidence) (x : Uuid) : ℕ :=
  (ancestorsOfIndexed x byId).toList.length

def familyWork (evidence : List Evidence) : ℕ :=
  (evidence.map fun e => edgesVisited (indexById evidence) e.id +
    ancestorCount (indexById evidence) e.id).sum

def workCap : ℕ := 2 ^ 64 - 1

variable (evidence : List Evidence) (byId : OrdMap Uuid Evidence) (limit : ℕ) (b : FamilyBuild)

theorem charge_workCap (work : ℕ) : Metered.charge workCap limit work =
      if saturatingAdd work 1 > limit then .error (saturatingAdd work 1)
      else .ok (saturatingAdd work 1) := rfl

theorem chargeEdges_meters (l : List Uuid) :
    Metered.Meters workCap limit (fun work => (chargeEdges limit work l).map ((), ·)) l.length
      () := by
  induction l with
  | nil => exact Metered.Meters.done ()
  | cons p rest ih =>
    have hseq := (Metered.Meters.charge workCap limit ()).andThen
      (fun st => (chargeEdges limit st.2 rest).map ((), ·)) ih
    refine hseq.congr ?_ (Nat.add_comm _ _) rfl
    intro work
    simp only [chargeEdges, charge_workCap]
    split <;> rfl

theorem exploreCounted_meters (succ : Uuid → List Uuid) (limit fuel : ℕ) (stack : List Uuid)
    (visited found : OrdSet Uuid) :
    Metered.Meters workCap limit (exploreCounted succ limit fuel stack visited found)
      (Worklist.exploreWork succ fuel stack visited)
      (Worklist.explore succ fuel stack visited found) := by
  induction fuel generalizing stack visited found with
  | zero => exact Metered.Meters.done found
  | succ fuel ih =>
    cases stack with
    | nil => exact Metered.Meters.done found
    | cons cur stack =>
      by_cases hcur : visited.contains cur = true
      · refine (ih stack visited found).congr ?_ ?_ ?_
        · intro work
          rw [exploreCounted, if_pos hcur]
        · rw [Worklist.exploreWork, if_pos hcur]
        · rw [Worklist.explore, if_pos hcur]
      · have hseq := (chargeEdges_meters limit (succ cur)).andThen
          (fun st => exploreCounted succ limit fuel ((succ cur).reverse ++ stack)
            (visited.add cur) (found.addAll (succ cur)) st.2)
          (ih ((succ cur).reverse ++ stack) (visited.add cur) (found.addAll (succ cur)))
        refine hseq.congr ?_ ?_ ?_
        · intro work
          rw [exploreCounted, if_neg hcur]
          cases chargeEdges limit work (succ cur) <;> rfl
        · rw [Worklist.exploreWork, if_neg hcur]
        · rw [Worklist.explore, if_neg hcur]

theorem edgesVisited_eq (x : Uuid) :
    Worklist.exploreWork (parentEdges byId x) (Worklist.fuelFor (parentEdges byId x) byId.keys)
      [x] OrdSet.empty = edgesVisited byId x :=
  Worklist.exploreWork_eq byId.nodup_keys (parentEdges_off_keys byId x) x

theorem ancestorsOfIndexedCounted_meters (x : Uuid) :
    Metered.Meters workCap limit (fun work => ancestorsOfIndexedCounted x byId work limit)
      (edgesVisited byId x) (ancestorsOfIndexed x byId) :=
  (exploreCounted_meters (parentEdges byId x) limit _ [x] OrdSet.empty OrdSet.empty).congr
    (fun _ => rfl) (edgesVisited_eq byId x) rfl

theorem chargePairs_meters (pairs : List FamilyPair) (b : FamilyBuild) :
    Metered.Meters workCap limit (fun work => chargePairs limit (b, work) pairs) pairs.length
      (b.recordAll pairs) := by
  have hstep : ∀ (b : FamilyBuild) (p : FamilyPair), Metered.Meters workCap limit
      (fun work => (Metered.charge workCap limit work).map (b.record p, ·)) 1 (b.record p) :=
    fun b p => Metered.Meters.charge workCap limit (b.record p)
  have hloop := Metered.Meters.loop (fun p st =>
      (Metered.charge workCap limit st.2).map (st.1.record p, ·)) hstep (chargePairs limit)
    (fun _ => rfl) ?_ pairs b
  · refine hloop.congr (fun _ => rfl) (by simp) rfl
  · intro st p rest
    simp only [chargePairs, charge_workCap]
    split <;> rfl

theorem ancestor_indexed {byId : OrdMap Uuid Evidence} {x y : Uuid}
    (h : (ancestorsOfIndexed x byId).contains y) : byId.contains y := by
  have hreach := (Worklist.contains_reached byId.nodup_keys (parentEdges_off_keys byId x) x
    y).mp h
  obtain ⟨z, -, hstep⟩ := Relation.TransGen.tail'_iff.mp hreach
  unfold parentEdges at hstep
  cases hz : byId.get? z with
  | none =>
    rw [hz] at hstep
    cases hstep
  | some ev =>
    rw [hz] at hstep
    exact (Bool.and_eq_true _ _ ▸ (mem_filter.mp hstep).2).2

theorem length_ancestryPairsOf (x : Uuid) :
    (ancestryPairsOf byId x (ancestorsOfIndexed x byId)).length = ancestorCount byId x := by
  have hall : ((ancestorsOfIndexed x byId).toList.filter fun a => byId.contains a) =
      (ancestorsOfIndexed x byId).toList := by
    rw [filter_eq_self]
    exact fun a ha => ancestor_indexed (OrdSet.mem_toList.mp ha)
  rw [ancestryPairsOf, length_map, hall, ancestorCount]

def chargeRecord (byId : OrdMap Uuid Evidence) (limit : ℕ) (e : Evidence) (st : FamilyBuild × ℕ) :
    Except ℕ (FamilyBuild × ℕ) := do
  let (ancestors, work) ← ancestorsOfIndexedCounted e.id byId st.2 limit
  chargePairs limit (st.1, work) (ancestryPairsOf byId e.id ancestors)

theorem chargeRecord_meters (e : Evidence) :
    Metered.Meters workCap limit (fun work => chargeRecord byId limit e (b, work))
      (edgesVisited byId e.id + ancestorCount byId e.id)
      (b.recordAll (ancestryPairsOf byId e.id (ancestorsOfIndexed e.id byId))) := by
  have hpairs := chargePairs_meters limit
    (ancestryPairsOf byId e.id (ancestorsOfIndexed e.id byId)) b
  rw [length_ancestryPairsOf] at hpairs
  exact (ancestorsOfIndexedCounted_meters byId limit e.id).andThen
    (fun st => chargePairs limit (b, st.2) (ancestryPairsOf byId e.id st.1)) hpairs

theorem recordAll_append (p q : List FamilyPair) :
    b.recordAll (p ++ q) = (b.recordAll p).recordAll q :=
  foldl_append

theorem recordAll_flatMap (pairs : Evidence → List FamilyPair) (l : List Evidence) :
    b.recordAll (l.flatMap pairs) = l.foldl (fun b e => b.recordAll (pairs e)) b :=
  foldl_flatMap

theorem chargeAncestry_meters (l : List Evidence) (b : FamilyBuild) :
    Metered.Meters workCap limit (fun work => chargeAncestry byId limit (b, work) l)
      (l.map fun e => edgesVisited byId e.id + ancestorCount byId e.id).sum
      (b.recordAll (ancestryPairs byId l)) := by
  have hloop := Metered.Meters.loop (chargeRecord byId limit) (chargeRecord_meters byId limit)
    (chargeAncestry byId limit) (fun _ => rfl) ?_ l b
  · exact hloop.congr (fun _ => rfl) rfl (recordAll_flatMap b _ l).symm
  · intro st e rest
    obtain ⟨b, work⟩ := st
    rw [chargeAncestry, chargeRecord, bind_assoc]

theorem familyWork_sorted :
    ((sortById evidence).map fun e => edgesVisited (indexById (sortById evidence)) e.id +
      ancestorCount (indexById (sortById evidence)) e.id).sum = familyWork evidence := by
  rw [indexById_sortById, familyWork]
  exact ((perm_insertionSort _ evidence).map _).sum_eq

theorem chargeAncestry_pool :
    (chargeAncestry (indexById (sortById evidence)) limit (b, 0) (sortById evidence)).map Prod.fst =
      if familyWork evidence ≤ limit ∨ workCap ≤ limit
      then .ok (b.recordAll (ancestryPairs (indexById (sortById evidence)) (sortById evidence)))
      else .error (limit + 1) := by
  rw [← familyWork_sorted]
  exact (chargeAncestry_meters _ limit _ b).from_zero

theorem familyBuild_eq (sorted : List Evidence) :
    familyBuild sorted = (((FamilyBuild.initial sorted).recordAll (groupPairs sorted)).recordAll
      (ancestryPairs (indexById sorted) sorted)).recordAll (agentTurnPairs sorted) := by
  rw [familyBuild, recordAll_append, recordAll_append]

theorem tryBuild_of_ancestry (budget : FamilyBudget) : tryBuild evidence budget =
      if familyWork evidence ≤ budget.maxWorkUnits ∨ workCap ≤ budget.maxWorkUnits
      then .ok (build evidence)
      else .error ⟨evidence.length, budget.maxWorkUnits + 1, budget.maxWorkUnits⟩ := by
  have hpool := chargeAncestry_pool evidence budget.maxWorkUnits
    ((FamilyBuild.initial (sortById evidence)).recordAll (groupPairs (sortById evidence)))
  dsimp only [tryBuild]
  generalize chargeAncestry (indexById (sortById evidence)) budget.maxWorkUnits
      ((FamilyBuild.initial (sortById evidence)).recordAll (groupPairs (sortById evidence)), 0)
      (sortById evidence) = charged at hpool ⊢
  by_cases hfits : familyWork evidence ≤ budget.maxWorkUnits ∨ workCap ≤ budget.maxWorkUnits
  · rw [if_pos hfits] at hpool ⊢
    cases charged with
    | error work => cases hpool
    | ok st => simp only [show st.1 = _ from Except.ok.inj hpool, build, familyBuild_eq]
  · rw [if_neg hfits] at hpool ⊢
    cases charged with
    | ok st => cases hpool
    | error work => simp only [Except.error.inj hpool]

/-- The bounded construction returns the map of the unbounded one exactly when the
work fits into the budget or the budget is the counter's largest value, and
otherwise stops one unit over the budget. -/
theorem tryBuild_agrees_with_build (evidence : List Evidence) (budget : FamilyBudget) :
    tryBuild evidence budget =
      if familyWork evidence ≤ budget.maxWorkUnits ∨ workCap ≤ budget.maxWorkUnits
      then .ok (build evidence)
      else .error ⟨evidence.length, budget.maxWorkUnits + 1, budget.maxWorkUnits⟩ :=
  tryBuild_of_ancestry evidence budget

def belowHub (n : ℕ) : List Evidence :=
  (range n).map fun i => agentRecord (OfNat.ofNat (i + 2)) 2 none [1]

/-- Record 0, a hub 1 that names record 0 `m` times, and `n` records that name
the hub. -/
def hubPool (n m : ℕ) : List Evidence :=
  agentRecord 0 0 none [] :: agentRecord 1 1 none (replicate m 0) :: belowHub n

theorem nodup_hubPool {n : ℕ} (hn : n ≤ 2 ^ 32) (m : ℕ) :
    ((hubPool n m).map Evidence.id).Nodup := by
  have hval : ∀ i < n, (Fin.ofNat (2 ^ 128) (i + 2)).val = i + 2 := by
    intro i hi
    rw [Fin.val_ofNat]
    exact Nat.mod_eq_of_lt (by omega)
  have hids : (hubPool n m).map Evidence.id =
      0 :: 1 :: (range n).map fun i => Fin.ofNat (2 ^ 128) (i + 2) := by
    simp only [hubPool, belowHub, map_cons, map_map]
    rfl
  rw [hids, nodup_cons, nodup_cons]
  have hzero : (0 : Uuid).val = 0 := rfl
  have hone : (1 : Uuid).val = 1 := rfl
  refine ⟨?_, ?_, ?_⟩
  · intro h
    rcases mem_cons.mp h with h | h
    · exact absurd h (by decide)
    · obtain ⟨i, hi, he⟩ := mem_map.mp h
      have := hval i (mem_range.mp hi)
      rw [he, hzero] at this
      omega
  · intro h
    obtain ⟨i, hi, he⟩ := mem_map.mp h
    have := hval i (mem_range.mp hi)
    rw [he, hone] at this
    omega
  · refine List.Nodup.map_on ?_ nodup_range
    intro i hi j hj he
    have hij := congrArg Fin.val he
    rw [hval i (mem_range.mp hi), hval j (mem_range.mp hj)] at hij
    omega

theorem edgesVisited_hubPool {n m : ℕ} (hn : n ≤ 2 ^ 32) {e : Evidence} (he : e ∈ belowHub n) :
    m ≤ edgesVisited (indexById (hubPool n m)) e.id := by
  have hidx := indexes_indexById (nodup_hubPool hn m)
  have hmem : e ∈ hubPool n m := mem_cons_of_mem _ (mem_cons_of_mem _ he)
  have hhub : agentRecord 1 1 none (replicate m 0) ∈ hubPool n m :=
    mem_cons_of_mem _ mem_cons_self
  have hzero : agentRecord 0 0 none [] ∈ hubPool n m := mem_cons_self
  -- ids of the records below the hub are at least 2
  have hval : 2 ≤ e.id.val := by
    obtain ⟨i, hi, rfl⟩ := mem_map.mp he
    have hlt := mem_range.mp hi
    change 2 ≤ (i + 2) % 2 ^ 128
    rw [Nat.mod_eq_of_lt (by omega)]
    omega
  have hparents : e.parents = [1] := by
    obtain ⟨i, -, rfl⟩ := mem_map.mp he
    rfl
  have hne : ∀ x : Uuid, x.val < 2 → x ≠ e.id := by
    rintro x hx rfl
    omega
  have hget : (indexById (hubPool n m)).get? 1 =
      some (agentRecord 1 1 none (replicate m 0)) := (hidx 1 _).mpr ⟨hhub, rfl⟩
  have hanc : (ancestorsOfIndexed e.id (indexById (hubPool n m))).contains 1 := by
    refine (contains_ancestorsOfIndexed hidx e.id 1).mpr ⟨hne 1 (by decide), .single ?_⟩
    refine ⟨e, hmem, rfl, ?_, _, hhub, rfl⟩
    rw [hparents]
    exact mem_singleton.mpr rfl
  have hedges : (parentEdges (indexById (hubPool n m)) e.id 1).length = m := by
    have hkeep : ∀ p ∈ replicate m (0 : Uuid),
        (decide (p ≠ e.id) && (indexById (hubPool n m)).contains p) = true := by
      intro p hp
      rw [eq_of_mem_replicate hp, Bool.and_eq_true, decide_eq_true_iff]
      exact ⟨hne 0 (by decide), (hidx.contains 0).mpr ⟨_, hzero, rfl⟩⟩
    simp only [parentEdges, hget]
    change ((replicate m 0).filter _).length = m
    rw [filter_eq_self.mpr hkeep, length_replicate]
  refine hedges.symm.le.trans ?_
  rw [edgesVisited]
  refine single_le_sum (fun _ _ => Nat.zero_le _) _ (mem_map.mpr ⟨1, ?_, rfl⟩)
  refine mem_filter.mpr ⟨?_, decide_eq_true (Or.inr hanc)⟩
  rw [OrdMap.mem_keys, hget]
  rfl

theorem familyWork_hubPool {n : ℕ} (hn : n ≤ 2 ^ 32) (m : ℕ) :
    n * m ≤ familyWork (hubPool n m) := by
  have hsub : (belowHub n).Sublist (hubPool n m) :=
    ((List.Sublist.refl _).cons _).cons _
  have hlen : (belowHub n).length = n := by
    rw [belowHub, length_map, length_range]
  calc n * m
      ≤ ((belowHub n).map fun e => edgesVisited (indexById (hubPool n m)) e.id +
          ancestorCount (indexById (hubPool n m)) e.id).sum := by
        have hall := card_nsmul_le_sum ((belowHub n).map fun e =>
          edgesVisited (indexById (hubPool n m)) e.id +
            ancestorCount (indexById (hubPool n m)) e.id) m ?_
        · rwa [length_map, hlen, smul_eq_mul] at hall
        · intro w hw
          obtain ⟨e, he, rfl⟩ := mem_map.mp hw
          exact (edgesVisited_hubPool hn he).trans (Nat.le_add_right _ _)
    _ ≤ familyWork (hubPool n m) :=
        (hsub.map _).sum_le_sum fun _ _ => Nat.zero_le _

/-- With the largest budget the construction completes although the work exceeds
the budget. -/
theorem largest_budget_never_stops :
    tryBuild (hubPool (2 ^ 32) (2 ^ 32)) ⟨2 ^ 64 - 1⟩ = .ok (build (hubPool (2 ^ 32) (2 ^ 32))) ∧
    ¬ familyWork (hubPool (2 ^ 32) (2 ^ 32)) ≤ 2 ^ 64 - 1 := by
  constructor
  · have hfits : workCap ≤ 2 ^ 64 - 1 := le_refl _
    rw [tryBuild_of_ancestry, if_pos (Or.inr hfits)]
  · have hwork := familyWork_hubPool (le_refl (2 ^ 32)) (2 ^ 32)
    have hpow : 2 ^ 32 * 2 ^ 32 = 2 ^ 64 := by norm_num
    rw [hpow] at hwork
    exact not_le.mpr (lt_of_lt_of_le (by norm_num) hwork)

end Fornax
