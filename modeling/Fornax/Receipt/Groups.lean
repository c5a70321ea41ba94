import Fornax.Receipt.MultiAgent

namespace Fornax.Receipt

open List OrdMap Relation

variable {R : Type} {envelopes : List (DelegationEnvelopeBody R)} {members : List ℕ} {i j : ℕ}

def Bears (envelopes : List (DelegationEnvelopeBody R)) (basis : FamilyBasis) (i : ℕ) : Prop :=
  ∃ e, envelopes[i]? = some e ∧ basis ∈ e.aggregateSourceFamilyBases

/-- The places of the envelopes, split into the parts that sharing a basis connects. -/
structure IsComponents (envelopes : List (DelegationEnvelopeBody R)) (components : List (List ℕ)) :
    Prop where
  nonempty : ∀ members ∈ components, members ≠ []
  once : components.flatten.Perm (range envelopes.length)
  connected : ∀ i < envelopes.length, ∀ j < envelopes.length,
    (∃ members ∈ components, i ∈ members ∧ j ∈ members) ↔ EqvGen (ShareBasis envelopes) i j

theorem isComponents_membersByRoot :
    IsComponents envelopes (membersByRoot envelopes).values where
  nonempty members hmembers := by
    unfold membersByRoot at hmembers
    rw [Forest.groupByRoot_eq] at hmembers
    obtain ⟨root, hget⟩ := mem_values.mp hmembers
    exact (get?_groupBy.mp hget).2
  once := by
    have h := groupBy_perm (fun x => some ((dependencyForest envelopes).rootOf x))
      (range envelopes.length)
    unfold membersByRoot
    rw [Forest.groupByRoot_eq]
    simpa [flatMap_def, OrdMap.values] using h
  connected i hi j hj := sameGroup_iff hi hj

theorem nodup_groups : (membersByRoot envelopes).values.flatten.Nodup :=
  isComponents_membersByRoot.once.nodup_iff.mpr nodup_range

theorem nodup_values : (membersByRoot envelopes).values.Nodup := by
  refine (nodup_flatten.mp nodup_groups).2.imp_of_mem fun hmembers _ hdisjoint heq => ?_
  obtain ⟨i, hi⟩ := exists_mem_of_ne_nil _ (isComponents_membersByRoot.nonempty _ hmembers)
  exact hdisjoint hi (heq ▸ hi)

theorem lt_of_mem_group (hmembers : members ∈ (membersByRoot envelopes).values) (hi : i ∈ members) :
    i < envelopes.length :=
  mem_range.mp (isComponents_membersByRoot.once.subset (mem_flatten.mpr ⟨members, hmembers, hi⟩))

theorem group_eq {other : List ℕ} (hmembers : members ∈ (membersByRoot envelopes).values)
    (hother : other ∈ (membersByRoot envelopes).values) (hi : i ∈ members) (hj : j ∈ other)
    (h : EqvGen (ShareBasis envelopes) i j) : members = other := by
  have hin := lt_of_mem_group hmembers hi
  have hjn := lt_of_mem_group hother hj
  obtain ⟨joint, hjoint, hij, hjj⟩ := (sameGroup_iff hin hjn).mpr h
  have hleft := (existsUnique_group hin).unique ⟨hmembers, hi⟩ ⟨hjoint, hij⟩
  have hright := (existsUnique_group hjn).unique ⟨hother, hj⟩ ⟨hjoint, hjj⟩
  rw [hleft, hright]

section Bases

variable {basis : FamilyBasis}

def recordedPairs (envelopes : List (DelegationEnvelopeBody R)) :
    List ((ℕ ×ₗ ℕ) × FamilyBasis) :=
  (byBasis envelopes).entries.flatMap fun bucket =>
    bucket.2.tail.map fun i => (pairKey (bucket.2.headD 0) i, bucket.1)

theorem mem_basisOfPair {key : ℕ ×ₗ ℕ} :
    basis ∈ (((basisOfPair envelopes).get? key).getD OrdSet.empty).toList ↔
      (key, basis) ∈ recordedPairs envelopes := by
  have hfold : basisOfPair envelopes = (recordedPairs envelopes).foldl
      (fun acc p => acc.alter p.1 fun old => (old.getD OrdSet.empty).add p.2) empty := by
    simp only [basisOfPair, recordedPairs, foldl_flatMap, foldl_map]
  rw [OrdSet.mem_toList, hfold, OrdSet.contains_foldl_enter]
  simp [← Prod.ext_iff]

theorem exists_bucket_of_bears (h : Bears envelopes basis i) :
    ∃ ids, (byBasis envelopes).get? basis = some ids ∧ i ∈ ids := by
  obtain ⟨e, he, hbasis⟩ := h
  exact exists_bucket (mem_basisEntries.mpr ⟨e, he, hbasis⟩) rfl

theorem lt_of_bears (h : Bears envelopes basis i) : i < envelopes.length := by
  obtain ⟨e, he, -⟩ := h
  exact (List.getElem?_eq_some_iff.mp he).1

theorem eqvGen_of_bears (hi : Bears envelopes basis i) (hj : Bears envelopes basis j) :
    EqvGen (ShareBasis envelopes) i j := by
  obtain ⟨e, he, hbe⟩ := hi
  obtain ⟨f, hf, hbf⟩ := hj
  exact .rel i j ⟨e, f, basis, he, hf, hbe, hbf⟩

theorem mem_recordedPairs {key : ℕ ×ₗ ℕ} : (key, basis) ∈ recordedPairs envelopes ↔
    ∃ first rest, (byBasis envelopes).get? basis = some (first :: rest) ∧
      ∃ i ∈ rest, pairKey first i = key := by
  simp only [recordedPairs, mem_flatMap, mem_map, Prod.mk.injEq, Prod.exists, mem_entries]
  constructor
  · rintro ⟨b, ids, hget, i, hi, rfl, rfl⟩
    cases ids with
    | nil => cases hi
    | cons first rest => exact ⟨first, rest, hget, i, hi, rfl⟩
  · rintro ⟨first, rest, hget, i, hi, rfl⟩
    exact ⟨basis, first :: rest, hget, i, hi, rfl, rfl⟩

theorem pairKey_of_ne (h : i ≠ j) : pairKey i j = toLex (min i j, max i j) := by
  unfold pairKey
  rcases Nat.lt_or_gt_of_ne h with hlt | hlt
  · rw [if_pos hlt, min_eq_left hlt.le, max_eq_right hlt.le]
  · rw [if_neg hlt.not_gt, min_eq_right hlt.le, max_eq_left hlt.le]

theorem exists_recorded_iff (hmembers : members ∈ (membersByRoot envelopes).values) :
    (∃ a ∈ members, ∃ b ∈ members, a ≠ b ∧
        (toLex (min a b, max a b), basis) ∈ recordedPairs envelopes) ↔
      ∃ a ∈ members, ∃ b ∈ members, a ≠ b ∧ Bears envelopes basis a ∧ Bears envelopes basis b := by
  constructor
  · rintro ⟨a, ha, b, hb, hab, hpair⟩
    obtain ⟨first, rest, hget, i, hi, hkey⟩ := mem_recordedPairs.mp hpair
    have hbears : ∀ k ∈ first :: rest, Bears envelopes basis k := fun k hk =>
      (mem_byBasis hget).mp hk
    have hfirst := hbears first mem_cons_self
    have hrest := hbears i (mem_cons_of_mem _ hi)
    have hcases : a = first ∧ b = i ∨ a = i ∧ b = first := by
      unfold pairKey at hkey
      split at hkey <;> simp only [toLex_inj, Prod.mk.injEq] at hkey <;> omega
    rcases hcases with ⟨rfl, rfl⟩ | ⟨rfl, rfl⟩
    · exact ⟨a, ha, b, hb, hab, hfirst, hrest⟩
    · exact ⟨a, ha, b, hb, hab, hrest, hfirst⟩
  · rintro ⟨a, ha, b, hb, hab, hbearsA, hbearsB⟩
    obtain ⟨ids, hget, haids⟩ := exists_bucket_of_bears hbearsA
    obtain ⟨first, rest, rfl⟩ := exists_cons_of_ne_nil (ne_nil_of_mem haids)
    have hbids : b ∈ first :: rest := (mem_byBasis hget).mpr hbearsB
    have hfirst : Bears envelopes basis first := (mem_byBasis hget).mp mem_cons_self
    have hfirstMem : first ∈ members := by
      obtain ⟨other, ⟨hother, hin⟩, -⟩ := existsUnique_group (lt_of_bears hfirst)
      rwa [group_eq hmembers hother ha hin (eqvGen_of_bears hbearsA hfirst)]
    obtain ⟨x, hx, hxrest, hne⟩ : ∃ x ∈ members, x ∈ rest ∧ first ≠ x := by
      by_cases hfa : first = a
      · exact ⟨b, hb, (mem_cons.mp hbids).resolve_left fun h => hab (h ▸ hfa.symm), hfa ▸ hab⟩
      · exact ⟨a, ha, (mem_cons.mp haids).resolve_left fun h => hfa h.symm, hfa⟩
    refine ⟨first, hfirstMem, x, hx, hne, ?_⟩
    exact mem_recordedPairs.mpr ⟨first, rest, hget, x, hxrest, pairKey_of_ne hne⟩

theorem forall_orderedPairs {P : ℕ → ℕ → Prop} :
    (∀ p ∈ orderedPairs members, P p.1 p.2) ↔ members.Pairwise P := by
  induction members with
  | nil => simp [orderedPairs]
  | cons a rest ih => simp [orderedPairs, or_imp, forall_and, ← ih]

theorem exists_orderedPairs_iff {P : ℕ → ℕ → Prop} (hsymm : ∀ a b, P a b → P b a)
    (hnodup : members.Nodup) :
    (∃ p ∈ orderedPairs members, P p.1 p.2) ↔ ∃ a ∈ members, ∃ b ∈ members, a ≠ b ∧ P a b := by
  have hnot : Std.Symm fun a b => ¬ P a b := ⟨fun a b h hba => h (hsymm b a hba)⟩
  have hpairs := (forall_orderedPairs (P := fun a b => ¬ P a b)).trans hnodup.pairwise_coe.symm
  rw [← not_iff_not]
  simpa [Set.Pairwise] using hpairs

theorem mem_basesWithin (hmembers : members ∈ (membersByRoot envelopes).values) :
    basis ∈ basesWithin envelopes members ↔ ∃ a ∈ members, ∃ b ∈ members, a ≠ b ∧
      Bears envelopes basis a ∧ Bears envelopes basis b := by
  have hnodup : members.Nodup := (nodup_flatten.mp nodup_groups).1 members hmembers
  rw [basesWithin, OrdSet.mem_toList, OrdSet.contains_ofList, mem_flatMap,
    ← exists_recorded_iff hmembers]
  simp only [mem_basisOfPair]
  refine exists_orderedPairs_iff (P := fun a b =>
    (toLex (min a b, max a b), basis) ∈ recordedPairs envelopes) (fun a b h => ?_) hnodup
  rwa [min_comm, max_comm]

end Bases

structure Describes (envelopes : List (DelegationEnvelopeBody R)) (members : List ℕ)
    (group : DependencyGroup) : Prop where
  agents : ∀ agent, agent ∈ group.agentIds ↔
    ∃ i ∈ members, ∃ e, envelopes[i]? = some e ∧ e.child.agentId = agent
  bases : ∀ basis, basis ∈ group.bases ↔ ∃ i ∈ members, ∃ j ∈ members, i ≠ j ∧
    Bears envelopes basis i ∧ Bears envelopes basis j

theorem isUnknownLineageSingleton_length (h : isUnknownLineageSingleton envelopes members = true) :
    members.length = 1 := by
  match members with
  | [i] => rfl
  | [] => cases h
  | _ :: _ :: _ => cases h

theorem dependentGroup_eq :
    dependentGroup envelopes members = if 2 ≤ members.length then
      some ⟨agentsAt envelopes members, basesWithin envelopes members⟩ else none := by
  unfold dependentGroup
  split
  · next h =>
    rw [if_neg (by rw [isUnknownLineageSingleton_length h]; decide)]
  · rfl

theorem describes_group (hmembers : members ∈ (membersByRoot envelopes).values) :
    Describes envelopes members
      ⟨agentsAt envelopes members, basesWithin envelopes members⟩ where
  agents agent := by
    simp [agentsAt, OrdSet.mem_toList, OrdSet.contains_ofList]
  bases basis := mem_basesWithin hmembers

/-- The listed groups are the components of two or more envelopes, and the sources are the
components, the single envelopes without a receipt apart under the conservative policy. -/
theorem dependent_groups_components (envelopes : List (DelegationEnvelopeBody R))
    (policy : MultiAgentPolicy) :
    ∃ components, IsComponents envelopes components ∧
      (∃ groups, (analyzeDependency envelopes policy).dependentGroups.Perm groups ∧
        Forall₂ (Describes envelopes) (components.filter fun members => 2 ≤ members.length)
          groups) ∧
      (analyzeDependency envelopes policy).effectiveIndependentSources =
        components.length - if policy.treatUnknownLineageAsIndependent then 0
          else components.countP (isUnknownLineageSingleton envelopes) := by
  refine ⟨(membersByRoot envelopes).values, isComponents_membersByRoot, ?_, ?_⟩
  · refine ⟨_, perm_insertionSort _ _, ?_⟩
    have hgroups : (membersByRoot envelopes).values.filterMap (dependentGroup envelopes) =
        ((membersByRoot envelopes).values.filter fun members => 2 ≤ members.length).map
          fun members => ⟨agentsAt envelopes members, basesWithin envelopes members⟩ := by
      rw [← filterMap_eq_map, filterMap_filter]
      refine filterMap_congr fun members _ => ?_
      simp [dependentGroup_eq]
    rw [hgroups, forall₂_map_right_iff, forall₂_same]
    exact fun members hmembers => describes_group (mem_filter.mp hmembers).1
  · change ((membersByRoot envelopes).values.filter (countsAsSource envelopes policy)).length = _
    rw [← countP_eq_length_filter]
    cases hpolicy : policy.treatUnknownLineageAsIndependent with
    | true => simp [countsAsSource, hpolicy]
    | false =>
      have hsplit := length_eq_countP_add_countP
        (isUnknownLineageSingleton envelopes) (l := (membersByRoot envelopes).values)
      have hcounts : countsAsSource envelopes policy =
          fun members => decide ¬ isUnknownLineageSingleton envelopes members = true := by
        funext members
        simp [countsAsSource, hpolicy]
      rw [hcounts, hsplit]
      simp

/-- Every envelope names its agent, and the envelopes of one agent are of one source. -/
structure OneSourceEach (envelopes : List (DelegationEnvelopeBody R)) : Prop where
  named : ∀ e ∈ envelopes, e.child.agentId ≠ ""
  joined : ∀ (i j : ℕ) e f, envelopes[i]? = some e → envelopes[j]? = some f →
    e.child.agentId = f.child.agentId → EqvGen (ShareBasis envelopes) i j

end Fornax.Receipt
