import Fornax.Contract.Inheritance

namespace Fornax

open Fallible Relation List

variable {r : ContractRegistry} {c d cc : ClaimClassId} {chain : List ClaimClassId}
  {m n : OrdMap String EvidenceRequirement} {id : String}

def Revisits (r : ContractRegistry) (cc : ClaimClassId) : Prop :=
  ∃ d, ReflTransGen (HasParent r) cc d ∧ TransGen (HasParent r) d d

def ReachesUnregistered (r : ContractRegistry) (cc : ClaimClassId) : Prop :=
  ∃ d, ReflTransGen (HasParent r) cc d ∧ r.contracts.get? d = none

def Topmost (r : ContractRegistry) (d : ClaimClassId) : Prop := ∀ p, ¬ HasParent r d p

theorem hasParent_unique {p q : ClaimClassId} (hp : HasParent r c p) (hq : HasParent r c q) :
    p = q := by
  obtain ⟨k, hk, hkp⟩ := hp
  obtain ⟨k', hk', hkq⟩ := hq
  rw [hk] at hk'
  rw [← Option.some.inj hk', hkp] at hkq
  exact Option.some.inj hkq

theorem not_above_itself (h : ReflTransGen (HasParent r) c d) (hd : Topmost r d) :
    ¬ TransGen (HasParent r) c c := by
  induction h using ReflTransGen.head_induction_on with
  | refl =>
    intro hloop
    obtain ⟨p, hp, -⟩ := TransGen.head'_iff.mp hloop
    exact hd p hp
  | head hstep hrest ih =>
    intro hloop
    obtain ⟨p, hp, hback⟩ := TransGen.head'_iff.mp hloop
    rw [← hasParent_unique hstep hp] at hback
    exact ih (TransGen.tail' hback hstep)

theorem not_revisits (h : ReflTransGen (HasParent r) cc d) (hd : Topmost r d) :
    ¬ Revisits r cc := by
  rintro ⟨e, he, hloop⟩
  have hunique : Relator.RightUnique (HasParent r) := fun _ _ _ => hasParent_unique
  rcases ReflTransGen.total_of_right_unique hunique he h with hup | hup
  · exact not_above_itself hup hd hloop
  · rcases ReflTransGen.cases_head hup with rfl | ⟨p, hp, -⟩
    · exact not_above_itself .refl hd hloop
    · exact hd p hp

theorem topmost_of_unregistered (h : r.contracts.get? d = none) : Topmost r d := by
  rintro p ⟨k, hk, -⟩
  rw [h] at hk
  cases hk

theorem Lineage.topmost (h : Lineage r cc chain) :
    ∃ d, ReflTransGen (HasParent r) cc d ∧ Topmost r d := by
  induction h with
  | root hget hparent =>
    refine ⟨_, .refl, ?_⟩
    rintro p ⟨k, hk, hkp⟩
    rw [hget] at hk
    rw [← Option.some.inj hk, hparent] at hkp
    cases hkp
  | step hget hparent _ ih =>
    obtain ⟨d, hd, htop⟩ := ih
    exact ⟨d, .head ⟨_, hget, hparent⟩ hd, htop⟩

theorem Lineage.registered (h : Lineage r cc chain) : ¬ ReachesUnregistered r cc := by
  rintro ⟨d, hd, hnone⟩
  obtain ⟨-, l, -, hl⟩ := h.suffix_of_ancestor hd
  cases hl with
  | root hget _ => rw [hget] at hnone; cases hnone
  | step hget _ _ => rw [hget] at hnone; cases hnone

/-- The classes walked so far: registered, distinct, and each below the current one. -/
structure Walked (r : ContractRegistry) (start current : ClaimClassId)
    (chain : List ClaimClassId) : Prop where
  distinct : (chain ++ [current]).Nodup
  below : ∀ c ∈ chain, (r.contracts.get? c).isSome = true ∧ ReflTransGen (HasParent r) start c ∧
    ReflTransGen (HasParent r) c current
  reached : ReflTransGen (HasParent r) start current

variable {e : ContractError} {start current : ClaimClassId}

theorem Walked.length_le (h : Walked r start current chain)
    (hreg : (r.contracts.get? current).isSome) :
    (chain ++ [current]).length ≤ r.contracts.size := by
  have hsub : chain ++ [current] ⊆ r.contracts.keys := by
    intro c hc
    rw [OrdMap.mem_keys]
    rcases mem_append.mp hc with hc | hc
    · exact (h.below c hc).1
    · rwa [mem_singleton.mp hc]
  have hle := (subperm_of_subset h.distinct hsub).length_le
  rwa [OrdMap.keys, length_map] at hle

theorem walkParents_fuel {fuel fuel' : ℕ} (hlen : chain.length ≤ r.contracts.size)
    (h : r.contracts.size < chain.length + fuel) (h' : r.contracts.size < chain.length + fuel') :
    r.walkParents start fuel current chain = r.walkParents start fuel' current chain := by
  induction fuel generalizing fuel' current chain with
  | zero => omega
  | succ fuel ih =>
    obtain ⟨fuel', rfl⟩ : ∃ k, fuel' = k + 1 := ⟨fuel' - 1, by omega⟩
    unfold ContractRegistry.walkParents
    split
    · rfl
    · simp only
      split
      · rfl
      · next hguard =>
        split
        · split
          · rfl
          · refine ih (by omega) ?_ ?_ <;> rw [length_append, length_singleton] <;> omega
        · rfl

theorem walkParents_error {fuel : ℕ} (hw : Walked r start current chain)
    (hfuel : r.contracts.size < chain.length + fuel) (hlen : chain.length ≤ r.contracts.size)
    (h : r.walkParents start fuel current chain = .error e) :
    (e = .inheritanceCycle start ∧ Revisits r start) ∨
      ((∃ c p, e = .missingParent c p) ∧ ReachesUnregistered r start) := by
  induction fuel generalizing current chain with
  | zero => omega
  | succ fuel ih =>
    unfold ContractRegistry.walkParents at h
    cases hget : r.contracts.get? current with
    | none =>
      simp only [hget] at h
      exact .inr ⟨⟨_, _, (Except.error.inj h).symm⟩, current, hw.reached, hget⟩
    | some k =>
      have hle := hw.length_le (by rw [hget]; rfl)
      simp only [hget] at h
      rw [if_neg (by omega)] at h
      cases hp : k.parent with
      | none =>
        simp only [hp] at h
        cases h
      | some p =>
        have hstep : HasParent r current p := ⟨k, hget, hp⟩
        have hbelow : ∀ c ∈ chain ++ [current], (r.contracts.get? c).isSome = true ∧
            ReflTransGen (HasParent r) start c ∧ ReflTransGen (HasParent r) c current := by
          intro c hc
          rcases mem_append.mp hc with hc | hc
          · exact hw.below c hc
          · rw [mem_singleton.mp hc, hget]
            exact ⟨rfl, hw.reached, .refl⟩
        simp only [hp] at h
        split at h
        · next hmem =>
          obtain ⟨-, hto, hup⟩ := hbelow p hmem
          exact .inl ⟨(Except.error.inj h).symm, p, hto, TransGen.tail' hup hstep⟩
        · next hnew =>
          refine ih ⟨?_, ?_, hw.reached.tail hstep⟩ ?_ hle h
          · exact nodup_append'.mpr ⟨hw.distinct, nodup_singleton p, by simpa using hnew⟩
          · exact fun c hc => ⟨(hbelow c hc).1, (hbelow c hc).2.1, (hbelow c hc).2.2.tail hstep⟩
          · rw [length_append, length_singleton]
            omega

def IsWeakening (e : ContractError) : Prop := ∃ c i why, e = .weakenedRequirement c i why

theorem checkOverride_error {a b : EvidenceRequirement} (h : checkOverride c a b = .error e) :
    IsWeakening e := by
  unfold checkOverride at h
  split_ifs at h <;> exact ⟨_, _, _, (Except.error.inj h).symm⟩

theorem mergeRequirement_error {req : EvidenceRequirement}
    (h : mergeRequirement c n m req = .error e) : IsWeakening e := by
  unfold mergeRequirement at h
  split at h
  · rcases bind_eq_error.mp h with hcheck | ⟨_, -, hok⟩
    · exact checkOverride_error hcheck
    · cases hok
  · cases h

theorem composeClass_error (h : r.composeClass m c = .error e) : IsWeakening e := by
  unfold ContractRegistry.composeClass at h
  split at h
  · exact foldlM_error (P := IsWeakening) (fun _ _ _ => mergeRequirement_error) h
  · cases h

theorem effectiveRequirements_error (h : r.effectiveRequirements cc = .error e) :
    (e = .inheritanceCycle cc ∧ Revisits r cc) ∨
      ((∃ c p, e = .missingParent c p) ∧ ReachesUnregistered r cc) ∨
      (IsWeakening e ∧ ∃ chain, Lineage r cc chain) := by
  rcases bind_eq_error.mp h with hchain | ⟨chain, hchain, hrest⟩
  · have hw : Walked r cc cc [] := ⟨nodup_singleton cc, (fun c hc => nomatch hc), .refl⟩
    exact (walkParents_error hw (by simp) (Nat.zero_le _) hchain).imp_right .inl
  · obtain ⟨l, hl, -⟩ := walkParents_ok (nodup_singleton cc) hchain
    refine .inr (.inr ⟨?_, l, hl⟩)
    rcases bind_eq_error.mp hrest with hm | ⟨_, -, hok⟩
    · exact foldlM_error (P := IsWeakening) (fun _ _ _ => composeClass_error) hm
    · cases hok

theorem lineage_of_effective {reqs : List EvidenceRequirement}
    (h : r.effectiveRequirements cc = .ok reqs) : ∃ chain m, Lineage r cc chain ∧
      r.composeChain chain = .ok m ∧ m.values = reqs := by
  obtain ⟨full, m, hfull, hm, hv⟩ := effectiveRequirements_ok.mp h
  obtain ⟨chain, hl, hsame, -⟩ := walkParents_ok (nodup_singleton cc) hfull
  exact ⟨full, m, hsame ▸ hl, hm, hv⟩

def ContractRegistry.lastDeclared (r : ContractRegistry) (c : ClaimClassId) (id : String) :
    Option EvidenceRequirement :=
  match r.contracts.get? c with
  | some contract => (contract.requirements.filter fun q => q.id = id).getLast?
  | none => none

theorem compose_get? {own : List EvidenceRequirement} {base : OrdMap String EvidenceRequirement}
    (h : own.foldlM (mergeRequirement cc base) m = .ok n) :
    n.get? id = ((own.filter fun q => q.id = id).getLast?).or (m.get? id) := by
  induction own generalizing m with
  | nil =>
    rw [← Except.ok.inj h]
    rfl
  | cons q own ih =>
    rw [foldlM_cons] at h
    obtain ⟨k, hk, hrest⟩ := bind_eq_ok.mp h
    obtain ⟨rfl, -⟩ := mergeRequirement_ok hk
    rw [ih hrest, OrdMap.get?_insert, filter_cons]
    by_cases hq : q.id = id
    · rw [if_pos hq.symm, if_pos (decide_eq_true hq), getLast?_cons, Option.some_or]
      cases (own.filter fun q => q.id = id).getLast? <;> rfl
    · rw [if_neg (Ne.symm hq), if_neg (by simpa using hq)]

theorem composeClass_get? (h : r.composeClass m c = .ok n) :
    n.get? id = (r.lastDeclared c id).or (m.get? id) := by
  unfold ContractRegistry.composeClass at h
  unfold ContractRegistry.lastDeclared
  cases hget : r.contracts.get? c with
  | none =>
    simp only [hget] at h ⊢
    rw [← Except.ok.inj h]
    rfl
  | some k =>
    simp only [hget] at h ⊢
    exact compose_get? h

theorem foldlM_composeClass_get? (h : chain.foldlM r.composeClass m = .ok n) :
    n.get? id = (chain.reverse.findSome? fun c => r.lastDeclared c id).or (m.get? id) := by
  induction chain generalizing m with
  | nil =>
    rw [← Except.ok.inj h]
    rfl
  | cons c chain ih =>
    rw [foldlM_cons] at h
    obtain ⟨k, hk, hrest⟩ := bind_eq_ok.mp h
    rw [ih hrest, composeClass_get? hk, reverse_cons, findSome?_append, Option.or_assoc,
      findSome?_cons, findSome?_nil]
    cases r.lastDeclared c id <;> rfl

theorem lastDeclared_isSome : (r.lastDeclared c id).isSome ↔
    ∃ k, r.contracts.get? c = some k ∧ id ∈ k.requirements.map EvidenceRequirement.id := by
  unfold ContractRegistry.lastDeclared
  cases r.contracts.get? c with
  | none => simp
  | some k => simp

/-- Resolution ends within the guard whatever the parent pointers, fails exactly on a chain that
revisits a class or reaches an unregistered one (or on a weakened override), and otherwise lists
the definitions nearest to the class by id. -/
theorem inheritance_resolution (r : ContractRegistry) (cc : ClaimClassId) :
    (∀ fuel, r.contracts.size < fuel → r.walkParents cc fuel cc [] = r.parentChain cc) ∧
    ((∃ c, r.effectiveRequirements cc = .error (.inheritanceCycle c)) ↔ Revisits r cc) ∧
    ((∃ c p, r.effectiveRequirements cc = .error (.missingParent c p)) ↔ ReachesUnregistered r cc) ∧
    ∀ reqs, r.effectiveRequirements cc = .ok reqs → ∃ chain, Lineage r cc chain ∧
      (reqs.map EvidenceRequirement.id).Pairwise (· < ·) ∧
      (∀ id, id ∈ reqs.map EvidenceRequirement.id ↔ ∃ c ∈ chain, ∃ k, r.contracts.get? c = some k ∧
          id ∈ k.requirements.map EvidenceRequirement.id) ∧
      ∀ q ∈ reqs, ∃ below c above, chain = below ++ c :: above ∧ r.lastDeclared c q.id = some q ∧
        ∀ b ∈ below, r.lastDeclared b q.id = none := by
  refine ⟨?_, ?_, ?_, ?_⟩
  · intro fuel hfuel
    exact walkParents_fuel (Nat.zero_le _) (by simpa using hfuel) (by simp)
  · constructor
    · rintro ⟨c, h⟩
      rcases effectiveRequirements_error h with ⟨-, hr⟩ | ⟨⟨_, _, he⟩, -⟩ | ⟨⟨_, _, _, he⟩, -⟩
      · exact hr
      · cases he
      · cases he
    · intro hr
      cases h : r.effectiveRequirements cc with
      | error e =>
        rcases effectiveRequirements_error h with ⟨rfl, -⟩ | ⟨-, d, hd, hnone⟩ | ⟨-, chain, hl⟩
        · exact ⟨cc, rfl⟩
        · exact absurd hr (not_revisits hd (topmost_of_unregistered hnone))
        · obtain ⟨d, hd, htop⟩ := hl.topmost
          exact absurd hr (not_revisits hd htop)
      | ok reqs =>
        obtain ⟨chain, -, hl, -⟩ := lineage_of_effective h
        obtain ⟨d, hd, htop⟩ := hl.topmost
        exact absurd hr (not_revisits hd htop)
  · constructor
    · rintro ⟨c, p, h⟩
      rcases effectiveRequirements_error h with ⟨he, -⟩ | ⟨-, hu⟩ | ⟨⟨_, _, _, he⟩, -⟩
      · cases he
      · exact hu
      · cases he
    · intro hu
      cases h : r.effectiveRequirements cc with
      | error e =>
        rcases effectiveRequirements_error h with ⟨-, hr⟩ | ⟨⟨c, p, rfl⟩, -⟩ | ⟨-, chain, hl⟩
        · obtain ⟨d, hd, hnone⟩ := hu
          exact absurd hr (not_revisits hd (topmost_of_unregistered hnone))
        · exact ⟨c, p, rfl⟩
        · exact absurd hu hl.registered
      | ok reqs =>
        obtain ⟨chain, -, hl, -⟩ := lineage_of_effective h
        exact absurd hu hl.registered
  · intro reqs h
    obtain ⟨chain, m, hl, hm, rfl⟩ := lineage_of_effective h
    have hkey : KeyedById m := (foldlM_composeClass_ok (fun id a ha => by simp at ha) hm).1
    have hget : ∀ id, m.get? id = chain.findSome? fun c => r.lastDeclared c id := by
      intro id
      rw [foldlM_composeClass_get? hm, reverse_reverse, OrdMap.get?_empty, Option.or_none]
    refine ⟨chain, hl, ?_, ?_, ?_⟩
    · rw [hkey.map_ids]
      exact m.sorted
    · intro id
      rw [hkey.map_ids, OrdMap.mem_keys, hget, findSome?_isSome_iff]
      simp only [lastDeclared_isSome]
    · intro q hq
      rw [hkey.mem_values, hget, findSome?_eq_some_iff] at hq
      exact hq

end Fornax
