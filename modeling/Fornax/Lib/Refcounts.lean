import Fornax.Lib.Table

namespace Fornax.Refcounts

variable {K : Type*} [LinearOrder K]

def acquire (m : OrdMap K ℕ) (k : K) : OrdMap K ℕ := m.alter k fun n => n.getD 0 + 1

def release (m : OrdMap K ℕ) (k : K) : OrdMap K ℕ :=
  match m.get? k with
  | none => m
  | some n => if n - 1 = 0 then m.erase k else m.insert k (n - 1)

def Counts (m : OrdMap K ℕ) (held : List K) : Prop :=
  ∀ k, m.get? k = if held.count k = 0 then none else some (held.count k)

variable {m : OrdMap K ℕ} {held held' : List K} {k : K}

theorem counts_empty : Counts (OrdMap.empty : OrdMap K ℕ) [] := fun _ => rfl

theorem Counts.perm (h : Counts m held) (hperm : held'.Perm held) : Counts m held' := by
  intro k
  rw [hperm.count_eq]
  exact h k

theorem Counts.acquire (h : Counts m held) (k : K) : Counts (acquire m k) (k :: held) := by
  intro j
  rw [Refcounts.acquire, OrdMap.get?_alter, h k, h j]
  by_cases hjk : j = k
  · subst hjk
    rw [if_pos rfl, List.count_cons_self, if_neg (Nat.succ_ne_zero _)]
    split <;> simp_all
  · rw [if_neg hjk, List.count_cons_of_ne (Ne.symm hjk)]

theorem Counts.release (h : Counts m (k :: held)) : Counts (release m k) held := by
  have hk : m.get? k = some (held.count k + 1) := by
    rw [h k, List.count_cons_self, if_neg (Nat.succ_ne_zero _)]
  have hj : ∀ {j : K}, j ≠ k →
      m.get? j = if held.count j = 0 then none else some (held.count j) := by
    intro j hjk
    rw [h j, List.count_cons_of_ne (Ne.symm hjk)]
  intro j
  unfold Refcounts.release
  rw [hk]
  change (if held.count k = 0 then m.erase k else m.insert k (held.count k)).get? j = _
  by_cases hjk : j = k
  · subst hjk
    split
    · rw [OrdMap.get?_erase, if_pos rfl]
    · rw [OrdMap.get?_insert, if_pos rfl]
  · rw [← hj hjk]
    split
    · exact OrdMap.get?_erase_of_ne m hjk
    · exact OrdMap.get?_insert_of_ne m _ hjk

theorem Counts.contains_iff (h : Counts m held) (k : K) : m.contains k ↔ k ∈ held := by
  rw [OrdMap.contains, h k, ← List.count_pos_iff]
  by_cases hzero : held.count k = 0
  · rw [if_pos hzero, hzero]
    decide
  · rw [if_neg hzero]
    exact ⟨fun _ => Nat.pos_of_ne_zero hzero, fun _ => rfl⟩

end Fornax.Refcounts
