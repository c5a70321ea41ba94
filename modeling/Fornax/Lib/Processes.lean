import Mathlib

namespace Fornax.Processes

open List

variable {P H : Type*} {l : List P} {i j : ℕ} {x y : P}

theorem getElem?_set_cases (h : (l.set i x)[j]? = some y) :
    j = i ∧ y = x ∨ j ≠ i ∧ l[j]? = some y := by
  rw [getElem?_set] at h
  by_cases hij : i = j
  · rw [if_pos hij] at h
    split at h
    · cases h
      exact .inl ⟨hij.symm, rfl⟩
    · cases h
  · rw [if_neg hij] at h
    exact .inr ⟨Ne.symm hij, h⟩

theorem getElem?_concat_cases (h : (l ++ [x])[j]? = some y) :
    j = l.length ∧ y = x ∨ l[j]? = some y := by
  rcases Nat.lt_or_ge j l.length with hlt | hge
  · rw [getElem?_append_left hlt] at h
    exact .inr h
  · rw [getElem?_append_right hge, getElem?_singleton] at h
    split at h
    · cases h
      exact .inl ⟨by omega, rfl⟩
    · cases h

theorem countP_le_one {p : P → Bool}
    (h : ∀ {i j : ℕ} {x y : P}, l[i]? = some x → l[j]? = some y → p x → p y → i = j) :
    l.countP p ≤ 1 := by
  induction l with
  | nil => exact Nat.zero_le _
  | cons first rest ih =>
    by_cases hfirst : p first = true
    · have hnone : rest.countP p = 0 := by
        refine countP_eq_zero.mpr fun x hx hpx => ?_
        obtain ⟨j, hj⟩ := mem_iff_getElem?.mp hx
        have hindex : 0 = j + 1 := h (i := 0) (j := j + 1) rfl hj hfirst hpx
        omega
      rw [countP_cons_of_pos hfirst, hnone]
    · rw [countP_cons_of_neg hfirst]
      refine ih fun {i j x y} hi hj hpx hpy => ?_
      have hindex : i + 1 = j + 1 := h (i := i + 1) (j := j + 1) hi hj hpx hpy
      omega

variable {held : P → Option H}

variable (h : l[i]? = some y)

include h

theorem perm_cons_eraseIdx : l.Perm (y :: l.eraseIdx i) := by
  obtain ⟨hi, hy⟩ := List.getElem?_eq_some_iff.mp h
  rw [← hy]
  exact (List.getElem_cons_eraseIdx_perm hi).symm

theorem set_perm_cons_eraseIdx (x : P) : (l.set i x).Perm (x :: l.eraseIdx i) :=
  List.set_perm_cons_eraseIdx (List.getElem?_eq_some_iff.mp h).1 x

theorem holdings_set_same (hsame : held x = held y) :
    ((l.set i x).filterMap held).Perm (l.filterMap held) := by
  refine ((set_perm_cons_eraseIdx h x).filterMap held).trans
    (.trans ?_ ((perm_cons_eraseIdx h).filterMap held).symm)
  rw [filterMap_cons, filterMap_cons, hsame]

theorem holdings_set_take {k : H} (hold : held y = none)
    (hnew : held x = some k) : ((l.set i x).filterMap held).Perm (k :: l.filterMap held) := by
  refine ((set_perm_cons_eraseIdx h x).filterMap held).trans ?_
  rw [filterMap_cons_some hnew]
  refine List.Perm.cons k (.trans ?_ ((perm_cons_eraseIdx h).filterMap held).symm)
  rw [filterMap_cons_none hold]

theorem holdings_set_drop {k : H} (hold : held y = some k)
    (hnew : held x = none) : (l.filterMap held).Perm (k :: (l.set i x).filterMap held) := by
  refine ((perm_cons_eraseIdx h).filterMap held).trans ?_
  rw [filterMap_cons_some hold]
  refine List.Perm.cons k (.trans ?_ ((set_perm_cons_eraseIdx h x).filterMap held).symm)
  rw [filterMap_cons_none hnew]

end Fornax.Processes
