import Mathlib

namespace Fornax.References

open List

variable {K T : Type*}

def without (refers : K → K → Prop) (k : K) (j i : K) : Prop := refers j i ∧ j ≠ k

def Removable (refers : K → K → Prop) : List K → Prop
  | [] => True
  | k :: ks => (∀ j, ¬ refers j k) ∧ Removable (without refers k) ks

theorem removable_iff {refers : K → K → Prop} {ks : List K} : Removable refers ks ↔
      ∀ before k after, ks = before ++ k :: after → ∀ j, refers j k → j ∈ before := by
  induction ks generalizing refers with
  | nil => simp [Removable]
  | cons first ks ih =>
    rw [Removable, ih]
    constructor
    · rintro ⟨hfirst, hrest⟩ before k after hsplit j hj
      cases before with
      | nil =>
        obtain ⟨rfl, rfl⟩ := cons.inj hsplit
        exact absurd hj (hfirst j)
      | cons head before =>
        obtain ⟨rfl, htail⟩ := cons.inj hsplit
        by_cases hjf : j = first
        · exact hjf ▸ mem_cons_self
        · exact mem_cons_of_mem _ (hrest before k after htail j ⟨hj, hjf⟩)
    · intro h
      refine ⟨fun j hj => ?_, fun before k after hsplit j hj => ?_⟩
      · exact not_mem_nil (h [] first ks rfl j hj)
      · have hmem := h (first :: before) k after (by rw [hsplit]; rfl) j hj.1
        exact (mem_cons.mp hmem).resolve_left hj.2

theorem removable_iff_unreferred {refers : K → K → Prop} {ks : List K}
    (hback : ks.Pairwise fun a b => ¬ refers a b) :
    Removable refers ks ↔ ∀ k ∈ ks, ∀ j, ¬ refers j k := by
  rw [removable_iff]
  constructor
  · intro h k hk j hj
    obtain ⟨before, after, hsplit⟩ := append_of_mem hk
    have hbefore : j ∈ before := h before k after hsplit j hj
    rw [hsplit, pairwise_append] at hback
    exact hback.2.2 j hbefore k mem_cons_self hj
  · intro h before k after hsplit j hj
    have hk : k ∈ ks := by
      rw [hsplit]
      exact mem_append_right _ mem_cons_self
    exact absurd hj (h k hk j)

/-- The log holds every owned row under its owner, references lead to owned rows, and no row
of the log refers to a later one. -/
structure Sound (refers : K → K → Prop) (owner : K → Option T) (log : List (K × T)) : Prop where
  logged : ∀ k t, owner k = some t ↔ (k, t) ∈ log
  resolves : ∀ j k, refers j k → (owner k).isSome
  back : log.Pairwise fun a b => ¬ refers a.1 b.1

variable {refers refers' : K → K → Prop} {owner owner' : K → Option T} {log : List (K × T)}

theorem Sound.empty (hrefers : ∀ j k, ¬ refers j k) (howner : ∀ k, owner k = none) :
    Sound refers owner [] where
  logged k t := by simp [howner k]
  resolves j k h := absurd h (hrefers j k)
  back := List.Pairwise.nil

section Insert

variable (h : Sound refers owner log) {k : K} (parents : List K) (hfresh : owner k = none)
  (hparents : ∀ i ∈ parents, (owner i).isSome)
  (hrefers : ∀ j i, refers' j i → refers j i ∨ j = k ∧ i ∈ parents)

include h hfresh hparents hrefers

theorem Sound.attach : Sound refers' owner log where
  logged := h.logged
  resolves j i hji := by
    rcases hrefers j i hji with hji | ⟨-, hi⟩
    · exact h.resolves j i hji
    · exact hparents i hi
  back := by
    refine h.back.imp_of_mem fun {a b} ha _ hab hab' => ?_
    rcases hrefers a.1 b.1 hab' with hold | ⟨hak, -⟩
    · exact hab hold
    · have howned : owner a.1 = some a.2 := (h.logged a.1 a.2).mpr ha
      rw [hak, hfresh] at howned
      cases howned

theorem Sound.enter [DecidableEq K] {t : T}
    (howner : ∀ i, owner' i = if i = k then some t else owner i) :
    Sound refers' owner' (log ++ [(k, t)]) := by
  have hattached := h.attach parents hfresh hparents hrefers
  refine ⟨fun i s => ?_, fun j i hji => ?_, ?_⟩
  · rw [howner i, mem_append, mem_singleton, ← h.logged i s, Prod.mk.injEq]
    by_cases hik : i = k
    · rw [if_pos hik, hik, hfresh]
      simp [eq_comm]
    · simp [hik]
  · rw [howner i]
    split
    · rfl
    · exact hattached.resolves j i hji
  · rw [pairwise_append]
    refine ⟨hattached.back, pairwise_singleton _ _, fun a _ b hb hab => ?_⟩
    -- nothing referred to `k` before it was there
    rw [mem_singleton.mp hb] at hab
    have howned := hattached.resolves a.1 k hab
    rw [hfresh] at howned
    cases howned

end Insert

theorem Sound.removable_iff [DecidableEq T] (h : Sound refers owner log) (t : T) :
    Removable refers ((log.filter fun e => e.2 = t).map Prod.fst) ↔
      ∀ k, owner k = some t → ∀ j, ¬ refers j k := by
  have hback : ((log.filter fun e => e.2 = t).map Prod.fst).Pairwise fun a b => ¬ refers a b :=
    pairwise_map.mpr (h.back.filter _)
  have hmem : ∀ k, k ∈ (log.filter fun e => e.2 = t).map Prod.fst ↔ owner k = some t := by
    intro k
    rw [h.logged k t]
    constructor
    · intro hk
      obtain ⟨⟨i, s⟩, he, rfl⟩ := mem_map.mp hk
      obtain ⟨he, hs⟩ := mem_filter.mp he
      have hst : s = t := of_decide_eq_true hs
      exact hst ▸ he
    · intro hk
      exact mem_map.mpr ⟨(k, t), mem_filter.mpr ⟨hk, decide_eq_true rfl⟩, rfl⟩
  rw [removable_iff_unreferred hback]
  exact forall_congr' fun k => by rw [hmem k]

theorem Sound.erase [DecidableEq T] (h : Sound refers owner log) {t : T}
    (hfree : ∀ k, owner k = some t → ∀ j, ¬ refers j k)
    (hrefers : ∀ j k, refers' j k → refers j k)
    (howner : ∀ k, owner' k = (owner k).filter fun s => s ≠ t) :
    Sound refers' owner' (log.filter fun e => e.2 ≠ t) where
  logged k s := by rw [howner, Option.filter_eq_some_iff, h.logged, mem_filter]
  resolves j k hjk := by
    obtain ⟨s, hs⟩ := Option.isSome_iff_exists.mp (h.resolves j k (hrefers j k hjk))
    have hne : s ≠ t := fun heq => hfree k (heq ▸ hs) j (hrefers j k hjk)
    simp [howner, hs, hne]
  back := (h.back.imp fun hab hab' => hab (hrefers _ _ hab')).filter _

end Fornax.References
