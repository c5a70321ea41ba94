import Mathlib

namespace Fornax.SortDedup

open List

variable {α K : Type*} [LinearOrder K]

def sortBy (key : α → K) (l : List α) : List α :=
  l.insertionSort fun a b => key a ≤ key b

def word (key : α → K) (k : K) (l : List α) : List α := l.filter fun a => key a = k

variable (key : α → K)

theorem word_append (k : K) (l m : List α) :
    word key k (l ++ m) = word key k l ++ word key k m :=
  filter_append l m

variable {a : α} {l m : List α}

theorem word_cons (k : K) (a : α) (l : List α) :
    word key k (a :: l) = if key a = k then a :: word key k l else word key k l := by
  simp [word, filter_cons]

theorem word_orderedInsert (k : K) (a : α) (l : List α) :
    word key k (l.orderedInsert (fun a b => key a ≤ key b) a) = word key k (a :: l) := by
  induction l with
  | nil => rfl
  | cons b rest ih =>
    rw [orderedInsert_cons]
    by_cases hab : key a ≤ key b
    · rw [if_pos hab]
    · have hne : ¬ (key a = k ∧ key b = k) := fun h => hab (h.1.trans h.2.symm).le
      rw [if_neg hab, word_cons, ih, word_cons, word_cons, word_cons]
      by_cases hb : key b = k <;> simp_all

theorem word_sortBy (k : K) (l : List α) : word key k (sortBy key l) = word key k l := by
  induction l with
  | nil => rfl
  | cons a rest ih =>
    have hsort : sortBy key (a :: rest) =
        (sortBy key rest).orderedInsert (fun a b => key a ≤ key b) a := rfl
    rw [hsort, word_orderedInsert, word_cons, word_cons, ih]

theorem mem_sortBy {key : α → K} : a ∈ sortBy key l ↔ a ∈ l :=
  (perm_insertionSort _ l).mem_iff

theorem sorted_sortBy (l : List α) : (sortBy key l).Pairwise fun a b => key a ≤ key b := by
  have : Std.Total fun a b : α => key a ≤ key b := ⟨fun a b => le_total (key a) (key b)⟩
  have : IsTrans α fun a b => key a ≤ key b := ⟨fun a b c => le_trans⟩
  exact pairwise_insertionSort _ l

theorem sortBy_eq_of_perm_of_ties {key : α → K} (hperm : l.Perm m)
    (hties : ∀ a ∈ l, ∀ b ∈ l, key a = key b → a = b) : sortBy key l = sortBy key m := by
  have hsorted : (sortBy key l).Perm (sortBy key m) :=
    (perm_insertionSort _ l).trans (hperm.trans (perm_insertionSort _ m).symm)
  refine hsorted.eq_of_pairwise ?_ (sorted_sortBy key l) (sorted_sortBy key m)
  intro a b ha hb hab hba
  exact hties a (mem_sortBy.mp ha) b (hperm.mem_iff.mpr (mem_sortBy.mp hb)) (le_antisymm hab hba)

theorem sortBy_eq_of_perm {key : α → K} (hperm : l.Perm m) (hkeys : (l.map key).Nodup) :
    sortBy key l = sortBy key m :=
  sortBy_eq_of_perm_of_ties hperm fun _ ha _ hb => inj_on_of_nodup_map hkeys ha hb

theorem eq_of_words : ∀ {l m : List α}, (l.Pairwise fun a b => key a ≤ key b) →
    (m.Pairwise fun a b => key a ≤ key b) → (∀ k, word key k l = word key k m) → l = m := by
  intro l
  induction l with
  | nil =>
    intro m _ _ h
    cases m with
    | nil => rfl
    | cons b rest =>
      have hb := h (key b)
      simp [word] at hb
  | cons a rest ih =>
    intro m hl hm h
    cases m with
    | nil =>
      have ha := h (key a)
      simp [word] at ha
    | cons b mrest =>
      rw [pairwise_cons] at hl hm
      have hmem_a : a ∈ word key (key a) (b :: mrest) := by
        rw [← h]
        simp [word]
      have hmem_b : b ∈ word key (key b) (a :: rest) := by
        rw [h]
        simp [word]
      have hle : ∀ {x y : α} {rest : List α}, (∀ z ∈ rest, key y ≤ key z) →
          x ∈ word key (key x) (y :: rest) → key y ≤ key x := by
        intro x y rest hfirst hx
        rcases mem_cons.mp (mem_filter.mp hx).1 with rfl | hx
        · exact le_rfl
        · exact hfirst x hx
      have hkey : key b = key a := le_antisymm (hle hm.1 hmem_a) (hle hl.1 hmem_b)
      have hhead := h (key a)
      rw [word_cons, word_cons, if_pos rfl, if_pos hkey, cons.injEq] at hhead
      obtain ⟨hab', htail⟩ := hhead
      subst hab'
      have hrest : rest = mrest := by
        apply ih hl.2 hm.2
        intro k
        by_cases hk : key a = k
        · rw [← hk]
          exact htail
        · simpa [word_cons, hk] using h k
      rw [hrest]

section Projection

variable {β : Type*} {key : α → K} {f : β → Option α}

theorem word_filterMap {key' : β → K} (hkey : ∀ b a, f b = some a → key a = key' b) (k : K)
    (l : List β) : word key k (l.filterMap f) = (word key' k l).filterMap f := by
  induction l with
  | nil => rfl
  | cons b l ih =>
    rw [filterMap_cons, word_cons]
    cases hf : f b with
    | none =>
      rw [ih, apply_ite (filterMap f), filterMap_cons_none hf, ite_self]
    | some a => simp [word_cons, hkey b a hf, ih, apply_ite (filterMap f), hf]

theorem sortBy_filterMap_sortBy {key' : β → K} (hkey : ∀ b a, f b = some a → key a = key' b)
    (l : List β) : sortBy key ((sortBy key' l).filterMap f) = sortBy key (l.filterMap f) := by
  refine eq_of_words key (sorted_sortBy key _) (sorted_sortBy key _) fun k => ?_
  rw [word_sortBy, word_sortBy, word_filterMap hkey, word_filterMap hkey, word_sortBy]

theorem forall_perm_sortBy_filterMap_iff {l : List β} :
    (∀ m : List β, m.Perm l → sortBy key (m.filterMap f) = sortBy key (l.filterMap f)) ↔
      ∀ a ∈ l.filterMap f, ∀ b ∈ l.filterMap f, key a = key b → a = b := by
  constructor
  · intro h a ha b hb hab
    -- Each of the two can be put first, and then leads the word of its key.
    have hfirst : ∀ x ∈ l.filterMap f, key x = key b →
        (word key (key b) (l.filterMap f)).head? = some x := by
      intro x hx hkey
      obtain ⟨y, hy, hfy⟩ := mem_filterMap.mp hx
      obtain ⟨before, after, hsplit⟩ := append_of_mem hy
      have hperm : (y :: (before ++ after)).Perm l := hsplit ▸ perm_middle.symm
      have hword := congrArg (word key (key b)) (h _ hperm)
      rw [word_sortBy, word_sortBy, filterMap_cons_some hfy, word_cons, if_pos hkey] at hword
      rw [← hword]
      rfl
    exact Option.some.inj ((hfirst a ha hab).symm.trans (hfirst b hb rfl))
  · intro hties m hperm
    exact (sortBy_eq_of_perm_of_ties (hperm.symm.filterMap f) hties).symm

end Projection

variable [DecidableEq α]

def dropRepeats (l : List α) : List α := l.destutter (· ≠ ·)

theorem dropRepeats_cons (a : α) (l : List α) :
    dropRepeats (a :: l) = if l.head? = some a then dropRepeats l else a :: dropRepeats l := by
  cases l with
  | nil => rfl
  | cons b rest =>
    simp only [dropRepeats, destutter_cons_cons, head?_cons, Option.some.injEq]
    by_cases hab : b = a
    · rw [if_pos hab, if_neg (not_not.mpr hab.symm), hab, destutter_cons']
    · rw [if_neg hab, if_pos (Ne.symm hab), destutter_cons']

theorem head?_dropRepeats (l : List α) : (dropRepeats l).head? = l.head? := by
  induction l with
  | nil => rfl
  | cons a l ih =>
    rw [dropRepeats_cons]
    split_ifs with h
    · rw [ih, h, head?_cons]
    · rfl

variable (w v : List α)

theorem dropRepeats_append_left : dropRepeats (dropRepeats w ++ v) = dropRepeats (w ++ v) := by
  induction w with
  | nil => rfl
  | cons a w ih =>
    rw [dropRepeats_cons, cons_append, dropRepeats_cons a (w ++ v), ← ih]
    split_ifs with h h' h'
    · rfl
    · exact absurd (by rw [head?_append, h, Option.some_or]) h'
    · rw [cons_append, dropRepeats_cons, if_pos]
      rwa [head?_append, head?_dropRepeats, ← head?_append]
    · rw [cons_append, dropRepeats_cons, if_neg]
      rwa [head?_append, head?_dropRepeats, ← head?_append]

theorem dropRepeats_append_right : dropRepeats (w ++ dropRepeats v) = dropRepeats (w ++ v) := by
  induction w with
  | nil => exact destutter_idem v _
  | cons a w ih =>
    rw [cons_append, cons_append, dropRepeats_cons, dropRepeats_cons, ih, head?_append,
      head?_append, head?_dropRepeats]

theorem mem_dropRepeats : a ∈ dropRepeats l ↔ a ∈ l := by
  induction l with
  | nil => rfl
  | cons b l ih =>
    rw [dropRepeats_cons, mem_cons]
    split_ifs with h
    · rw [ih, or_iff_right_of_imp]
      rintro rfl
      exact mem_of_head? h
    · rw [mem_cons, ih]

def sortDedup (key : α → K) (l : List α) : List α := dropRepeats (sortBy key l)

theorem mem_sortDedup {key : α → K} : a ∈ sortDedup key l ↔ a ∈ l := by
  rw [sortDedup, mem_dropRepeats, sortBy, mem_insertionSort]

theorem sortDedup_eq_of_perm {key : α → K} (hperm : l.Perm m)
    (hties : ∀ a ∈ l, ∀ b ∈ l, key a = key b → a = b) : sortDedup key l = sortDedup key m := by
  rw [sortDedup, sortDedup, sortBy_eq_of_perm_of_ties hperm hties]

theorem sorted_sortDedup (l : List α) : (sortDedup key l).Pairwise fun a b => key a ≤ key b :=
  (sorted_sortBy key l).sublist (destutter_sublist _ _)

theorem word_dropRepeats (k : K) (hl : l.Pairwise fun a b => key a ≤ key b) :
    word key k (dropRepeats l) = dropRepeats (word key k l) := by
  induction l with
  | nil => rfl
  | cons a l ih =>
    obtain ⟨hfirst, hrest⟩ := pairwise_cons.mp hl
    rw [dropRepeats_cons, word_cons]
    split_ifs with hhead hk hk
    · obtain ⟨rest, rfl⟩ := head?_eq_some_iff.mp hhead
      rw [ih hrest, dropRepeats_cons, if_pos]
      rw [word_cons, if_pos hk, head?_cons]
    · exact ih hrest
    · rw [word_cons, if_pos hk, ih hrest, dropRepeats_cons, if_neg]
      intro hword
      -- the first of `l` lies between the two, so it is the first of the word as well
      obtain ⟨hmem, -⟩ := mem_filter.mp (mem_of_head? hword)
      cases l with
      | nil => cases hmem
      | cons b rest =>
        have hbk : key b = k := by
          refine le_antisymm ?_ (hk ▸ hfirst b mem_cons_self)
          rcases mem_cons.mp hmem with rfl | hmem
          · exact hk.le
          · exact hk ▸ (pairwise_cons.mp hrest).1 a hmem
        rw [word_cons, if_pos hbk] at hword
        exact hhead hword
    · rw [word_cons, if_neg hk, ih hrest]

theorem word_sortDedup (k : K) (l : List α) :
    word key k (sortDedup key l) = dropRepeats (word key k l) := by
  rw [sortDedup, word_dropRepeats key k (sorted_sortBy key l), word_sortBy]

theorem sortDedup_eq_iff (l m : List α) : sortDedup key l = sortDedup key m ↔
      ∀ k, dropRepeats (word key k l) = dropRepeats (word key k m) := by
  constructor
  · intro h k
    rw [← word_sortDedup, ← word_sortDedup, h]
  · intro h
    apply eq_of_words key (sorted_sortDedup key l) (sorted_sortDedup key m)
    intro k
    rw [word_sortDedup, word_sortDedup, h k]

theorem sortDedup_append_left (l m : List α) :
    sortDedup key (sortDedup key l ++ m) = sortDedup key (l ++ m) := by
  rw [sortDedup_eq_iff]
  intro k
  rw [word_append, word_append, word_sortDedup, dropRepeats_append_left]

theorem sortDedup_append_right (l m : List α) :
    sortDedup key (l ++ sortDedup key m) = sortDedup key (l ++ m) := by
  rw [sortDedup_eq_iff]
  intro k
  rw [word_append, word_append, word_sortDedup, dropRepeats_append_right]

end Fornax.SortDedup
