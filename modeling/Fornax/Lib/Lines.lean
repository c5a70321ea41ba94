import Mathlib

namespace Fornax.Lines

open List

variable {α : Type*} [DecidableEq α]

def split (sep : α) : List α → List (List α) × List α
  | [] => ([], [])
  | c :: l =>
    let later := split sep l
    if c = sep then ([] :: later.1, later.2)
    else
      match later.1 with
      | [] => ([], c :: later.2)
      | first :: others => ((c :: first) :: others, later.2)

def records (sep : α) (l : List α) : List (List α) := (split sep l).1

def unfinished (sep : α) (l : List α) : List α := (split sep l).2

variable {sep : α}
  {l a : List α}

theorem split_of_notMem (h : sep ∉ l) : split sep l = ([], l) := by
  induction l with
  | nil => rfl
  | cons c l ih =>
    rw [mem_cons, not_or] at h
    simp only [split, ih h.2, Ne.symm h.1, if_false]

theorem split_append_sep (h : sep ∉ a) (b : List α) :
    split sep (a ++ sep :: b) = (a :: records sep b, unfinished sep b) := by
  induction a with
  | nil => simp [split, records, unfinished]
  | cons c a ih =>
    rw [mem_cons, not_or] at h
    simp only [cons_append, split, ih h.2, Ne.symm h.1, if_false]

theorem records_of_notMem (h : sep ∉ l) : records sep l = [] := by
  rw [records, split_of_notMem h]

theorem unfinished_of_notMem (h : sep ∉ l) : unfinished sep l = l := by
  rw [unfinished, split_of_notMem h]

theorem records_append_sep (h : sep ∉ a) (b : List α) :
    records sep (a ++ sep :: b) = a :: records sep b := by
  rw [records, split_append_sep h]

theorem unfinished_append_sep (h : sep ∉ a) (b : List α) :
    unfinished sep (a ++ sep :: b) = unfinished sep b := by
  rw [unfinished, split_append_sep h]

theorem recordInduction (sep : α) {P : List α → Prop} (hfree : ∀ l, sep ∉ l → P l)
    (hended : ∀ a b, sep ∉ a → P b → P (a ++ sep :: b)) (l : List α) : P l := by
  induction hn : l.length using Nat.strong_induction_on generalizing l with
  | _ n ih =>
    by_cases hmem : sep ∈ l
    · obtain ⟨a, b, rfl, ha⟩ := eq_append_cons_of_mem hmem
      refine hended a b ha (ih b.length ?_ b rfl)
      rw [← hn, length_append, length_cons]
      omega
    · exact hfree l hmem

theorem notMem_unfinished (l : List α) : sep ∉ unfinished sep l := by
  induction l using recordInduction sep with
  | hfree l hl => rwa [unfinished_of_notMem hl]
  | hended a b ha ih => rwa [unfinished_append_sep ha]

theorem records_append (a b : List α) :
    records sep (a ++ b) = records sep a ++ records sep (unfinished sep a ++ b) := by
  induction a using recordInduction sep with
  | hfree a ha => rw [records_of_notMem ha, unfinished_of_notMem ha, nil_append]
  | hended first rest hfirst ih =>
    rw [append_assoc, cons_append, records_append_sep hfirst, ih,
      records_append_sep hfirst, unfinished_append_sep hfirst, cons_append]

theorem unfinished_append (a b : List α) :
    unfinished sep (a ++ b) = unfinished sep (unfinished sep a ++ b) := by
  induction a using recordInduction sep with
  | hfree a ha => rw [unfinished_of_notMem ha]
  | hended first rest hfirst ih =>
    rw [append_assoc, cons_append, unfinished_append_sep hfirst, ih, unfinished_append_sep hfirst]

theorem exists_ended (sep : α) (l : List α) : ∃ ended, l = ended ++ unfinished sep l ∧
    records sep ended = records sep l ∧ unfinished sep ended = [] ∧
    (ended = [] ∨ ∃ most, ended = most ++ [sep]) := by
  induction l using recordInduction sep with
  | hfree l hl =>
    refine ⟨[], ?_, ?_, rfl, .inl rfl⟩
    · rw [unfinished_of_notMem hl, nil_append]
    · rw [records_of_notMem hl]
      rfl
  | hended a b ha ih =>
    obtain ⟨ended, hsplit, hrecords, hopen, hlast⟩ := ih
    refine ⟨a ++ sep :: ended, ?_, ?_, ?_, .inr ?_⟩
    · rw [unfinished_append_sep ha, append_assoc, cons_append, ← hsplit]
    · rw [records_append_sep ha, records_append_sep ha, hrecords]
    · rw [unfinished_append_sep ha, hopen]
    · rcases hlast with rfl | ⟨most, rfl⟩
      · exact ⟨a, rfl⟩
      · exact ⟨a ++ sep :: most, by simp⟩

theorem length_lt_of_mem_records {r : List α} (h : r ∈ records sep l) : r.length < l.length := by
  induction l using recordInduction sep with
  | hfree l hl =>
    rw [records_of_notMem hl] at h
    cases h
  | hended a b ha ih =>
    rw [records_append_sep ha, mem_cons] at h
    rw [length_append, length_cons]
    rcases h with rfl | h
    · omega
    · have := ih h
      omega

def endedLength (sep : α) (l : List α) : ℕ := l.length - (unfinished sep l).length

theorem endedLength_le (sep : α) (l : List α) : endedLength sep l ≤ l.length := Nat.sub_le _ _

theorem take_endedLength (sep : α) (l : List α) :
    records sep (l.take (endedLength sep l)) = records sep l ∧
      unfinished sep (l.take (endedLength sep l)) = [] ∧
      l = l.take (endedLength sep l) ++ unfinished sep l := by
  obtain ⟨ended, hsplit, hrecords, hopen, -⟩ := exists_ended sep l
  have hlength : endedLength sep l = ended.length := by
    have hsum := congrArg length hsplit
    rw [length_append] at hsum
    rw [endedLength]
    omega
  have htake : l.take (endedLength sep l) = ended := by
    rw [hlength, hsplit, take_left]
  rw [htake]
  exact ⟨hrecords, hopen, hsplit⟩

theorem endedLength_of_notMem (h : sep ∉ l) : endedLength sep l = 0 := by
  rw [endedLength, unfinished_of_notMem h, Nat.sub_self]

theorem endedLength_append_sep (h : sep ∉ a) (b : List α) :
    endedLength sep (a ++ sep :: b) = a.length + 1 + endedLength sep b := by
  have hle : (unfinished sep b).length ≤ b.length := by
    have hsum := congrArg length (take_endedLength sep b).2.2
    rw [length_append] at hsum
    omega
  rw [endedLength, endedLength, unfinished_append_sep h, length_append, length_cons]
  omega

theorem notMem_of_endedLength_eq_zero (h : endedLength sep l = 0) : sep ∉ l := by
  intro hmem
  obtain ⟨a, b, rfl, ha⟩ := eq_append_cons_of_mem hmem
  rw [endedLength_append_sep ha] at h
  omega

theorem findIdx?_of_notMem (h : sep ∉ l) : l.findIdx? (· == sep) = none := by
  rw [findIdx?_eq_none_iff]
  intro x hx
  rw [beq_eq_false_iff_ne]
  exact ne_of_mem_of_not_mem hx h

theorem findIdx?_append_sep (h : sep ∉ a) (b : List α) :
    (a ++ sep :: b).findIdx? (· == sep) = some a.length := by
  rw [findIdx?_append, findIdx?_of_notMem h]
  simp [findIdx?_cons]

end Fornax.Lines
