import Mathlib

namespace Fornax.HashChain

open List

@[ext]
structure Entry (P D : Type*) where
  seq : ℤ
  prev : D
  hash : D
  payload : P

variable {P D : Type*}

def Linked (H : ℤ → D → P → D) : ℤ → D → List (Entry P D) → Prop
  | _, _, [] => True
  | n, d, e :: rest =>
    e.seq = n ∧ e.prev = d ∧ H e.seq e.prev e.payload = e.hash ∧ Linked H (n + 1) e.hash rest

def head (d : D) : List (Entry P D) → D
  | [] => d
  | e :: rest => head e.hash rest

def Separates (H : ℤ → D → P → D) (l₁ l₂ : List (Entry P D)) : Prop :=
  ∀ e₁ ∈ l₁, ∀ e₂ ∈ l₂, e₁.seq = e₂.seq →
    H e₁.seq e₁.prev e₁.payload = H e₂.seq e₂.prev e₂.payload →
    e₁.prev = e₂.prev ∧ e₁.payload = e₂.payload

@[simp]
theorem head_append (d : D) (l l' : List (Entry P D)) : head d (l ++ l') = head (head d l) l' := by
  induction l generalizing d with
  | nil => rfl
  | cons e rest ih => exact ih e.hash

theorem head_concat (d : D) (l : List (Entry P D)) (e : Entry P D) : head d (l ++ [e]) = e.hash :=
  head_append d l [e]

theorem head_eq_getLast? (d : D) (l : List (Entry P D)) :
    head d l = (l.getLast?.map Entry.hash).getD d := by
  induction l using reverseRecOn with
  | nil => rfl
  | append_singleton l e _ => simp [head]

variable {H : ℤ → D → P → D} {n : ℤ} {d : D} {l l' : List (Entry P D)}

theorem linked_append : Linked H n d (l ++ l') ↔
    Linked H n d l ∧ Linked H (n + l.length) (head d l) l' := by
  induction l generalizing n d with
  | nil => simp [Linked, head]
  | cons e rest ih =>
    have hcount : n + 1 + (rest.length : ℤ) = n + ((e :: rest).length : ℕ) := by
      rw [length_cons]
      push_cast
      ring
    simp only [cons_append, Linked, head, ih, hcount]
    tauto

theorem Linked.seqs (h : Linked H n d l) :
    l.map Entry.seq = (range l.length).map fun i : ℕ => n + i := by
  induction l using reverseRecOn with
  | nil => rfl
  | append_singleton l e ih =>
    obtain ⟨hl, he, -⟩ := linked_append.mp h
    rw [map_append, ih hl, length_append, length_singleton, range_succ,
      map_append, map_singleton, map_singleton, he]

theorem Linked.seq_bounds (h : Linked H n d l) {e : Entry P D} (he : e ∈ l) :
    n ≤ e.seq ∧ e.seq < n + l.length := by
  have hmem : e.seq ∈ l.map Entry.seq := mem_map_of_mem he
  rw [h.seqs] at hmem
  obtain ⟨i, hi, hseq⟩ := mem_map.mp hmem
  have hlt := mem_range.mp hi
  omega

theorem Linked.prev_of {Q : D → Prop} (h : Linked H n d l) (hd : Q d)
    (hhash : ∀ n d p, Q (H n d p)) : ∀ e ∈ l, Q e.prev := by
  induction l generalizing n d with
  | nil => exact fun e he => absurd he not_mem_nil
  | cons first rest ih =>
    obtain ⟨-, hprev, hfirst, hrest⟩ := h
    intro e he
    rcases mem_cons.mp he with rfl | he
    · rw [hprev]
      exact hd
    · refine ih hrest ?_ e he
      rw [← hfirst]
      exact hhash _ _ _

section

variable {l₁ l₂ : List (Entry P D)} (h₁ : Linked H n d l₁) (h₂ : Linked H n d l₂)

include h₁ h₂

theorem Linked.eq_of_head (hlength : l₁.length = l₂.length) (hhead : head d l₁ = head d l₂)
    (hsep : Separates H l₁ l₂) : l₁ = l₂ := by
  -- From the end: equal hashes have equal inputs, and these name the hashes before them.
  induction l₁ using reverseRecOn generalizing l₂ with
  | nil => exact (length_eq_zero_iff.mp hlength.symm).symm
  | append_singleton m₁ e₁ ih =>
    rcases eq_nil_or_concat' l₂ with rfl | ⟨m₂, e₂, rfl⟩
    · simp at hlength
    · have hcount : m₁.length = m₂.length := by
        simpa using hlength
      obtain ⟨hm₁, hseq₁, hprev₁, hhash₁, -⟩ := linked_append.mp h₁
      obtain ⟨hm₂, hseq₂, hprev₂, hhash₂, -⟩ := linked_append.mp h₂
      rw [head_concat, head_concat] at hhead
      have hseq : e₁.seq = e₂.seq := by
        rw [hseq₁, hseq₂, hcount]
      obtain ⟨hprev, hpayload⟩ := hsep e₁ (by simp) e₂ (by simp) hseq
        (by rw [hhash₁, hhash₂, hhead])
      have hbefore : head d m₁ = head d m₂ := by
        rw [← hprev₁, ← hprev₂, hprev]
      have hm : m₁ = m₂ := ih hm₁ hm₂ hcount hbefore fun e he e' he' =>
        hsep e (mem_append_left _ he) e' (mem_append_left _ he')
      rw [hm, Entry.ext hseq hprev hhead hpayload]

theorem Linked.eq_of_payloads
    (hpayloads : l₁.map Entry.payload = l₂.map Entry.payload) : l₁ = l₂ := by
  induction l₁ generalizing n d l₂ with
  | nil => exact (map_eq_nil_iff.mp hpayloads.symm).symm
  | cons e₁ m₁ ih =>
    cases l₂ with
    | nil => cases hpayloads
    | cons e₂ m₂ =>
      obtain ⟨hpayload, hrest⟩ := cons.inj hpayloads
      obtain ⟨hseq₁, hprev₁, hhash₁, hm₁⟩ := h₁
      obtain ⟨hseq₂, hprev₂, hhash₂, hm₂⟩ := h₂
      have hseq : e₁.seq = e₂.seq := hseq₁.trans hseq₂.symm
      have hprev : e₁.prev = e₂.prev := hprev₁.trans hprev₂.symm
      have hhash : e₁.hash = e₂.hash := by
        rw [← hhash₁, ← hhash₂, hseq, hprev, hpayload]
      rw [hhash] at hm₁
      rw [Entry.ext hseq hprev hhash hpayload, ih hm₁ hm₂ hrest]

end

theorem Linked.filter_split (keep : Entry P D → Bool) {k : ℤ} (h : Linked H n d l)
    (hdropped : ∃ e ∈ l, e.seq = k ∧ keep e = false)
    (hleast : ∀ e ∈ l, keep e = false → k ≤ e.seq) :
    ∃ before after, l.filter keep = before ++ after ∧ Linked H n d before ∧
      n + before.length = k ∧ ∀ e ∈ after, k < e.seq := by
  obtain ⟨e, he, hek, hdrop⟩ := hdropped
  obtain ⟨before, after, rfl⟩ := append_of_mem he
  obtain ⟨hbefore, hseq, -, -, hafter⟩ := linked_append.mp h
  have hkept : before.filter keep = before := by
    rw [filter_eq_self]
    intro x hx
    by_contra hnot
    have hle := hleast x (mem_append_left _ hx) (by simpa using hnot)
    have hlt := (hbefore.seq_bounds hx).2
    omega
  refine ⟨before, after.filter keep, ?_, hbefore, by omega, fun x hx => ?_⟩
  · rw [filter_append, hkept, filter_cons_of_neg (by simp [hdrop])]
  · have hle := (hafter.seq_bounds (mem_of_mem_filter hx)).1
    omega

end Fornax.HashChain
