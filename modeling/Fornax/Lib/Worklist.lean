import Fornax.Lib.OrdMap

namespace Fornax.Worklist

open List OrdSet Relation

variable {α : Type*} [LinearOrder α]

/-- Pop, skip what was visited, otherwise record and push the successors. The head is the top of the
stack. -/
def explore (succ : α → List α) : ℕ → List α → OrdSet α → OrdSet α → OrdSet α
  | 0, _, _, found => found
  | _ + 1, [], _, found => found
  | fuel + 1, cur :: stack, visited, found =>
    if visited.contains cur then explore succ fuel stack visited found
    else explore succ fuel ((succ cur).reverse ++ stack) (visited.add cur)
      (found.addAll (succ cur))

/-- The loop comes from this stack to the empty one with the result. -/
inductive Drains (succ : α → List α) : List α → OrdSet α → OrdSet α → OrdSet α → Prop
  | done (visited found : OrdSet α) : Drains succ [] visited found found
  | skip {cur : α} {stack : List α} {visited found result : OrdSet α}
      (hcur : visited.contains cur = true) (hrest : Drains succ stack visited found result) :
      Drains succ (cur :: stack) visited found result
  | expand {cur : α} {stack : List α} {visited found result : OrdSet α}
      (hcur : visited.contains cur = false)
      (hrest : Drains succ ((succ cur).reverse ++ stack) (visited.add cur)
        (found.addAll (succ cur)) result) :
      Drains succ (cur :: stack) visited found result

def exploreWork (succ : α → List α) : ℕ → List α → OrdSet α → ℕ
  | 0, _, _ => 0
  | _ + 1, [], _ => 0
  | fuel + 1, cur :: stack, visited =>
    if visited.contains cur then exploreWork succ fuel stack visited
    else (succ cur).length +
      exploreWork succ fuel ((succ cur).reverse ++ stack) (visited.add cur)

def pending (succ : α → List α) (nodes : List α) (visited : OrdSet α) : ℕ :=
  ((nodes.filter fun x => !visited.contains x).map fun x => (succ x).length).sum

def fuelFor (succ : α → List α) (nodes : List α) : ℕ :=
  1 + (nodes.map fun x => (succ x).length).sum

theorem pending_add (succ : α → List α) (nodes : List α) (visited : OrdSet α) (x : α)
    (hx : visited.contains x = false) (hnd : nodes.Nodup) :
    pending succ nodes (visited.add x) + (if x ∈ nodes then (succ x).length else 0) =
      pending succ nodes visited := by
  induction nodes with
  | nil => rfl
  | cons y rest ih =>
    have hnd' := nodup_cons.mp hnd
    have hrest := ih hnd'.2
    unfold pending at hrest ⊢
    by_cases hyx : y = x
    · subst hyx
      have hadd : (visited.add y).contains y := (contains_add _ _ _).mpr (Or.inl rfl)
      have hnot : y ∉ rest := hnd'.1
      simp only [filter_cons, hadd, hx, Bool.not_true, Bool.not_false, if_true,
        map_cons, sum_cons, mem_cons, true_or, Bool.false_eq_true, if_false]
      simp only [hnot, if_false] at hrest
      omega
    · have hsame : (visited.add x).contains y = visited.contains y := by
        have h := contains_add visited x y
        simp only [hyx, false_or] at h
        exact Bool.eq_iff_iff.mpr h
      have hxy : ¬ x = y := fun e => hyx e.symm
      simp only [filter_cons, hsame, mem_cons, hxy, false_or]
      split
      · simp only [map_cons, sum_cons]
        omega
      · exact hrest

theorem pending_expand {succ : α → List α} {nodes : List α} (hnd : nodes.Nodup)
    (hout : ∀ x, x ∉ nodes → succ x = []) {visited : OrdSet α} {x : α}
    (hx : visited.contains x = false) :
    pending succ nodes (visited.add x) + (succ x).length = pending succ nodes visited := by
  rw [← pending_add succ nodes visited x hx hnd]
  split
  · rfl
  · next hmem => rw [hout x hmem, length_nil]

theorem pending_empty (succ : α → List α) (nodes : List α) :
    pending succ nodes empty = (nodes.map fun x => (succ x).length).sum := by
  simp [pending]

/-- Everything found or stacked is reachable, the visited part is closed but for what is stacked,
and the start is accounted for. -/
structure Invariant (succ : α → List α) (start : α) (stack : List α)
    (visited found : OrdSet α) : Prop where
  found_sound : ∀ y, found.contains y = true → TransGen (fun a b => b ∈ succ a) start y
  stack_sound : ∀ y ∈ stack, ReflTransGen (fun a b => b ∈ succ a) start y
  closed : ∀ x, visited.contains x = true → ∀ y ∈ succ x,
    found.contains y = true ∧ (visited.contains y = true ∨ y ∈ stack)
  start_seen : visited.contains start = true ∨ start ∈ stack

section Traversal

variable {succ : α → List α} {visited found : OrdSet α} {start cur : α} {stack : List α}

theorem Invariant.skip (h : Invariant succ start (cur :: stack) visited found)
    (hcur : visited.contains cur) : Invariant succ start stack visited found := by
  have hpop (y : α) (hy : visited.contains y = true ∨ y ∈ cur :: stack) :
      visited.contains y = true ∨ y ∈ stack := by
    rcases hy with hy | hy
    · exact .inl hy
    · rcases mem_cons.mp hy with rfl | hy
      · exact .inl hcur
      · exact .inr hy
  refine ⟨h.found_sound, fun y hy => h.stack_sound y (mem_cons_of_mem _ hy), ?_,
    hpop start h.start_seen⟩
  exact fun x hx y hy => (h.closed x hx y hy).imp_right (hpop y)

theorem Invariant.expand (h : Invariant succ start (cur :: stack) visited found) :
    Invariant succ start ((succ cur).reverse ++ stack) (visited.add cur)
      (found.addAll (succ cur)) := by
  have hpush (y : α) (hy : visited.contains y = true ∨ y ∈ cur :: stack) :
      (visited.add cur).contains y = true ∨ y ∈ (succ cur).reverse ++ stack := by
    rw [contains_add, mem_append]
    rcases hy with hy | hy
    · exact .inl (.inr hy)
    · exact (mem_cons.mp hy).imp Or.inl Or.inr
  have hcur := h.stack_sound cur mem_cons_self
  refine ⟨fun y hy => ?_, fun y hy => ?_, fun x hx y hy => ?_, hpush start h.start_seen⟩
  · rcases (contains_addAll _ _ _).mp hy with hy | hy
    · exact TransGen.tail' hcur hy
    · exact h.found_sound y hy
  · rcases mem_append.mp hy with hy | hy
    · exact hcur.tail (mem_reverse.mp hy)
    · exact h.stack_sound y (mem_cons_of_mem _ hy)
  · rw [contains_addAll]
    rcases (contains_add _ _ _).mp hx with rfl | hx
    · exact ⟨Or.inl hy, Or.inr (mem_append_left _ (mem_reverse.mpr hy))⟩
    · exact (h.closed x hx y hy).imp Or.inr (hpush y)

theorem Invariant.visited_of_reachable (h : Invariant succ start [] visited found)
    {z : α} (hz : ReflTransGen (fun a b => b ∈ succ a) start z) : visited.contains z := by
  induction hz with
  | refl => simpa using h.start_seen
  | tail _ hstep ih => simpa using (h.closed _ ih _ hstep).2

theorem Invariant.complete (h : Invariant succ start [] visited found) (y : α) :
    found.contains y ↔ TransGen (fun a b => b ∈ succ a) start y := by
  refine ⟨h.found_sound y, ?_⟩
  intro hy
  obtain ⟨z, hz, hstep⟩ := TransGen.tail'_iff.mp hy
  exact (h.closed z (h.visited_of_reachable hz) y hstep).1

theorem explore_drained {nodes : List α} (hnd : nodes.Nodup) (hout : ∀ x, x ∉ nodes → succ x = [])
    (fuel : ℕ) (h : Invariant succ start stack visited found) (hvis : ∀ x, visited.contains x →
      ReflTransGen (fun a b => b ∈ succ a) start x)
    (hfuel : stack.length + pending succ nodes visited ≤ fuel) :
    Drains succ stack visited found (explore succ fuel stack visited found) ∧
    ∃ last, Invariant succ start [] last (explore succ fuel stack visited found) ∧
      (∀ x, last.contains x → ReflTransGen (fun a b => b ∈ succ a) start x) ∧
      exploreWork succ fuel stack visited + pending succ nodes last =
        pending succ nodes visited := by
  induction fuel generalizing stack visited found with
  | zero =>
    have hnil : stack = [] := length_eq_zero_iff.mp (by omega)
    subst hnil
    exact ⟨.done _ _, visited, h, hvis, Nat.zero_add _⟩
  | succ fuel ih =>
    cases stack with
    | nil => exact ⟨.done _ _, visited, h, hvis, Nat.zero_add _⟩
    | cons cur stack =>
      rw [explore, exploreWork]
      simp only [length_cons] at hfuel
      split
      · next hcur => exact (ih (h.skip hcur) hvis (by omega)).imp_left (.skip hcur)
      · next hcur =>
        -- expanding trades the pop against the successors no longer pending
        have hnew := Bool.eq_false_of_not_eq_true hcur
        have hpend := pending_expand hnd hout hnew
        have hvis' (x : α) (hx : (visited.add cur).contains x = true) :
            ReflTransGen (fun a b => b ∈ succ a) start x := by
          rcases (contains_add _ _ _).mp hx with rfl | hx
          · exact h.stack_sound x mem_cons_self
          · exact hvis x hx
        obtain ⟨hdrains, last, hlast, hsound, hwork⟩ := ih h.expand hvis' (by
          simp only [length_append, length_reverse]
          omega)
        exact ⟨.expand hnew hdrains, last, hlast, hsound, by omega⟩

end Traversal

theorem Invariant.initial (succ : α → List α) (start : α) :
    Invariant succ start [start] empty empty where
  found_sound := by simp
  stack_sound := by
    intro y hy
    rw [mem_singleton.mp hy]
  closed := by simp
  start_seen := Or.inr (mem_singleton.mpr rfl)

def reached (succ : α → List α) (nodes : List α) (start : α) : OrdSet α :=
  explore succ (fuelFor succ nodes) [start] empty empty

def edgesFrom (succ : α → List α) (nodes : List α) (start : α) : ℕ :=
  ((nodes.filter fun x => x = start ∨ (reached succ nodes start).contains x = true).map
    fun x => (succ x).length).sum

def edgesOutside (succ : α → List α) (nodes : List α) (start : α) : ℕ :=
  ((nodes.filter fun x => ¬ (x = start ∨ (reached succ nodes start).contains x = true)).map
    fun x => (succ x).length).sum

theorem edgesFrom_add_outside (succ : α → List α) (nodes : List α) (start : α) :
    edgesFrom succ nodes start + edgesOutside succ nodes start =
      (nodes.map fun x => (succ x).length).sum := by
  have hperm := filter_append_perm
    (fun x => decide (x = start ∨ (reached succ nodes start).contains x = true)) nodes
  have hsum := (hperm.map fun x => (succ x).length).sum_eq
  rw [map_append, sum_append] at hsum
  rw [← hsum, edgesFrom, edgesOutside]
  simp only [decide_not]

section Reached

variable {succ : α → List α} {nodes : List α} (hnd : nodes.Nodup)
  (hout : ∀ x, x ∉ nodes → succ x = [])

include hnd hout

theorem reached_drained (start : α) :
    Drains succ [start] empty empty (reached succ nodes start) ∧
    ∃ last, Invariant succ start [] last (reached succ nodes start) ∧
      (∀ x, last.contains x → ReflTransGen (fun a b => b ∈ succ a) start x) ∧
      exploreWork succ (fuelFor succ nodes) [start] empty + pending succ nodes last =
        pending succ nodes empty :=
  explore_drained hnd hout _ (Invariant.initial succ start) (by simp)
    (by rw [pending_empty, fuelFor, length_singleton])

theorem contains_reached (start y : α) :
    (reached succ nodes start).contains y ↔ TransGen (fun a b => b ∈ succ a) start y := by
  obtain ⟨-, last, hlast, -⟩ := reached_drained hnd hout start
  exact hlast.complete y

theorem pending_of_empty {start : α} {visited found : OrdSet α}
    (h : Invariant succ start [] visited found)
    (hvis : ∀ x, visited.contains x → ReflTransGen (fun a b => b ∈ succ a) start x) :
    pending succ nodes visited = edgesOutside succ nodes start := by
  have hiff : ∀ x, visited.contains x = true ↔
      (x = start ∨ (reached succ nodes start).contains x = true) := by
    intro x
    rw [contains_reached hnd hout, ← h.complete x]
    rw [h.complete, ← reflTransGen_iff_eq_or_transGen]
    exact ⟨hvis x, h.visited_of_reachable⟩
  unfold pending edgesOutside
  congr 2
  apply filter_congr
  intro x _
  rw [Bool.eq_iff_iff, Bool.not_eq_true', decide_eq_true_iff, ← hiff x, Bool.not_eq_true]

theorem exploreWork_eq (start : α) :
    exploreWork succ (fuelFor succ nodes) [start] empty = edgesFrom succ nodes start := by
  have hall := pending_empty succ nodes
  obtain ⟨-, last, hlast, hsound, hwork⟩ := reached_drained hnd hout start
  have hsplit := edgesFrom_add_outside succ nodes start
  rw [pending_of_empty hnd hout hlast hsound] at hwork
  omega

end Reached

theorem transGen_avoid_start {β : Type*} (r : β → β → Prop) (s y : β) :
    TransGen (fun a b => r a b ∧ b ≠ s) s y ↔ y ≠ s ∧ TransGen r s y := by
  constructor
  · intro h
    refine ⟨?_, TransGen.mono (fun _ _ hab => hab.1) _ _ h⟩
    cases h with
    | single h => exact h.2
    | tail _ h => exact h.2
  · intro ⟨hy, h⟩
    induction h with
    | single h => exact .single ⟨h, hy⟩
    | tail hsb hbc ih =>
      rename_i b c
      by_cases hb : b = s
      · subst hb
        exact .single ⟨hbc, hy⟩
      · exact (ih hb).tail ⟨hbc, hy⟩

end Fornax.Worklist
