import Mathlib

namespace Fornax.Runs

open List

variable {S A : Type*} (step : S → A → S)

def run (s : S) (ops : List A) : S := ops.foldl step s

theorem run_append (s : S) (before after : List A) :
    run step s (before ++ after) = run step (run step s before) after :=
  foldl_append

def Along (cond : S → A → Prop) (s : S) (ops : List A) : Prop :=
  ∀ before op after, ops = before ++ op :: after → cond (run step s before) op

variable {step}

theorem along_nil (cond : S → A → Prop) (s : S) : Along step cond s [] := by
  intro before op after hsplit
  cases before <;> cases hsplit

variable {cond : S → A → Prop} {s : S} {ops before : List A} {P : S → Prop}

theorem along_cons {op : A} (hop : cond s op) (hops : Along step cond (step s op) ops) :
    Along step cond s (op :: ops) := by
  intro before op' after hsplit
  cases before with
  | nil =>
    cases hsplit
    exact hop
  | cons first before =>
    cases hsplit
    exact hops before op' after rfl

def checkAlong (step : S → A → S) (cond : S → A → Bool) : S → List A → Bool
  | _, [] => true
  | s, op :: ops => cond s op && checkAlong step cond (step s op) ops

theorem along_of_check {cond : S → A → Bool} (h : checkAlong step cond s ops) :
    Along step (fun s op => cond s op = true) s ops := by
  induction ops generalizing s with
  | nil => exact along_nil _ s
  | cons op ops ih =>
    rw [checkAlong, Bool.and_eq_true] at h
    exact along_cons h.1 (ih h.2)

theorem Along.append_left {after : List A} (h : Along step cond s (before ++ after)) :
    Along step cond s before := by
  intro l op r hsplit
  refine h l op (r ++ after) ?_
  rw [hsplit, append_assoc, cons_append]

theorem Along.and {cond' : S → A → Prop} (h : Along step cond s ops) (h' : Along step cond' s ops) :
    Along step (fun s op => cond s op ∧ cond' s op) s ops :=
  fun before op after hsplit => ⟨h before op after hsplit, h' before op after hsplit⟩

theorem Along.last {op : A} (h : Along step cond s (before ++ [op])) :
    cond (run step s before) op :=
  h before op [] rfl

theorem run_invariant (hinit : P s) (hstep : ∀ t op, P t → cond t op → P (step t op))
    (hops : Along step cond s ops) : P (run step s ops) := by
  induction ops using reverseRecOn with
  | nil => exact hinit
  | append_singleton before op ih =>
    rw [run_append]
    exact hstep _ op (ih hops.append_left) hops.last

theorem run_always (hinit : P s) (hstep : ∀ t op, P t → P (step t op)) (ops : List A) :
    P (run step s ops) := by
  have hall : Along step (fun _ _ => True) s ops := fun _ _ _ _ => trivial
  exact run_invariant hinit (fun t op h _ => hstep t op h) hall

theorem run_related {R : S → S → Prop} (hrefl : ∀ s, R s s)
    (htrans : ∀ s t u, R s t → R t u → R s u) (hstep : ∀ s op, R s (step s op)) (s : S)
    (ops : List A) : R s (run step s ops) := by
  induction ops using reverseRecOn with
  | nil => exact hrefl s
  | append_singleton before op ih =>
    rw [run_append]
    exact htrans _ _ _ ih (hstep _ op)

theorem view_foldl {K E : Type*} [DecidableEq K] {step : S → K → S} (view : S → K → E)
    (change : K → E → E) {keys : List K} (hkeys : keys.Nodup)
    (hstep : ∀ s, ∀ k ∈ keys, ∀ j,
      view (step s k) j = if j = k then change k (view s k) else view s j) (s : S) (k : K) :
    view (keys.foldl step s) k = if k ∈ keys then change k (view s k) else view s k := by
  induction keys generalizing s with
  | nil => simp
  | cons first keys ih =>
    obtain ⟨hfirst, hkeys⟩ := nodup_cons.mp hkeys
    rw [foldl_cons, ih hkeys fun s j hj => hstep s j (mem_cons_of_mem _ hj),
      hstep s first mem_cons_self]
    by_cases hk : k = first
    · rw [hk, if_neg hfirst, if_pos rfl, if_pos mem_cons_self]
    · simp only [mem_cons, hk, false_or, if_false]

theorem exists_leaving_step (hstart : P s) (hend : ¬ P (run step s ops)) :
    ∃ before op after, ops = before ++ op :: after ∧ P (run step s before) ∧
      ¬ P (step (run step s before) op) := by
  induction ops generalizing s with
  | nil => exact absurd hstart hend
  | cons op ops ih =>
    by_cases hstep : P (step s op)
    · obtain ⟨before, op', after, hsplit, hbefore, hleave⟩ := ih hstep hend
      refine ⟨op :: before, op', after, ?_, hbefore, hleave⟩
      rw [hsplit, cons_append]
    · exact ⟨[], op, ops, rfl, hstart, hstep⟩

theorem Along.append_right {after : List A} (h : Along step cond s (before ++ after)) :
    Along step cond (run step s before) after := by
  intro l op r hsplit
  have hsplit' : before ++ after = before ++ l ++ op :: r := by rw [hsplit, append_assoc]
  have hcond := h (before ++ l) op r hsplit'
  rwa [run_append] at hcond

def outputs {O : Type*} (step : S → A → S) (out : S → A → List O) : S → List A → List O
  | _, [] => []
  | s, op :: ops => out s op ++ outputs step out (step s op) ops

theorem outputs_concat {O : Type*} (out : S → A → List O) (s : S) (ops : List A) (op : A) :
    outputs step out s (ops ++ [op]) = outputs step out s ops ++ out (run step s ops) op := by
  induction ops generalizing s with
  | nil => simp [outputs, run]
  | cons first ops ih =>
    rw [cons_append, outputs, outputs, ih, append_assoc]
    rfl

theorem outputs_invariant {O : Type*} {out : S → A → List O} {P : S → List O → Prop}
    (hinit : P s []) (hstep : ∀ t op done, P t done → P (step t op) (done ++ out t op))
    (ops : List A) : P (run step s ops) (outputs step out s ops) := by
  induction ops using reverseRecOn with
  | nil => exact hinit
  | append_singleton before op ih =>
    rw [run_append, outputs_concat]
    exact hstep _ op _ ih

end Fornax.Runs
