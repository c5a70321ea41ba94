import Mathlib

namespace Fornax.Metered

variable {α β γ : Type}

def charge (cap limit work : ℕ) : Except ℕ ℕ :=
  if min (work + 1) cap > limit then .error (min (work + 1) cap) else .ok (min (work + 1) cap)

/-- `run` charges `n` units and returns `a` unless the limit stops it. -/
structure Meters (cap limit : ℕ) (run : ℕ → Except ℕ (α × ℕ)) (n : ℕ) (a : α) : Prop where
  limited : limit < cap → ∀ work ≤ limit,
    run work = if work + n ≤ limit then .ok (a, work + n) else .error (limit + 1)
  unlimited : cap ≤ limit → ∀ work, ∃ w, run work = .ok (a, w)

variable {cap limit : ℕ}

theorem Meters.done (a : α) : Meters cap limit (fun work => .ok (a, work)) 0 a where
  limited := fun _ work hw => by rw [Nat.add_zero, if_pos hw]
  unlimited := fun _ work => ⟨work, rfl⟩

theorem Meters.charge (cap limit : ℕ) (a : α) :
    Meters cap limit (fun work => (charge cap limit work).map (a, ·)) 1 a where
  limited := by
    intro hlimit work hw
    have hmin : min (work + 1) cap = work + 1 := min_eq_left (by omega)
    unfold Metered.charge
    rw [hmin]
    by_cases h : work + 1 ≤ limit
    · rw [if_neg (not_lt.mpr h), if_pos h]
      rfl
    · have hover : work + 1 = limit + 1 := by omega
      rw [if_pos (not_le.mp h), if_neg h, hover]
      rfl
  unlimited := by
    intro hcap work
    refine ⟨min (work + 1) cap, ?_⟩
    have hle : ¬ min (work + 1) cap > limit := not_lt.mpr ((min_le_right _ _).trans hcap)
    unfold Metered.charge
    rw [if_neg hle]
    rfl

variable {run : ℕ → Except ℕ (α × ℕ)}

theorem Meters.andThen {n m : ℕ} {a : α} {b : β} (hrun : Meters cap limit run n a)
    (next : α × ℕ → Except ℕ (β × ℕ)) (hnext : Meters cap limit (fun work => next (a, work)) m b) :
    Meters cap limit (fun work => run work >>= next) (n + m) b where
  limited := by
    intro hlimit work hw
    have hfirst := hrun.limited hlimit work hw
    simp only [hfirst]
    by_cases hn : work + n ≤ limit
    · rw [if_pos hn]
      change next (a, work + n) = _
      have hsecond := hnext.limited hlimit (work + n) hn
      simp only [hsecond, Nat.add_assoc]
    · have hnm : ¬ work + (n + m) ≤ limit := by omega
      rw [if_neg hn, if_neg hnm]
      rfl
  unlimited := by
    intro hcap work
    obtain ⟨w, hw⟩ := hrun.unlimited hcap work
    obtain ⟨v, hv⟩ := hnext.unlimited hcap w
    refine ⟨v, ?_⟩
    simp only [hw]
    exact hv

theorem Meters.congr {run' : ℕ → Except ℕ (α × ℕ)} {n m : ℕ} {a b : α}
    (h : Meters cap limit run n a) (hrun : ∀ work, run' work = run work) (hn : n = m) (ha : a = b) :
    Meters cap limit run' m b := by
  subst hn
  subst ha
  rw [show run' = run from funext hrun]
  exact h

theorem Meters.loop (step : γ → α × ℕ → Except ℕ (α × ℕ)) {cost : γ → ℕ} {next : α → γ → α}
    (hstep : ∀ a c, Meters cap limit (fun work => step c (a, work)) (cost c) (next a c))
    (run : α × ℕ → List γ → Except ℕ (α × ℕ)) (hnil : ∀ st, run st [] = .ok st)
    (hcons : ∀ st c l, run st (c :: l) = step c st >>= fun st => run st l) (l : List γ) (a : α) :
    Meters cap limit (fun work => run (a, work) l) (l.map cost).sum (l.foldl next a) := by
  induction l generalizing a with
  | nil => exact (Meters.done a).congr (fun work => hnil (a, work)) rfl rfl
  | cons c l ih =>
    exact ((hstep a c).andThen _ (ih (next a c))).congr (fun work => hcons (a, work) c l) rfl rfl

theorem Meters.from_zero {n : ℕ} {a : α} (h : Meters cap limit run n a) : (run 0).map Prod.fst =
      if n ≤ limit ∨ cap ≤ limit then .ok a else .error (limit + 1) := by
  by_cases hcap : cap ≤ limit
  · obtain ⟨w, hw⟩ := h.unlimited hcap 0
    rw [hw, if_pos (Or.inr hcap)]
    rfl
  · have hrun := h.limited (not_le.mp hcap) 0 (Nat.zero_le _)
    rw [hrun, Nat.zero_add]
    by_cases hn : n ≤ limit
    · rw [if_pos hn, if_pos (Or.inl hn)]
      rfl
    · rw [if_neg hn, if_neg (not_or.mpr ⟨hn, hcap⟩)]
      rfl

end Fornax.Metered
