import Fornax.Lib.Table

namespace Fornax.OrdMap

variable {K V : Type*} [LinearOrder K]

/-- `R` relates a row to what becomes of it, `New` says what rows come in. -/
structure Evolves (R : V → V → Prop) (New : V → Prop) (m n : OrdMap K V) : Prop where
  kept : ∀ {k v}, m.get? k = some v → ∃ w, n.get? k = some w ∧ R v w
  fresh : ∀ {k w}, m.get? k = none → n.get? k = some w → New w

namespace Evolves

variable {R : V → V → Prop} {New : V → Prop} {m n p : OrdMap K V}

theorem refl (hR : ∀ v, R v v) (m : OrdMap K V) : Evolves R New m m where
  kept hv := ⟨_, hv, hR _⟩
  fresh hnone hsome := by
    rw [hnone] at hsome
    cases hsome

theorem trans (hR : ∀ u v w, R u v → R v w → R u w) (hnew : ∀ v w, New v → R v w → New w)
    (h₁ : Evolves R New m n) (h₂ : Evolves R New n p) : Evolves R New m p where
  kept hv := by
    obtain ⟨w, hw, hvw⟩ := h₁.kept hv
    obtain ⟨x, hx, hwx⟩ := h₂.kept hw
    exact ⟨x, hx, hR _ _ _ hvw hwx⟩
  fresh {k x} hnone hx := by
    -- A row that is new at the end came in with the first part or with the second.
    cases hn : n.get? k with
    | none => exact h₂.fresh hn hx
    | some w =>
      obtain ⟨x', hx', hwx⟩ := h₂.kept hn
      obtain rfl : x' = x := Option.some.inj (hx'.symm.trans hx)
      exact hnew w x' (h₁.fresh hnone hn) hwx

theorem mono {R' : V → V → Prop} {New' : V → Prop} (hR : ∀ v w, R v w → R' v w)
    (hnew : ∀ v, New v → New' v) (h : Evolves R New m n) : Evolves R' New' m n where
  kept hv := by
    obtain ⟨w, hw, hvw⟩ := h.kept hv
    exact ⟨w, hw, hR _ _ hvw⟩
  fresh hnone hw := hnew _ (h.fresh hnone hw)

theorem back (h : Evolves R New m n) {k : K} {v w : V} (hv : m.get? k = some v)
    (hw : n.get? k = some w) : R v w := by
  obtain ⟨w', hw', hvw⟩ := h.kept hv
  obtain rfl : w' = w := Option.some.inj (hw'.symm.trans hw)
  exact hvw

theorem mapRows {f : K → V → V} (hf : ∀ k v, R v (f k v)) (m : OrdMap K V) :
    Evolves R New m (m.mapRows f) where
  kept {k v} hv := ⟨f k v, by rw [get?_mapRows, hv]; rfl, hf k v⟩
  fresh {k w} hnone hw := by
    rw [get?_mapRows, hnone] at hw
    cases hw

theorem update (hR : ∀ v, R v v) {f : V → V} (hf : ∀ v, R v (f v)) (m : OrdMap K V) (k : K) :
    Evolves R New m (m.update k f) where
  kept {j v} hv := by
    by_cases hj : j = k
    · subst hj
      exact ⟨f v, by rw [get?_update_self, hv]; rfl, hf v⟩
    · exact ⟨v, by rw [get?_update, if_neg hj, hv], hR v⟩
  fresh {j w} hnone hw := by
    obtain ⟨v, hv, -⟩ := get?_update_cases hw
    rw [hnone] at hv
    cases hv

theorem insertNew (hR : ∀ v, R v v) (m : OrdMap K V) (k : K) {v : V} (hv : New v) :
    Evolves R New m (m.insertNew k v) where
  kept hw := ⟨_, get?_insertNew_of_some hw k v, hR _⟩
  fresh {j w} hnone hw := by
    by_cases hj : j = k
    · subst hj
      rw [get?_insertNew_of_none v hnone] at hw
      exact Option.some.inj hw ▸ hv
    · rw [get?_insertNew_of_ne m v hj, hnone] at hw
      cases hw

theorem foldl {S E : Type*} (hR : ∀ v, R v v) (htrans : ∀ u v w, R u v → R v w → R u w)
    (hnew : ∀ v w, New v → R v w → New w) (table : S → OrdMap K V) {turn : S → E → S}
    {l : List E} (hturn : ∀ s, ∀ e ∈ l, Evolves R New (table s) (table (turn s e))) (s : S) :
    Evolves R New (table s) (table (l.foldl turn s)) := by
  induction l generalizing s with
  | nil => exact refl hR (table s)
  | cons e l ih =>
    exact trans htrans hnew (hturn s e List.mem_cons_self)
      (ih (fun t f hf => hturn t f (List.mem_cons_of_mem _ hf)) (turn s e))

end Evolves

end Fornax.OrdMap
