import Fornax.Lib.OrdMap
import Fornax.Lib.Fallible
import Fornax.Lib.Runs

namespace Fornax.OrdMap

open List

variable {K V W ε : Type*} [LinearOrder K]

def insertNew (m : OrdMap K V) (k : K) (v : V) : OrdMap K V :=
  if m.contains k then m else m.insert k v

theorem get?_insertNew (m : OrdMap K V) (k j : K) (v : V) :
    (m.insertNew k v).get? j = (m.get? j).or (if j = k then some v else none) := by
  unfold insertNew
  by_cases hk : m.contains k = true
  · rw [if_pos hk]
    by_cases hj : j = k
    · rw [hj]
      obtain ⟨w, hw⟩ := Option.isSome_iff_exists.mp hk
      simp [hw]
    · simp [hj]
  · rw [if_neg hk, get?_insert]
    by_cases hj : j = k
    · have hnone : m.get? k = none := by simpa [contains] using hk
      simp [hj, hnone]
    · simp [hj]

variable {m : OrdMap K V} {k : K} {f : K → V → Except ε W}
  {j : K}

theorem get?_insertNew_of_some {w : V} (h : m.get? j = some w) (k : K) (v : V) :
    (m.insertNew k v).get? j = some w := by
  rw [get?_insertNew, h]
  rfl

theorem get?_insertNew_of_ne (m : OrdMap K V) (v : V) (h : j ≠ k) :
    (m.insertNew k v).get? j = m.get? j := by
  rw [get?_insertNew, if_neg h, Option.or_none]

theorem get?_insertNew_of_none (v : V) (h : m.get? k = none) :
    (m.insertNew k v).get? k = some v := by
  rw [get?_insertNew, h, if_pos rfl]
  rfl

theorem contains_insertNew (m : OrdMap K V) (k j : K) (v : V) :
    (m.insertNew k v).contains j ↔ j = k ∨ m.contains j := by
  rw [contains, get?_insertNew]
  by_cases hj : j = k
  · cases hg : m.get? j <;> simp [hj, contains]
  · simp [hj, contains]

theorem contains_of_get? {v : V} (h : m.get? k = some v) : m.contains k := by
  rw [contains, h]
  rfl

theorem alterList_of_lt (f : Option V → V) {l : List (K × V)} (h : ∀ e ∈ l, e.1 < k) :
    alterList k f l = l ++ [(k, f none)] := by
  induction l with
  | nil => rfl
  | cons e rest ih =>
    obtain ⟨j, v⟩ := e
    have hj : j < k := h (j, v) mem_cons_self
    rw [alterList, if_neg (not_lt.mpr hj.le), if_pos hj,
      ih fun e he => h e (mem_cons_of_mem _ he), cons_append]

theorem entries_insert_of_lt (v : V) (h : ∀ e ∈ m.entries, e.1 < k) :
    (m.insert k v).entries = m.entries ++ [(k, v)] :=
  alterList_of_lt (fun _ => v) h

def update (m : OrdMap K V) (k : K) (f : V → V) : OrdMap K V :=
  match m.get? k with
  | some v => m.insert k (f v)
  | none => m

theorem get?_update (m : OrdMap K V) (k j : K) (f : V → V) :
    (m.update k f).get? j = if j = k then (m.get? k).map f else m.get? j := by
  unfold update
  cases hg : m.get? k with
  | none =>
    by_cases hj : j = k
    · simp [hj, hg]
    · simp [hj]
  | some v =>
    change (m.insert k (f v)).get? j = _
    rw [get?_insert]
    rfl

theorem get?_update_self (m : OrdMap K V) (k : K) (f : V → V) :
    (m.update k f).get? k = (m.get? k).map f := by
  rw [get?_update, if_pos rfl]

theorem contains_update (m : OrdMap K V) (k j : K) (f : V → V) :
    (m.update k f).contains j = m.contains j := by
  rw [contains, contains, get?_update]
  by_cases hj : j = k
  · simp [hj]
  · simp [hj]

theorem get?_update_cases {f : V → V} {w : V} (h : (m.update k f).get? j = some w) :
    ∃ v, m.get? j = some v ∧ (w = v ∨ j = k ∧ w = f v) := by
  rw [get?_update] at h
  by_cases hj : j = k
  · rw [if_pos hj] at h
    obtain ⟨v, hv, hw⟩ := Option.map_eq_some_iff.mp h
    exact ⟨v, hj ▸ hv, .inr ⟨hj, hw.symm⟩⟩
  · rw [if_neg hj] at h
    exact ⟨w, h, .inl rfl⟩

theorem get?_foldl_update {E : Type*} {key : E → K} (f : V → V) {l : List E}
    (hl : (l.map key).Nodup) (m : OrdMap K V) (k : K) :
    (l.foldl (fun m e => m.update (key e) f) m).get? k =
      if k ∈ l.map key then (m.get? k).map f else m.get? k := by
  rw [← foldl_map (g := fun (m : OrdMap K V) k => m.update k f)]
  exact Runs.view_foldl get? (fun _ => Option.map f) hl (fun m k _ j => get?_update m k j f) m k

def mapRows (m : OrdMap K V) (f : K → V → V) : OrdMap K V where
  entries := m.entries.map fun e => (e.1, f e.1 e.2)
  sorted := by
    rw [map_map]
    exact m.sorted

theorem get?_mapRows (m : OrdMap K V) (f : K → V → V) (k : K) :
    (m.mapRows f).get? k = (m.get? k).map (f k) := by
  have hiff : ∀ w, (m.mapRows f).get? k = some w ↔ (m.get? k).map (f k) = some w := by
    intro w
    rw [← mem_entries, Option.map_eq_some_iff]
    constructor
    · intro hmem
      obtain ⟨⟨j, v⟩, hv, heq⟩ := mem_map.mp hmem
      obtain ⟨rfl, rfl⟩ := Prod.mk.inj heq
      exact ⟨v, mem_entries.mp hv, rfl⟩
    · rintro ⟨v, hv, rfl⟩
      exact mem_map.mpr ⟨(k, v), mem_entries.mpr hv, rfl⟩
  exact Option.ext hiff

def erase (m : OrdMap K V) (k : K) : OrdMap K V where
  entries := m.entries.filter fun e => e.1 ≠ k
  sorted := m.sorted.sublist (filter_sublist.map Prod.fst)

theorem get?_erase_of_ne (m : OrdMap K V) (h : j ≠ k) : (m.erase k).get? j = m.get? j := by
  have hiff : ∀ v, (m.erase k).get? j = some v ↔ m.get? j = some v := by
    intro v
    rw [← mem_entries, ← mem_entries]
    simp [erase, h]
  exact Option.ext hiff

theorem get?_erase (m : OrdMap K V) (k j : K) :
    (m.erase k).get? j = if j = k then none else m.get? j := by
  by_cases hj : j = k
  · rw [if_pos hj, hj, Option.eq_none_iff_forall_ne_some]
    intro v hv
    have hmem := mem_entries.mpr hv
    simp [erase] at hmem
  · rw [if_neg hj, get?_erase_of_ne m hj]

theorem get?_of_get?_erase {v : V} (h : (m.erase k).get? j = some v) : m.get? j = some v := by
  rw [get?_erase] at h
  split at h
  · cases h
  · exact h

def deleteAll (m : OrdMap K V) (keys : List K) : OrdMap K V where
  entries := m.entries.filter fun e => e.1 ∉ keys
  sorted := m.sorted.sublist (filter_sublist.map Prod.fst)

def collect (f : K → V → Except ε W) (m : OrdMap K V) : Except ε (OrdMap K W) :=
  m.entries.foldlM (fun acc e => (f e.1 e.2).map fun w => acc.insert e.1 w) empty

theorem foldlM_collect_ok : ∀ {l : List (K × V)} {acc n : OrdMap K W}, (l.map Prod.fst).Nodup →
      l.foldlM (fun acc e => (f e.1 e.2).map fun w => acc.insert e.1 w) acc = .ok n →
      ∀ k w, n.get? k = some w ↔
        (∃ v, (k, v) ∈ l ∧ f k v = .ok w) ∨ (k ∉ l.map Prod.fst ∧ acc.get? k = some w) := by
  intro l
  induction l with
  | nil =>
    intro acc n _ h k w
    rw [foldlM_nil] at h
    cases h
    simp
  | cons e l ih =>
    obtain ⟨i, v⟩ := e
    intro acc n hnodup h k w
    rw [map_cons, nodup_cons] at hnodup
    rw [foldlM_cons] at h
    cases hf : f i v with
    | error err =>
      rw [hf] at h
      cases h
    | ok x =>
      rw [hf] at h
      rw [ih hnodup.2 h k w, get?_insert]
      by_cases hk : k = i
      · subst hk
        have hnot : ∀ y, (k, y) ∉ l := fun y hy => hnodup.1 (mem_map.mpr ⟨(k, y), hy, rfl⟩)
        have hkl : k ∉ l.map Prod.fst := hnodup.1
        simp [hnot, hf]
      · simp [hk]

theorem get?_collect {n : OrdMap K W} (h : m.collect f = .ok n) {w : W} :
    n.get? k = some w ↔ ∃ v, m.get? k = some v ∧ f k v = .ok w := by
  rw [foldlM_collect_ok m.nodup_keys h k w]
  simp [mem_entries]

theorem foldlM_collect_isOk {l : List (K × V)} (acc : OrdMap K W) :
    (∃ n, l.foldlM (fun acc e => (f e.1 e.2).map fun w => acc.insert e.1 w) acc = .ok n) ↔
      ∀ e ∈ l, ∃ w, f e.1 e.2 = .ok w := by
  induction l generalizing acc with
  | nil => exact iff_of_true ⟨acc, rfl⟩ nofun
  | cons e l ih =>
    rw [foldlM_cons, forall_mem_cons]
    cases f e.1 e.2 with
    | error err => exact iff_of_false (fun ⟨_, h⟩ => nomatch h) fun h => nomatch h.1
    | ok w => exact (ih (acc.insert e.1 w)).trans (and_iff_right ⟨w, rfl⟩).symm

theorem collect_isOk (h : ∀ k v, m.get? k = some v → ∃ w, f k v = .ok w) :
    ∃ n, m.collect f = .ok n :=
  (foldlM_collect_isOk empty).mpr fun e he => h e.1 e.2 (mem_entries.mp he)

theorem collect_rows {n : OrdMap K W} (h : m.collect f = .ok n) {v : V} (hk : m.get? k = some v) :
    ∃ w, f k v = .ok w :=
  (foldlM_collect_isOk empty).mp ⟨n, h⟩ (k, v) (mem_entries.mpr hk)

end Fornax.OrdMap
