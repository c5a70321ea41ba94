import Mathlib

namespace Fornax

open List

structure OrdMap (K V : Type*) [LinearOrder K] where
  entries : List (K × V)
  sorted : (entries.map Prod.fst).Pairwise (· < ·)

namespace OrdMap

variable {K V W : Type*} [LinearOrder K]

instance [DecidableEq V] : DecidableEq (OrdMap K V) := fun m n =>
  decidable_of_iff (m.entries = n.entries) (by
    cases m
    cases n
    simp)

def lookup (k : K) : List (K × V) → Option V
  | [] => none
  | (j, v) :: rest => if j = k then some v else lookup k rest

def alterList (k : K) (f : Option V → V) : List (K × V) → List (K × V)
  | [] => [(k, f none)]
  | (j, v) :: rest =>
    if k < j then (k, f none) :: (j, v) :: rest
    else if j < k then (j, v) :: alterList k f rest
    else (k, f (some v)) :: rest

theorem mem_keys_alterList (k j : K) (f : Option V → V) (l : List (K × V)) :
    j ∈ (alterList k f l).map Prod.fst ↔ j = k ∨ j ∈ l.map Prod.fst := by
  induction l with
  | nil => simp [alterList]
  | cons e rest ih => grind [alterList]

theorem sorted_alterList (k : K) (f : Option V → V) (l : List (K × V))
    (h : (l.map Prod.fst).Pairwise (· < ·)) :
    ((alterList k f l).map Prod.fst).Pairwise (· < ·) := by
  induction l with
  | nil => simp [alterList]
  | cons e rest ih =>
    obtain ⟨i, v⟩ := e
    simp only [map_cons, pairwise_cons] at h
    simp only [alterList]
    split
    · next hk =>
      simp only [map_cons, pairwise_cons, forall_mem_cons]
      exact ⟨⟨hk, fun j hj => hk.trans (h.1 j hj)⟩, h⟩
    · split
      · next hik =>
        refine pairwise_cons.mpr ⟨fun j hj => ?_, ih h.2⟩
        rcases (mem_keys_alterList k j f rest).mp hj with rfl | hj
        · exact hik
        · exact h.1 j hj
      · next h1 h2 =>
        obtain rfl : i = k := le_antisymm (not_lt.mp h1) (not_lt.mp h2)
        exact pairwise_cons.mpr h

variable {k : K} {l : List (K × V)} {v : V} {m : OrdMap K V} {val : W → V}

theorem lookup_eq_none : lookup k l = none ↔ k ∉ l.map Prod.fst := by
  induction l with
  | nil => simp [lookup]
  | cons e rest ih => grind [lookup]

theorem lookup_alterList (k j : K) (f : Option V → V) (l : List (K × V))
    (h : (l.map Prod.fst).Pairwise (· < ·)) :
    lookup j (alterList k f l) = if j = k then some (f (lookup k l)) else lookup j l := by
  induction l with
  | nil => grind [alterList, lookup]
  | cons e rest ih =>
    obtain ⟨i, v⟩ := e
    simp only [map_cons, pairwise_cons] at h
    have hrest := ih h.2
    by_cases hk : k < i
    · -- `k` is below every key present, so the old map has no entry for it
      have hnone : lookup k ((i, v) :: rest) = none := by
        rw [lookup_eq_none, map_cons, mem_cons]
        rintro (hki | hmem)
        · exact hk.ne hki
        · exact lt_asymm hk (h.1 k hmem)
      rw [hnone]
      grind [alterList, lookup]
    · grind [alterList, lookup]

theorem mem_iff_lookup (h : (l.map Prod.fst).Nodup) : (k, v) ∈ l ↔ lookup k l = some v := by
  induction l with
  | nil => simp [lookup]
  | cons e rest ih =>
    obtain ⟨i, w⟩ := e
    obtain ⟨hi, hrest⟩ := nodup_cons.mp h
    simp only [lookup, mem_cons, Prod.mk.injEq]
    by_cases hik : i = k
    · subst hik
      have hno : (i, v) ∉ rest := fun hm => hi (mem_map.mpr ⟨_, hm, rfl⟩)
      simp [hno, eq_comm]
    · have hki : ¬ k = i := fun e => hik e.symm
      simp [hik, hki, ih hrest]

def empty : OrdMap K V := ⟨[], by simp⟩

def get? (m : OrdMap K V) (k : K) : Option V := lookup k m.entries

def contains (m : OrdMap K V) (k : K) : Bool := (m.get? k).isSome

def keys (m : OrdMap K V) : List K := m.entries.map Prod.fst

def values (m : OrdMap K V) : List V := m.entries.map Prod.snd

def size (m : OrdMap K V) : ℕ := m.entries.length

def alter (m : OrdMap K V) (k : K) (f : Option V → V) : OrdMap K V :=
  ⟨alterList k f m.entries, sorted_alterList k f m.entries m.sorted⟩

def insert (m : OrdMap K V) (k : K) (v : V) : OrdMap K V := m.alter k fun _ => v

def ofList (l : List (K × V)) : OrdMap K V :=
  l.foldl (fun m e => m.insert e.1 e.2) empty

@[simp] theorem get?_empty (k : K) : (empty : OrdMap K V).get? k = none := rfl

theorem get?_alter (m : OrdMap K V) (k j : K) (f : Option V → V) :
    (m.alter k f).get? j = if j = k then some (f (m.get? k)) else m.get? j :=
  lookup_alterList k j f m.entries m.sorted

theorem get?_insert (m : OrdMap K V) (k j : K) (v : V) :
    (m.insert k v).get? j = if j = k then some v else m.get? j :=
  get?_alter m k j _

@[simp] theorem get?_insert_self (m : OrdMap K V) (k : K) (v : V) :
    (m.insert k v).get? k = some v := by
  rw [get?_insert, if_pos rfl]

theorem get?_insert_of_ne (m : OrdMap K V) {j : K} (v : V) (h : j ≠ k) :
    (m.insert k v).get? j = m.get? j := by
  rw [get?_insert, if_neg h]

theorem get?_insert_cases {j : K} {w : V} (h : (m.insert k v).get? j = some w) :
    (j = k ∧ w = v) ∨ m.get? j = some w := by
  rw [get?_insert] at h
  split at h
  · next hj => exact .inl ⟨hj, (Option.some.inj h).symm⟩
  · exact .inr h

theorem mem_keys : k ∈ m.keys ↔ (m.get? k).isSome := by
  rw [Option.isSome_iff_ne_none, Ne, get?, lookup_eq_none, not_not]
  rfl

theorem nodup_keys (m : OrdMap K V) : m.keys.Nodup :=
  m.sorted.imp fun h => ne_of_lt h

theorem mem_entries : (k, v) ∈ m.entries ↔ m.get? k = some v :=
  mem_iff_lookup m.nodup_keys

theorem mem_values : v ∈ m.values ↔ ∃ k, m.get? k = some v := by
  simp only [values, mem_map, Prod.exists]
  constructor
  · rintro ⟨k, w, hm, rfl⟩
    exact ⟨k, mem_entries.mp hm⟩
  · rintro ⟨k, hk⟩
    exact ⟨k, v, mem_entries.mpr hk, rfl⟩

theorem ext_get? {n : OrdMap K V} (h : ∀ k, m.get? k = n.get? k) : m = n := by
  have hperm : m.entries.Perm n.entries := by
    refine (perm_ext_iff_of_nodup ?_ ?_).mpr ?_
    · exact List.Nodup.of_map Prod.fst m.nodup_keys
    · exact List.Nodup.of_map Prod.fst n.nodup_keys
    · rintro ⟨k, v⟩
      rw [mem_entries, mem_entries, h k]
  have hlt : ∀ p : OrdMap K V, p.entries.Pairwise (fun a b => a.1 < b.1) := fun p =>
    pairwise_map.mp p.sorted
  have heq : m.entries = n.entries :=
    hperm.eq_of_pairwise
      (fun a b _ _ hab hba => absurd (hab.trans hba) (lt_irrefl _)) (hlt m) (hlt n)
  cases m
  cases n
  simpa using heq

theorem ofList_concat (l : List (K × V)) (e : K × V) :
    ofList (l ++ [e]) = (ofList l).insert e.1 e.2 :=
  foldl_concat ..

theorem get?_ofList_last (l : List (K × V)) (k : K) :
    (ofList l).get? k = (l.filter fun e => e.1 = k).getLast?.map Prod.snd := by
  induction l using reverseRecOn with
  | nil => rfl
  | append_singleton l e ih =>
    rw [ofList_concat, get?_insert, filter_append]
    by_cases hk : e.1 = k
    · simp [hk]
    · have hk' : ¬ k = e.1 := fun h => hk h.symm
      simp [hk, hk', ih]

theorem contains_insert (m : OrdMap K V) (k j : K) (v : V) :
    (m.insert k v).contains j ↔ j = k ∨ m.contains j := by
  rw [contains, get?_insert]
  by_cases hj : j = k <;> simp [hj, contains]

theorem contains_ofList : (ofList l).contains k ↔ k ∈ l.map Prod.fst := by
  induction l using reverseRecOn with
  | nil => simp [ofList, contains]
  | append_singleton l e ih =>
    rw [ofList_concat, contains_insert, ih, map_append, mem_append, or_comm]
    simp

theorem mem_of_get?_ofList (h : (ofList l).get? k = some v) : (k, v) ∈ l := by
  rw [get?_ofList_last] at h
  obtain ⟨e, he, rfl⟩ := Option.map_eq_some_iff.mp h
  obtain ⟨hmem, hkey⟩ := mem_filter.mp (mem_of_getLast? he)
  exact of_decide_eq_true hkey ▸ hmem

theorem get?_ofList (hl : (l.map Prod.fst).Nodup) : (ofList l).get? k = some v ↔ (k, v) ∈ l := by
  refine ⟨mem_of_get?_ofList, fun hmem => ?_⟩
  obtain ⟨w, hw⟩ := Option.isSome_iff_exists.mp (contains_ofList.mpr (mem_map_of_mem hmem))
  cases inj_on_of_nodup_map hl (mem_of_get?_ofList hw) hmem rfl
  exact hw

theorem mem_of_get?_indexed {key : V → K} {l : List V}
    (h : (ofList (l.map fun v => (key v, v))).get? k = some v) : v ∈ l ∧ key v = k := by
  obtain ⟨w, hw, heq⟩ := mem_map.mp (mem_of_get?_ofList h)
  cases heq
  exact ⟨hw, rfl⟩

theorem get?_indexed {key : V → K} {l : List V} (hkeys : (l.map key).Nodup) :
    (ofList (l.map fun v => (key v, v))).get? k = some v ↔ v ∈ l ∧ key v = k := by
  refine ⟨mem_of_get?_indexed, ?_⟩
  rintro ⟨hmem, rfl⟩
  refine (get?_ofList ?_).mpr (mem_map.mpr ⟨v, hmem, rfl⟩)
  rwa [map_map]

theorem find?_values (key : V → K) (hkeyed : ∀ k v, m.get? k = some v → key v = k) {p : V → Bool}
    (hp : ∀ v, p v ↔ key v = k) : m.values.find? p = m.get? k := by
  cases hg : m.get? k with
  | none =>
    rw [find?_eq_none]
    intro v hv hpv
    obtain ⟨j, hj⟩ := mem_values.mp hv
    have hjk : j = k := (hkeyed j v hj).symm.trans ((hp v).mp hpv)
    rw [hjk, hg] at hj
    cases hj
  | some v =>
    have hfound : (m.values.find? p).isSome :=
      find?_isSome.mpr ⟨v, mem_values.mpr ⟨k, hg⟩, (hp v).mpr (hkeyed k v hg)⟩
    obtain ⟨w, hfind⟩ := Option.isSome_iff_exists.mp hfound
    obtain ⟨j, hj⟩ := mem_values.mp (mem_of_find?_eq_some hfind)
    have hjk : j = k := (hkeyed j w hj).symm.trans ((hp w).mp (find?_some hfind))
    rw [hfind, ← hj, hjk, hg]

def pushAt (m : OrdMap K (List V)) (k : K) (v : V) : OrdMap K (List V) :=
  m.alter k fun old => old.getD [] ++ [v]

def groupBy (key : W → Option K) (val : W → V) (l : List W) : OrdMap K (List V) :=
  l.foldl (fun m w => match key w with
    | some k => m.pushAt k (val w)
    | none => m) empty

section

variable (key : W → Option K) (val : W → V) (l : List W)

theorem groupBy_concat (w : W) : groupBy key val (l ++ [w]) = match key w with
      | some k => (groupBy key val l).pushAt k (val w)
      | none => groupBy key val l :=
  foldl_concat ..

theorem getD_groupBy (k : K) :
    ((groupBy key val l).get? k).getD [] = (l.filter fun w => key w == some k).map val := by
  induction l using reverseRecOn with
  | nil => rfl
  | append_singleton l w ih =>
    rw [groupBy_concat, filter_append, map_append, ← ih]
    cases hw : key w with
    | none => simp [hw]
    | some j =>
      simp only [pushAt, get?_alter]
      by_cases hkj : k = j
      · simp [hw, hkj]
      · simp [hw, hkj, Ne.symm hkj]

end

variable {key : W → Option K}

theorem groupBy_ne_nil {l : List W} {vs : List V} (h : (groupBy key val l).get? k = some vs) :
    vs ≠ [] := by
  induction l using reverseRecOn with
  | nil => cases h
  | append_singleton l w ih =>
    rw [groupBy_concat] at h
    split at h
    · rw [pushAt, get?_alter] at h
      split at h
      · cases h
        exact concat_ne_nil _ _
      · exact ih h
    · exact ih h

theorem get?_groupBy {l : List W} {vs : List V} : (groupBy key val l).get? k = some vs ↔
      vs = (l.filter fun w => key w == some k).map val ∧ vs ≠ [] := by
  have hget := getD_groupBy key val l k
  constructor
  · intro h
    rw [h, Option.getD_some] at hget
    exact ⟨hget, groupBy_ne_nil h⟩
  · rintro ⟨rfl, hvs⟩
    cases hg : (groupBy key val l).get? k with
    | none =>
      rw [hg, Option.getD_none] at hget
      exact absurd hget.symm hvs
    | some ws =>
      rw [hg, Option.getD_some] at hget
      rw [hget]

theorem mem_bucket {l : List W} {vs : List V} (h : (groupBy key val l).get? k = some vs) :
    v ∈ vs ↔ ∃ w ∈ l, key w = some k ∧ val w = v := by
  rw [(get?_groupBy.mp h).1]
  simp only [mem_map, mem_filter, beq_iff_eq, and_assoc]

theorem exists_bucket {l : List W} {w : W} (hw : w ∈ l) (hk : key w = some k) :
    ∃ vs, (groupBy key val l).get? k = some vs ∧ val w ∈ vs := by
  have hmem : val w ∈ (l.filter fun w => key w == some k).map val :=
    mem_map_of_mem (mem_filter.mpr ⟨hw, by simp [hk]⟩)
  exact ⟨_, get?_groupBy.mpr ⟨rfl, ne_nil_of_mem hmem⟩, hmem⟩

theorem flatMap_alterList_push (k : K) (v : V) (l : List (K × List V)) :
    ((alterList k (fun old => old.getD [] ++ [v]) l).flatMap Prod.snd).Perm
      (l.flatMap Prod.snd ++ [v]) := by
  induction l with
  | nil => exact List.Perm.refl _
  | cons e rest ih =>
    obtain ⟨j, vs⟩ := e
    simp only [alterList]
    split
    · exact perm_append_comm
    · split
      · simp only [flatMap_cons, append_assoc]
        exact ih.append_left vs
      · simp only [flatMap_cons, Option.getD_some, append_assoc]
        exact perm_append_comm.append_left vs

theorem groupBy_perm (key : W → Option K) (l : List W) :
    ((groupBy key id l).entries.flatMap Prod.snd ++ l.filter fun w => (key w).isNone).Perm l := by
  induction l using reverseRecOn with
  | nil => exact List.Perm.refl _
  | append_singleton l w ih =>
    rw [groupBy_concat, filter_append]
    cases hw : key w with
    | none =>
      rw [← append_assoc, filter_singleton, hw]
      exact ih.append_right [w]
    | some k =>
      rw [filter_singleton, hw, Option.isNone_some, cond_false, append_nil]
      refine ((flatMap_alterList_push k w _).append_right _).trans ?_
      rw [append_assoc]
      refine (perm_append_comm.append_left _).trans ?_
      rw [← append_assoc]
      exact ih.append_right [w]

theorem flatMap_groupBy_perm {X : Type*} (key : W → Option K) (f : K → W → List X) (l : List W) :
    ((groupBy key id l).entries.flatMap fun b => b.2.flatMap (f b.1)).Perm
      (l.flatMap fun w => (key w).toList.flatMap fun k => f k w) := by
  have hbucket : ∀ b ∈ (groupBy key id l).entries, b.2.flatMap (f b.1) =
      b.2.flatMap fun w => (key w).toList.flatMap fun k => f k w := by
    intro b hb
    refine flatMap_congr fun w hw => ?_
    obtain ⟨w', _, hkey, rfl⟩ := (mem_bucket (mem_entries.mp hb)).mp hw
    rw [id, hkey, Option.toList_some, flatMap_singleton]
  have hkeyless : (l.filter fun w => (key w).isNone).flatMap
      (fun w => (key w).toList.flatMap fun k => f k w) = [] := by
    refine flatMap_eq_nil_iff.mpr fun w hw => ?_
    rw [Option.isNone_iff_eq_none.mp (mem_filter.mp hw).2]
    rfl
  rw [flatMap_congr hbucket, ← flatMap_assoc]
  have hperm := (groupBy_perm key l).flatMap_right fun w => (key w).toList.flatMap fun k => f k w
  rwa [flatMap_append, hkeyless, append_nil] at hperm

theorem exists_representative (key : W → Option K) (rep : K × List W → Option W) (P : W → Prop)
    (hmem : ∀ b x, rep b = some x → x ∈ b.2) (hsome : ∀ b, b.2 ≠ [] → (rep b).isSome)
    (hP : ∀ a b k, key a = some k → key b = some k → P a → P b) (l : List W) :
    ((∃ x ∈ (groupBy key id l).entries.filterMap rep, P x) ∨
      ∃ x ∈ l.filter fun a => (key a).isNone, P x) ↔ ∃ x ∈ l, P x := by
  constructor
  · rintro (⟨x, hx, hPx⟩ | ⟨x, hx, hPx⟩)
    · obtain ⟨⟨k, vs⟩, hb, hrep⟩ := mem_filterMap.mp hx
      obtain ⟨w, hw, -, hwx⟩ := (mem_bucket (mem_entries.mp hb)).mp (hmem _ _ hrep)
      exact ⟨x, hwx ▸ hw, hPx⟩
    · exact ⟨x, (mem_filter.mp hx).1, hPx⟩
  · rintro ⟨x, hx, hPx⟩
    cases hk : key x with
    | none => exact .inr ⟨x, mem_filter.mpr ⟨hx, by rw [hk]; rfl⟩, hPx⟩
    | some k =>
      have hbucket : ∃ vs, (groupBy key id l).get? k = some vs ∧ id x ∈ vs := exists_bucket hx hk
      obtain ⟨vs, hget, hxv⟩ := hbucket
      obtain ⟨y, hy⟩ := Option.isSome_iff_exists.mp (hsome (k, vs) (ne_nil_of_mem hxv))
      obtain ⟨w, -, hkw, hwy⟩ := (mem_bucket hget).mp (hmem _ _ hy)
      refine Or.inl ⟨y, mem_filterMap.mpr ⟨(k, vs), mem_entries.mpr hget, hy⟩, ?_⟩
      exact hP x y k hk (hwy ▸ hkw) hPx

end OrdMap

abbrev OrdSet (K : Type*) [LinearOrder K] := OrdMap K Unit

namespace OrdSet

variable {K : Type*} [LinearOrder K]

def empty : OrdSet K := OrdMap.empty

def add (s : OrdSet K) (k : K) : OrdSet K := OrdMap.insert s k ()

def addAll (s : OrdSet K) (l : List K) : OrdSet K := l.foldl add s

def ofList (l : List K) : OrdSet K := addAll empty l

def toList (s : OrdSet K) : List K := OrdMap.keys s

theorem mem_toList {s : OrdSet K} {k : K} : k ∈ s.toList ↔ s.contains k :=
  OrdMap.mem_keys

@[simp] theorem contains_empty (k : K) : (empty : OrdSet K).contains k = false := rfl

theorem contains_add (s : OrdSet K) (k j : K) : (s.add k).contains j ↔ j = k ∨ s.contains j :=
  OrdMap.contains_insert s k j ()

theorem contains_addAll (s : OrdSet K) (l : List K) (j : K) :
    (s.addAll l).contains j ↔ j ∈ l ∨ s.contains j := by
  induction l generalizing s with
  | nil => simp [addAll]
  | cons k rest ih =>
    have hstep : s.addAll (k :: rest) = (s.add k).addAll rest := rfl
    rw [hstep, ih, contains_add, mem_cons]
    tauto

theorem contains_ofList {l : List K} {j : K} : (ofList l).contains j ↔ j ∈ l := by
  rw [ofList, contains_addAll]
  simp

theorem contains_foldl_enter {E B : Type*} [LinearOrder B] (key : E → K) (elem : E → B) (l : List E)
    (m : OrdMap K (OrdSet B)) (k : K) (b : B) :
    (((l.foldl (fun m e => m.alter (key e) fun old => (old.getD empty).add (elem e)) m).get?
      k).getD empty).contains b ↔
      (∃ e ∈ l, k = key e ∧ b = elem e) ∨ ((m.get? k).getD empty).contains b := by
  induction l generalizing m with
  | nil => simp
  | cons e l ih =>
    rw [foldl_cons, ih, OrdMap.get?_alter]
    by_cases hk : k = key e
    · simp only [hk, eq_self, if_true, Option.getD_some, contains_add, exists_mem_cons_iff,
        true_and]
      exact or_left_comm.trans or_assoc.symm
    · simp [hk]

theorem ext_contains {s t : OrdSet K} (h : ∀ k, s.contains k ↔ t.contains k) : s = t := by
  apply OrdMap.ext_get?
  intro k
  have hk := h k
  cases hs : s.get? k <;> cases ht : t.get? k <;> simp_all [OrdMap.contains]

def union (s t : OrdSet K) : OrdSet K := s.addAll t.toList

def inter (s t : OrdSet K) : OrdSet K := ofList (s.toList.filter fun k => t.contains k)

def subset (s t : OrdSet K) : Bool := s.toList.all fun k => t.contains k

theorem contains_union (s t : OrdSet K) (k : K) :
    (s.union t).contains k ↔ s.contains k ∨ t.contains k := by
  rw [union, contains_addAll, mem_toList, or_comm]

theorem contains_inter (s t : OrdSet K) (k : K) :
    (s.inter t).contains k ↔ s.contains k ∧ t.contains k := by
  rw [inter, contains_ofList, mem_filter, mem_toList]

theorem subset_iff {s t : OrdSet K} : s.subset t ↔ ∀ k, s.contains k → t.contains k := by
  simp only [subset, all_eq_true, mem_toList]

theorem inter_comm (s t : OrdSet K) : s.inter t = t.inter s := by
  apply ext_contains
  intro k
  rw [contains_inter, contains_inter, and_comm]

theorem inter_right_comm (x s t : OrdSet K) : (x.inter s).inter t = (x.inter t).inter s := by
  apply ext_contains
  intro k
  simp only [contains_inter]
  tauto

theorem union_comm (s t : OrdSet K) : s.union t = t.union s := by
  apply ext_contains
  intro k
  rw [contains_union, contains_union, or_comm]

theorem union_right_comm (x s t : OrdSet K) : (x.union s).union t = (x.union t).union s := by
  apply ext_contains
  intro k
  simp only [contains_union]
  tauto

end OrdSet

end Fornax
