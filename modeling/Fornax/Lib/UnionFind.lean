import Fornax.Lib.OrdMap

namespace Fornax

open List OrdMap Relation

/-- Parent map of a union-find forest. An element without entry is its own root. -/
structure Forest (α : Type*) [LinearOrder α] where
  parent : OrdMap α α
  parent_le : ∀ x p, parent.get? x = some p → p ≤ x

namespace Forest

variable {α : Type*} [LinearOrder α]

def par (m : OrdMap α α) (x : α) : α := (m.get? x).getD x

theorem par_insert (m : OrdMap α α) (c r x : α) :
    par (m.insert c r) x = if x = c then r else par m x := by
  simp only [par, get?_insert]
  split <;> simp

theorem par_le (f : Forest α) (x : α) : par f.parent x ≤ x := by
  unfold par
  cases h : f.parent.get? x with
  | none => simp
  | some p => simpa using f.parent_le x p h

def redirect (f : Forest α) (c r : α) (h : r ≤ c) : Forest α where
  parent := f.parent.insert c r
  parent_le := by
    intro x p hx
    rw [get?_insert] at hx
    split at hx
    · rename_i hxc
      rw [hxc, ← Option.some.inj hx]
      exact h
    · exact f.parent_le x p hx

inductive Rooted (m : OrdMap α α) : α → α → Prop
  | root {x : α} : par m x = x → Rooted m x x
  | step {x r : α} : par m x ≠ x → Rooted m (par m x) r → Rooted m x r

variable {m : OrdMap α α} {x r : α} (f : Forest α)

theorem par_redirect {c r : α} (h : r ≤ c) (y : α) :
    par (f.redirect c r h).parent y = if y = c then r else par f.parent y :=
  par_insert f.parent c r y

theorem Rooted.of_par {p : α} (hp : par m x = p) (hne : p ≠ x) (h : Rooted m p r) :
    Rooted m x r := by
  subst hp
  exact Rooted.step hne h

theorem Rooted.par_root (h : Rooted m x r) : par m r = r := by
  induction h with
  | root hx => exact hx
  | step _ _ ih => exact ih

variable {s : α} (l : List α)

theorem Rooted.unique (h : Rooted m x r) (h' : Rooted m x s) : r = s := by
  induction h with
  | root hx =>
    cases h' with
    | root _ => rfl
    | step hn _ => exact absurd hx hn
  | step hn _ ih =>
    cases h' with
    | root hx => exact absurd hx hn
    | step _ hs => exact ih hs

theorem Rooted.le {f : Forest α} (h : Rooted f.parent x r) : r ≤ x := by
  induction h with
  | root _ => exact le_refl _
  | step _ _ ih => exact ih.trans (f.par_le _)

def findRoot (m : OrdMap α α) : ℕ → α → α
  | 0, x => x
  | fuel + 1, x => if par m x = x then x else findRoot m fuel (par m x)

def rank (m : OrdMap α α) (x : α) : ℕ := (m.keys.filter fun k => k ≤ x).length

theorem rank_le_size (m : OrdMap α α) (x : α) : rank m x ≤ m.size := by
  have h : rank m x ≤ m.keys.length := length_filter_le _ _
  simpa [OrdMap.keys, OrdMap.size] using h

theorem key_of_par_ne (h : par m x ≠ x) : x ∈ m.keys := by
  rw [OrdMap.mem_keys]
  cases hx : m.get? x with
  | none => simp [par, hx] at h
  | some p => rfl

theorem rank_par_lt (h : par f.parent x ≠ x) :
    rank f.parent (par f.parent x) < rank f.parent x := by
  have hlt : par f.parent x < x := lt_of_le_of_ne (f.par_le x) h
  -- the smaller filter is a proper sublist: it misses the key `x`
  have hsub : (f.parent.keys.filter fun k => k ≤ par f.parent x).Sublist
      (f.parent.keys.filter fun k => k ≤ x) := by
    refine monotone_filter_right _ fun k hk => ?_
    exact decide_eq_true ((of_decide_eq_true hk).trans hlt.le)
  refine lt_of_le_of_ne hsub.length_le fun hlen => ?_
  have hmem : x ∈ f.parent.keys.filter fun k => k ≤ x := by simp [key_of_par_ne h]
  rw [← hsub.eq_of_length hlen] at hmem
  exact absurd hlt (not_lt.mpr (of_decide_eq_true (mem_filter.mp hmem).2))

theorem findRoot_rooted (fuel : ℕ) (x : α) (h : rank f.parent x ≤ fuel) :
    Rooted f.parent x (findRoot f.parent fuel x) := by
  induction fuel generalizing x with
  | zero =>
    apply Rooted.root
    by_contra hn
    have := rank_par_lt f hn
    omega
  | succ fuel ih =>
    by_cases hx : par f.parent x = x
    · rw [findRoot, if_pos hx]
      exact Rooted.root hx
    · rw [findRoot, if_neg hx]
      have hlt := rank_par_lt f hx
      exact Rooted.step hx (ih _ (by omega))

def rootOf (f : Forest α) (x : α) : α := findRoot f.parent f.parent.size x

theorem rootOf_rooted (x : α) : Rooted f.parent x (f.rootOf x) :=
  findRoot_rooted f _ x (rank_le_size _ _)

theorem rootOf_eq {f : Forest α} : f.rootOf x = r ↔ Rooted f.parent x r := by
  constructor
  · intro h
    rw [← h]
    exact f.rootOf_rooted x
  · exact fun h => (f.rootOf_rooted x).unique h

theorem rootOf_le (x : α) : f.rootOf x ≤ x := (f.rootOf_rooted x).le

theorem rootOf_rootOf (x : α) : f.rootOf (f.rootOf x) = f.rootOf x :=
  rootOf_eq.mpr (Rooted.root (f.rootOf_rooted x).par_root)

theorem redirect_root_rooted {c : α} (hc : Rooted f.parent c r) (h : r ≤ c)
    (hx : Rooted f.parent x s) : Rooted (f.redirect c r h).parent x s := by
  -- the root itself keeps its self loop
  have hr : par (f.redirect c r h).parent r = r := by rw [par_redirect, hc.par_root, ite_self]
  induction hx with
  | @root y hx =>
    refine Rooted.root ?_
    rw [par_redirect]
    split
    · next hyc => exact hc.unique (hyc ▸ Rooted.root hx)
    · exact hx
  | @step y s hn hrest ih =>
    by_cases hyc : y = c
    · subst hyc
      obtain rfl := hc.unique (Rooted.step hn hrest)
      have hne : r ≠ y := by
        rintro rfl
        exact hn hc.par_root
      exact .of_par ((par_redirect f h y).trans (if_pos rfl)) hne (Rooted.root hr)
    · exact .of_par ((par_redirect f h y).trans (if_neg hyc)) hn ih

def compress : ℕ → Forest α → α → α → Forest α
  | 0, f, _, _ => f
  | fuel + 1, f, cur, root =>
    if h : cur ≠ root ∧ root ≤ cur then
      compress fuel (f.redirect cur root h.2) (par f.parent cur) root
    else f

theorem compress_rooted (fuel : ℕ) (f : Forest α) {cur : α} (hc : Rooted f.parent cur r)
    (hx : Rooted f.parent x s) : Rooted (compress fuel f cur r).parent x s := by
  induction fuel generalizing f cur with
  | zero => exact hx
  | succ fuel ih =>
    rw [compress]
    split
    · rename_i h
      have hnext : Rooted f.parent (par f.parent cur) r := by
        cases hc with
        | root _ => exact absurd rfl h.1
        | step _ hrest => exact hrest
      exact ih (f.redirect cur r h.2) (redirect_root_rooted f hc h.2 hnext)
        (redirect_root_rooted f hc h.2 hx)
    · exact hx

def find (f : Forest α) (x : α) : α × Forest α :=
  (f.rootOf x, compress f.parent.size f x (f.rootOf x))

@[simp] theorem find_fst (x : α) : (f.find x).1 = f.rootOf x := rfl

theorem rootOf_find (x y : α) : (f.find x).2.rootOf y = f.rootOf y :=
  rootOf_eq.mpr (compress_rooted _ f (f.rootOf_rooted x) (f.rootOf_rooted y))

def union (f : Forest α) (a b : α) : Forest α :=
  let fa := f.find a
  let fb := fa.2.find b
  if fa.1 = fb.1 then fb.2
  else if h : fa.1 < fb.1 then fb.2.redirect fb.1 fa.1 h.le
  else fb.2.redirect fa.1 fb.1 (not_lt.mp h)

theorem redirect_rooted {hi lo : α} (hhi : par f.parent hi = hi)
    (hlo : par f.parent lo = lo) (h : lo ≤ hi) (hne : lo ≠ hi) (hx : Rooted f.parent x s) :
    Rooted (f.redirect hi lo h).parent x (if s = hi then lo else s) := by
  have hlo' : par (f.redirect hi lo h).parent lo = lo := by rw [par_redirect, if_neg hne, hlo]
  induction hx with
  | @root y hx =>
    split
    · next hy =>
      subst hy
      exact .of_par ((par_redirect f h y).trans (if_pos rfl)) hne (Rooted.root hlo')
    · next hy => exact Rooted.root (by rw [par_redirect, if_neg hy, hx])
  | @step y s hn hrest ih =>
    have hy : y ≠ hi := by
      rintro rfl
      exact hn hhi
    exact .of_par ((par_redirect f h y).trans (if_neg hy)) hn ih

theorem rootOf_redirect {hi lo : α} (hhi : f.rootOf hi = hi)
    (hlo : f.rootOf lo = lo) (h : lo ≤ hi) (hne : lo ≠ hi) (x : α) :
    (f.redirect hi lo h).rootOf x = if f.rootOf x = hi then lo else f.rootOf x := by
  have hpar : ∀ {y}, f.rootOf y = y → par f.parent y = y := fun hy => (rootOf_eq.mp hy).par_root
  exact rootOf_eq.mpr (redirect_rooted f (hpar hhi) (hpar hlo) h hne (f.rootOf_rooted x))

theorem rootOf_union (a b x : α) : (f.union a b).rootOf x =
      if f.rootOf x = max (f.rootOf a) (f.rootOf b) then min (f.rootOf a) (f.rootOf b)
      else f.rootOf x := by
  have hfb : ∀ y, ((f.find a).2.find b).2.rootOf y = f.rootOf y := fun y => by
    rw [rootOf_find, rootOf_find]
  have hb : ((f.find a).2.find b).1 = f.rootOf b := by
    rw [find_fst, rootOf_find]
  unfold union
  simp only [find_fst, rootOf_find]
  split
  · rename_i he
    rw [hfb, ← he]
    simp
  · rename_i he
    split
    · rename_i hlt
      rw [rootOf_redirect _ (by rw [hfb, rootOf_rootOf]) (by rw [hfb, rootOf_rootOf]) hlt.le
        (ne_of_lt hlt), hfb, max_eq_right hlt.le, min_eq_left hlt.le]
    · rename_i hlt
      have hle : f.rootOf b ≤ f.rootOf a := not_lt.mp hlt
      rw [rootOf_redirect _ (by rw [hfb, rootOf_rootOf]) (by rw [hfb, rootOf_rootOf]) hle
        (fun e => he e.symm), hfb, max_eq_left hle, min_eq_right hle]

def Represents (f : Forest α) (r : α → α → Prop) : Prop :=
  ∀ x y, f.rootOf x = f.rootOf y ↔ EqvGen r x y

theorem rootOf_union_eq_iff (a b x y : α) :
    (f.union a b).rootOf x = (f.union a b).rootOf y ↔ f.rootOf x = f.rootOf y ∨
      (f.rootOf x = f.rootOf a ∧ f.rootOf y = f.rootOf b) ∨
      (f.rootOf x = f.rootOf b ∧ f.rootOf y = f.rootOf a) := by
  rw [rootOf_union, rootOf_union]
  generalize f.rootOf x = rx
  generalize f.rootOf y = ry
  generalize f.rootOf a = ra
  generalize f.rootOf b = rb
  rcases le_total ra rb with h | h
  · rw [max_eq_right h, min_eq_left h]
    grind
  · rw [max_eq_left h, min_eq_right h]
    grind

theorem Represents.union {f : Forest α} {r : α → α → Prop} (h : f.Represents r) (a b : α) :
    (f.union a b).Represents fun x y => r x y ∨ (x = a ∧ y = b) := by
  have hmono : ∀ {x y}, EqvGen r x y →
      EqvGen (fun x y => r x y ∨ (x = a ∧ y = b)) x y :=
    fun hxy => hxy.mono fun _ _ hr => Or.inl hr
  have hab : EqvGen (fun x y => r x y ∨ (x = a ∧ y = b)) a b :=
    .rel _ _ (Or.inr ⟨rfl, rfl⟩)
  intro x y
  rw [rootOf_union_eq_iff]
  constructor
  · rintro (hxy | ⟨hx, hy⟩ | ⟨hx, hy⟩)
    · exact hmono ((h x y).mp hxy)
    · exact (hmono ((h x a).mp hx)).trans _ _ _ (hab.trans _ _ _ (hmono ((h y b).mp hy)).symm)
    · exact (hmono ((h x b).mp hx)).trans _ _ _
        (hab.symm.trans _ _ _ (hmono ((h y a).mp hy)).symm)
  · intro hxy
    rw [← rootOf_union_eq_iff]
    have hker : ∀ u v, r u v ∨ (u = a ∧ v = b) → Setoid.ker (f.union a b).rootOf u v := by
      intro u v huv
      refine (rootOf_union_eq_iff f a b u v).mpr ?_
      rcases huv with huv | ⟨rfl, rfl⟩
      · exact .inl ((h u v).mpr (.rel _ _ huv))
      · exact .inr (.inl ⟨rfl, rfl⟩)
    exact Setoid.eqvGen_le hker hxy

theorem ofList_self (x p : α) (h : (ofList (l.map fun x => (x, x))).get? x = some p) : p = x := by
  have hself : p ∈ l ∧ id p = x := mem_of_get?_indexed h
  exact hself.2

def singletons (l : List α) : Forest α where
  parent := ofList (l.map fun x => (x, x))
  parent_le := fun x p h => (ofList_self l x p h).le

theorem rootOf_singletons (x : α) : (singletons l).rootOf x = x := by
  apply rootOf_eq.mpr
  apply Rooted.root
  unfold par
  cases h : (singletons l).parent.get? x with
  | none => rfl
  | some p => exact ofList_self l x p h

theorem singletons_represents : (singletons l).Represents fun _ _ => False := by
  intro x y
  rw [rootOf_singletons, rootOf_singletons]
  constructor
  · rintro rfl
    exact .refl _
  · exact fun h => eq_equivalence.eqvGen_iff.mp (h.mono fun _ _ => False.elim)

def unionAll (f : Forest α) (pairs : List (α × α)) : Forest α :=
  pairs.foldl (fun f e => f.union e.1 e.2) f

theorem Represents.unionAll {f : Forest α} {r : α → α → Prop} (h : f.Represents r)
    (pairs : List (α × α)) :
    (f.unionAll pairs).Represents fun x y => r x y ∨ (x, y) ∈ pairs := by
  induction pairs generalizing f r with
  | nil => simpa [Forest.unionAll] using h
  | cons e rest ih =>
    have hstep := ih (h.union e.1 e.2)
    have hrel : (fun x y => (r x y ∨ (x = e.1 ∧ y = e.2)) ∨ (x, y) ∈ rest) =
        fun x y => r x y ∨ (x, y) ∈ e :: rest := by
      funext x y
      simp only [mem_cons, Prod.ext_iff, or_assoc]
    rw [hrel] at hstep
    exact hstep

theorem unionAll_root (pairs : List (α × α)) (x y : α) :
    ((singletons l).unionAll pairs).rootOf x = ((singletons l).unionAll pairs).rootOf y ↔
      EqvGen (fun x y => (x, y) ∈ pairs) x y := by
  have h := (singletons_represents l).unionAll pairs
  simpa using h x y

theorem rootOf_eq_iff_least (x r : α) :
    f.rootOf x = r ↔ f.rootOf x = f.rootOf r ∧ ∀ y, f.rootOf y = f.rootOf x → r ≤ y := by
  constructor
  · rintro rfl
    refine ⟨(f.rootOf_rootOf x).symm, ?_⟩
    intro y hy
    rw [← hy]
    exact f.rootOf_le y
  · rintro ⟨he, hmin⟩
    apply le_antisymm
    · rw [he]
      exact f.rootOf_le r
    · exact hmin (f.rootOf x) (f.rootOf_rootOf x)

/-- The root of the parent in a bare parent map, written back for `x` on return. -/
def findRec : ℕ → OrdMap α α → α → α × OrdMap α α
  | 0, m, x => (x, m)
  | fuel + 1, m, x =>
    if par m x = x then (x, m)
    else
      let (root, m) := findRec fuel m (par m x)
      (root, m.insert x root)

theorem findRoot_le (fuel : ℕ) (x : α) : findRoot f.parent fuel x ≤ x := by
  induction fuel generalizing x with
  | zero => exact le_refl x
  | succ fuel ih =>
    rw [findRoot]
    split
    · exact le_refl x
    · exact (ih _).trans (f.par_le x)

theorem ext_parent {f g : Forest α} (h : f.parent = g.parent) : f = g := by
  cases f
  cases g
  congr

theorem compress_redirect (fuel : ℕ) (f : Forest α) {p : α} (h : r ≤ x) (hp : p < x) :
    compress fuel (f.redirect x r h) p r = (compress fuel f p r).redirect x r h := by
  induction fuel generalizing f p with
  | zero => rfl
  | succ fuel ih =>
    have hpar : par (f.redirect x r h).parent p = par f.parent p :=
      (par_insert f.parent x r p).trans (if_neg (ne_of_lt hp))
    rw [compress, compress]
    by_cases hcur : p ≠ r ∧ r ≤ p
    · have hcomm : (f.redirect x r h).redirect p r hcur.2 =
          (f.redirect p r hcur.2).redirect x r h := by
        apply ext_parent
        apply ext_get?
        intro y
        change ((f.parent.insert x r).insert p r).get? y = ((f.parent.insert p r).insert x r).get? y
        simp only [get?_insert]
        by_cases hyp : y = p <;> simp [hyp]
      rw [dif_pos hcur, dif_pos hcur, hcomm, hpar]
      exact ih (f.redirect p r hcur.2) (lt_of_le_of_lt (f.par_le p) hp)
    · rw [dif_neg hcur, dif_neg hcur]

theorem findRec_eq (fuel : ℕ) (x : α) : findRec fuel f.parent x =
      (findRoot f.parent fuel x, (compress fuel f x (findRoot f.parent fuel x)).parent) := by
  induction fuel generalizing x with
  | zero => rfl
  | succ fuel ih =>
    rw [findRec, findRoot]
    by_cases hx : par f.parent x = x
    · rw [if_pos hx, if_pos hx, compress, dif_neg fun h => h.1 rfl]
    · have hlt : par f.parent x < x := lt_of_le_of_ne (f.par_le x) hx
      have hroot := findRoot_le f fuel (par f.parent x)
      have hcond : x ≠ findRoot f.parent fuel (par f.parent x) ∧
          findRoot f.parent fuel (par f.parent x) ≤ x :=
        ⟨(ne_of_lt (lt_of_le_of_lt hroot hlt)).symm, (lt_of_le_of_lt hroot hlt).le⟩
      rw [if_neg hx, if_neg hx, ih, compress, dif_pos hcond, compress_redirect fuel f hcond.2 hlt]
      rfl

theorem findRec_find (x : α) :
    findRec f.parent.size f.parent x = ((f.find x).1, (f.find x).2.parent) :=
  findRec_eq f f.parent.size x

def groupByRoot (f : Forest α) (l : List α) : OrdMap α (List α) :=
  (l.foldl (fun st x => ((st.1.find x).2, st.2.pushAt (st.1.find x).1 x)) (f, empty)).2

theorem foldl_find_push (l : List α) (st : Forest α × OrdMap α (List α))
    (hst : ∀ x, st.1.rootOf x = f.rootOf x) :
    (l.foldl (fun st x => ((st.1.find x).2, st.2.pushAt (st.1.find x).1 x)) st).2 =
      l.foldl (fun m x => m.pushAt (f.rootOf x) x) st.2 := by
  induction l generalizing st with
  | nil => rfl
  | cons x l ih =>
    rw [foldl_cons, foldl_cons, ih _ fun y => (rootOf_find st.1 x y).trans (hst y), find_fst, hst]

theorem groupByRoot_eq (l : List α) :
    f.groupByRoot l = groupBy (fun x => some (f.rootOf x)) id l :=
  foldl_find_push f l (f, empty) fun _ => rfl

end Forest

variable {β : Type*}

theorem eqvGen_of_forall_rel {r s : β → β → Prop} (h : ∀ x y, r x y → EqvGen s x y)
    {x y : β} (hxy : EqvGen r x y) : EqvGen s x y :=
  Setoid.eqvGen_le (s := EqvGen.setoid s) (fun a b hab => h a b hab) hxy

def windows2 {β : Type*} (l : List β) : List (β × β) := l.zip l.tail

theorem windows2_cons_cons (a b : β) (l : List β) :
    windows2 (a :: b :: l) = (a, b) :: windows2 (b :: l) := rfl

theorem mem_of_mem_windows2 {l : List β} {a b : β} (h : (a, b) ∈ windows2 l) : a ∈ l ∧ b ∈ l :=
  ⟨(of_mem_zip h).1, mem_of_mem_tail (of_mem_zip h).2⟩

theorem isChain_iff_windows2 {r : β → β → Prop} {l : List β} :
    l.IsChain r ↔ ∀ a b, (a, b) ∈ windows2 l → r a b := by
  induction l with
  | nil => simp [windows2]
  | cons x l ih =>
    cases l with
    | nil => simp [windows2]
    | cons y l => simp [isChain_cons_cons, ih, windows2_cons_cons, or_imp, forall_and]

theorem ne_of_mem_windows2 {l : List β} (hl : l.Nodup) {a b : β} (h : (a, b) ∈ windows2 l) :
    a ≠ b :=
  isChain_iff_windows2.mp (Pairwise.isChain hl) a b h

theorem exists_mem_windows2 {l : List β} {a b : β} (ha : a ∈ l) (hb : b ∈ l) (hab : a ≠ b) :
    ∃ p, p ∈ windows2 l := by
  match l with
  | [] => cases ha
  | [x] => exact absurd ((mem_singleton.mp ha).trans (mem_singleton.mp hb).symm) hab
  | x :: y :: l =>
    rw [windows2_cons_cons]
    exact ⟨(x, y), mem_cons_self⟩

theorem eqvGen_windows2 (l : List β) :
    ∀ x ∈ l, ∀ y ∈ l, EqvGen (fun a b => (a, b) ∈ windows2 l) x y := by
  have : IsTrans β (EqvGen fun a b => (a, b) ∈ windows2 l) := ⟨EqvGen.trans⟩
  have : Std.Symm (EqvGen fun a b => (a, b) ∈ windows2 l) := ⟨EqvGen.symm⟩
  have hchain : l.IsChain (EqvGen fun a b => (a, b) ∈ windows2 l) :=
    isChain_iff_windows2.mpr EqvGen.rel
  exact fun x hx y hy => hchain.pairwise.forall_of_forall (fun a _ => .refl a) hx hy

end Fornax
