import Fornax.Lib.Text

namespace Fornax.Decimal

open List

def digit (c : Char) : ℕ := c.toNat - 48

def value (ds : Text) : ℕ := Nat.ofDigits 10 (ds.map digit).reverse

def parseBelow (bound : ℕ) (ds : Text) : Option (Fin bound) :=
  if h : value ds < bound then some ⟨value ds, h⟩ else none

theorem parseBelow_eq_some {bound : ℕ} {ds : Text} {n : Fin bound} :
    parseBelow bound ds = some n ↔ value ds = n.val := by
  unfold parseBelow
  split
  · rw [Option.some.injEq, Fin.ext_iff]
  · rename_i hlarge
    constructor
    · intro h
      cases h
    · intro h
      exact absurd (h ▸ n.isLt) hlarge

def IsDigits (ds : Text) : Prop := ∀ c ∈ ds, c.isDigit = true

variable {c : Char} {a b : Text}

theorem isDigit_bounds (h : c.isDigit) : 48 ≤ c.toNat ∧ c.toNat ≤ 57 := by
  rw [Char.isDigit, Bool.and_eq_true, decide_eq_true_iff, decide_eq_true_iff] at h
  exact ⟨UInt32.le_iff_toNat_le.mp h.1, UInt32.le_iff_toNat_le.mp h.2⟩

theorem isDigit_of_bounds (h : 48 ≤ c.toNat) (h' : c.toNat ≤ 57) : c.isDigit := by
  rw [Char.isDigit, Bool.and_eq_true, decide_eq_true_iff, decide_eq_true_iff]
  exact ⟨UInt32.le_iff_toNat_le.mpr h, UInt32.le_iff_toNat_le.mpr h'⟩

theorem digit_lt (h : c.isDigit) : digit c < 10 := by
  have hc := isDigit_bounds h
  rw [digit]
  omega

theorem digit_pos (h : c.isDigit) (hne : c ≠ '0') : 0 < digit c := by
  have hc := isDigit_bounds h
  have hcode : c.toNat ≠ 48 := fun hzero => hne (Char.toNat_inj.mp hzero)
  rw [digit]
  omega

theorem isDigits_cons : IsDigits (c :: a) ↔ c.isDigit ∧ IsDigits a := forall_mem_cons

theorem IsDigits.append (ha : IsDigits a) (hb : IsDigits b) : IsDigits (a ++ b) :=
  forall_mem_append.mpr ⟨ha, hb⟩

theorem isDigits_replicate (h : c.isDigit) (n : ℕ) : IsDigits (replicate n c) := by
  intro d hd
  rwa [eq_of_mem_replicate hd]

@[simp] theorem value_nil : value [] = 0 := rfl

theorem value_append (a b : Text) : value (a ++ b) = value a * 10 ^ b.length + value b := by
  rw [value, map_append, reverse_append, Nat.ofDigits_append, value, value,
    length_reverse, length_map]
  ring

@[simp] theorem value_singleton (c : Char) : value [c] = digit c := by
  simp [value]

theorem value_cons (c : Char) (ds : Text) :
    value (c :: ds) = digit c * 10 ^ ds.length + value ds := by
  have h := value_append [c] ds
  rwa [value_singleton, singleton_append] at h

variable (ds : Text)

theorem value_concat (c : Char) : value (ds ++ [c]) = 10 * value ds + digit c := by
  rw [value_append, value_singleton, length_singleton]
  ring

theorem value_lt {ds : Text} (h : IsDigits ds) : value ds < 10 ^ ds.length := by
  have hlt : ∀ d ∈ (ds.map digit).reverse, d < 10 := by
    intro d hd
    obtain ⟨c, hc, rfl⟩ := mem_map.mp (mem_reverse.mp hd)
    exact digit_lt (h c hc)
  have hbound := Nat.ofDigits_lt_base_pow_length (by decide) hlt
  rwa [length_reverse, length_map] at hbound

theorem le_value {ds : Text} (hc : c.isDigit) (hne : c ≠ '0') :
    10 ^ ds.length ≤ value (c :: ds) := by
  have hpos := digit_pos hc hne
  calc 10 ^ ds.length = 1 * 10 ^ ds.length := (Nat.one_mul _).symm
    _ ≤ digit c * 10 ^ ds.length := Nat.mul_le_mul_right _ hpos
    _ ≤ value (c :: ds) := value_cons c ds ▸ Nat.le_add_right _ _

theorem value_zeros (n : ℕ) : value (replicate n '0') = 0 := by
  have hzero : digit '0' = 0 := rfl
  rw [value, map_replicate, reverse_replicate, hzero, Nat.ofDigits_replicate_zero]

theorem value_append_zeros (n : ℕ) : value (ds ++ replicate n '0') = value ds * 10 ^ n := by
  rw [value_append, value_zeros, length_replicate, Nat.add_zero]

theorem value_nines (n : ℕ) : value (replicate n '9') + 1 = 10 ^ n := by
  induction n with
  | zero => rfl
  | succ n ih =>
    have hnine : digit '9' = 9 := rfl
    rw [replicate_succ, value_cons, length_replicate, hnine, Nat.add_assoc, ih, pow_succ]
    ring

theorem value_dropWhile_zero : value (ds.dropWhile (· == '0')) = value ds := by
  induction ds with
  | nil => rfl
  | cons c ds ih =>
    by_cases hc : c = '0'
    · subst hc
      have hzero : digit '0' = 0 := rfl
      rw [dropWhile_cons_of_pos (by simp), ih, value_cons, hzero, Nat.zero_mul, Nat.zero_add]
    · rw [dropWhile_cons_of_neg (by simpa using hc)]

def trailingZeros (ds : Text) : ℕ := (ds.reverse.takeWhile (· == '0')).length

theorem split_trailingZeros :
    ds = ds.take (ds.length - trailingZeros ds) ++ replicate (trailingZeros ds) '0' ∧
      ∀ c ∈ (ds.take (ds.length - trailingZeros ds)).getLast?, c ≠ '0' := by
  induction ds using reverseRecOn with
  | nil => simp [trailingZeros]
  | append_singleton ds c ih =>
    by_cases hc : c = '0'
    · subst hc
      have hzeros : trailingZeros (ds ++ ['0']) = trailingZeros ds + 1 := by simp [trailingZeros]
      rw [hzeros, length_append, length_singleton, Nat.add_sub_add_right,
        take_append_of_le_length (Nat.sub_le _ _), replicate_succ', ← append_assoc, ← ih.1]
      exact ⟨rfl, ih.2⟩
    · have hzeros : trailingZeros (ds ++ [c]) = 0 := by simp [trailingZeros, hc]
      rw [hzeros, Nat.sub_zero, take_length]
      simp [hc]

def compareDigits : Text → Text → Ordering
  | c :: a, d :: b => (compare c.toNat d.toNat).then (compareDigits a b)
  | _, _ => .eq

theorem compare_map {α β : Type*} [LinearOrder α] [LinearOrder β] {f : α → β} (h : StrictMono f)
    (x y : α) : compare (f x) (f y) = compare x y := by
  rw [← cmp_eq_compare, h.cmp_map_eq, cmp_eq_compare]

theorem compare_digit {d : Char} (hc : c.isDigit) (hd : d.isDigit) :
    compare c.toNat d.toNat = compare (digit c) (digit d) := by
  have hmap := compare_map (strictMono_id.const_add 48) (digit c) (digit d)
  rwa [id, id, digit, digit, Nat.add_sub_of_le (isDigit_bounds hc).1,
    Nat.add_sub_of_le (isDigit_bounds hd).1] at hmap

theorem compare_lead {p q a b w : ℕ} (ha : a < w) (hb : b < w) :
    compare (p * w + a) (q * w + b) = (compare p q).then (compare a b) := by
  rcases Nat.lt_trichotomy p q with h | h | h
  · have hlt : p * w + a < q * w + b := by nlinarith
    rw [Nat.compare_eq_lt.mpr h, Nat.compare_eq_lt.mpr hlt]
    rfl
  · subst h
    rw [Nat.compare_eq_eq.mpr rfl, Ordering.then]
    exact compare_map (strictMono_id.const_add (p * w)) a b
  · have hgt : q * w + b < p * w + a := by nlinarith
    rw [Nat.compare_eq_gt.mpr h, Nat.compare_eq_gt.mpr hgt]
    rfl

theorem compareDigits_eq (hlength : a.length = b.length) (ha : IsDigits a) (hb : IsDigits b) :
    compareDigits a b = compare (value a) (value b) := by
  induction a generalizing b with
  | nil =>
    cases b with
    | nil => rfl
    | cons d b => cases hlength
  | cons c a ih =>
    cases b with
    | nil => cases hlength
    | cons d b =>
      have hrest : a.length = b.length := Nat.succ.inj hlength
      have hac : IsDigits a := fun x hx => ha x (mem_cons_of_mem c hx)
      have hbd : IsDigits b := fun x hx => hb x (mem_cons_of_mem d hx)
      have hbound : value b < 10 ^ a.length := hrest ▸ value_lt hbd
      rw [compareDigits, compare_digit (ha c mem_cons_self) (hb d mem_cons_self),
        ih hrest hac hbd, value_cons, value_cons, ← hrest, compare_lead (value_lt hac) hbound]

theorem compareDigits_append (hlength : a.length = b.length) (x y : Text) :
    compareDigits (a ++ x) (b ++ y) = (compareDigits a b).then (compareDigits x y) := by
  induction a generalizing b with
  | nil =>
    cases b with
    | nil => rfl
    | cons d b => cases hlength
  | cons c a ih =>
    cases b with
    | nil => cases hlength
    | cons d b =>
      rw [cons_append, cons_append, compareDigits, compareDigits,
        ih (Nat.succ.inj hlength), Ordering.then_assoc]

def compareFrom (left right : ℕ → Char) : ℕ → ℕ → Ordering
  | _, 0 => .eq
  | i, n + 1 => (compare (left i).toNat (right i).toNat).then (compareFrom left right (i + 1) n)

theorem compareFrom_eq (left right : ℕ → Char) (i n : ℕ) : compareFrom left right i n
      = compareDigits ((range' i n).map left) ((range' i n).map right) := by
  induction n generalizing i with
  | zero => rfl
  | succ n ih => rw [compareFrom, ih, range'_succ, map_cons, map_cons, compareDigits]

theorem map_getD_range' (c : Char) {n : ℕ} (h : ds.length ≤ n) :
    (range' 0 n).map (fun i => ds.getD i c) = ds ++ replicate (n - ds.length) c := by
  refine ext_getElem ?_ fun i hi hi' => ?_
  · rw [length_map, length_range', length_append, length_replicate]
    omega
  · rw [getElem_map, getElem_range', Nat.zero_add, Nat.one_mul, getElem_append]
    split
    · rename_i hin
      rw [getD_eq_getElem _ _ hin]
    · rename_i hout
      rw [getD_eq_default _ _ (by omega), getElem_replicate]

theorem compareFrom_getD (ha : IsDigits a) (hb : IsDigits b) {n : ℕ} (hna : a.length ≤ n)
    (hnb : b.length ≤ n) : compareFrom (fun i => a.getD i '0') (fun i => b.getD i '0') 0 n
      = compare (value a * 10 ^ (n - a.length)) (value b * 10 ^ (n - b.length)) := by
  have hzero : ('0' : Char).isDigit := rfl
  rw [compareFrom_eq, map_getD_range' a '0' hna, map_getD_range' b '0' hnb, compareDigits_eq,
    value_append_zeros, value_append_zeros]
  · rw [length_append, length_append, length_replicate, length_replicate]
    omega
  · exact ha.append (isDigits_replicate hzero _)
  · exact hb.append (isDigits_replicate hzero _)

def compareSigned (s t : SignType) (magnitudes : Ordering) : Ordering :=
  match compare s t with
  | .eq => if s = 0 then .eq else if s < 0 then magnitudes.swap else magnitudes
  | different => different

section

variable {K : Type*} [Ring K] [LinearOrder K] [IsStrictOrderedRing K]

theorem compare_neg_mul (m n : K) : compare (-1 * m) (-1 * n) = (compare m n).swap := by
  rw [← cmp_eq_compare, cmp_mul_neg_left (by simp), ← cmp_swap, cmp_eq_compare]

theorem sign_signed {s : SignType} {m : K} (hm : s ≠ 0 → 0 < m) :
    SignType.sign ((s : K) * m) = s := by
  by_cases hs : s = 0
  · simp [hs]
  · rw [sign_mul, sign_pos (hm hs), mul_one]
    cases s <;> simp

theorem lt_of_sign_lt {x y : K} (h : SignType.sign x < SignType.sign y) : x < y := by
  by_contra hge
  exact absurd h (not_lt.mpr (SignType.sign.monotone (not_lt.mp hge)))

theorem compareSigned_eq {s t : SignType} {m n : K} {o : Ordering} (hm : s ≠ 0 → 0 < m)
    (hn : t ≠ 0 → 0 < n) (ho : s ≠ 0 → t ≠ 0 → o = compare m n) :
    compareSigned s t o = compare ((s : K) * m) (t * n) := by
  have hsignS := sign_signed hm
  have hsignT := sign_signed hn
  unfold compareSigned
  rcases lt_trichotomy s t with h | h | h
  · have hlt : (s : K) * m < t * n := lt_of_sign_lt (by rwa [hsignS, hsignT])
    rw [compare_lt_iff_lt.mpr h, compare_lt_iff_lt.mpr hlt]
  · subst h
    rw [compare_eq_iff_eq.mpr rfl]
    cases hs : s with
    | zero => simp
    | neg =>
      have hne : s ≠ 0 := hs ▸ by decide
      rw [ho hne hne]
      simpa using (compare_neg_mul m n).symm
    | pos =>
      have hne : s ≠ 0 := hs ▸ by decide
      rw [ho hne hne]
      simp
  · have hgt : (t : K) * n < s * m := lt_of_sign_lt (by rwa [hsignS, hsignT])
    rw [compare_gt_iff_gt.mpr h, compare_gt_iff_gt.mpr hgt]

end

end Fornax.Decimal
