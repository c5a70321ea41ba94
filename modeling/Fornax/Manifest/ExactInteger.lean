import Fornax.Manifest.ExactDecimal

namespace Fornax.Manifest

open Decimal List

inductive DigitSegment
  | text (s : Text)
  | repeated (c : Char) (n : ℕ)
  deriving DecidableEq

def segmentLen : DigitSegment → ℕ
  | .text s => s.length
  | .repeated _ n => n

structure VirtualMagnitude where
  segments : List DigitSegment
  length : ℕ
  relengthed : length = (segments.map segmentLen).sum

def incrementReversed : Text → Text
  | [] => ['1']
  | c :: rest =>
    if c.toNat < '9'.toNat then Char.ofNat (c.toNat + 1) :: rest else '0' :: incrementReversed rest

def incrementDigits (digits : Text) : Text := (incrementReversed digits.reverse).reverse

def decrementReversed : Text → Text
  | [] => []
  | c :: rest =>
    if '0'.toNat < c.toNat then Char.ofNat (c.toNat - 1) :: rest else '9' :: decrementReversed rest

def decrementDigits (digits : Text) : Text :=
  (decrementReversed digits.reverse).reverse.dropWhile (· == '0')

def segmentChunk (segment : DigitSegment) (offset : ℕ) : Char × ℕ :=
  match segment with
  | .text s => (s.getD offset '0', s.length - offset)
  | .repeated c n => (c, n - offset)

def digitAt (segment : DigitSegment) (offset within : ℕ) : Char :=
  match segment with
  | .text s => s.getD (offset + within) '0'
  | .repeated c _ => c

def compareChunks (lseg : DigitSegment) (loffset : ℕ) (rseg : DigitSegment) (roffset : ℕ) :
    Ordering :=
  let left := segmentChunk lseg loffset
  let right := segmentChunk rseg roffset
  match lseg, rseg with
  | .repeated _ _, .repeated _ _ => compare left.1.toNat right.1.toNat
  | _, _ => compareFrom (digitAt lseg loffset) (digitAt rseg roffset) 0 (min left.2 right.2)

def advanceSegment (segment : DigitSegment) (rest : List DigitSegment) (offset : ℕ) :
    List DigitSegment × ℕ :=
  if segmentLen segment ≤ offset then (rest, 0) else (segment :: rest, offset)

theorem segmentChunk_length (segment : DigitSegment) (offset : ℕ) :
    (segmentChunk segment offset).2 = segmentLen segment - offset := by
  cases segment <;> rfl

theorem length_advanceSegment (segment : DigitSegment) (rest : List DigitSegment) (offset : ℕ) :
    (advanceSegment segment rest offset).1.length
      = if segmentLen segment ≤ offset then rest.length else rest.length + 1 := by
  unfold advanceSegment
  split <;> rfl

def compareSegments (left : List DigitSegment) (lo : ℕ) (right : List DigitSegment) (ro : ℕ) :
    Ordering :=
  match left, right with
  | l :: ls, r :: rs =>
    match compareChunks l lo r ro with
    | .eq =>
      let consumed := min (segmentChunk l lo).2 (segmentChunk r ro).2
      let left' := advanceSegment l ls (lo + consumed)
      let right' := advanceSegment r rs (ro + consumed)
      compareSegments left'.1 left'.2 right'.1 right'.2
    | order => order
  | _, _ => .eq
termination_by left.length + right.length
decreasing_by
  rw [length_advanceSegment, length_advanceSegment, segmentChunk_length, segmentChunk_length]
  simp only [length_cons]
  split <;> split <;> omega

namespace VirtualMagnitude

def relength (segments : List DigitSegment) : VirtualMagnitude :=
  { segments, length := (segments.map segmentLen).sum, relengthed := rfl }

def fromDigits (digits : Text) (zeroes : ℕ) : VirtualMagnitude :=
  let trimmed := digits.dropWhile (· == '0')
  relength ((if trimmed.isEmpty then [] else [.text trimmed]) ++
    if 0 < zeroes then [.repeated '0' zeroes] else [])

def increment (m : VirtualMagnitude) : VirtualMagnitude :=
  match m.segments.getLast? with
  | none => fromDigits ['1'] 0
  | some (.repeated c n) =>
    if c = '0' ∧ 0 < n then
      relength (m.segments.dropLast ++ (if n - 1 = 0 then [] else [.repeated c (n - 1)]) ++
        [.text ['1']])
    else relength m.segments
  | some (.text digits) => relength (m.segments.dropLast ++ [.text (incrementDigits digits)])

def stripLeadingZeroSegments : List DigitSegment → List DigitSegment
  | .text t :: rest =>
    let trimmed := t.dropWhile (· == '0')
    if trimmed.isEmpty then stripLeadingZeroSegments rest else .text trimmed :: rest
  | segments => segments

def borrowFrom (front : List DigitSegment) : List DigitSegment :=
  match front.getLast? with
  | some (.text digits) => front.dropLast ++ [.text (decrementDigits digits)]
  | _ => front

def decrement (m : VirtualMagnitude) : VirtualMagnitude :=
  match m.segments.getLast? with
  | some (.repeated c n) =>
    if c = '0' ∧ 0 < n then
      relength (stripLeadingZeroSegments (borrowFrom m.segments.dropLast ++ [.repeated '9' n]))
    else relength (stripLeadingZeroSegments m.segments)
  | _ => relength (stripLeadingZeroSegments (borrowFrom m.segments))

def cmp (a b : VirtualMagnitude) : Ordering :=
  match compare a.length b.length with
  | .eq => compareSegments a.segments 0 b.segments 0
  | order => order

end VirtualMagnitude

structure ExactInteger where
  sign : SignType
  magnitude : VirtualMagnitude

inductive IntegerRounding
  | floor
  | ceil
  deriving DecidableEq, Repr

namespace ExactInteger

def zero : ExactInteger := { sign := 0, magnitude := .fromDigits [] 0 }

def roundsAway : SignType → IntegerRounding → Bool
  | .pos, .ceil => true
  | .neg, .floor => true
  | _, _ => false

def fromDecimalRounded (v : ExactDecimal) (rounding : IntegerRounding) : ExactInteger :=
  if v.sign = 0 then zero
  else if 0 ≤ v.exponent then
    { sign := v.sign, magnitude := .fromDigits v.digits v.exponent.toNat }
  else
    let scale := -v.exponent
    if (v.digits.length : Int) ≤ scale then
      if roundsAway v.sign rounding then { sign := v.sign, magnitude := .fromDigits ['1'] 0 }
      else zero
    else
      let split := v.digits.length - scale.toNat
      let fractionNonzero := (v.digits.drop split).any (· != '0')
      let whole := VirtualMagnitude.fromDigits (v.digits.take split) 0
      let magnitude :=
        if fractionNonzero && roundsAway v.sign rounding then whole.increment else whole
      { sign := if magnitude.length = 0 then 0 else v.sign, magnitude }

def cmp (a b : ExactInteger) : Ordering := compareSigned a.sign b.sign (a.magnitude.cmp b.magnitude)

def towardsZero (a : ExactInteger) : ExactInteger :=
  let magnitude := a.magnitude.decrement
  { sign := if magnitude.length = 0 then 0 else a.sign, magnitude }

def addOne (a : ExactInteger) : ExactInteger :=
  match a.sign with
  | .neg => a.towardsZero
  | .zero => { sign := 1, magnitude := .fromDigits ['1'] 0 }
  | .pos => { a with magnitude := a.magnitude.increment }

def subtractOne (a : ExactInteger) : ExactInteger :=
  match a.sign with
  | .neg => { a with magnitude := a.magnitude.increment }
  | .zero => { sign := -1, magnitude := .fromDigits ['1'] 0 }
  | .pos => a.towardsZero

end ExactInteger

def DigitSegment.digits : DigitSegment → Text
  | .text s => s
  | .repeated c n => replicate n c

def expand (segments : List DigitSegment) : Text := segments.flatMap DigitSegment.digits

theorem length_digits (s : DigitSegment) : s.digits.length = segmentLen s := by
  cases s with
  | text s => rfl
  | repeated c n => exact length_replicate

theorem length_expand (segments : List DigitSegment) :
    (expand segments).length = (segments.map segmentLen).sum := by
  induction segments with
  | nil => rfl
  | cons s rest ih =>
    rw [expand, flatMap_cons, length_append, length_digits, map_cons, sum_cons, ← ih]
    rfl

theorem expand_cons (s : DigitSegment) (rest : List DigitSegment) :
    expand (s :: rest) = s.digits ++ expand rest := flatMap_cons

theorem expand_append (front back : List DigitSegment) :
    expand (front ++ back) = expand front ++ expand back := flatMap_append

theorem map_digitAt {s : DigitSegment} {offset n : ℕ} (h : offset + n ≤ segmentLen s) :
    (range' 0 n).map (digitAt s offset) = (s.digits.drop offset).take n := by
  cases s with
  | text t =>
    have hin : offset + n ≤ t.length := h
    refine ext_getElem ?_ fun i hi hi' => ?_
    · simp only [length_map, length_range', DigitSegment.digits, length_take, length_drop]
      omega
    · rw [length_map, length_range'] at hi
      have hget : offset + i < t.length := by omega
      simp only [getElem_map, getElem_range', Nat.zero_add, Nat.one_mul, digitAt,
        DigitSegment.digits, getElem_take, getElem_drop, getD_eq_getElem _ _ hget]
  | repeated c k =>
    have hin : offset + n ≤ k := h
    have hmin : min n (k - offset) = n := by omega
    have hconst : digitAt (.repeated c k) offset = fun _ => c := rfl
    rw [hconst, map_const', length_range', DigitSegment.digits, drop_replicate,
      take_replicate, hmin]

theorem compareDigits_replicate {c d : Char} {n : ℕ} (hn : 0 < n) :
    compareDigits (replicate n c) (replicate n d) = compare c.toNat d.toNat := by
  obtain ⟨n, rfl⟩ := Nat.exists_eq_succ_of_ne_zero hn.ne'
  induction n with
  | zero => exact Ordering.then_eq
  | succ n ih =>
    rw [@replicate_succ _ c, @replicate_succ _ d, compareDigits, ih n.succ_pos]
    exact Ordering.then_self

theorem compareChunks_eq {l r : DigitSegment} {lo ro n : ℕ}
    (hn : n = min (segmentLen l - lo) (segmentLen r - ro)) (hpos : 0 < n) : compareChunks l lo r ro
      = compareDigits ((l.digits.drop lo).take n) ((r.digits.drop ro).take n) := by
  have hl : lo + n ≤ segmentLen l := by omega
  have hr : ro + n ≤ segmentLen r := by omega
  have hloop : compareFrom (digitAt l lo) (digitAt r ro) 0
      (min (segmentChunk l lo).2 (segmentChunk r ro).2)
      = compareDigits ((l.digits.drop lo).take n) ((r.digits.drop ro).take n) := by
    rw [segmentChunk_length, segmentChunk_length, ← hn, compareFrom_eq, map_digitAt hl,
      map_digitAt hr]
  cases l with
  | text s => exact hloop
  | repeated c k =>
    cases r with
    | text s => exact hloop
    | repeated d m =>
      have hk : min n (k - lo) = n := by
        change lo + n ≤ k at hl
        omega
      have hm : min n (m - ro) = n := by
        change ro + n ≤ m at hr
        omega
      rw [DigitSegment.digits, DigitSegment.digits, drop_replicate, drop_replicate,
        take_replicate, take_replicate, hk, hm, compareDigits_replicate hpos]
      rfl

def Within : List DigitSegment → ℕ → Prop
  | [], offset => offset = 0
  | s :: _, offset => offset < segmentLen s

theorem within_zero {segments : List DigitSegment} (h : ∀ s ∈ segments, 0 < segmentLen s) :
    Within segments 0 := by
  cases segments with
  | nil => rfl
  | cons s rest => exact h s mem_cons_self

theorem advanceSegment_spec {s : DigitSegment} {rest : List DigitSegment} (offset : ℕ)
    (hpos : ∀ x ∈ s :: rest, 0 < segmentLen x) (h : offset ≤ segmentLen s) :
    (∀ x ∈ (advanceSegment s rest offset).1, 0 < segmentLen x) ∧
      Within (advanceSegment s rest offset).1 (advanceSegment s rest offset).2 ∧
      (expand (advanceSegment s rest offset).1).drop (advanceSegment s rest offset).2
        = (expand (s :: rest)).drop offset := by
  have hrest : ∀ x ∈ rest, 0 < segmentLen x := fun x hx => hpos x (mem_cons_of_mem s hx)
  unfold advanceSegment
  split
  · rename_i hend
    refine ⟨hrest, within_zero hrest, ?_⟩
    have hoffset : offset = s.digits.length := by
      rw [length_digits]
      omega
    rw [expand_cons, hoffset, drop_left, drop_zero]
  · rename_i hin
    exact ⟨hpos, not_le.mp hin, rfl⟩

theorem compareSegments_eq (left : List DigitSegment) (lo : ℕ) (right : List DigitSegment) (ro : ℕ)
    (hl : ∀ s ∈ left, 0 < segmentLen s) (hr : ∀ s ∈ right, 0 < segmentLen s)
    (hlo : Within left lo) (hro : Within right ro) : compareSegments left lo right ro
      = compareDigits ((expand left).drop lo) ((expand right).drop ro) := by
  induction hsize : left.length + right.length using Nat.strong_induction_on
    generalizing left lo right ro with
  | _ size ih =>
    cases left with
    | nil =>
      cases hlo
      cases right <;> rw [compareSegments] <;> simp [expand, compareDigits]
    | cons l ls =>
      cases right with
      | nil =>
        cases hro
        rw [compareSegments]
        · cases (expand (l :: ls)).drop lo <;> rfl
        · simp
      | cons r rs =>
        have hlin : lo < segmentLen l := hlo
        have hrin : ro < segmentLen r := hro
        obtain ⟨n, hn⟩ : ∃ n, n = min (segmentLen l - lo) (segmentLen r - ro) := ⟨_, rfl⟩
        have hpos : 0 < n := by omega
        have hadvL := advanceSegment_spec (lo + n) hl (by omega)
        have hadvR := advanceSegment_spec (ro + n) hr (by omega)
        have hsplit : ∀ (s : DigitSegment) (rest : List DigitSegment) (offset : ℕ),
            offset + n ≤ segmentLen s → (expand (s :: rest)).drop offset
              = (s.digits.drop offset).take n ++ (expand (s :: rest)).drop (offset + n) := by
          intro s rest offset hin
          rw [expand_cons, drop_append_of_le_length (by rw [length_digits]; omega),
            drop_append_of_le_length (by rw [length_digits]; omega), ← append_assoc,
            ← drop_drop, take_append_drop]
        have hlengths : ((l.digits.drop lo).take n).length =
            ((r.digits.drop ro).take n).length := by
          rw [length_take, length_take, length_drop, length_drop, length_digits, length_digits]
          omega
        have hrec := ih _ ?_ (advanceSegment l ls (lo + n)).1 (advanceSegment l ls (lo + n)).2
          (advanceSegment r rs (ro + n)).1 (advanceSegment r rs (ro + n)).2 hadvL.1 hadvR.1
          hadvL.2.1 hadvR.2.1 rfl
        · rw [compareSegments, hsplit l ls lo (by omega), hsplit r rs ro (by omega),
            compareDigits_append hlengths, ← compareChunks_eq hn hpos]
          rw [segmentChunk_length, segmentChunk_length, ← hn, hrec, hadvL.2.2, hadvR.2.2]
          cases compareChunks l lo r ro <;> rfl
        · -- the shorter stretch uses up a segment
          rw [← hsize, length_advanceSegment, length_advanceSegment]
          simp only [length_cons]
          split <;> split <;> omega

namespace VirtualMagnitude

variable {m m' : VirtualMagnitude}

def digits (m : VirtualMagnitude) : Text := expand m.segments

def value (m : VirtualMagnitude) : ℕ := Decimal.value m.digits

theorem length_eq (m : VirtualMagnitude) : m.length = m.digits.length := by
  rw [m.relengthed, digits, length_expand]

structure Canonical (m : VirtualMagnitude) : Prop where
  nonempty : ∀ s ∈ m.segments, 0 < segmentLen s
  isDigits : IsDigits m.digits
  lead : ∀ c ∈ m.digits.head?, c ≠ '0'

theorem Canonical.value_lt (h : Canonical m) : m.value < 10 ^ m.length := by
  rw [length_eq]
  exact Decimal.value_lt h.isDigits

theorem Canonical.le_value (h : Canonical m) (hpos : 0 < m.length) :
    10 ^ (m.length - 1) ≤ m.value := by
  rw [length_eq] at hpos ⊢
  unfold value
  have hlead := h.lead
  have hdigits := h.isDigits
  cases hds : m.digits with
  | nil =>
    rw [hds] at hpos
    cases hpos
  | cons c ds =>
    rw [hds] at hlead hdigits
    exact Decimal.le_value (hdigits c mem_cons_self) (hlead c rfl)

theorem Canonical.length_eq_zero (h : Canonical m) : m.length = 0 ↔ m.value = 0 := by
  constructor
  · intro hzero
    have hlt := h.value_lt
    rw [hzero] at hlt
    omega
  · intro hzero
    by_contra hne
    have hle := h.le_value (Nat.pos_of_ne_zero hne)
    have hpow : 0 < 10 ^ (m.length - 1) := Nat.pow_pos (by decide)
    omega

theorem lt_of_length_lt (h : Canonical m) (h' : Canonical m') (hlt : m.length < m'.length) :
    m.value < m'.value :=
  calc m.value < 10 ^ m.length := h.value_lt
    _ ≤ 10 ^ (m'.length - 1) := Nat.pow_le_pow_right (by decide) (by omega)
    _ ≤ m'.value := h'.le_value (by omega)

theorem cmp_eq (h : Canonical m) (h' : Canonical m') : m.cmp m' = compare m.value m'.value := by
  unfold cmp
  rcases Nat.lt_trichotomy m.length m'.length with hlt | heq | hgt
  · rw [compare_lt_iff_lt.mpr hlt, compare_lt_iff_lt.mpr (lt_of_length_lt h h' hlt)]
  · have hlength : m.digits.length = m'.digits.length := by rw [← length_eq, ← length_eq, heq]
    rw [compare_eq_iff_eq.mpr heq]
    exact (compareSegments_eq m.segments 0 m'.segments 0 h.nonempty h'.nonempty
      (within_zero h.nonempty) (within_zero h'.nonempty)).trans
      (compareDigits_eq hlength h.isDigits h'.isDigits)
  · rw [compare_gt_iff_gt.mpr hgt, compare_gt_iff_gt.mpr (lt_of_length_lt h' h hgt)]

end VirtualMagnitude

theorem value_reverse (l : Text) : Decimal.value l.reverse = Nat.ofDigits 10 (l.map digit) := by
  rw [Decimal.value, map_reverse, reverse_reverse]

theorem toNat_ofNat_digit {n : ℕ} (h : n ≤ 57) : (Char.ofNat n).toNat = n :=
  Char.toNat_ofNat n |>.trans (if_pos (Or.inl (by omega)))

theorem incrementReversed_ne_nil (l : Text) : incrementReversed l ≠ [] := by
  unfold incrementReversed
  repeat' split
  all_goals exact cons_ne_nil _ _

theorem incrementReversed_spec {l : Text} (h : IsDigits l) : IsDigits (incrementReversed l) ∧
      Nat.ofDigits 10 ((incrementReversed l).map digit) = Nat.ofDigits 10 (l.map digit) + 1 ∧
      ((∀ c ∈ l.getLast?, c ≠ '0') → ∀ c ∈ (incrementReversed l).getLast?, c ≠ '0') := by
  induction l with
  | nil => exact ⟨by simp [incrementReversed, IsDigits], rfl, by simp [incrementReversed]⟩
  | cons c rest ih =>
    obtain ⟨hdigit, hrest⟩ := isDigits_cons.mp h
    have hc := isDigit_bounds hdigit
    rw [incrementReversed]
    split
    · rename_i hlt
      have hcode : c.toNat < 57 := hlt
      have hnext : (Char.ofNat (c.toNat + 1)).toNat = c.toNat + 1 := toNat_ofNat_digit (by omega)
      refine ⟨isDigits_cons.mpr ⟨isDigit_of_bounds (by omega) (by omega), hrest⟩, ?_, ?_⟩
      · rw [map_cons, map_cons, Nat.ofDigits_cons, Nat.ofDigits_cons, digit, digit, hnext]
        push_cast
        omega
      · cases rest with
        | nil =>
          have hne : Char.ofNat (c.toNat + 1) ≠ '0' := by
            intro hzero
            have hcodes : c.toNat + 1 = 48 := hnext.symm.trans (congrArg Char.toNat hzero)
            omega
          simpa using fun _ => hne
        | cons d rest => simp only [getLast?_cons_cons, imp_self]
    · rename_i hge
      have hcode : ¬ c.toNat < 57 := hge
      obtain ⟨hdigits, hvalue, hlead⟩ := ih hrest
      refine ⟨isDigits_cons.mpr ⟨rfl, hdigits⟩, ?_, fun hlast => ?_⟩
      · have hzero : digit '0' = 0 := rfl
        have hnine : digit c = 9 := by
          rw [digit]
          omega
        rw [map_cons, map_cons, Nat.ofDigits_cons, Nat.ofDigits_cons, hvalue, hzero, hnine]
        ring
      · -- the carry never leaves a zero at the front
        obtain ⟨d, others, hinc⟩ := exists_cons_of_ne_nil (incrementReversed_ne_nil rest)
        rw [hinc] at hlead ⊢
        rw [getLast?_cons_cons]
        apply hlead
        cases rest with
        | nil => simp
        | cons e rest => rwa [getLast?_cons_cons] at hlast

theorem incrementDigits_spec {ds : Text} (h : IsDigits ds) (hlead : ∀ c ∈ ds.head?, c ≠ '0') :
    IsDigits (incrementDigits ds) ∧ Decimal.value (incrementDigits ds) = Decimal.value ds + 1 ∧
      ∀ c ∈ (incrementDigits ds).head?, c ≠ '0' := by
  have hrev : IsDigits ds.reverse := fun c hc => h c (mem_reverse.mp hc)
  obtain ⟨hdigits, hvalue, hlast⟩ := incrementReversed_spec hrev
  refine ⟨fun c hc => hdigits c (mem_reverse.mp hc), ?_, ?_⟩
  · rw [incrementDigits, value_reverse, hvalue, ← value_reverse, reverse_reverse]
  · rw [incrementDigits, head?_reverse]
    refine hlast ?_
    rwa [getLast?_reverse]

theorem decrementReversed_spec {l : Text} (h : IsDigits l)
    (hpos : 0 < Nat.ofDigits 10 (l.map digit)) : IsDigits (decrementReversed l) ∧
      Nat.ofDigits 10 ((decrementReversed l).map digit) + 1 = Nat.ofDigits 10 (l.map digit) := by
  induction l with
  | nil => exact absurd hpos (by decide)
  | cons c rest ih =>
    obtain ⟨hdigit, hrest⟩ := isDigits_cons.mp h
    have hc := isDigit_bounds hdigit
    rw [decrementReversed]
    split
    · rename_i hgt
      have hcode : 48 < c.toNat := hgt
      have hprev : (Char.ofNat (c.toNat - 1)).toNat = c.toNat - 1 := toNat_ofNat_digit (by omega)
      refine ⟨isDigits_cons.mpr ⟨isDigit_of_bounds (by omega) (by omega), hrest⟩, ?_⟩
      rw [map_cons, map_cons, Nat.ofDigits_cons, Nat.ofDigits_cons, digit, digit, hprev]
      omega
    · rename_i hle
      have hcode : ¬ 48 < c.toNat := hle
      have hzero : digit c = 0 := by
        rw [digit]
        omega
      have hnine : digit '9' = 9 := rfl
      rw [map_cons, Nat.ofDigits_cons, hzero] at hpos
      obtain ⟨hdigits, hvalue⟩ := ih hrest (by omega)
      refine ⟨isDigits_cons.mpr ⟨rfl, hdigits⟩, ?_⟩
      rw [map_cons, map_cons, Nat.ofDigits_cons, Nat.ofDigits_cons, hzero, hnine, ← hvalue]
      ring

theorem decrementDigits_spec {ds : Text} (h : IsDigits ds) (hpos : 0 < Decimal.value ds) :
    IsDigits (decrementDigits ds) ∧ Decimal.value (decrementDigits ds) + 1 = Decimal.value ds ∧
      ∀ c ∈ (decrementDigits ds).head?, c ≠ '0' := by
  have hrev : IsDigits ds.reverse := fun c hc => h c (mem_reverse.mp hc)
  have hposRev : 0 < Nat.ofDigits 10 (ds.reverse.map digit) := by
    rwa [← value_reverse, reverse_reverse]
  obtain ⟨hdigits, hvalue⟩ := decrementReversed_spec hrev hposRev
  refine ⟨fun c hc => ?_, ?_, fun c hc => ?_⟩
  · exact hdigits c (mem_reverse.mp ((dropWhile_suffix _).subset hc))
  · rw [decrementDigits, value_dropWhile_zero, value_reverse, hvalue, ← value_reverse,
      reverse_reverse]
  · have hhead := Text.head_dropWhile c hc
    simpa using hhead

/-- Digits without a leading zero, followed by zeros only if there are any digits. -/
structure Written (ds : Text) (zeroes : ℕ) : Prop where
  isDigits : IsDigits ds
  lead : ∀ c ∈ ds.head?, c ≠ '0'
  zeroes : ds = [] → zeroes = 0

namespace VirtualMagnitude

variable {ds : Text} {zeroes : ℕ}

theorem dropWhile_of_lead (h : ∀ c ∈ ds.head?, c ≠ '0') : ds.dropWhile (· == '0') = ds := by
  cases ds with
  | nil => rfl
  | cons c ds => exact dropWhile_cons_of_neg (by simpa using h c rfl)

def runs (front : Text) (c : Char) (n : ℕ) : List DigitSegment :=
  (if front = [] then [] else [.text front]) ++ if n = 0 then [] else [.repeated c n]

section

variable (front : Text) (c : Char) (n : ℕ)

theorem expand_runs : expand (runs front c n) = front ++ replicate n c := by
  unfold runs
  by_cases hfront : front = [] <;> by_cases hn : n = 0 <;>
    simp [hfront, hn, expand, DigitSegment.digits]

theorem segmentLen_runs : ∀ s ∈ runs front c n, 0 < segmentLen s := by
  intro s hs
  rcases mem_append.mp hs with hs | hs
  · split at hs
    · cases hs
    · rename_i hfront
      rw [mem_singleton] at hs
      subst hs
      exact length_pos_of_ne_nil hfront
  · split at hs
    · cases hs
    · rename_i hn
      rw [mem_singleton] at hs
      subst hs
      exact Nat.pos_of_ne_zero hn

end

theorem head?_append_lead {front back : Text} (h : ∀ c ∈ front.head?, c ≠ '0')
    (hne : front ≠ []) : ∀ c ∈ (front ++ back).head?, c ≠ '0' := by
  rwa [head?_append_of_ne_nil _ hne]

theorem canonical_runs {front : Text} {c : Char} {n : ℕ} (hdigits : IsDigits front)
    (hlead : ∀ x ∈ front.head?, x ≠ '0') (hc : c.isDigit)
    (hempty : front = [] → 0 < n → c ≠ '0') : Canonical (relength (runs front c n)) := by
  refine ⟨segmentLen_runs front c n, ?_, ?_⟩
  · change IsDigits (expand (runs front c n))
    rw [expand_runs]
    exact hdigits.append (isDigits_replicate hc n)
  · change ∀ x ∈ (expand (runs front c n)).head?, x ≠ '0'
    rw [expand_runs]
    by_cases hfront : front = []
    · rw [hfront, nil_append]
      intro x hx
      have hmem := mem_of_mem_head? hx
      have hn : 0 < n := Nat.pos_of_ne_zero (mem_replicate.mp hmem).1
      rw [eq_of_mem_replicate hmem]
      exact hempty hfront hn
    · exact head?_append_lead hlead hfront

theorem fromDigits_eq_runs (h : ∀ c ∈ ds.head?, c ≠ '0') :
    fromDigits ds zeroes = relength (runs ds '0' zeroes) := by
  unfold fromDigits runs
  rw [dropWhile_of_lead h]
  by_cases hds : ds = [] <;> by_cases hz : zeroes = 0 <;>
    simp [hds, hz, Nat.pos_of_ne_zero]

theorem digits_fromDigits (h : Written ds zeroes) :
    (fromDigits ds zeroes).digits = ds ++ replicate zeroes '0' := by
  rw [fromDigits_eq_runs h.lead]
  exact expand_runs ds '0' zeroes

theorem value_fromDigits (h : Written ds zeroes) :
    (fromDigits ds zeroes).value = Decimal.value ds * 10 ^ zeroes := by
  rw [value, digits_fromDigits h, value_append_zeros]

theorem canonical_fromDigits (h : Written ds zeroes) : Canonical (fromDigits ds zeroes) := by
  rw [fromDigits_eq_runs h.lead]
  refine canonical_runs h.isDigits h.lead rfl fun hds hz => ?_
  exact absurd (h.zeroes hds) hz.ne'

theorem written_nil : Written [] 0 := ⟨by simp [IsDigits], by simp, fun _ => rfl⟩

theorem written_one : Written ['1'] 0 := ⟨by simp [IsDigits], by simp, nofun⟩

theorem value_one : (fromDigits ['1'] 0).value = 1 := value_fromDigits written_one

theorem increment_fromDigits_text (h : Written ds 0) :
    Written (incrementDigits ds) 0 ∧ incrementDigits ds ≠ [] ∧
      (fromDigits ds 0).increment = fromDigits (incrementDigits ds) 0 := by
  obtain ⟨hdigits, hvalue, hlead⟩ := incrementDigits_spec h.isDigits h.lead
  have hne : incrementDigits ds ≠ [] := by
    intro hnil
    rw [hnil, Decimal.value_nil] at hvalue
    omega
  refine ⟨⟨hdigits, hlead, fun hnil => absurd hnil hne⟩, hne, ?_⟩
  rw [fromDigits_eq_runs h.lead, fromDigits_eq_runs hlead]
  by_cases hds : ds = []
  · subst hds
    rfl
  · simp [runs, increment, relength, hds, hne]

theorem increment_fromDigits_zeros {k : ℕ} (h : Written ds (k + 1)) :
    (fromDigits ds (k + 1)).increment = relength (runs ds '0' k ++ [.text ['1']]) := by
  have hds : ds ≠ [] := fun hnil => absurd (h.zeroes hnil) (Nat.succ_ne_zero k)
  rw [fromDigits_eq_runs h.lead]
  by_cases hk : k = 0 <;> simp [runs, increment, relength, hds, hk]

theorem increment_spec (h : Written ds zeroes) : Canonical (fromDigits ds zeroes).increment ∧
      (fromDigits ds zeroes).increment.value = (fromDigits ds zeroes).value + 1 := by
  cases zeroes with
  | zero =>
    obtain ⟨hwritten, -, heq⟩ := increment_fromDigits_text h
    have hvalue := (incrementDigits_spec h.isDigits h.lead).2.1
    rw [heq]
    refine ⟨canonical_fromDigits hwritten, ?_⟩
    rw [value_fromDigits hwritten, value_fromDigits h, hvalue]
    ring
  | succ k =>
    have hds : ds ≠ [] := fun hnil => absurd (h.zeroes hnil) (Nat.succ_ne_zero k)
    have hzero : ('0' : Char).isDigit := rfl
    have hexpand : expand (runs ds '0' k ++ [.text ['1']])
        = ds ++ (replicate k '0' ++ ['1']) := by
      rw [expand_append, expand_runs, append_assoc]
      rfl
    rw [increment_fromDigits_zeros h]
    refine ⟨⟨fun s hs => ?_, ?_, ?_⟩, ?_⟩
    · rcases mem_append.mp hs with hs | hs
      · exact segmentLen_runs ds '0' k s hs
      · rw [mem_singleton] at hs
        subst hs
        exact Nat.one_pos
    · change IsDigits (expand (runs ds '0' k ++ [.text ['1']]))
      rw [hexpand]
      exact h.isDigits.append ((isDigits_replicate hzero k).append written_one.isDigits)
    · change ∀ c ∈ (expand (runs ds '0' k ++ [.text ['1']])).head?, c ≠ '0'
      rw [hexpand]
      exact head?_append_lead h.lead hds
    · have hone : digit '1' = 1 := rfl
      rw [value_fromDigits h]
      change Decimal.value (expand (runs ds '0' k ++ [.text ['1']])) = _
      rw [hexpand, Decimal.value_append, Decimal.value_append, value_zeros, value_singleton,
        length_append, length_replicate, length_singleton, hone]
      ring

theorem decrement_fromDigits (h : Written ds zeroes) (hne : ds ≠ [])
    (hlead : ∀ c ∈ (decrementDigits ds).head?, c ≠ '0') :
    (fromDigits ds zeroes).decrement = relength (runs (decrementDigits ds) '9' zeroes) := by
  have hstrip : ∀ rest, stripLeadingZeroSegments (.text (decrementDigits ds) :: rest)
      = if decrementDigits ds = [] then stripLeadingZeroSegments rest
        else .text (decrementDigits ds) :: rest := by
    intro rest
    rw [stripLeadingZeroSegments, dropWhile_of_lead hlead]
    simp [List.isEmpty_iff]
  rw [fromDigits_eq_runs h.lead]
  rcases Nat.eq_zero_or_pos zeroes with hz | hz
  · subst hz
    by_cases hnil : decrementDigits ds = [] <;>
      simp [runs, decrement, relength, borrowFrom, hne, hstrip, hnil, stripLeadingZeroSegments]
  · by_cases hnil : decrementDigits ds = [] <;>
      simp [runs, decrement, relength, borrowFrom, hne, hstrip, hnil, hz, hz.ne',
        stripLeadingZeroSegments]

theorem decrement_spec (h : Written ds zeroes) (hne : ds ≠ []) :
    Canonical (fromDigits ds zeroes).decrement ∧
      (fromDigits ds zeroes).decrement.value + 1 = (fromDigits ds zeroes).value := by
  have hpos : 0 < Decimal.value ds := by
    obtain ⟨c, rest, rfl⟩ := exists_cons_of_ne_nil hne
    have hle : 10 ^ rest.length ≤ Decimal.value (c :: rest) :=
      Decimal.le_value (h.isDigits c mem_cons_self) (h.lead c rfl)
    exact (Nat.pow_pos (by decide)).trans_le hle
  obtain ⟨hdigits, hvalue, hlead⟩ := decrementDigits_spec h.isDigits hpos
  rw [decrement_fromDigits h hne hlead]
  refine ⟨canonical_runs hdigits hlead rfl fun _ _ => by decide, ?_⟩
  rw [value_fromDigits h, ← hvalue]
  change Decimal.value (expand (runs (decrementDigits ds) '9' zeroes)) + 1 = _
  rw [expand_runs, Decimal.value_append, length_replicate, Nat.add_assoc, value_nines]
  ring

end VirtualMagnitude

namespace ExactInteger

open VirtualMagnitude

variable {a b : ExactInteger}

def value (a : ExactInteger) : Int := (a.sign : Int) * a.magnitude.value

structure Proper (a : ExactInteger) : Prop where
  canonical : Canonical a.magnitude
  positive : a.sign ≠ 0 → 0 < a.magnitude.value

theorem cmp_eq (ha : Proper a) (hb : Proper b) : a.cmp b = compare a.value b.value := by
  refine compareSigned_eq (fun h => ?_) (fun h => ?_) fun _ _ => ?_
  · exact_mod_cast ha.positive h
  · exact_mod_cast hb.positive h
  · rw [VirtualMagnitude.cmp_eq ha.canonical hb.canonical]
    exact (compare_map Nat.strictMono_cast _ _).symm

/-- A magnitude as rounding leaves it: digits and zeros, with digits unless it is zero. -/
structure Plain (a : ExactInteger) : Prop where
  written : ∃ ds zeroes, Written ds zeroes ∧ a.magnitude = fromDigits ds zeroes ∧
    (a.sign ≠ 0 → ds ≠ [])

theorem written_pos {ds : Text} {zeroes : ℕ} (h : Written ds zeroes) (hne : ds ≠ []) :
    0 < (fromDigits ds zeroes).value := by
  have hdec := (decrement_spec h hne).2
  omega

theorem Plain.proper (h : Plain a) : Proper a := by
  obtain ⟨ds, zeroes, hwritten, heq, hne⟩ := h.written
  refine ⟨heq ▸ canonical_fromDigits hwritten, fun hsign => ?_⟩
  rw [heq]
  exact written_pos hwritten (hne hsign)

theorem proper_one (s : SignType) : Proper { sign := s, magnitude := fromDigits ['1'] 0 } ∧
      value { sign := s, magnitude := fromDigits ['1'] 0 } = s := by
  refine ⟨⟨canonical_fromDigits written_one, fun _ => ?_⟩, ?_⟩
  · rw [value_one]
    exact Nat.one_pos
  · rw [value, value_one, Nat.cast_one, mul_one]

theorem increment_proper (h : Plain a) : Proper { a with magnitude := a.magnitude.increment } ∧
      value { a with magnitude := a.magnitude.increment } = a.value + a.sign := by
  obtain ⟨ds, zeroes, hwritten, heq, -⟩ := h.written
  have hspec := increment_spec hwritten
  rw [← heq] at hspec
  refine ⟨⟨hspec.1, fun _ => ?_⟩, ?_⟩
  · rw [hspec.2]
    exact Nat.succ_pos _
  · rw [value, value, hspec.2]
    push_cast
    ring

theorem towardsZero_proper (h : Plain a) (hsign : a.sign ≠ 0) :
    Proper a.towardsZero ∧ a.towardsZero.value = a.value - a.sign := by
  obtain ⟨ds, zeroes, hwritten, heq, hne⟩ := h.written
  have hspec := decrement_spec hwritten (hne hsign)
  rw [← heq] at hspec
  have hzero := hspec.1.length_eq_zero
  have hvalue : (a.sign : Int) * a.magnitude.decrement.value = a.value - a.sign := by
    rw [value, ← hspec.2]
    push_cast
    ring
  unfold towardsZero
  by_cases hempty : a.magnitude.decrement.length = 0
  · simp only [if_pos hempty]
    refine ⟨⟨hspec.1, fun hs => absurd rfl hs⟩, ?_⟩
    rw [← hvalue, hzero.mp hempty, value]
    simp
  · simp only [if_neg hempty]
    refine ⟨⟨hspec.1, fun _ => ?_⟩, hvalue⟩
    exact Nat.pos_of_ne_zero fun hv => hempty (hzero.mpr hv)

theorem value_of_sign_zero (h : a.sign = 0) : a.value = 0 := by
  rw [value, h]
  simp

theorem addOne_spec (h : Plain a) : Proper a.addOne ∧ a.addOne.value = a.value + 1 := by
  unfold addOne
  cases hs : a.sign with
  | neg =>
    have hspec := towardsZero_proper h (hs ▸ by decide)
    refine ⟨hspec.1, ?_⟩
    rw [hspec.2, hs]
    rfl
  | zero =>
    rw [value_of_sign_zero hs]
    exact proper_one 1
  | pos =>
    have hspec := increment_proper h
    rw [hs] at hspec
    exact hspec

theorem subtractOne_spec (h : Plain a) :
    Proper a.subtractOne ∧ a.subtractOne.value = a.value - 1 := by
  unfold subtractOne
  cases hs : a.sign with
  | neg =>
    have hspec := increment_proper h
    rw [hs] at hspec
    exact hspec
  | zero =>
    rw [value_of_sign_zero hs]
    exact proper_one (-1)
  | pos =>
    have hspec := towardsZero_proper h (hs ▸ by decide)
    refine ⟨hspec.1, ?_⟩
    rw [hspec.2, hs]
    rfl

def rounded (rounding : IntegerRounding) (q : ℚ) : Int :=
  match rounding with
  | .floor => ⌊q⌋
  | .ceil => ⌈q⌉

variable {v : ExactDecimal} (rounding : IntegerRounding)

theorem rounded_intCast (n : Int) : rounded rounding n = n := by
  cases rounding with
  | floor => exact Int.floor_intCast n
  | ceil => exact Int.ceil_intCast n

theorem rounded_signed {s : SignType} (hs : s ≠ 0) (w : ℕ) {f : ℚ} (hpos : 0 < f) (hlt : f < 1) :
    rounded rounding ((s : ℚ) * (w + f))
      = (s : Int) * (if roundsAway s rounding then w + 1 else w : ℕ) := by
  cases s with
  | zero => exact absurd rfl hs
  | pos | neg =>
    cases rounding <;> simp only [rounded, roundsAway]
    case floor =>
      rw [Int.floor_eq_iff]
      constructor <;> simp <;> linarith
    case ceil =>
      rw [Int.ceil_eq_iff]
      constructor <;> simp <;> linarith

theorem plain_zero : Plain zero :=
  ⟨⟨[], 0, written_nil, rfl, fun h => absurd rfl h⟩⟩

theorem plain_one (s : SignType) : Plain { sign := s, magnitude := fromDigits ['1'] 0 } :=
  ⟨⟨['1'], 0, written_one, rfl, fun _ => cons_ne_nil _ _⟩⟩

theorem magnitude_lt_one (hdigits : IsDigits v.digits) (h : (v.digits.length : Int) ≤ -v.exponent) :
    v.magnitude < 1 := by
  refine (ExactDecimal.magnitude_lt hdigits).trans_le ?_
  rw [← zpow_zero (10 : ℚ)]
  exact zpow_le_zpow_right₀ (by norm_num) (by omega)

theorem magnitude_split {whole fraction : Text} (hds : whole ++ fraction = v.digits)
    (hexp : v.exponent = -(fraction.length : Int)) : v.magnitude = (Decimal.value whole : ℚ) +
      (Decimal.value fraction : ℚ) / 10 ^ fraction.length := by
  have hten : (10 : ℚ) ^ fraction.length ≠ 0 := pow_ne_zero _ (by norm_num)
  rw [ExactDecimal.magnitude, hexp, zpow_neg, zpow_natCast, ← hds, Decimal.value_append]
  push_cast
  field_simp

theorem fraction_bounds {ds : Text} (hdigits : IsDigits ds)
    (hlast : ∃ rest c, ds = rest ++ [c] ∧ c ≠ '0') :
    (0 : ℚ) < (Decimal.value ds : ℚ) / 10 ^ ds.length ∧
      (Decimal.value ds : ℚ) / 10 ^ ds.length < 1 := by
  have hpos : 0 < Decimal.value ds := by
    obtain ⟨rest, c, rfl, hc⟩ := hlast
    have hdigit := digit_pos (hdigits c (by simp)) hc
    rw [value_concat]
    omega
  have hten : (0 : ℚ) < 10 ^ ds.length := pow_pos (by norm_num) _
  refine ⟨div_pos (by exact_mod_cast hpos) hten, ?_⟩
  rw [div_lt_one hten]
  exact_mod_cast Decimal.value_lt hdigits

theorem written_of_lead {ds : Text} {k : ℕ} (hdigits : IsDigits ds)
    (hlead : ∃ c rest, ds = c :: rest ∧ c ≠ '0') : Written ds k ∧ ds ≠ [] := by
  obtain ⟨c, rest, rfl, hc⟩ := hlead
  exact ⟨⟨hdigits, by simpa using hc, nofun⟩, cons_ne_nil _ _⟩

theorem fromDecimalRounded_fraction (hsign : v.sign ≠ 0) (hdigits : IsDigits v.digits)
    (hlead : ∃ c ds, v.digits = c :: ds ∧ c ≠ '0') (hlast : ∃ ds c, v.digits = ds ++ [c] ∧ c ≠ '0')
    (hexp : v.exponent < 0) : Plain (fromDecimalRounded v rounding) ∧
      (fromDecimalRounded v rounding).value = rounded rounding v.value := by
  unfold fromDecimalRounded
  rw [if_neg hsign, if_neg (by omega)]
  dsimp only
  by_cases hsmall : (v.digits.length : Int) ≤ -v.exponent
  · -- nothing before the point
    have hround := rounded_signed rounding hsign 0 (ExactDecimal.magnitude_pos hdigits hlead)
      (magnitude_lt_one hdigits hsmall)
    rw [Nat.cast_zero, zero_add] at hround
    rw [if_pos hsmall, ExactDecimal.value, hround]
    cases hr : roundsAway v.sign rounding with
    | true =>
      simp only [if_true, zero_add]
      exact ⟨plain_one v.sign, (proper_one v.sign).2.trans (by simp)⟩
    | false =>
      simp only [Bool.false_eq_true, if_false]
      exact ⟨plain_zero, (value_of_sign_zero rfl).trans (by simp)⟩
  · rw [if_neg hsmall]
    obtain ⟨k, hk⟩ : ∃ k : ℕ, v.exponent = -(k : Int) := ⟨(-v.exponent).toNat, by omega⟩
    have hscale : (-v.exponent).toNat = k := by omega
    have hsplit := take_append_drop (v.digits.length - k) v.digits
    have hfractionLength : (v.digits.drop (v.digits.length - k)).length = k := by
      rw [length_drop]
      omega
    have hwholeNil : v.digits.take (v.digits.length - k) ≠ [] := by
      rw [← length_pos_iff, length_take]
      omega
    simp only [hscale]
    generalize v.digits.take (v.digits.length - k) = whole at hsplit hwholeNil ⊢
    generalize v.digits.drop (v.digits.length - k) = fraction at hsplit hfractionLength ⊢
    rw [← hsplit] at hdigits hlead hlast
    obtain ⟨hwholeDigits, hfractionDigits⟩ := forall_mem_append.mp hdigits
    -- the digits before the point start as all the digits do, those after it end as all do
    obtain ⟨hwritten, -⟩ : Written whole 0 ∧ whole ≠ [] := by
      obtain ⟨c, ds, hds, hc⟩ := hlead
      obtain ⟨d, rest, rfl⟩ := exists_cons_of_ne_nil hwholeNil
      exact written_of_lead hwholeDigits ⟨d, rest, rfl, (cons.inj hds).1 ▸ hc⟩
    have hfraction : ∃ rest c, fraction = rest ++ [c] ∧ c ≠ '0' := by
      obtain ⟨ds, c, hds, hc⟩ := hlast
      rcases eq_nil_or_concat' fraction with rfl | ⟨rest, d, rfl⟩
      · simp at hfractionLength
        omega
      · rw [← append_assoc] at hds
        have hend := (append_inj' hds rfl).2
        exact ⟨rest, d, rfl, (cons.inj hend).1 ▸ hc⟩
    have hany : fraction.any (· != '0') := by
      obtain ⟨rest, c, rfl, hc⟩ := hfraction
      simp [hc]
    have hbounds := fraction_bounds hfractionDigits hfraction
    have hround := rounded_signed rounding hsign (Decimal.value whole) hbounds.1 hbounds.2
    rw [← magnitude_split hsplit (hfractionLength.symm ▸ hk)] at hround
    rw [ExactDecimal.value, hround]
    simp only [hany, Bool.true_and]
    obtain ⟨ds, hds, hne, hmagnitude, hvalue⟩ : ∃ ds, Written ds 0 ∧ ds ≠ [] ∧
        (if roundsAway v.sign rounding then (fromDigits whole 0).increment
          else fromDigits whole 0) = fromDigits ds 0 ∧
        Decimal.value ds = if roundsAway v.sign rounding then Decimal.value whole + 1
          else Decimal.value whole := by
      split
      · obtain ⟨hwritten', hne, hinc⟩ := increment_fromDigits_text hwritten
        exact ⟨_, hwritten', hne, hinc, (incrementDigits_spec hwholeDigits hwritten.lead).2.1⟩
      · exact ⟨whole, hwritten, hwholeNil, rfl, rfl⟩
    have hlength : (fromDigits ds 0).length ≠ 0 := by
      rw [Ne, (canonical_fromDigits hds).length_eq_zero]
      exact (written_pos hds hne).ne'
    simp only [hmagnitude, if_neg hlength]
    refine ⟨⟨⟨ds, 0, hds, rfl, fun _ => hne⟩⟩, ?_⟩
    rw [ExactInteger.value, value_fromDigits hds, pow_zero, Nat.mul_one, hvalue]

theorem fromDecimalRounded_spec (h : v.Normal) (rounding : IntegerRounding) :
    Plain (fromDecimalRounded v rounding) ∧
      (fromDecimalRounded v rounding).value = rounded rounding v.value := by
  cases h with
  | zero =>
    refine ⟨plain_zero, ?_⟩
    rw [ExactDecimal.value_zero]
    exact (rounded_intCast rounding 0).symm
  | nonzero hsign hdigits hlead hlast =>
    by_cases hexp : 0 ≤ v.exponent
    · obtain ⟨k, hk⟩ := Int.eq_ofNat_of_zero_le hexp
      obtain ⟨hwritten, hne⟩ : Written v.digits k ∧ v.digits ≠ [] := written_of_lead hdigits hlead
      unfold fromDecimalRounded
      rw [if_neg hsign, if_pos hexp, hk, Int.toNat_natCast]
      refine ⟨⟨⟨_, k, hwritten, rfl, fun _ => hne⟩⟩, ?_⟩
      have hvalue : v.value =
          (((v.sign : Int) * (Decimal.value v.digits * 10 ^ k : ℕ) : Int) : ℚ) := by
        rw [ExactDecimal.value, ExactDecimal.magnitude, hk, zpow_natCast]
        push_cast
        ring
      rw [hvalue, rounded_intCast, ExactInteger.value, value_fromDigits hwritten]
    · exact fromDecimalRounded_fraction rounding hsign hdigits hlead hlast (by omega)

end ExactInteger

end Fornax.Manifest
