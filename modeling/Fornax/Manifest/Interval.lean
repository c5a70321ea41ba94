import Fornax.Manifest.ExactInteger

namespace Fornax.Manifest

open Option ExactDecimal

inductive Node
  | object (fields : List (String × Node))
  | array (items : List Node)
  | string (s : String)
  | number (value : ExactDecimal)
  | bool (b : Bool)
  | null

def field (object : List (String × Node)) (key : String) : Option Node :=
  (object.find? fun f => f.1 == key).map (·.2)

def number : Option Node → Except HostManifestRejection (Option ExactDecimal)
  | none => .ok none
  | some (.number value) => .ok (some value)
  | some _ => .error .contractViolation

/-- The inclusive bound where its comparison with the exclusive one is `winning`, else the exclusive
one; with it whether it is strict. -/
def stricter (winning : Ordering) : Option ExactDecimal → Option ExactDecimal →
    Option (ExactDecimal × Bool)
  | some i, some e => if i.cmp e = winning then some (i, false) else some (e, true)
  | some i, none => some (i, false)
  | none, some e => some (e, true)
  | none, none => none

def stricterLower (inclusive exclusive : Option ExactDecimal) : Option (ExactDecimal × Bool) :=
  stricter .gt inclusive exclusive

def stricterUpper (inclusive exclusive : Option ExactDecimal) : Option (ExactDecimal × Bool) :=
  stricter .lt inclusive exclusive

def leastInteger (lower : ExactDecimal) (strict : Bool) : ExactInteger :=
  if strict then (ExactInteger.fromDecimalRounded lower .floor).addOne
  else ExactInteger.fromDecimalRounded lower .ceil

def greatestInteger (upper : ExactDecimal) (strict : Bool) : ExactInteger :=
  if strict then (ExactInteger.fromDecimalRounded upper .ceil).subtractOne
  else ExactInteger.fromDecimalRounded upper .floor

def validateBounds (lower : ExactDecimal) (lowerStrict : Bool) (upper : ExactDecimal)
    (upperStrict integer : Bool) : Except HostManifestRejection Unit :=
  match lower.cmp upper with
  | .gt => .error .contractViolation
  | .eq =>
    if lowerStrict || upperStrict then .error .contractViolation
    else if integer && !lower.isIntegral then .error .contractViolation
    else .ok ()
  | .lt =>
    if !integer then .ok ()
    else if (leastInteger lower lowerStrict).cmp (greatestInteger upper upperStrict) = .gt then
      .error .contractViolation
    else .ok ()

def validateNumericInterval (object : List (String × Node)) (integer : Bool) :
    Except HostManifestRejection Unit := do
  let lowerInclusive ← number (field object "minimum")
  let lowerExclusive ← number (field object "exclusiveMinimum")
  let upperInclusive ← number (field object "maximum")
  let upperExclusive ← number (field object "exclusiveMaximum")
  match stricterLower lowerInclusive lowerExclusive,
      stricterUpper upperInclusive upperExclusive with
  | some (lower, lowerStrict), some (upper, upperStrict) =>
    validateBounds lower lowerStrict upper upperStrict integer
  | _, _ => .ok ()

def Above (bound : ExactDecimal × Bool) (q : ℚ) : Prop :=
  if bound.2 then bound.1.value < q else bound.1.value ≤ q

def Below (bound : ExactDecimal × Bool) (q : ℚ) : Prop :=
  if bound.2 then q < bound.1.value else q ≤ bound.1.value

def OfKind (integer : Bool) (q : ℚ) : Prop := integer = true → ∃ n : Int, q = n

variable {inclusive exclusive : Option ExactDecimal}

theorem stricter_spec {winning : Ordering} {weak strict : ExactDecimal → Prop}
    (hwins : ∀ i ∈ inclusive, ∀ e ∈ exclusive, i.cmp e = winning → weak i → strict e)
    (hloses : ∀ i ∈ inclusive, ∀ e ∈ exclusive, i.cmp e ≠ winning → strict e → weak i) :
    ((∀ i ∈ inclusive, weak i) ∧ ∀ e ∈ exclusive, strict e) ↔
      ∀ bound ∈ stricter winning inclusive exclusive,
        if bound.2 then strict bound.1 else weak bound.1 := by
  cases inclusive with
  | none => cases exclusive <;> simp [stricter]
  | some i =>
    cases exclusive with
    | none => simp [stricter]
    | some e =>
      by_cases hwin : i.cmp e = winning
      · simpa [stricter, hwin] using hwins i rfl e rfl hwin
      · simpa [stricter, hwin] using hloses i rfl e rfl hwin

variable (hi : ∀ i ∈ inclusive, i.Normal) (he : ∀ e ∈ exclusive, e.Normal)

include hi he

theorem stricterLower_spec (q : ℚ) :
    ((∀ i ∈ inclusive, i.value ≤ q) ∧ ∀ e ∈ exclusive, e.value < q) ↔
      ∀ bound ∈ stricterLower inclusive exclusive, Above bound q := by
  refine stricter_spec (fun i hin e hex hgt hle => ?_) fun i hin e hex hgt hlt => ?_
  · rw [cmp_eq (hi i hin) (he e hex), compare_gt_iff_gt] at hgt
    exact lt_of_lt_of_le hgt hle
  · rw [cmp_eq (hi i hin) (he e hex), ne_eq, compare_gt_iff_gt] at hgt
    exact (not_lt.mp hgt).trans hlt.le

theorem stricterUpper_spec (q : ℚ) :
    ((∀ i ∈ inclusive, q ≤ i.value) ∧ ∀ e ∈ exclusive, q < e.value) ↔
      ∀ bound ∈ stricterUpper inclusive exclusive, Below bound q := by
  refine stricter_spec (fun i hin e hex hlt hle => ?_) fun i hin e hex hlt hq => ?_
  · rw [cmp_eq (hi i hin) (he e hex), compare_lt_iff_lt] at hlt
    exact lt_of_le_of_lt hle hlt
  · rw [cmp_eq (hi i hin) (he e hex), ne_eq, compare_lt_iff_lt] at hlt
    exact hq.le.trans (not_lt.mp hlt)

theorem normal_of_mem_stricter {winning : Ordering} :
    ∀ bound ∈ stricter winning inclusive exclusive, bound.1.Normal := by
  intro bound hbound
  unfold stricter at hbound
  split at hbound
  · split at hbound <;> cases hbound
    · exact hi _ rfl
    · exact he _ rfl
  · cases hbound
    exact hi _ rfl
  · cases hbound
    exact he _ rfl
  · cases hbound

omit hi he

section

variable {lower upper : ExactDecimal} {lowerStrict upperStrict : Bool}

theorem leastInteger_spec (h : lower.Normal) (lowerStrict : Bool) :
    (leastInteger lower lowerStrict).Proper ∧
      ∀ n : Int, (leastInteger lower lowerStrict).value ≤ n ↔ Above (lower, lowerStrict) n := by
  cases lowerStrict with
  | true =>
    have hround := ExactInteger.fromDecimalRounded_spec h .floor
    have hadd := ExactInteger.addOne_spec hround.1
    refine ⟨hadd.1, fun n => ?_⟩
    simp only [leastInteger, if_true, Above, hadd.2, hround.2, ExactInteger.rounded]
    exact Int.floor_lt
  | false =>
    have hround := ExactInteger.fromDecimalRounded_spec h .ceil
    refine ⟨hround.1.proper, fun n => ?_⟩
    simp only [leastInteger, Bool.false_eq_true, if_false, Above, hround.2, ExactInteger.rounded]
    exact Int.ceil_le

theorem greatestInteger_spec (h : upper.Normal) (upperStrict : Bool) :
    (greatestInteger upper upperStrict).Proper ∧
      ∀ n : Int, n ≤ (greatestInteger upper upperStrict).value ↔ Below (upper, upperStrict) n := by
  cases upperStrict with
  | true =>
    have hround := ExactInteger.fromDecimalRounded_spec h .ceil
    have hsub := ExactInteger.subtractOne_spec hround.1
    refine ⟨hsub.1, fun n => ?_⟩
    simp only [greatestInteger, if_true, Below, hsub.2, hround.2, ExactInteger.rounded]
    rw [Int.le_sub_one_iff, Int.lt_ceil]
  | false =>
    have hround := ExactInteger.fromDecimalRounded_spec h .floor
    refine ⟨hround.1.proper, fun n => ?_⟩
    simp only [greatestInteger, Bool.false_eq_true, if_false, Below, hround.2, ExactInteger.rounded]
    exact Int.le_floor

theorem le_of_between {q : ℚ} (h : Above (lower, lowerStrict) q)
    (h' : Below (upper, upperStrict) q) : lower.value ≤ upper.value ∧
      (lower.value = upper.value → lowerStrict = false ∧ upperStrict = false ∧
        q = lower.value) := by
  unfold Above at h
  unfold Below at h'
  cases lowerStrict <;> cases upperStrict <;>
    simp only [Bool.false_eq_true, if_false, if_true] at h h'
  · exact ⟨h.trans h', fun heq => ⟨rfl, rfl, le_antisymm (heq ▸ h') h⟩⟩
  · exact ⟨(h.trans_lt h').le, fun heq => absurd (h.trans_lt h') heq.not_lt⟩
  · exact ⟨(h.trans_le h').le, fun heq => absurd (h.trans_le h') heq.not_lt⟩
  · exact ⟨(h.trans h').le, fun heq => absurd (h.trans h') heq.not_lt⟩

theorem above_of_lt {q : ℚ} (h : lower.value < q) : Above (lower, lowerStrict) q := by
  unfold Above
  split
  · exact h
  · exact h.le

theorem below_of_lt {q : ℚ} (h : q < upper.value) : Below (upper, upperStrict) q := by
  unfold Below
  split
  · exact h
  · exact h.le

theorem validateBounds_ok_iff (hl : lower.Normal) (hu : upper.Normal)
    (lowerStrict upperStrict integer : Bool) :
    validateBounds lower lowerStrict upper upperStrict integer = .ok () ↔
      ∃ q, OfKind integer q ∧ Above (lower, lowerStrict) q ∧ Below (upper, upperStrict) q := by
  unfold validateBounds
  rw [cmp_eq hl hu]
  rcases lt_trichotomy lower.value upper.value with hlt | heq | hgt
  · rw [compare_lt_iff_lt.mpr hlt]
    cases integer with
    | false =>
      obtain ⟨q, hlow, hup⟩ := exists_between hlt
      simp only [Bool.not_false, if_true, true_iff]
      exact ⟨q, nofun, above_of_lt hlow, below_of_lt hup⟩
    | true =>
      obtain ⟨hleast, hleastIff⟩ := leastInteger_spec hl lowerStrict
      obtain ⟨hgreatest, hgreatestIff⟩ := greatestInteger_spec hu upperStrict
      simp only [Bool.not_true, Bool.false_eq_true, if_false,
        ExactInteger.cmp_eq hleast hgreatest, compare_gt_iff_gt]
      constructor
      · intro h
        have hle : (leastInteger lower lowerStrict).value
            ≤ (greatestInteger upper upperStrict).value := by
          by_contra hnot
          rw [if_pos (not_le.mp hnot)] at h
          cases h
        exact ⟨(leastInteger lower lowerStrict).value, fun _ => ⟨_, rfl⟩,
          (hleastIff _).mp le_rfl, (hgreatestIff _).mp hle⟩
      · rintro ⟨q, hkind, hlow, hup⟩
        obtain ⟨n, rfl⟩ := hkind rfl
        have hle := ((hleastIff n).mpr hlow).trans ((hgreatestIff n).mpr hup)
        rw [if_neg (not_lt.mpr hle)]
  · rw [compare_eq_iff_eq.mpr heq]
    have hintegral := isIntegral_iff hl
    constructor
    · intro h
      cases lowerStrict <;> cases upperStrict <;> simp only [Bool.or_self, Bool.or_true,
        Bool.true_or, if_true, reduceCtorEq, Bool.false_eq_true, if_false] at h
      refine ⟨lower.value, fun hint => ?_, le_refl lower.value, heq.le⟩
      subst hint
      rw [← hintegral]
      by_contra hnot
      simp [Bool.eq_false_of_not_eq_true hnot] at h
    · rintro ⟨q, hkind, hlow, hup⟩
      obtain ⟨hls, hus, hq⟩ := (le_of_between hlow hup).2 heq
      subst hls hus
      cases integer with
      | false => rfl
      | true =>
        rw [hq] at hkind
        simp [hintegral.mpr (hkind rfl)]
  · rw [compare_gt_iff_gt.mpr hgt]
    constructor
    · intro h
      cases h
    · rintro ⟨q, -, hlow, hup⟩
      exact absurd (le_of_between hlow hup).1 (not_le.mpr hgt)

variable (bound : ExactDecimal × Bool) (integer : Bool)

theorem exists_above : ∃ q, OfKind integer q ∧ Above bound q := by
  refine ⟨(⌊bound.1.value⌋ + 1 : Int), fun _ => ⟨_, rfl⟩, above_of_lt ?_⟩
  push_cast
  exact Int.lt_floor_add_one bound.1.value

theorem exists_below : ∃ q, OfKind integer q ∧ Below bound q := by
  refine ⟨(⌈bound.1.value⌉ - 1 : Int), fun _ => ⟨_, rfl⟩, below_of_lt ?_⟩
  push_cast
  linarith [Int.ceil_lt_add_one bound.1.value]

end

structure NumericBounds where
  minimum : Option NumberToken
  exclusiveMinimum : Option NumberToken
  maximum : Option NumberToken
  exclusiveMaximum : Option NumberToken

def NumericBounds.Satisfied (b : NumericBounds) (q : ℚ) : Prop :=
  (∀ t ∈ b.minimum, t.denotes ≤ q) ∧ (∀ t ∈ b.exclusiveMinimum, t.denotes < q) ∧
    (∀ t ∈ b.maximum, q ≤ t.denotes) ∧ ∀ t ∈ b.exclusiveMaximum, q < t.denotes

def Reads (node : Option Node) : Option NumberToken → Prop
  | none => node = none
  | some t => ∃ d, parse t.text = .ok d ∧ node = some (.number d)

structure Declares (object : List (String × Node)) (b : NumericBounds) : Prop where
  minimum : Reads (field object "minimum") b.minimum
  exclusiveMinimum : Reads (field object "exclusiveMinimum") b.exclusiveMinimum
  maximum : Reads (field object "maximum") b.maximum
  exclusiveMaximum : Reads (field object "exclusiveMaximum") b.exclusiveMaximum

theorem Reads.number_eq {node : Option Node} {token : Option NumberToken} (h : Reads node token) :
    ∃ d, number node = .ok d ∧ (∀ x ∈ d, x.Normal) ∧
      ∀ P : ℚ → Prop, (∀ x ∈ d, P x.value) ↔ ∀ t ∈ token, P t.denotes := by
  cases token with
  | none =>
    cases h
    exact ⟨none, rfl, by simp, by simp⟩
  | some t =>
    obtain ⟨d, hparse, rfl⟩ := h
    have hspec := parse_spec hparse
    refine ⟨some d, rfl, ?_, fun P => ?_⟩
    · intro x hx
      cases hx
      exact hspec.1
    · simp [hspec.2]

/-- A numeric interval is accepted exactly when some rational, for the kind integer
some integer, satisfies all the bounds that are present. -/
theorem validateNumericInterval_ok_iff {object : List (String × Node)} {b : NumericBounds}
    (h : Declares object b) (integer : Bool) :
    validateNumericInterval object integer = .ok () ↔
      ∃ q : ℚ, (integer = true → ∃ n : Int, q = n) ∧ b.Satisfied q := by
  obtain ⟨li, hli, hliNormal, hliValue⟩ := h.minimum.number_eq
  obtain ⟨le, hle, hleNormal, hleValue⟩ := h.exclusiveMinimum.number_eq
  obtain ⟨ui, hui, huiNormal, huiValue⟩ := h.maximum.number_eq
  obtain ⟨ue, hue, hueNormal, hueValue⟩ := h.exclusiveMaximum.number_eq
  have hsatisfied : ∀ q, b.Satisfied q ↔ (∀ bound ∈ stricterLower li le, Above bound q) ∧
      ∀ bound ∈ stricterUpper ui ue, Below bound q := by
    intro q
    rw [← stricterLower_spec hliNormal hleNormal, ← stricterUpper_spec huiNormal hueNormal,
      hliValue (· ≤ q), hleValue (· < q), huiValue (q ≤ ·), hueValue (q < ·), and_assoc]
    rfl
  have hlowerNormal : ∀ bound ∈ stricterLower li le, bound.1.Normal :=
    normal_of_mem_stricter hliNormal hleNormal
  have hupperNormal : ∀ bound ∈ stricterUpper ui ue, bound.1.Normal :=
    normal_of_mem_stricter huiNormal hueNormal
  have hrun : validateNumericInterval object integer =
      match stricterLower li le, stricterUpper ui ue with
      | some (lower, lowerStrict), some (upper, upperStrict) =>
        validateBounds lower lowerStrict upper upperStrict integer
      | _, _ => .ok () := by
    simp only [validateNumericInterval, hli, hle, hui, hue]
    rfl
  simp only [hrun, hsatisfied]
  cases hl : stricterLower li le with
  | none =>
    cases hu : stricterUpper ui ue with
    | none => simpa using ⟨(0 : ℚ), fun _ => ⟨0, by simp⟩⟩
    | some upper =>
      obtain ⟨q, hkind, hq⟩ := exists_below upper integer
      simpa using ⟨q, hkind, hq⟩
  | some lower =>
    cases hu : stricterUpper ui ue with
    | none =>
      obtain ⟨q, hkind, hq⟩ := exists_above lower integer
      simpa using ⟨q, hkind, hq⟩
    | some upper =>
      have hbounds := validateBounds_ok_iff (hlowerNormal lower hl) (hupperNormal upper hu)
        lower.2 upper.2 integer
      simpa [OfKind] using hbounds

def hugeToken : NumberToken where
  negative := false
  whole := ['1']
  fraction := none
  exponent := some
    { mark := 'e'
      sign := none
      digits := "100000000000000000000".toList
      isMark := .inl rfl
      isSign := by simp
      nonempty := by decide +kernel
      isDigits := List.all_eq_true.mp (by decide +kernel) }
  wholeNonempty := by simp
  wholeDigits := List.all_eq_true.mp (by decide +kernel)
  noLeadingZero := by simp
  fractionNonempty := by simp
  fractionDigits := by simp

def huge : ExactDecimal := { sign := 1, digits := ['1'], exponent := 10 ^ 20 }

def hugeSchema : List (String × Node) := [("minimum", .number huge), ("maximum", .number huge)]

def hugeBounds : NumericBounds where
  minimum := some hugeToken
  exclusiveMinimum := none
  maximum := some hugeToken
  exclusiveMaximum := none

theorem declares_hugeSchema : Declares hugeSchema hugeBounds := by
  have hparse : parse hugeToken.text = .ok huge := by decide +kernel
  exact ⟨⟨huge, hparse, rfl⟩, rfl, ⟨huge, hparse, rfl⟩, rfl⟩

theorem validateNumericInterval_ok_iff_hugeSchema :
    ∃ q : ℚ, (true = true → ∃ n : Int, q = n) ∧ hugeBounds.Satisfied q :=
  (validateNumericInterval_ok_iff declares_hugeSchema true).mp (by decide +kernel)

end Fornax.Manifest
