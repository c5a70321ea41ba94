import Fornax.Lib.Decimal
import Fornax.Lib.Patterns

namespace Fornax.Manifest

open Decimal List Text Option

inductive HostManifestRejection
  | inputTooLarge
  | excessiveNesting
  | nodeLimit
  | configurationSchemaTooLarge
  | configurationSchemaExcessiveNesting
  | configurationSchemaNodeLimit
  | numericTokenSizeLimit
  | numericExponentDigitLimit
  | duplicateKey
  | invalidJson
  | contractViolation
  deriving DecidableEq, Repr

def maxNumericTokenBytes : ℕ := 4096

def maxNumericExponentDigits : ℕ := 128

structure ExactDecimal where
  sign : SignType
  digits : Text
  exponent : Int
  deriving DecidableEq

namespace ExactDecimal

def isExponentMark (c : Char) : Bool := c == 'e' || c == 'E'

def isSign (c : Char) : Bool := c == '+' || c == '-'

def parseBytes (digits : Text) : Option ℕ :=
  if digits.isEmpty || !digits.all Char.isDigit then none else some (value digits)

def parseExponent : Text → Except HostManifestRejection Int
  | [] => .ok 0
  | _ :: text =>
    let digits := text.dropWhile isSign
    if digits.isEmpty || decide (maxNumericExponentDigits < digits.length) then
      .error .numericExponentDigitLimit
    else
      match parseBytes digits with
      | none => .error .invalidJson
      | some magnitude => .ok (if startsWith text ['-'] then -magnitude else magnitude)

def zero : ExactDecimal := { sign := 0, digits := ['0'], exponent := 0 }

def fractionalLen (unsigned : Text) : ℕ :=
  match unsigned.findIdx? (· == '.') with
  | some i => unsigned.length - i - 1
  | none => 0

def ofMantissa (mantissa : Text) (explicitExponent : Int) : ExactDecimal :=
  let negative := startsWith mantissa ['-']
  let unsigned := (stripPrefix ['-'] mantissa).getD mantissa
  let digits := (unsigned.filter (· != '.')).dropWhile (· == '0')
  if digits.isEmpty then zero
  else
    { sign := if negative then -1 else 1
      digits := digits.take (digits.length - trailingZeros digits)
      exponent := explicitExponent - fractionalLen unsigned + trailingZeros digits }

def parse (token : Text) : Except HostManifestRejection ExactDecimal :=
  if maxNumericTokenBytes < utf8Len token then .error .numericTokenSizeLimit
  else
    match parseExponent (token.dropWhile (!isExponentMark ·)) with
    | .error e => .error e
    | .ok explicitExponent =>
      .ok (ofMantissa (token.takeWhile (!isExponentMark ·)) explicitExponent)

def cmpMagnitude (a b : ExactDecimal) : Ordering :=
  match compare (a.exponent + a.digits.length) (b.exponent + b.digits.length) with
  | .eq =>
    compareFrom (fun i => a.digits.getD i '0') (fun i => b.digits.getD i '0') 0
      (max a.digits.length b.digits.length)
  | order => order

def cmp (a b : ExactDecimal) : Ordering := compareSigned a.sign b.sign (a.cmpMagnitude b)

def isIntegral (a : ExactDecimal) : Bool := decide (a.sign = 0 ∨ 0 ≤ a.exponent)

end ExactDecimal

structure ExponentPart where
  mark : Char
  sign : Option Char
  digits : Text
  isMark : mark = 'e' ∨ mark = 'E'
  isSign : ∀ c ∈ sign, c = '+' ∨ c = '-'
  nonempty : digits ≠ []
  isDigits : IsDigits digits

def ExponentPart.text (e : ExponentPart) : Text := e.mark :: (e.sign.toList ++ e.digits)

def ExponentPart.value (e : ExponentPart) : Int :=
  if e.sign = some '-' then -(Decimal.value e.digits : Int) else Decimal.value e.digits

structure NumberToken where
  negative : Bool
  whole : Text
  fraction : Option Text
  exponent : Option ExponentPart
  wholeNonempty : whole ≠ []
  wholeDigits : IsDigits whole
  noLeadingZero : whole.head? = some '0' → whole = ['0']
  fractionNonempty : ∀ f ∈ fraction, f ≠ []
  fractionDigits : ∀ f ∈ fraction, IsDigits f

namespace NumberToken

def unsignedMantissa (t : NumberToken) : Text :=
  t.whole ++ match t.fraction with
    | some f => '.' :: f
    | none => []

def mantissa (t : NumberToken) : Text :=
  if t.negative then '-' :: t.unsignedMantissa else t.unsignedMantissa

def text (t : NumberToken) : Text :=
  t.mantissa ++ match t.exponent with
    | some e => e.text
    | none => []

def fractionText (t : NumberToken) : Text := t.fraction.getD []

def explicitExponent (t : NumberToken) : Int :=
  match t.exponent with
  | some e => e.value
  | none => 0

def denotes (t : NumberToken) : ℚ :=
  (if t.negative then -1 else 1) *
    (Decimal.value (t.whole ++ t.fractionText) *
      10 ^ (t.explicitExponent - t.fractionText.length))

end NumberToken

namespace ExactDecimal

def magnitude (a : ExactDecimal) : ℚ := Decimal.value a.digits * 10 ^ a.exponent

def value (a : ExactDecimal) : ℚ := (a.sign : ℚ) * a.magnitude

/-- Zero has one form; any other number has digits that neither begin nor end with
a zero. -/
inductive Normal : ExactDecimal → Prop
  | zero : Normal zero
  | nonzero {a : ExactDecimal} (hsign : a.sign ≠ 0) (hdigits : IsDigits a.digits)
      (hlead : ∃ c ds, a.digits = c :: ds ∧ c ≠ '0')
      (hlast : ∃ ds c, a.digits = ds ++ [c] ∧ c ≠ '0') : Normal a

end ExactDecimal

theorem isDigit_not_mark {c : Char} (h : c.isDigit) :
    ExactDecimal.isExponentMark c = false ∧ ExactDecimal.isSign c = false ∧ (c == '.') = false := by
  have hc := isDigit_bounds h
  have hne : ∀ d : Char, (d.toNat < 48 ∨ 57 < d.toNat) → (c == d) = false := by
    intro d hd
    rw [beq_eq_false_iff_ne]
    rintro rfl
    omega
  refine ⟨?_, ?_, hne '.' (by decide)⟩
  · rw [ExactDecimal.isExponentMark, hne 'e' (by decide), hne 'E' (by decide)]
    rfl
  · rw [ExactDecimal.isSign, hne '+' (by decide), hne '-' (by decide)]
    rfl

namespace NumberToken

variable (t : NumberToken)

theorem isDigits_fractionText : IsDigits t.fractionText := by
  unfold fractionText
  cases hf : t.fraction with
  | none => exact fun c hc => nomatch hc
  | some f => exact t.fractionDigits f hf

theorem mem_unsignedMantissa {c : Char} (h : c ∈ t.unsignedMantissa) : c.isDigit ∨ c = '.' := by
  unfold unsignedMantissa at h
  rcases mem_append.mp h with h | h
  · exact .inl (t.wholeDigits c h)
  · cases hf : t.fraction with
    | none =>
      rw [hf] at h
      cases h
    | some f =>
      rw [hf, mem_cons] at h
      rcases h with h | h
      · exact .inr h
      · exact .inl (t.fractionDigits f hf c h)

theorem mantissa_unmarked {c : Char} (h : c ∈ t.mantissa) : (!ExactDecimal.isExponentMark c) := by
  have hunsigned : ∀ d ∈ t.unsignedMantissa, (!ExactDecimal.isExponentMark d) := by
    intro d hd
    rcases t.mem_unsignedMantissa hd with hdigit | rfl
    · rw [(isDigit_not_mark hdigit).1]
      rfl
    · rfl
  unfold mantissa at h
  split at h
  · rcases mem_cons.mp h with rfl | h
    · rfl
    · exact hunsigned c h
  · exact hunsigned c h

theorem split_text : t.text.takeWhile (!ExactDecimal.isExponentMark ·) = t.mantissa ∧
      t.text.dropWhile (!ExactDecimal.isExponentMark ·) = match t.exponent with
        | some e => e.text
        | none => [] := by
  have hhead : ∀ c ∈ (match t.exponent with
      | some e => e.text
      | none => ([] : Text)).head?, (!ExactDecimal.isExponentMark c) = false := by
    intro c hc
    cases he : t.exponent with
    | none =>
      rw [he] at hc
      cases hc
    | some e =>
      rw [he] at hc
      simp only [ExponentPart.text, head?_cons, mem_def, some.injEq] at hc
      subst hc
      rcases e.isMark with hmark | hmark <;> rw [hmark] <;> rfl
  exact ⟨takeWhile_append_of_all (fun c hc => t.mantissa_unmarked hc) hhead,
    dropWhile_append_of_all (fun c hc => t.mantissa_unmarked hc) hhead⟩

end NumberToken

theorem ExponentPart.parse_eq {e : ExponentPart} {n : Int}
    (h : ExactDecimal.parseExponent e.text = .ok n) : n = e.value := by
  have hhead : ∀ c ∈ e.digits.head?, ExactDecimal.isSign c = false := by
    intro c hc
    exact (isDigit_not_mark (e.isDigits c (mem_of_mem_head? hc))).2.1
  have hsigns : ∀ c ∈ e.sign.toList, ExactDecimal.isSign c := by
    intro c hc
    rcases e.isSign c (mem_toList.mp hc) with rfl | rfl <;> rfl
  have hdrop : (e.sign.toList ++ e.digits).dropWhile ExactDecimal.isSign = e.digits :=
    dropWhile_append_of_all hsigns hhead
  have hbytes : ExactDecimal.parseBytes e.digits = some (Decimal.value e.digits) := by
    have hall : e.digits.all Char.isDigit := all_eq_true.mpr e.isDigits
    have hne : e.digits.isEmpty = false := by
      rw [isEmpty_eq_false_iff]
      exact e.nonempty
    rw [ExactDecimal.parseBytes, hall, hne]
    rfl
  have hminus : startsWith (e.sign.toList ++ e.digits) ['-'] = decide (e.sign = some '-') := by
    cases hs : e.sign with
    | some c =>
      rw [toList_some, singleton_append, startsWith_cons]
      simp [eq_comm, Bool.beq_eq_decide_eq]
    | none =>
      cases hd : e.digits with
      | nil => exact absurd hd e.nonempty
      | cons d ds =>
        have hdigit := (isDigit_not_mark (e.isDigits d (hd ▸ mem_cons_self))).2.1
        have hne : d ≠ '-' := by
          rintro rfl
          exact absurd hdigit (by decide)
        rw [toList_none, nil_append, startsWith_cons]
        simp [hne.symm]
  unfold ExactDecimal.parseExponent ExponentPart.text at h
  simp only [hdrop, hbytes, hminus] at h
  split at h
  · cases h
  · rw [Except.ok.injEq] at h
    rw [← h, ExponentPart.value]
    simp only [decide_eq_true_eq]

namespace NumberToken

variable (t : NumberToken)

theorem exists_lead : ∃ c rest, t.unsignedMantissa = c :: rest ∧ c.isDigit := by
  cases hw : t.whole with
  | nil => exact absurd hw t.wholeNonempty
  | cons c ds =>
    rw [unsignedMantissa, hw]
    exact ⟨c, _, rfl, t.wholeDigits c (hw ▸ mem_cons_self)⟩

theorem unsigned_mantissa : startsWith t.mantissa ['-'] = t.negative ∧
      (stripPrefix ['-'] t.mantissa).getD t.mantissa = t.unsignedMantissa := by
  unfold mantissa
  cases hneg : t.negative with
  | true =>
    have hstrip : stripPrefix ['-'] ('-' :: t.unsignedMantissa) = some t.unsignedMantissa :=
      stripPrefix_eq_some.mpr rfl
    simp only [if_true, hstrip, startsWith_cons, beq_self_eq_true, getD_some, and_self]
  | false =>
    obtain ⟨c, rest, hunsigned, hdigit⟩ := t.exists_lead
    have hne : ('-' == c) = false := by
      rw [beq_eq_false_iff_ne]
      rintro rfl
      exact absurd hdigit (by decide)
    have hstrip : stripPrefix ['-'] (c :: rest) = none := by
      simp [stripPrefix, isPrefixOf?, hne]
    simp only [Bool.false_eq_true, if_false, hunsigned, startsWith_cons, hne, hstrip,
      getD_none, and_self]

theorem fractionalLen_eq :
    ExactDecimal.fractionalLen t.unsignedMantissa = t.fractionText.length := by
  have hwhole : t.whole.findIdx? (· == '.') = none := by
    rw [findIdx?_eq_none_iff]
    intro c hc
    exact (isDigit_not_mark (t.wholeDigits c hc)).2.2
  unfold ExactDecimal.fractionalLen unsignedMantissa fractionText
  cases hf : t.fraction with
  | none => simp [hwhole]
  | some f =>
    have hindex : (t.whole ++ '.' :: f).findIdx? (· == '.') = some t.whole.length := by
      simp [findIdx?_append, hwhole, findIdx?_cons]
    have hlength : (t.whole ++ '.' :: f).length = t.whole.length + (f.length + 1) := by
      rw [length_append, length_cons]
    simp only [hindex, hlength, getD_some]
    omega

theorem filter_unsignedMantissa :
    t.unsignedMantissa.filter (· != '.') = t.whole ++ t.fractionText := by
  have hkeep : ∀ {ds : Text}, IsDigits ds → ds.filter (· != '.') = ds := by
    intro ds hds
    refine filter_eq_self.mpr fun c hc => ?_
    rw [bne, (isDigit_not_mark (hds c hc)).2.2]
    rfl
  unfold unsignedMantissa fractionText
  rw [filter_append, hkeep t.wholeDigits]
  cases hf : t.fraction with
  | none => rfl
  | some f =>
    rw [filter_cons_of_neg (by simp), hkeep (t.fractionDigits f hf), getD_some]

end NumberToken

theorem normal_digits {ds : Text} (h : IsDigits ds) (hlead : ∃ c rest, ds = c :: rest ∧ c ≠ '0') :
    IsDigits (ds.take (ds.length - trailingZeros ds)) ∧
      (∃ c rest, ds.take (ds.length - trailingZeros ds) = c :: rest ∧ c ≠ '0') ∧
      ∃ rest c, ds.take (ds.length - trailingZeros ds) = rest ++ [c] ∧ c ≠ '0' := by
  obtain ⟨hsplit, hlast⟩ := split_trailingZeros ds
  have hdigits : IsDigits (ds.take (ds.length - trailingZeros ds)) :=
    fun c hc => h c (mem_of_mem_take hc)
  obtain ⟨c, rest, hds, hc⟩ := hlead
  cases htake : ds.take (ds.length - trailingZeros ds) with
  | nil =>
    -- only zeros would remain, but the first digit is none
    rw [htake, nil_append, hds] at hsplit
    have hzero : c ∈ replicate (trailingZeros (c :: rest)) '0' :=
      hsplit ▸ mem_cons_self
    exact absurd (eq_of_mem_replicate hzero) hc
  | cons first others =>
    rw [htake] at hlast hdigits
    refine ⟨hdigits, ⟨first, others, rfl, ?_⟩, ?_⟩
    · rw [htake, hds, cons_append, cons.injEq] at hsplit
      exact hsplit.1 ▸ hc
    · have hne : first :: others ≠ [] := cons_ne_nil _ _
      refine ⟨(first :: others).dropLast, (first :: others).getLast hne, ?_, ?_⟩
      · exact (dropLast_append_getLast hne).symm
      · exact hlast _ (getLast?_eq_some_getLast hne ▸ rfl)

theorem ExactDecimal.ofMantissa_spec (t : NumberToken) (n : Int) :
    (ofMantissa t.mantissa n).Normal ∧
      (ofMantissa t.mantissa n).value = (if t.negative then -1 else 1) *
        (Decimal.value (t.whole ++ t.fractionText) * 10 ^ (n - t.fractionText.length)) := by
  have hdigits : IsDigits (t.whole ++ t.fractionText) :=
    t.wholeDigits.append t.isDigits_fractionText
  have hvalue := value_dropWhile_zero (t.whole ++ t.fractionText)
  have hkept : IsDigits ((t.whole ++ t.fractionText).dropWhile (· == '0')) :=
    fun c hc => hdigits c ((dropWhile_suffix _).subset hc)
  have hhead := head?_dropWhile_not (· == '0') (t.whole ++ t.fractionText)
  unfold ofMantissa
  simp only [t.unsigned_mantissa.1, t.unsigned_mantissa.2, t.fractionalLen_eq,
    t.filter_unsignedMantissa]
  generalize (t.whole ++ t.fractionText).dropWhile (· == '0') = ds at hvalue hkept hhead ⊢
  cases ds with
  | nil =>
    rw [← hvalue]
    refine ⟨.zero, ?_⟩
    simp [ExactDecimal.value, ExactDecimal.zero]
  | cons c rest =>
    have hc : c ≠ '0' := by simpa using hhead
    obtain ⟨htaken, hlead, hlast⟩ := normal_digits hkept ⟨c, rest, rfl, hc⟩
    have hsplit := (split_trailingZeros (c :: rest)).1
    have hscaled : Decimal.value (c :: rest)
        = Decimal.value ((c :: rest).take ((c :: rest).length - trailingZeros (c :: rest))) *
          10 ^ trailingZeros (c :: rest) := by
      conv_lhs => rw [hsplit]
      exact value_append_zeros _ _
    simp only [isEmpty_cons, Bool.false_eq_true, if_false]
    refine ⟨.nonzero ?_ htaken hlead hlast, ?_⟩
    · cases t.negative
      · exact one_ne_zero
      · exact (by decide : (-1 : SignType) ≠ 0)
    · rw [← hvalue, hscaled, ExactDecimal.value, ExactDecimal.magnitude]
      have hten : (10 : ℚ) ≠ 0 := by norm_num
      rw [zpow_add₀ hten, zpow_natCast]
      push_cast
      cases t.negative <;> simp <;> ring

theorem ExactDecimal.parse_spec {t : NumberToken} {d : ExactDecimal} (h : parse t.text = .ok d) :
    d.Normal ∧ d.value = t.denotes := by
  unfold parse at h
  split at h
  · cases h
  · rw [t.split_text.1, t.split_text.2] at h
    have hexp : ∀ n, parseExponent (match t.exponent with
        | some e => e.text
        | none => ([] : Text)) = .ok n → n = t.explicitExponent := by
      intro n hn
      unfold NumberToken.explicitExponent
      cases he : t.exponent with
      | none =>
        rw [he] at hn
        exact (Except.ok.inj hn).symm
      | some e =>
        rw [he] at hn
        exact e.parse_eq hn
    split at h
    · cases h
    · rename_i n hn
      rw [Except.ok.injEq] at h
      rw [← h, hexp n hn]
      exact ofMantissa_spec t t.explicitExponent

namespace ExactDecimal

variable {a b : ExactDecimal}

theorem ten_zpow_pos (n : Int) : (0 : ℚ) < 10 ^ n := zpow_pos (by norm_num) n

theorem magnitude_lt (h : IsDigits a.digits) :
    a.magnitude < 10 ^ (a.exponent + a.digits.length) := by
  have hvalue : (Decimal.value a.digits : ℚ) < 10 ^ a.digits.length := by
    exact_mod_cast value_lt h
  rw [magnitude, add_comm, zpow_add₀ (by norm_num), zpow_natCast]
  exact mul_lt_mul_of_pos_right hvalue (ten_zpow_pos _)

section

variable (h : IsDigits a.digits) (hlead : ∃ c ds, a.digits = c :: ds ∧ c ≠ '0')

include h hlead

theorem le_magnitude : 10 ^ (a.exponent + a.digits.length - 1) ≤ a.magnitude := by
  obtain ⟨c, ds, hds, hc⟩ := hlead
  have hvalue : (10 : ℚ) ^ ds.length ≤ Decimal.value a.digits := by
    rw [hds]
    exact_mod_cast le_value (h c (hds ▸ mem_cons_self)) hc
  have hexp : a.exponent + a.digits.length - 1 = ds.length + a.exponent := by
    rw [hds, length_cons]
    push_cast
    ring
  rw [magnitude, hexp, zpow_add₀ (by norm_num), zpow_natCast]
  exact mul_le_mul_of_nonneg_right hvalue (ten_zpow_pos _).le

theorem magnitude_pos : 0 < a.magnitude := (ten_zpow_pos _).trans_le (le_magnitude h hlead)

end

theorem magnitude_scaled {n : ℕ} (h : a.digits.length ≤ n) :
    a.magnitude = (Decimal.value a.digits * 10 ^ (n - a.digits.length) : ℕ) *
      10 ^ (a.exponent + a.digits.length - n) := by
  have hexp : a.exponent = ((n - a.digits.length : ℕ) : Int) +
      (a.exponent + a.digits.length - n) := by omega
  rw [magnitude]
  conv_lhs => rw [hexp, zpow_add₀ (by norm_num), zpow_natCast]
  push_cast
  ring

theorem compare_natCast_mul {m n : ℕ} {p : ℚ} (hp : 0 < p) :
    compare ((m : ℚ) * p) (n * p) = compare m n := by
  exact compare_map (Nat.strictMono_cast.mul_const hp) m n

theorem magnitude_lt_of_order_lt (ha : IsDigits a.digits) (hb : IsDigits b.digits)
    (hlead : ∃ c ds, b.digits = c :: ds ∧ c ≠ '0')
    (h : a.exponent + a.digits.length < b.exponent + b.digits.length) : a.magnitude < b.magnitude :=
  calc a.magnitude < 10 ^ (a.exponent + a.digits.length) := magnitude_lt ha
    _ ≤ 10 ^ (b.exponent + b.digits.length - 1) :=
      zpow_le_zpow_right₀ (by norm_num) (by omega)
    _ ≤ b.magnitude := le_magnitude hb hlead

theorem cmpMagnitude_eq (ha : IsDigits a.digits) (hb : IsDigits b.digits)
    (hleadA : ∃ c ds, a.digits = c :: ds ∧ c ≠ '0')
    (hleadB : ∃ c ds, b.digits = c :: ds ∧ c ≠ '0') :
    a.cmpMagnitude b = compare a.magnitude b.magnitude := by
  unfold cmpMagnitude
  rcases lt_trichotomy (a.exponent + a.digits.length) (b.exponent + b.digits.length)
    with h | h | h
  · rw [compare_lt_iff_lt.mpr h, compare_lt_iff_lt.mpr (magnitude_lt_of_order_lt ha hb hleadB h)]
  · have hscale : (10 : ℚ) ^ (b.exponent + b.digits.length -
        (max a.digits.length b.digits.length : ℕ)) = 10 ^ (a.exponent + a.digits.length -
        (max a.digits.length b.digits.length : ℕ)) := by rw [h]
    rw [compare_eq_iff_eq.mpr h, magnitude_scaled (le_max_left a.digits.length b.digits.length),
      magnitude_scaled (le_max_right a.digits.length b.digits.length), hscale,
      compare_natCast_mul (ten_zpow_pos _)]
    exact compareFrom_getD ha hb (le_max_left _ _) (le_max_right _ _)
  · rw [compare_gt_iff_gt.mpr h, compare_gt_iff_gt.mpr (magnitude_lt_of_order_lt hb ha hleadA h)]

theorem value_zero : zero.value = 0 := by
  simp [value, zero]

theorem Normal.magnitude_pos (h : Normal a) (hsign : a.sign ≠ 0) : 0 < a.magnitude := by
  cases h with
  | zero => exact absurd rfl hsign
  | nonzero _ hdigits hlead => exact ExactDecimal.magnitude_pos hdigits hlead

theorem cmp_eq (ha : Normal a) (hb : Normal b) : a.cmp b = compare a.value b.value := by
  refine compareSigned_eq ha.magnitude_pos hb.magnitude_pos fun hsignA hsignB => ?_
  cases ha with
  | zero => exact absurd rfl hsignA
  | nonzero _ hdigitsA hleadA =>
    cases hb with
    | zero => exact absurd rfl hsignB
    | nonzero _ hdigitsB hleadB => exact cmpMagnitude_eq hdigitsA hdigitsB hleadA hleadB

theorem not_integer_of_exponent_neg (hsign : a.sign ≠ 0) (hdigits : IsDigits a.digits)
    (hlast : ∃ ds c, a.digits = ds ++ [c] ∧ c ≠ '0') (hexp : a.exponent < 0) (n : Int) :
    a.value ≠ n := by
  intro h
  obtain ⟨ds, c, hds, hc⟩ := hlast
  obtain ⟨k, hk⟩ : ∃ k : ℕ, a.exponent = -((k : Int) + 1) := ⟨(-a.exponent - 1).toNat, by omega⟩
  have hvalue : (a.sign : Int) * Decimal.value a.digits = n * 10 ^ (k + 1) := by
    have hscaled : a.value * 10 ^ (k + 1) = (a.sign : ℚ) * Decimal.value a.digits := by
      have hten : (10 : ℚ) ^ (k + 1) ≠ 0 := pow_ne_zero _ (by norm_num)
      rw [value, magnitude, hk, zpow_neg]
      have hcast : (10 : ℚ) ^ ((k : Int) + 1) = 10 ^ (k + 1) := by
        exact_mod_cast zpow_natCast (10 : ℚ) (k + 1)
      rw [hcast]
      field_simp
    rw [h] at hscaled
    have hcast : ((n * 10 ^ (k + 1) : Int) : ℚ) =
        ((a.sign : Int) * Decimal.value a.digits : Int) := by
      push_cast
      rw [hscaled]
    exact_mod_cast hcast.symm
  have hdvd : (10 : Int) ∣ Decimal.value a.digits := by
    have hpow : (10 : Int) ∣ n * 10 ^ (k + 1) := Dvd.dvd.mul_left (dvd_pow_self 10 (by omega)) n
    rw [← hvalue] at hpow
    cases hs : a.sign with
    | zero => exact absurd hs hsign
    | neg => simpa [hs] using hpow
    | pos => simpa [hs] using hpow
  have hc' : c.isDigit = true := hdigits c (by rw [hds]; simp)
  have hpos := digit_pos hc' hc
  have hlt := digit_lt hc'
  rw [hds, value_concat] at hdvd
  omega

theorem isIntegral_iff (h : Normal a) : a.isIntegral ↔ ∃ n : Int, a.value = n := by
  rw [isIntegral, decide_eq_true_iff]
  constructor
  · rintro (hsign | hexp)
    · refine ⟨0, ?_⟩
      rw [value, hsign]
      simp
    · obtain ⟨k, hk⟩ := Int.eq_ofNat_of_zero_le hexp
      refine ⟨(a.sign : Int) * (Decimal.value a.digits * 10 ^ k), ?_⟩
      rw [value, magnitude, hk, zpow_natCast]
      push_cast
      ring
  · rintro ⟨n, hn⟩
    by_contra hnot
    rw [not_or] at hnot
    cases h with
    | zero => exact hnot.1 rfl
    | nonzero hsign hdigits _ hlast =>
      exact not_integer_of_exponent_neg hsign hdigits hlast (by omega) n hn

end ExactDecimal

end Fornax.Manifest
