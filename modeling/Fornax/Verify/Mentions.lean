import Fornax.Verify.Binding

namespace Fornax.RunnerCommand

open List

variable (t : TextTables)

/-- The slices before and from byte `i`; nothing, a panic, where `i` is inside a character or
behind the end. -/
def splitAtByte : Text → ℕ → Option (Text × Text)
  | s, 0 => some ([], s)
  | [], _ + 1 => none
  | c :: s, i + 1 =>
    if c.utf8Size ≤ i + 1 then (splitAtByte s (i + 1 - c.utf8Size)).map fun p => (c :: p.1, p.2)
    else none

/-- `str::find`: the byte offset of the first occurrence. -/
def findText (needle : Text) : Text → Option ℕ
  | [] => if needle.isEmpty then some 0 else none
  | c :: rest =>
    if needle.isPrefixOf (c :: rest) then some 0
    else (findText needle rest).map (c.utf8Size + ·)

theorem splitAtByte_le {s : Text} {i : ℕ} {p : Text × Text} (h : splitAtByte s i = some p) :
    i ≤ Text.utf8Len s := by
  fun_induction splitAtByte s i generalizing p with
  | case1 => exact Nat.zero_le _
  | case2 => cases h
  | case3 c s i hfits ih =>
    obtain ⟨q, hq, -⟩ := Option.map_eq_some_iff.mp h
    have hrest := ih hq
    rw [Text.utf8Len, map_cons, sum_cons, ← Text.utf8Len]
    omega
  | case4 => cases h

/-- The loop of `mention_or_not`, from byte `pos` on. -/
def mentionSearch (needle text : Text) (pos : ℕ) : Option CommandBinding :=
  match _hpos : splitAtByte text pos with
  | none => none
  | some (_, rest) =>
    match findText needle rest with
    | none => some .notBound
    | some i =>
      match splitAtByte text (pos + i), splitAtByte text (pos + i + Text.utf8Len needle) with
      | some (before, _), some (_, after) =>
        if !before.getLast?.any (mentionedAfter.isLeftWord t) &&
            !after.head?.any (mentionedAfter.isWord t) then some .mentioned
        else mentionSearch needle text (pos + i + (needle.head?.map Char.utf8Size).getD 1)
      | _, _ => none
termination_by Text.utf8Len text + 1 - pos
decreasing_by
  have hle := splitAtByte_le _hpos
  have hstep : 0 < (needle.head?.map Char.utf8Size).getD 1 := by
    cases needle with
    | nil => exact Nat.one_pos
    | cons c _ => exact c.utf8Size_pos
  omega

def mentionOrNotBytes (claimed evidenceTextLower : Text) : Option CommandBinding :=
  let needle := t.toLowercase (Text.trim claimed)
  if needle.isEmpty then some .notBound else mentionSearch t needle evidenceTextLower 0

theorem utf8Len_append (a b : Text) :
    Text.utf8Len (a ++ b) = Text.utf8Len a + Text.utf8Len b := by
  rw [Text.utf8Len, map_append, sum_append]
  rfl

theorem splitAtByte_append (a b : Text) :
    splitAtByte (a ++ b) (Text.utf8Len a) = some (a, b) := by
  induction a with
  | nil => cases b <;> rfl
  | cons c a ih =>
    obtain ⟨k, hk⟩ : ∃ k, Text.utf8Len (c :: a) = k + 1 :=
      Nat.exists_eq_add_one.mpr (Nat.add_pos_left c.utf8Size_pos _)
    have hsum : c.utf8Size + Text.utf8Len a = k + 1 := hk
    have hrest : k + 1 - c.utf8Size = Text.utf8Len a := by omega
    rw [hk, cons_append, splitAtByte, if_pos (by omega), hrest, ih]
    rfl

variable {t} {n : Char} {ns : Text}

theorem mentionedAfter_needle (before : Option Char) (after : Text) :
    mentionedAfter t (n :: ns) before (n :: ns ++ after) =
      (!before.any (mentionedAfter.isLeftWord t) && !after.head?.any (mentionedAfter.isWord t) ||
        mentionedAfter t (n :: ns) (some n) (ns ++ after)) := by
  have hprefix : (n :: ns).isPrefixOf (n :: (ns ++ after)) :=
    isPrefixOf_iff_prefix.mpr (prefix_append (n :: ns) after)
  have hdrop : (n :: (ns ++ after)).drop (n :: ns).length = after := drop_left
  rw [cons_append, mentionedAfter, hprefix, hdrop, Bool.true_and]

/-- Before the first occurrence nothing is mentioned; `a` is what stands there. -/
theorem findText_spec (a text : Text) :
    (findText (n :: ns) text = none ∧ mentionedAfter t (n :: ns) a.getLast? text = false) ∨
    ∃ x after, text = x ++ (n :: ns ++ after) ∧
      findText (n :: ns) text = some (Text.utf8Len x) ∧
      mentionedAfter t (n :: ns) a.getLast? text =
        mentionedAfter t (n :: ns) (a ++ x).getLast? (n :: ns ++ after) := by
  induction text generalizing a with
  | nil => exact .inl ⟨rfl, rfl⟩
  | cons c rest ih =>
    rw [findText]
    by_cases hprefix : (n :: ns).isPrefixOf (c :: rest)
    · obtain ⟨after, hafter⟩ := isPrefixOf_iff_prefix.mp hprefix
      rw [if_pos hprefix]
      exact .inr ⟨[], after, hafter.symm, rfl, by rw [append_nil, hafter]⟩
    · have hskip : mentionedAfter t (n :: ns) a.getLast? (c :: rest) =
          mentionedAfter t (n :: ns) (a ++ [c]).getLast? rest := by
        rw [mentionedAfter, Bool.eq_false_iff.mpr hprefix, getLast?_concat]
        rfl
      rw [if_neg hprefix, hskip]
      rcases ih (a ++ [c]) with ⟨hnone, hfalse⟩ | ⟨x, after, rfl, hfound, hsame⟩
      · exact .inl ⟨by rw [hnone]; rfl, hfalse⟩
      · rw [append_assoc] at hsame
        exact .inr ⟨c :: x, after, rfl, by rw [hfound]; rfl, hsame⟩

theorem mentionSearch_eq (a rest : Text) :
    mentionSearch t (n :: ns) (a ++ rest) (Text.utf8Len a) =
      some (if mentionedAfter t (n :: ns) a.getLast? rest then .mentioned else .notBound) := by
  induction hlen : rest.length using Nat.strong_induction_on generalizing a rest with
  | _ len ih =>
    rw [mentionSearch]
    split
    · rename_i hpanic
      rw [splitAtByte_append] at hpanic
      cases hpanic
    rename_i hpos
    rw [splitAtByte_append, Option.some.injEq] at hpos
    cases hpos
    rcases @findText_spec t n ns a rest with
      ⟨hnone, hfalse⟩ | ⟨x, after, rfl, hfound, hsame⟩
    · simp [hnone, hfalse]
    · -- both ends of the occurrence, and the byte after its first character, are boundaries
      have hstart : Text.utf8Len a + Text.utf8Len x = Text.utf8Len (a ++ x) :=
        (utf8Len_append a x).symm
      have hsplit := splitAtByte_append (a ++ x) (n :: ns ++ after)
      have hend := splitAtByte_append (a ++ x ++ n :: ns) after
      have hnext := ih (ns ++ after).length (by simp at hlen ⊢; omega) (a ++ x ++ [n]) (ns ++ after)
        rfl
      have hsize : Text.utf8Len [n] = n.utf8Size := Nat.add_zero _
      rw [utf8Len_append, append_assoc, append_assoc] at hend
      rw [getLast?_concat, utf8Len_append, hsize, append_assoc, append_assoc, singleton_append,
        ← cons_append] at hnext
      rw [append_assoc] at hsplit
      simp only [hfound, hstart, hsplit, hend, hsame, mentionedAfter_needle, head?_cons,
        Option.map_some, Option.getD_some, hnext]
      cases !(a ++ x).getLast?.any (mentionedAfter.isLeftWord t) &&
        !after.head?.any (mentionedAfter.isWord t) <;> rfl

theorem mentionedAfter_iff (a text : Text) : mentionedAfter t (n :: ns) a.getLast? text ↔
    ∃ x after, text = x ++ (n :: ns ++ after) ∧
      (a ++ x).getLast?.any (mentionedAfter.isLeftWord t) = false ∧
      after.head?.any (mentionedAfter.isWord t) = false := by
  induction text generalizing a with
  | nil =>
    refine ⟨nofun, ?_⟩
    rintro ⟨x, after, htext, -⟩
    simp at htext
  | cons c rest ih =>
    have hnext := ih (a ++ [c])
    simp only [getLast?_concat, append_assoc, singleton_append] at hnext
    constructor
    · intro h
      rw [mentionedAfter, Bool.or_eq_true, hnext] at h
      rcases h with h | ⟨x, after, rfl, hleft, hright⟩
      · simp only [Bool.and_eq_true, Bool.not_eq_true'] at h
        obtain ⟨after, hafter⟩ := isPrefixOf_iff_prefix.mp h.1.1
        have hright := h.2
        rw [← hafter, drop_left] at hright
        exact ⟨[], after, hafter.symm, by rw [append_nil, h.1.2], hright⟩
      · exact ⟨c :: x, after, rfl, hleft, hright⟩
    · rintro ⟨x, after, htext, hleft, hright⟩
      cases x with
      | nil =>
        rw [append_nil] at hleft
        rw [htext, nil_append, mentionedAfter_needle, hleft, hright]
        rfl
      | cons d x =>
        obtain ⟨rfl, hrest⟩ := cons.inj htext
        rw [mentionedAfter, Bool.or_eq_true, hnext]
        exact .inr ⟨x, after, hrest, hleft, hright⟩

/-- The search over byte offsets never slices inside a character, ends, and finds every occurrence
between word boundaries. -/
theorem mention_search_complete (t : TextTables) (claimed text : Text) :
    mentionOrNotBytes t claimed text = some (mentionOrNot t claimed text) ∧
      (mentionOrNot t claimed text = .mentioned ↔ t.toLowercase (Text.trim claimed) ≠ [] ∧
        ∃ before after, text = before ++ (t.toLowercase (Text.trim claimed) ++ after) ∧
          before.getLast?.any (mentionedAfter.isLeftWord t) = false ∧
          after.head?.any (mentionedAfter.isWord t) = false) := by
  unfold mentionOrNotBytes mentionOrNot
  cases t.toLowercase (Text.trim claimed) with
  | nil => simp
  | cons n ns =>
    refine ⟨mentionSearch_eq [] text, ?_⟩
    have hoccurs := @mentionedAfter_iff t n ns [] text
    simp only [nil_append] at hoccurs
    rw [← hoccurs]
    simp

end Fornax.RunnerCommand
