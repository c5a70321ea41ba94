import Fornax.Verify.Attestation

namespace Fornax.RunnerCommand

open List

/-- The text of an assignment, whatever part of it is quoted. -/
def IsAssignment (text : Text) : Prop :=
  ∃ name value, text = name ++ '=' :: value ∧ Text.isIdentifier name = true

variable {t : TextTables} {w : Word} {step : Segment} {segments : List Segment}
  {command : Option Json} {script : Text}

theorem not_equals_of_identifier {name : Text} (h : Text.isIdentifier name) :
    ∀ c ∈ name, (c != '=') := by
  intro c hc
  have hname : (c.isAlpha || c == '_') ∨ (c.isAlphanum || c == '_') := by
    cases name with
    | nil => cases hc
    | cons d rest =>
      obtain ⟨hd, hrest⟩ := (Bool.and_eq_true _ _).mp h
      rcases mem_cons.mp hc with rfl | hc
      · exact .inl hd
      · exact .inr (all_eq_true.mp hrest c hc)
  rw [bne_iff_ne]
  rintro rfl
  revert hname
  decide

theorem assignmentName_eq (h : IsAssignment w.text) : (assignmentName w).isNone = w.quoted := by
  obtain ⟨name, value, htext, hname⟩ := h
  have hsplit : Text.splitOnce '=' w.text = some (name, value) := by
    have hlead := not_equals_of_identifier hname
    rw [Text.splitOnce, htext, if_pos (mem_append_right _ mem_cons_self),
      takeWhile_append_of_pos hlead, dropWhile_append_of_pos hlead]
    simp
  unfold assignmentName
  cases w.quoted with
  | true => rfl
  | false => simp [hsplit, hname]

theorem equals_notMem_builtins : ∀ name ∈ shellStateBuiltins, '=' ∉ name := by
  decide +kernel

/-- A quotation mark anywhere in the step hides it. -/
theorem changesShellState_assignments (h : ∀ w ∈ step, IsAssignment w.text) :
    changesShellState step ↔ ∀ w ∈ step, w.quoted = false := by
  unfold changesShellState
  split
  · next hnone =>
    refine iff_of_true rfl fun w hw => ?_
    have hname := find?_eq_none.mp hnone w hw
    rw [assignmentName_eq (h w hw)] at hname
    exact Bool.eq_false_iff.mpr hname
  · next w hsome =>
    have hw := mem_of_find?_eq_some hsome
    have hquoted := find?_some hsome
    rw [assignmentName_eq (h w hw)] at hquoted
    refine iff_of_false (fun hbuiltin => ?_) fun hall => ?_
    · obtain ⟨name, value, htext, -⟩ := h w hw
      refine equals_notMem_builtins w.text (contains_iff_mem.mp hbuiltin) ?_
      rw [htext]
      exact mem_append_right _ mem_cons_self
    · rw [hall w hw] at hquoted
      cases hquoted

theorem isTestRun_of_changesShellState (hsegments : commandSegments command = some segments)
    (hlen : 2 ≤ segments.length) (hstep : step ∈ segments)
    (hchanges : changesShellState step) (code : Option Int) : isTestRun t command code = false := by
  have hany : segments.any changesShellState := any_eq_true.mpr ⟨step, hstep, hchanges⟩
  unfold isTestRun
  rw [hsegments]
  match segments with
  | [] => cases hstep
  | [_] => exact absurd hlen (Nat.not_succ_le_self 1)
  | _ :: _ :: _ => simp only [hany, Bool.not_true, Bool.and_false, Bool.false_and]

end Fornax.RunnerCommand
