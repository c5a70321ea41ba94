import Fornax.Verify.Attestation

namespace Fornax.RunnerCommand

open List

variable {t : TextTables}
  {args : List Text} {left : ℕ}

theorem knownTestArgsWithin_step {left' : ℕ}
    (hinner : ∀ s, knownTestArgsWithin t left s → knownTestArgsWithin t left' s)
    (h : knownTestArgsWithin t (left + 1) args) : knownTestArgsWithin t (left' + 1) args := by
  have hsuffix : ∀ l : List (List Text),
      (l.any fun s => (classifySegment t (s.map fun a => ⟨a, false⟩)).isSome ||
        knownTestArgsWithin t left s) = true →
      (l.any fun s => (classifySegment t (s.map fun a => ⟨a, false⟩)).isSome ||
        knownTestArgsWithin t left' s) = true := by
    intro l hl
    simp only [any_eq_true, Bool.or_eq_true] at hl ⊢
    obtain ⟨s, hs, htest⟩ := hl
    exact ⟨s, hs, htest.imp_right (hinner s)⟩
  rw [knownTestArgsWithin] at h ⊢
  cases hrest : args.dropWhile isAssignmentArg with
  | nil => simp [hrest] at h
  | cons program tail =>
    simp only [hrest] at h ⊢
    split_ifs at h ⊢ with hshell hwrap hsub hmanages hstandalone hnode htox hpython
    · split at h
      · simp only [Bool.and_eq_true, Option.any_eq_true, any_eq_true, Bool.or_eq_true] at h ⊢
        obtain ⟨hflag, segments, hscript, segment, hmem, htest⟩ := h
        exact ⟨hflag, segments, hscript, segment, hmem, htest.imp_left (hinner _)⟩
      · cases h
    · exact hsuffix _ h
    · simp only [Bool.or_eq_true, Bool.and_eq_true] at h ⊢
      exact h.imp_left fun hexec => ⟨hexec.1, hsuffix _ hexec.2⟩
    · exact h
    · exact h
    · exact h
    · exact h
    · cases hlaunched : launchedArgs (basename program) tail with
      | none => simp [hlaunched] at h
      | some launched =>
        simp only [hlaunched, Bool.or_eq_true] at h ⊢
        exact h.imp_right (hinner _)

theorem knownTestArgsWithin_antitone {left' : ℕ} (hle : left' ≤ left)
    (h : knownTestArgsWithin t left args) : knownTestArgsWithin t left' args := by
  induction left generalizing left' args with
  | zero =>
    obtain rfl : left' = 0 := by omega
    exact h
  | succ left ih =>
    cases left' with
    | zero => rfl
    | succ left' => exact knownTestArgsWithin_step (fun s hs => ih (by omega) hs) h

theorem knownTestArgsWithin_wrapped {w : Text} {tail : List Text}
    (hword : isAssignmentArg w = false) (hwrapper : basename w ∈ wrapperPrograms)
    (hargs : args ∈ tail.tails.dropLast)
    (h : (classifySegment t (args.map fun a => ⟨a, false⟩)).isSome ∨
      knownTestArgsWithin t left args)
    : knownTestArgsWithin t (left + 1) (w :: tail) := by
  have hnotShell : ∀ name ∈ wrapperPrograms, isShell name = false := by decide +kernel
  have hlisted : oneOf wrapperPrograms (basename w) := contains_iff_mem.mpr hwrapper
  simp only [knownTestArgsWithin, dropWhile_cons, hword, hnotShell _ hwrapper, hlisted,
    Bool.false_eq_true, if_false, if_true, any_eq_true, Bool.or_eq_true]
  exact ⟨args, hargs, h⟩

theorem mem_dropLast_tails {pre : List Text} (hne : args ≠ []) :
    args ∈ (pre ++ args).tails.dropLast := by
  have htails : ∀ l : List Text, l.tails ≠ [] := by simp [← length_pos_iff_ne_nil]
  induction pre with
  | nil =>
    obtain ⟨a, rest, rfl⟩ := exists_cons_of_ne_nil hne
    rw [nil_append, tails_cons, dropLast_cons_of_ne_nil (htails rest)]
    exact mem_cons_self
  | cons p pre ih =>
    rw [cons_append, tails_cons, dropLast_cons_of_ne_nil (htails _)]
    exact mem_cons_of_mem _ ih

theorem wrapping_keeps_test_command (t : TextTables) :
    (∀ (w : Text) (pre args : List Text), suffixIsTestCommand t args 0 = true →
      basename w ∈ wrapperPrograms → isAssignmentArg w = false →
      knownTestArgs t (w :: (pre ++ args)) 0 = true) ∧
    ∀ (args : List Text) (d d' : ℕ), d ≤ d' → knownTestArgs t args d = true →
      knownTestArgs t args d' = true := by
  refine ⟨?_, fun args d d' hle h => knownTestArgsWithin_antitone (by omega) h⟩
  intro w pre args h hwrapper hword
  have hne : args ≠ [] := by
    intro hnil
    subst hnil
    revert h
    simp [suffixIsTestCommand, knownTestArgs, knownTestArgsWithin, classifySegment,
      stripAssignments, runnerInvocation]
  refine knownTestArgsWithin_wrapped hword hwrapper (mem_dropLast_tails hne) ?_
  simp only [suffixIsTestCommand, Bool.or_eq_true] at h
  exact h.imp_right (knownTestArgsWithin_antitone (by omega))

theorem wrapping_keeps_timed_pytest :
    knownTestArgs asciiTables ("/usr/bin/time" :: (["-v"] ++ ["pytest", "-q"])) 0 = true :=
  (wrapping_keeps_test_command asciiTables).1 "/usr/bin/time".toList ["-v"] ["pytest", "-q"]
    (by decide +kernel) (by decide +kernel) (by decide +kernel)

/-- A path with an equals sign is read as an assignment, so `echo` is the program. -/
theorem assignment_like_wrapper_hides :
    suffixIsTestCommand asciiTables ["pytest"] 0 = true ∧
    basename "A=b/time" ∈ wrapperPrograms ∧
    knownTestArgs asciiTables ("A=b/time" :: (["echo"] ++ ["pytest"])) 0 = false := by
  decide +kernel

end Fornax.RunnerCommand
