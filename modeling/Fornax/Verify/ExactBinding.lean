import Fornax.Verify.Attestation

namespace Fornax.RunnerCommand

open List

def assignedNames (step : Segment) : List Text :=
  (leadingAssignments step).filterMap fun a => (Text.splitOnce '=' a).map (·.1)

structure SameCommand (claimed observed : Segment) : Prop where
  words : (core claimed).map Word.text = (core observed).map Word.text
  assigned : ∀ a ∈ leadingAssignments claimed, a ∈ leadingAssignments observed

variable {t : TextTables} {claimed observed step : Segment} {claim evidence : List Segment}

theorem assignmentsFit_iff : assignmentsFit claimed observed ↔ (assignedNames observed).Nodup ∧
      ∀ a ∈ leadingAssignments claimed, a ∈ leadingAssignments observed := by
  simp [assignmentsFit, assignedNames, oneOf]

theorem map_text_of_wordMatches {ws vs : Segment} (hlength : ws.length = vs.length)
    (hall : (ws.zip vs).all (fun p => wordMatches p.1 p.2)) :
    ws.map Word.text = vs.map Word.text := by
  induction ws generalizing vs with
  | nil => rw [length_eq_zero_iff.mp hlength.symm]
  | cons w ws ih =>
    cases vs with
    | nil => cases hlength
    | cons v vs =>
      simp only [zip_cons_cons, all_cons, Bool.and_eq_true] at hall
      have htext : w.text = v.text := by
        simpa using ((Bool.and_eq_true _ _).mp hall.1).1
      rw [map_cons, map_cons, htext, ih (Nat.succ.inj hlength) hall.2]

theorem eq_of_programFit_exact {p q : Text} (h : programFit p q = .exact) : p = q := by
  unfold programFit at h
  split at h
  · assumption
  · split at h <;> cases h

theorem sameCommand_of_compareSegments (h : compareSegments claimed observed = .exact) :
    SameCommand claimed observed := by
  unfold compareSegments at h
  split at h
  case isFalse => cases h
  next hfit =>
  split at h
  case h_2 => cases h
  next c ws o vs hclaimed hobserved =>
  split at h
  case isFalse => cases h
  next hargs =>
  refine ⟨?_, (assignmentsFit_iff.mp hfit).2⟩
  rw [hclaimed, hobserved, map_cons, map_cons, eq_of_programFit_exact h,
    map_text_of_wordMatches hargs.1 hargs.2]

theorem compareSegments_of_comparePrefix (h : comparePrefix claimed observed = .exact) :
    compareSegments claimed observed = .exact := by
  unfold comparePrefix at h
  split at h
  case isFalse => cases h
  next hfit =>
  split at h
  case h_2 => cases h
  next c ws o vs hclaimed hobserved =>
  split at h
  case isFalse => cases h
  next hargs =>
  split at h
  case h_1 => cases h
  split at h
  case isTrue => cases h
  next hlength =>
  rw [compareSegments, if_pos hfit, hclaimed, hobserved]
  exact (if_pos ⟨le_antisymm hargs.1 (not_lt.mp hlength), hargs.2⟩).trans h

theorem compareSegments_self (hcore : core step ≠ []) :
    compareSegments step step = .exact ↔ (assignedNames step).Nodup := by
  have hfit : assignmentsFit step step ↔ (assignedNames step).Nodup := by
    simp [assignmentsFit_iff]
  rw [← hfit, compareSegments]
  split
  · next h =>
    obtain ⟨w, ws, hw⟩ := exists_cons_of_ne_nil hcore
    have hzip : ws.zip ws = ws.map fun v => (v, v) := by
      simpa using zip_map' (f := id) (g := id) (l := ws)
    simp [hw, h, hzip, programFit, wordMatches]
  · next h => simp [h]

theorem compareSteps_exact_iff : compareSteps claim evidence = .exact ↔
    Forall₂ (fun c e => compareSegments c e = .exact) claim evidence := by
  rw [forall₂_iff_zip, compareSteps]
  by_cases hlength : claim.length = evidence.length
  · have hall : ((claim.zip evidence).map fun p => compareSegments p.1 p.2).all (· == .exact) =
        true ↔ ∀ {c e}, (c, e) ∈ claim.zip evidence → compareSegments c e = .exact := by
      simp
    simp only [hlength, true_and, if_true, ← hall]
    split
    · next hexact => simp [hexact]
    · next hnot => simp [hnot, apply_ite (· = Fit.exact)]
  · exact iff_of_false (by simp [hlength]) fun h => hlength h.1

theorem bindCommand_exact_iff {literal lower : Text} {command : Option Json} {reliable : Bool} :
    bindCommand t literal command lower reliable = .exact ↔
      ∃ claim evidence, shellSegments literal = some claim ∧
        commandSegments command = some evidence ∧ compareSteps claim evidence = .exact := by
  have hmention : ∀ text, mentionOrNot t literal text ≠ .exact := by
    intro text
    simp only [mentionOrNot]
    split_ifs <;> simp
  constructor
  · intro h
    unfold bindCommand at h
    split at h
    case h_1 => cases h
    next claim hclaim =>
    split at h
    case h_1 => exact absurd h (hmention _)
    next evidence hevidence =>
    refine ⟨claim, evidence, hclaim, hevidence, ?_⟩
    split at h
    · assumption
    · cases h
    · split at h
      case h_2 => exact absurd h (hmention _)
      next step observed hrun hno =>
      split at h
      case h_2 => cases h
      case h_3 => exact absurd h (hmention _)
      next hexact =>
      split at h
      case isFalse => cases h
      next hone =>
      -- A lone step bound by the longer comparison would have been equal in the first.
      obtain ⟨only, rfl⟩ := length_eq_one_iff.mp hone
      obtain rfl : only = observed := Option.some.inj hrun
      exact compareSteps_exact_iff.mpr (.cons (compareSegments_of_comparePrefix hexact) .nil)
  · rintro ⟨claim, evidence, hclaim, hevidence, hexact⟩
    simp [bindCommand, hclaim, hevidence, hexact]

/-- An exactly bound command has the claimed words, step for step, and a claimed literal is bound
exactly to its own run unless a step sets one variable twice. -/
theorem exact_binding_sound_reflexive (t : TextTables) :
    (∀ (literal : Text) (command : Option Json) (lower : Text) (reliable : Bool),
      bindCommand t literal command lower reliable = .exact →
      ∃ claim evidence, shellSegments literal = some claim ∧
        commandSegments command = some evidence ∧ Forall₂ SameCommand claim evidence) ∧
    ∀ (literal : String) (lower : Text) (reliable : Bool),
      claimCommandParses literal = true →
      (bindCommand t literal (some (.string literal)) lower reliable = .exact ↔
        ∃ steps, shellSegments literal = some steps ∧
          ∀ step ∈ steps, (assignedNames step).Nodup) := by
  constructor
  · intro literal command lower reliable h
    obtain ⟨claim, evidence, hclaim, hevidence, hexact⟩ := bindCommand_exact_iff.mp h
    exact ⟨claim, evidence, hclaim, hevidence,
      (compareSteps_exact_iff.mp hexact).imp fun _ _ => sameCommand_of_compareSegments⟩
  · intro literal lower reliable hparses
    unfold claimCommandParses at hparses
    cases hsteps : shellSegments literal with
    | none => simp [hsteps] at hparses
    | some steps =>
    simp only [hsteps, Option.any_some, Bool.and_eq_true, all_eq_true, Bool.not_eq_true',
      isEmpty_eq_false_iff] at hparses
    have hself : compareSteps steps steps = .exact ↔
        ∀ step ∈ steps, (assignedNames step).Nodup := by
      rw [compareSteps_exact_iff, forall₂_same]
      exact forall₂_congr fun step hstep => compareSegments_self (hparses.2 step hstep)
    rw [bindCommand_exact_iff]
    simp [commandSegments, hsteps, hself]

theorem exact_binding_sound_reflexive_npm :
    bindCommand asciiTables "CI=1 npm test" (some (.string "CI=1 npm test")) [] false = .exact :=
  ((exact_binding_sound_reflexive asciiTables).2 "CI=1 npm test" [] false (by decide +kernel)).mpr
    ⟨[[⟨"CI=1", false⟩, ⟨"npm", false⟩, ⟨"test", false⟩]], by decide +kernel, by decide +kernel⟩

end Fornax.RunnerCommand
