import Fornax.Evidence.Types
import Fornax.Lib.Processes
import Fornax.Lib.Runs

namespace Fornax.Upload

open Processes Runs

def lockStaleAfter : ℤ := 30 * 60 * 1000000000

structure LockFile where
  inode : ℕ
  modified : Instant
  deriving DecidableEq, Repr

/-- `left` are the rounds of the loop that remain. The file a run has seen is kept beyond its age
check for the statements below. -/
inductive LockPhase
  | creating (left : ℕ)
  | checking (left : ℕ)
  | judging (left : ℕ) (seen : LockFile)
  | removing (left : ℕ) (seen : LockFile)
  | writing (inode : ℕ) (takenAt : Instant)
  | holding (inode : ℕ) (takenAt : Instant)
  | ended
  deriving DecidableEq, Repr

def LockPhase.taken : LockPhase → Option (ℕ × Instant)
  | .writing inode takenAt | .holding inode takenAt => some (inode, takenAt)
  | .creating _ | .checking _ | .judging _ _ | .removing _ _ | .ended => none

structure LockSystem where
  clock : Instant
  lockFile : Option LockFile
  nextInode : ℕ
  runs : List LockPhase
  deriving DecidableEq, Repr

def LockSystem.fresh : LockSystem := ⟨0, none, 0, []⟩

def LockSystem.setRun (s : LockSystem) (run : ℕ) (phase : LockPhase) : LockSystem :=
  { s with runs := s.runs.set run phase }

inductive LockStep
  | tick (nanos : ℕ)
  | start
  /-- The next call of a run, which may fail. -/
  | act (run : ℕ) (succeeds : Bool)
  | crash (run : ℕ)
  deriving DecidableEq, Repr

/-- `OpenOptions::create_new`; any error but `AlreadyExists` ends the run. -/
def createNew (s : LockSystem) (run left : ℕ) (succeeds : Bool) : LockSystem :=
  if succeeds then
    match s.lockFile with
    | some _ => s.setRun run (.checking left)
    | none => { s with
        lockFile := some ⟨s.nextInode, s.clock⟩
        nextInode := s.nextInode + 1
        runs := s.runs.set run (.writing s.nextInode s.clock) }
  else s.setRun run .ended

/-- `metadata`; without an age the lock counts as taken. -/
def readModified (s : LockSystem) (run left : ℕ) (succeeds : Bool) : LockSystem :=
  match succeeds, s.lockFile with
  | true, some file => s.setRun run (.judging left file)
  | _, _ => s.setRun run .ended

def judgeAge (s : LockSystem) (run left : ℕ) (seen : LockFile) : LockSystem :=
  if seen.modified + lockStaleAfter < s.clock then s.setRun run (.removing left seen)
  else s.setRun run .ended

def unlink (s : LockSystem) (succeeds : Bool) : LockSystem :=
  if succeeds then { s with lockFile := none } else s

def writePid (s : LockSystem) (inode : ℕ) (succeeds : Bool) : LockSystem :=
  { s with lockFile := s.lockFile.map fun file =>
      if succeeds && file.inode == inode then { file with modified := s.clock } else file }

def act (s : LockSystem) (run : ℕ) (succeeds : Bool) : LockPhase → LockSystem
  | .creating left => createNew s run left succeeds
  | .checking left => readModified s run left succeeds
  | .judging left seen => judgeAge s run left seen
  | .removing left _ =>
    (unlink s succeeds).setRun run (if left ≤ 1 then .ended else .creating (left - 1))
  | .writing inode takenAt => (writePid s inode succeeds).setRun run (.holding inode takenAt)
  | .holding _ _ => (unlink s succeeds).setRun run .ended
  | .ended => s

def lockStep (s : LockSystem) : LockStep → LockSystem
  | .tick nanos => { s with clock := s.clock + nanos }
  | .start => { s with runs := s.runs ++ [.creating 2] }
  | .act run succeeds => act s run succeeds (s.runs.getD run .ended)
  | .crash run => s.setRun run .ended

def lockRun (steps : List LockStep) : LockSystem := run lockStep .fresh steps

/-- A run that has taken the lock ends within `LOCK_STALE_AFTER`. -/
def EndsInTime (s : LockSystem) : LockStep → Bool
  | .tick nanos => s.runs.all fun phase =>
      phase.taken.all fun lock => s.clock + nanos ≤ lock.2 + lockStaleAfter
  | _ => true

def UnlinksSeen (s : LockSystem) : LockStep → Bool
  | .act run succeeds =>
    match s.runs[run]? with
    | some (.removing _ seen) =>
      !succeeds || s.lockFile.all fun file => file.inode == seen.inode
    | _ => true
  | _ => true

def LockSystem.holders (s : LockSystem) : ℕ := s.runs.countP fun phase => phase.taken.isSome

def LockSystem.Holds (s : LockSystem) (run inode : ℕ) (takenAt : Instant) : Prop :=
  ∃ phase, s.runs[run]? = some phase ∧ phase.taken = some (inode, takenAt)

/-- A lock that is held stands at the path and is in time, and no lock is on a file that is about to
be unlinked. -/
structure Guarded (s : LockSystem) : Prop where
  unique : ∀ {r r' i i' : ℕ} {t t' : Instant}, s.Holds r i t → s.Holds r' i' t' → r = r'
  owned : ∀ {r i : ℕ} {t : Instant}, s.Holds r i t →
    ∃ file, s.lockFile = some file ∧ file.inode = i ∧ t ≤ file.modified
  inTime : ∀ {r i : ℕ} {t : Instant}, s.Holds r i t → s.clock ≤ t + lockStaleAfter
  file : ∀ {file : LockFile}, s.lockFile = some file →
    file.inode < s.nextInode ∧ file.modified ≤ s.clock
  judged : ∀ {r left : ℕ} {seen : LockFile}, s.runs[r]? = some (.judging left seen) →
    seen.inode < s.nextInode ∧
      ∀ {r' i : ℕ} {t : Instant}, s.Holds r' i t → i = seen.inode → t ≤ seen.modified
  stale : ∀ {r left : ℕ} {seen : LockFile}, s.runs[r]? = some (.removing left seen) →
    seen.inode < s.nextInode ∧ ∀ {r' i : ℕ} {t : Instant}, s.Holds r' i t → i ≠ seen.inode

variable {s : LockSystem} {run : ℕ}

theorem guarded_fresh : Guarded .fresh := by
  have hnone : ∀ {r i : ℕ} {t : Instant}, ¬ LockSystem.fresh.Holds r i t := by
    rintro r i t ⟨phase, hphase, -⟩
    simp [LockSystem.fresh] at hphase
  refine ⟨fun h => absurd h hnone, fun h => absurd h hnone, fun h => absurd h hnone, ?_, ?_, ?_⟩
  · rintro file hfile
    cases hfile
  · rintro r left seen hphase
    simp [LockSystem.fresh] at hphase
  · rintro r left seen hphase
    simp [LockSystem.fresh] at hphase

variable {phase : LockPhase}

theorem holds_of_setRun (hphase : phase.taken = none) {r i : ℕ} {t : Instant}
    (h : (s.setRun run phase).Holds r i t) : r ≠ run ∧ s.Holds r i t := by
  obtain ⟨p, hp, htaken⟩ := h
  rcases getElem?_set_cases hp with ⟨-, rfl⟩ | ⟨hne, hold⟩
  · rw [hphase] at htaken
    cases htaken
  · exact ⟨hne, p, hold, htaken⟩

section Step

variable (h : Guarded s)

include h

theorem Guarded.setRun (hphase : phase.taken = none)
    (hjudged : ∀ left seen, phase = .judging left seen → seen.inode < s.nextInode ∧
      ∀ {r' i : ℕ} {t : Instant}, s.Holds r' i t → i = seen.inode → t ≤ seen.modified)
    (hstale : ∀ left seen, phase = .removing left seen → seen.inode < s.nextInode ∧
      ∀ {r' i : ℕ} {t : Instant}, s.Holds r' i t → i ≠ seen.inode)
    : Guarded (s.setRun run phase) where
  unique hr hr' := h.unique (holds_of_setRun hphase hr).2 (holds_of_setRun hphase hr').2
  owned hr := h.owned (holds_of_setRun hphase hr).2
  inTime hr := h.inTime (holds_of_setRun hphase hr).2
  file := h.file
  judged := by
    intro r left seen hr
    have hseen : seen.inode < s.nextInode ∧
        ∀ {r' i : ℕ} {t : Instant}, s.Holds r' i t → i = seen.inode → t ≤ seen.modified := by
      rcases getElem?_set_cases hr with ⟨-, hsame⟩ | ⟨-, hold⟩
      · exact hjudged left seen hsame.symm
      · exact h.judged hold
    exact ⟨hseen.1, fun hr' => hseen.2 (holds_of_setRun hphase hr').2⟩
  stale := by
    intro r left seen hr
    have hseen : seen.inode < s.nextInode ∧
        ∀ {r' i : ℕ} {t : Instant}, s.Holds r' i t → i ≠ seen.inode := by
      rcases getElem?_set_cases hr with ⟨-, hsame⟩ | ⟨-, hold⟩
      · exact hstale left seen hsame.symm
      · exact h.stale hold
    exact ⟨hseen.1, fun hr' => hseen.2 (holds_of_setRun hphase hr').2⟩

theorem Guarded.setEnded (run : ℕ) : Guarded (s.setRun run .ended) :=
  h.setRun rfl (fun _ _ hphase => by cases hphase) (fun _ _ hphase => by cases hphase)

theorem Guarded.removed (hnone : ∀ {r i : ℕ} {t : Instant}, ¬ s.Holds r i t) :
    Guarded { s with lockFile := none } where
  unique hr := absurd hr hnone
  owned hr := absurd hr hnone
  inTime hr := absurd hr hnone
  file hfile := by cases hfile
  judged hr := ⟨(h.judged hr).1, fun hr' => absurd hr' hnone⟩
  stale hr := ⟨(h.stale hr).1, fun hr' => absurd hr' hnone⟩

theorem Guarded.createNew (left : ℕ) (succeeds : Bool) :
    Guarded (createNew s run left succeeds) := by
  unfold Upload.createNew
  split
  · cases hfile : s.lockFile with
    | some file =>
      exact h.setRun rfl (fun _ _ hphase => by cases hphase) (fun _ _ hphase => by cases hphase)
    | none =>
      -- with nothing at the path nobody holds the lock, so the new holder is the only one
      have hnone : ∀ {r i : ℕ} {t : Instant}, ¬ s.Holds r i t := by
        intro r i t hr
        obtain ⟨file, hsome, -⟩ := h.owned hr
        rw [hfile] at hsome
        cases hsome
      have hnew : ∀ {r i : ℕ} {t : Instant}, LockSystem.Holds { s with
          lockFile := some ⟨s.nextInode, s.clock⟩
          nextInode := s.nextInode + 1
          runs := s.runs.set run (.writing s.nextInode s.clock) } r i t →
          r = run ∧ i = s.nextInode ∧ t = s.clock := by
        rintro r i t ⟨p, hp, htaken⟩
        rcases getElem?_set_cases hp with ⟨hr, rfl⟩ | ⟨-, hold⟩
        · cases htaken
          exact ⟨hr, rfl, rfl⟩
        · exact absurd ⟨p, hold, htaken⟩ hnone
      refine ⟨?_, ?_, ?_, ?_, ?_, ?_⟩
      · intro r r' i i' t t' hr hr'
        rw [(hnew hr).1, (hnew hr').1]
      · intro r i t hr
        obtain ⟨-, rfl, rfl⟩ := hnew hr
        exact ⟨_, rfl, rfl, le_rfl⟩
      · intro r i t hr
        obtain ⟨-, -, rfl⟩ := hnew hr
        have hpos : (0 : ℤ) ≤ lockStaleAfter := by decide
        exact le_add_of_nonneg_right hpos
      · intro file hsome
        cases hsome
        exact ⟨Nat.lt_succ_self _, le_rfl⟩
      · intro r left' seen hr
        rcases getElem?_set_cases hr with ⟨-, hsame⟩ | ⟨-, hold⟩
        · cases hsame
        · have hlt := (h.judged hold).1
          refine ⟨hlt.trans (Nat.lt_succ_self _), fun hr' hi => ?_⟩
          obtain ⟨-, rfl, -⟩ := hnew hr'
          omega
      · intro r left' seen hr
        rcases getElem?_set_cases hr with ⟨-, hsame⟩ | ⟨-, hold⟩
        · cases hsame
        · have hlt := (h.stale hold).1
          refine ⟨hlt.trans (Nat.lt_succ_self _), fun hr' hi => ?_⟩
          obtain ⟨-, rfl, -⟩ := hnew hr'
          omega
  · exact h.setEnded run

theorem Guarded.readModified (left : ℕ) (succeeds : Bool) :
    Guarded (readModified s run left succeeds) := by
  unfold Upload.readModified
  split
  · rename_i file hfile
    refine h.setRun rfl ?_ (fun _ _ hphase => by cases hphase)
    intro left' seen hphase
    cases hphase
    refine ⟨(h.file hfile).1, ?_⟩
    intro r' i t hr' hi
    obtain ⟨file', hfile', -, hle⟩ := h.owned hr'
    rw [hfile] at hfile'
    cases hfile'
    exact hle
  · exact h.setEnded run

theorem Guarded.judgeAge {left : ℕ} {seen : LockFile}
    (hphase : s.runs[run]? = some (.judging left seen)) : Guarded (judgeAge s run left seen) := by
  unfold Upload.judgeAge
  split
  · rename_i hold
    refine h.setRun rfl (fun _ _ hphase => by cases hphase) ?_
    intro left' seen' hphase'
    cases hphase'
    refine ⟨(h.judged hphase).1, ?_⟩
    -- a run that took the lock on this file would have ended by now
    intro r' i t hr' hi
    have hle := (h.judged hphase).2 hr' hi
    have htime := h.inTime hr'
    linarith
  · exact h.setEnded run

theorem Guarded.unlinkStale {left : ℕ} {seen : LockFile} {succeeds : Bool}
    (hphase : s.runs[run]? = some (.removing left seen))
    (hseen : succeeds → ∀ file, s.lockFile = some file → file.inode = seen.inode) :
    Guarded (act s run succeeds (.removing left seen)) := by
  have hunlinked : Guarded (unlink s succeeds) := by
    unfold unlink
    split
    · rename_i hsucceeds
      refine h.removed ?_
      intro r i t hr
      obtain ⟨file, hfile, hinode, -⟩ := h.owned hr
      exact (h.stale hphase).2 hr (by rw [← hinode]; exact hseen hsucceeds file hfile)
    · exact h
  have hnext : ∀ phase, phase = (if left ≤ 1 then LockPhase.ended else .creating (left - 1)) →
      phase.taken = none ∧ (∀ l f, phase ≠ .judging l f) ∧ ∀ l f, phase ≠ .removing l f := by
    intro phase hphase
    split at hphase <;> subst hphase <;> exact ⟨rfl, by simp, by simp⟩
  obtain ⟨htaken, hjudging, hremoving⟩ := hnext _ rfl
  exact hunlinked.setRun htaken (fun l f hphase => absurd hphase (hjudging l f))
    (fun l f hphase => absurd hphase (hremoving l f))

theorem Guarded.writePid {inode : ℕ} {takenAt : Instant} (succeeds : Bool)
    (hphase : s.runs[run]? = some (.writing inode takenAt)) :
    Guarded (act s run succeeds (.writing inode takenAt)) := by
  have hholds : s.Holds run inode takenAt := ⟨_, hphase, rfl⟩
  have hback : ∀ {r i : ℕ} {t : Instant},
      (act s run succeeds (.writing inode takenAt)).Holds r i t → s.Holds r i t := by
    rintro r i t ⟨p, hp, htaken⟩
    rcases getElem?_set_cases hp with ⟨rfl, rfl⟩ | ⟨-, hold⟩
    · exact ⟨_, hphase, htaken⟩
    · exact ⟨p, hold, htaken⟩
  have hfile : ∀ {file : LockFile},
      (act s run succeeds (.writing inode takenAt)).lockFile = some file →
      ∃ old, s.lockFile = some old ∧ file.inode = old.inode ∧ old.modified ≤ file.modified ∧
        file.modified ≤ s.clock := by
    intro file hsome
    obtain ⟨old, hold, rfl⟩ := Option.map_eq_some_iff.mp hsome
    have hle := (h.file hold).2
    refine ⟨old, hold, ?_⟩
    split
    · exact ⟨rfl, hle, le_rfl⟩
    · exact ⟨rfl, le_rfl, hle⟩
  refine ⟨fun hr hr' => h.unique (hback hr) (hback hr'), ?_,
    fun hr => h.inTime (hback hr), ?_, ?_, ?_⟩
  · intro r i t hr
    obtain ⟨old, hold, hinode, hle⟩ := h.owned (hback hr)
    obtain ⟨file, hsome⟩ : ∃ file,
        (act s run succeeds (.writing inode takenAt)).lockFile = some file := by
      simp [act, Upload.writePid, LockSystem.setRun, hold]
    obtain ⟨old', hold', hsame, hnewer, -⟩ := hfile hsome
    rw [hold] at hold'
    cases hold'
    exact ⟨file, hsome, hsame.trans hinode, hle.trans hnewer⟩
  · intro file hsome
    obtain ⟨old, hold, hsame, -, hle⟩ := hfile hsome
    rw [hsame]
    exact ⟨(h.file hold).1, hle⟩
  · intro r left seen hr
    rcases getElem?_set_cases hr with ⟨-, hsame⟩ | ⟨-, hold⟩
    · cases hsame
    · exact ⟨(h.judged hold).1, fun hr' => (h.judged hold).2 (hback hr')⟩
  · intro r left seen hr
    rcases getElem?_set_cases hr with ⟨-, hsame⟩ | ⟨-, hold⟩
    · cases hsame
    · exact ⟨(h.stale hold).1, fun hr' => (h.stale hold).2 (hback hr')⟩

theorem Guarded.release {inode : ℕ} {takenAt : Instant} (succeeds : Bool)
    (hphase : s.runs[run]? = some (.holding inode takenAt)) :
    Guarded (act s run succeeds (.holding inode takenAt)) := by
  have hholds : s.Holds run inode takenAt := ⟨_, hphase, rfl⟩
  have hended := h.setEnded run
  change Guarded ((unlink s succeeds).setRun run .ended)
  unfold unlink
  split
  · -- the lock is released by its only holder
    refine hended.removed ?_
    intro r i t hr
    obtain ⟨hne, hold⟩ := holds_of_setRun rfl hr
    exact hne (h.unique hold hholds)
  · exact hended

theorem Guarded.act {succeeds : Bool} (hphase : s.runs[run]? = some phase)
    (hseen : UnlinksSeen s (.act run succeeds)) : Guarded (act s run succeeds phase) := by
  cases phase with
  | creating left => exact h.createNew left succeeds
  | checking left => exact h.readModified left succeeds
  | judging left seen => exact h.judgeAge hphase
  | removing left seen =>
    refine h.unlinkStale hphase ?_
    intro hsucceeds file hfile
    simpa [UnlinksSeen, hphase, hsucceeds, hfile] using hseen
  | writing inode takenAt => exact h.writePid succeeds hphase
  | holding inode takenAt => exact h.release succeeds hphase
  | ended => exact h

theorem guarded_step (step : LockStep) (htime : EndsInTime s step)
    (hseen : UnlinksSeen s step) : Guarded (lockStep s step) := by
  cases step with
  | tick nanos =>
    refine ⟨h.unique, h.owned, ?_, ?_, h.judged, h.stale⟩
    · rintro r i t ⟨p, hp, htaken⟩
      have hall := List.all_eq_true.mp htime p (List.mem_of_getElem? hp)
      change s.clock + nanos ≤ t + lockStaleAfter
      simpa [htaken] using hall
    · intro file hfile
      refine ⟨(h.file hfile).1, (h.file hfile).2.trans ?_⟩
      exact le_add_of_nonneg_right (Int.natCast_nonneg nanos)
  | start =>
    have hback : ∀ {r i : ℕ} {t : Instant}, (lockStep s .start).Holds r i t → s.Holds r i t := by
      rintro r i t ⟨p, hp, htaken⟩
      rcases getElem?_concat_cases hp with ⟨-, rfl⟩ | hold
      · cases htaken
      · exact ⟨p, hold, htaken⟩
    refine ⟨fun hr hr' => h.unique (hback hr) (hback hr'), fun hr => h.owned (hback hr),
      fun hr => h.inTime (hback hr), h.file, ?_, ?_⟩
    · intro r left seen hr
      rcases getElem?_concat_cases hr with ⟨-, hsame⟩ | hold
      · cases hsame
      · exact ⟨(h.judged hold).1, fun hr' => (h.judged hold).2 (hback hr')⟩
    · intro r left seen hr
      rcases getElem?_concat_cases hr with ⟨-, hsame⟩ | hold
      · cases hsame
      · exact ⟨(h.stale hold).1, fun hr' => (h.stale hold).2 (hback hr')⟩
  | act run succeeds =>
    change Guarded (Upload.act s run succeeds (s.runs.getD run .ended))
    cases hphase : s.runs[run]? with
    | none =>
      rw [List.getD_eq_getElem?_getD, hphase]
      exact h
    | some phase =>
      rw [List.getD_eq_getElem?_getD, hphase]
      exact h.act hphase hseen
  | crash run => exact h.setEnded run

end Step

/-- While every run with the lock ends in time, and no run unlinks as stale another file than the
one it has seen, at most one run holds the lock. -/
theorem one_upload_run (steps : List LockStep)
    (htime : Along lockStep (fun s step => EndsInTime s step = true) .fresh steps)
    (hseen : Along lockStep (fun s step => UnlinksSeen s step = true) .fresh steps) :
    (lockRun steps).holders ≤ 1 := by
  have hguarded : Guarded (lockRun steps) :=
    run_invariant guarded_fresh
      (fun s step hs hboth => guarded_step hs step hboth.1 hboth.2) (htime.and hseen)
  refine countP_le_one fun {r r' p p'} hr hr' hp hp' => ?_
  obtain ⟨⟨i, t⟩, htaken⟩ := Option.isSome_iff_exists.mp hp
  obtain ⟨⟨i', t'⟩, htaken'⟩ := Option.isSome_iff_exists.mp hp'
  exact hguarded.unique ⟨p, hr, htaken⟩ ⟨p', hr', htaken'⟩

def staleLock : List LockStep :=
  [.start, .act 0 true, .act 0 true, .crash 0, .tick 1800000000001, .start, .start,
    .act 1 true, .act 1 true, .act 1 true, .act 2 true]

def oneTakeover : List LockStep := staleLock ++ [.act 1 true, .act 1 true, .act 1 true]

theorem one_upload_run_oneTakeover : (lockRun oneTakeover).holders ≤ 1 := by
  have htime : checkAlong lockStep EndsInTime .fresh oneTakeover := by decide +kernel
  have hseen : checkAlong lockStep UnlinksSeen .fresh oneTakeover := by decide +kernel
  exact one_upload_run oneTakeover (along_of_check htime) (along_of_check hseen)

/-- Both have read the age of the old lock before the first takes it over; the second then unlinks
the lock of the first. -/
def twoTakeovers : List LockStep := staleLock ++
  [.act 2 true, .act 2 true, .act 1 true, .act 1 true, .act 1 true, .act 2 true, .act 2 true,
    .act 2 true]

theorem two_upload_runs :
    Along lockStep (fun s step => EndsInTime s step = true) .fresh twoTakeovers ∧
      (lockRun twoTakeovers).runs = [.ended, .holding 1 1800000000001, .holding 2 1800000000001] ∧
      (lockRun twoTakeovers).holders = 2 := by
  have htime : checkAlong lockStep EndsInTime .fresh twoTakeovers := by decide +kernel
  exact ⟨along_of_check htime, by decide +kernel, by decide +kernel⟩

end Fornax.Upload
