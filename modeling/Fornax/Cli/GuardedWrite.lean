import Fornax.Lib.Files

namespace Fornax.Cli.Guarded

open Files Std.Do

set_option mvcgen.warning false

structure Content where
  bytes : Bytes
  mode : ℕ

inductive Point
  | firstCheck
  | createParent
  | mode
  | create
  | modeAgain
  | permissions
  | write
  | syncFile
  | secondCheck
  | rename
  | removeStaged
  | openParent
  | syncParent
  | readBack
  deriving DecidableEq

structure Turn where
  others : Option Content → Option Content
  failure : Option Failure

structure Place where
  target : Option Content
  staged : Option Content
  parent : Bool
  /-- The target as the others alone would have it. -/
  theirs : Option Content
  renamed : Bool
  /-- The target at the checks. -/
  checked : List (Option Bytes)

abbrev Calls := ExceptT ErrorKind (StateM Place)

/-- The digest of a file's bytes, `none` for no file. -/
abbrev ContentDigest := Option (Vector UInt8 32)

inductive Report
  | noParent
  | unread (e : ErrorKind)
  | changedSinceRead
  | parentNotCreated (e : ErrorKind)
  | notStaged (e : ErrorKind)
  | replacedNotDurable (sync : ErrorKind)
  | replacedNotConfirmed (read : Option ErrorKind)
  | replacedNotConfirmedNotDurable (read : Option ErrorKind) (sync : ErrorKind)
  deriving DecidableEq

/-- What the read-back failed with; `none` is another content. -/
def readText (shown : String) (error : ErrorKind → String) : Option ErrorKind → String
  | some e => error e
  | none => shown ++ " does not contain the intended content after the write"

def Report.message (shown parent : String) (error : ErrorKind → String) : Report → String
  | noParent => shown ++ " has no parent directory"
  | unread e => shown ++
    " was not changed: could not read it to compare with what was read earlier: " ++ error e
  | changedSinceRead => shown ++
    " changed since it was read -- refusing to overwrite it; re-run to retry"
  | parentNotCreated e => shown ++ " was not changed: could not create " ++ parent ++ ": " ++
    error e
  | notStaged e => shown ++ " was not changed: could not stage the replacement in " ++ parent ++
    ": " ++ error e
  | replacedNotDurable sync => shown ++ " was replaced and reads back correctly, but making " ++
    "the rename durable failed: " ++ error sync
  | replacedNotConfirmed read => shown ++
    " was replaced, but the result could not be confirmed: " ++ readText shown error read
  | replacedNotConfirmedNotDurable read sync => shown ++
    " was replaced, but the result could not be confirmed: " ++ readText shown error read ++
    "; making the rename durable also failed: " ++ error sync

def Report.saysUnchanged : Report → Bool
  | noParent | unread _ | changedSinceRead | parentNotCreated _ | notStaged _ => true
  | _ => false

inductive StageError
  | io (e : ErrorKind)
  | report (r : Report)

variable (env : Point → Turn) (sha256 : Bytes → Vector UInt8 32)

def Place.act (t : Turn) (s : Place) : Place :=
  { s with target := t.others s.target, theirs := t.others s.theirs }

/-- The others act, then the call fails or not; `left` is what a failing call leaves. -/
def call (p : Point) (left : ℕ → Place → Place) : Calls Unit := do
  modify (Place.act (env p))
  match (env p).failure with
  | none => return ()
  | some f =>
    modify (left f.written)
    throw f.kind

def attempt (p : Point) : Calls Unit := call env p fun _ s => s

def readTarget (p : Point) : Calls Bytes := do
  attempt env p
  match (← get).target with
  | none => throw .notFound
  | some f => return f.bytes

def digestOfBytes (bytes : Bytes) : ContentDigest := some (sha256 bytes)

def Place.contents (s : Place) : Option Bytes := s.target.map Content.bytes

def Place.note (s : Place) : Place := { s with checked := s.checked ++ [s.contents] }

def digestOf (p : Point) : Calls ContentDigest := do
  let read ← resultOf (readTarget env p)
  modify Place.note
  match read with
  | .ok bytes => return digestOfBytes sha256 bytes
  | .error .notFound => return none
  | .error e => throw e

def targetMode (p : Point) : Calls ℕ := do
  match ← resultOf (attempt env p) with
  | .error _ => return 0o600
  | .ok () => return ((← get).target.map fun f => f.mode % 0o1000).getD 0o600

def createParent : Calls Unit := do
  attempt env .createParent
  modify fun s => { s with parent := true }

def createStaged (mode : ℕ) : Calls Unit := do
  attempt env .create
  let s ← get
  if !s.parent then throw .notFound
  else if s.staged.isSome then throw .alreadyExists
  else set { s with staged := some ⟨[], mode⟩ }

def setPermissions (mode : ℕ) : Calls Unit := do
  attempt env .permissions
  modify fun s => { s with staged := s.staged.map fun f => { f with mode := mode } }

def Place.append (bytes : Bytes) (s : Place) : Place :=
  { s with staged := s.staged.map fun f => { f with bytes := f.bytes ++ bytes } }

def writeAll (bytes : Bytes) : Calls Unit := do
  call env .write fun written s => s.append (bytes.take written)
  modify (Place.append bytes)

def syncFile : Calls Unit := attempt env .syncFile

def rename : Calls Unit := do
  attempt env .rename
  let s ← get
  match s.staged with
  | none => throw .notFound
  | some f => set { s with target := some f, staged := none, renamed := true }

def removeStaged : Calls Unit := do
  attempt env .removeStaged
  modify fun s => { s with staged := none }

def openParent : Calls Unit := do
  attempt env .openParent
  if (← get).parent then return () else throw .notFound

def syncParent : Calls Unit := attempt env .syncParent

variable (contents : String) (expected : ContentDigest)

def currentDigest (p : Point) : ExceptT Report (StateM Place) ContentDigest :=
  ExceptT.adapt Report.unread (digestOf env sha256 p)

def stage : ExceptT StageError (StateM Place) Unit := do
  let mode ← ExceptT.adapt StageError.io (targetMode env .mode)
  ExceptT.adapt StageError.io (createStaged env mode)
  -- the mode given at the creation is masked by the umask
  let mode ← ExceptT.adapt StageError.io (targetMode env .modeAgain)
  ExceptT.adapt StageError.io (setPermissions env mode)
  ExceptT.adapt StageError.io (writeAll env (utf8Bytes contents))
  ExceptT.adapt StageError.io (syncFile env)
  let current ← ExceptT.adapt StageError.report (currentDigest env sha256 .secondCheck)
  if current ≠ expected then throw (.report .changedSinceRead)
  else ExceptT.adapt StageError.io (rename env)

def fromUtf8 (bytes : Bytes) : Option String := String.fromUTF8? ⟨bytes.toArray⟩

def readToString : Calls String := do
  let bytes ← readTarget env .readBack
  match fromUtf8 bytes with
  | none => throw .invalidData
  | some s => return s

/-- An error of the read, or `none` for another content. -/
def verifyWritten : ExceptT (Option ErrorKind) (StateM Place) Unit := do
  let onDisk ← ExceptT.adapt some (readToString env)
  if onDisk = contents then return () else throw none

def confirmReplaced : ExceptT Report (StateM Place) Unit := do
  let synced ← resultOf (do openParent env; syncParent env : Calls Unit)
  let readBack ← resultOf (verifyWritten env contents)
  match synced, readBack with
  | .ok (), .ok () => return ()
  | .error sync, .ok () => throw (.replacedNotDurable sync)
  | .ok (), .error read => throw (.replacedNotConfirmed read)
  | .error sync, .error read => throw (.replacedNotConfirmedNotDurable read sync)

/-- `hasParent` is whether the path has a parent at all. -/
def writeGuarded (hasParent : Bool) : ExceptT Report (StateM Place) Unit := do
  if !hasParent then throw .noParent
  else
    let current ← currentDigest env sha256 .firstCheck
    if current ≠ expected then throw .changedSinceRead
    else
      ExceptT.adapt Report.parentNotCreated (createParent env)
      match ← resultOf (stage env sha256 contents expected) with
      | .error e =>
        let _ ← resultOf (removeStaged env)
        match e with
        | .io e => throw (.notStaged e)
        | .report r => throw r
      | .ok () => confirmReplaced env contents

variable {env sha256 contents expected}
  {s s' : Place} (p : Point) (s₀ : Place)

@[spec]
theorem call_spec (left : ℕ → Place → Place) (s₀ : Place) : ⦃fun s => ⌜s = s₀⌝⦄ call env p left
    ⦃post⟨fun _ s => ⌜s = s₀.act (env p)⌝,
      fun k s => ⌜k ≠ .notFound ∧ ∃ written, s = left written (s₀.act (env p))⌝⟩⦄ := by
  mvcgen [call] with subst_vars
  case vc1 => rfl
  case vc2 _ _ f _ _ => exact ⟨f.spurious.1, f.written, rfl⟩

@[spec]
theorem attempt_spec : ⦃fun s => ⌜s = s₀⌝⦄ attempt env p ⦃post⟨fun _ s => ⌜s = s₀.act (env p)⌝,
      fun k s => ⌜k ≠ .notFound ∧ s = s₀.act (env p)⌝⟩⦄ := by
  mvcgen [attempt] with subst_vars
  all_goals grind

@[spec]
theorem readTarget_spec : ⦃fun s => ⌜s = s₀⌝⦄ readTarget env p
    ⦃post⟨fun bytes s => ⌜s = s₀.act (env p) ∧ s.contents = some bytes⌝,
      fun k s => ⌜s = s₀.act (env p) ∧ (k = .notFound → s.contents = none)⌝⟩⦄ := by
  mvcgen [readTarget] with subst_vars
  all_goals grind [Place.contents]

@[spec]
theorem digestOf_spec : ⦃fun s => ⌜s = s₀⌝⦄ digestOf env sha256 p
    ⦃post⟨fun d s => ⌜s = (s₀.act (env p)).note ∧ d = s.contents.map sha256⌝,
      fun _ s => ⌜s = (s₀.act (env p)).note⌝⟩⦄ := by
  mvcgen [digestOf, resultOf, digestOfBytes] with subst_vars
  all_goals grind [Place.contents, Place.note]

@[spec]
theorem currentDigest_spec : ⦃fun s => ⌜s = s₀⌝⦄ currentDigest env sha256 p
    ⦃post⟨fun d s => ⌜s = (s₀.act (env p)).note ∧ d = s.contents.map sha256⌝,
      fun r s => ⌜s = (s₀.act (env p)).note ∧ r.saysUnchanged = true⌝⟩⦄ := by
  mvcgen [currentDigest] with subst_vars
  all_goals grind [Report.saysUnchanged]

@[spec]
theorem targetMode_spec : ⦃fun s => ⌜s = s₀⌝⦄ targetMode env p
    ⦃post⟨fun _ s => ⌜s = s₀.act (env p)⌝, fun _ _ => ⌜False⌝⟩⦄ := by
  mvcgen [targetMode, resultOf] with subst_vars
  all_goals grind

def Untouched (s : Place) : Prop := s.renamed = false ∧ s.target = s.theirs

structure Apart (s s' : Place) : Prop where
  untouched : Untouched s → Untouched s'
  checked : s'.checked = s.checked

theorem untouched_act (t : Turn) (h : Untouched s) : Untouched (s.act t) :=
  ⟨h.1, congrArg t.others h.2⟩

theorem apart_act (t : Turn) (s : Place) : Apart s (s.act t) := ⟨untouched_act t, rfl⟩

theorem Apart.trans {s'' : Place} (h : Apart s s') (h' : Apart s' s'') : Apart s s'' :=
  ⟨h'.untouched ∘ h.untouched, h'.checked.trans h.checked⟩

@[spec]
theorem createParent_spec : ⦃fun s => ⌜s = s₀⌝⦄ createParent env
    ⦃post⟨fun _ s => ⌜Apart s₀ s⌝, fun _ s => ⌜Apart s₀ s⌝⟩⦄ := by
  mvcgen [createParent] with subst_vars
  all_goals grind [apart_act, Apart, Untouched]

@[spec]
theorem createStaged_spec (mode : ℕ) (s₀ : Place) : ⦃fun s => ⌜s = s₀⌝⦄ createStaged env mode
    ⦃post⟨fun _ s => ⌜Apart s₀ s ∧ s.staged = some ⟨[], mode⟩⌝, fun _ s => ⌜Apart s₀ s⌝⟩⦄ := by
  mvcgen [createStaged] with subst_vars
  all_goals grind [apart_act, Apart, Untouched]

@[spec]
theorem setPermissions_spec (mode : ℕ) (s₀ : Place) : ⦃fun s => ⌜s = s₀⌝⦄ setPermissions env mode
    ⦃post⟨fun _ s => ⌜Apart s₀ s ∧ s.staged = s₀.staged.map fun f => { f with mode := mode }⌝,
      fun _ s => ⌜Apart s₀ s⌝⟩⦄ := by
  mvcgen [setPermissions] with subst_vars
  all_goals grind [apart_act, Apart, Untouched, Place.act]

@[spec]
theorem writeAll_spec (bytes : Bytes) (s₀ : Place) : ⦃fun s => ⌜s = s₀⌝⦄ writeAll env bytes
    ⦃post⟨fun _ s => ⌜Apart s₀ s ∧
        s.staged = s₀.staged.map fun f => { f with bytes := f.bytes ++ bytes }⌝,
      fun _ s => ⌜Apart s₀ s⌝⟩⦄ := by
  mvcgen [writeAll] with subst_vars
  all_goals grind [apart_act, Apart, Untouched, Place.act, Place.append]

@[spec]
theorem syncFile_spec : ⦃fun s => ⌜s = s₀⌝⦄ syncFile env
    ⦃post⟨fun _ s => ⌜Apart s₀ s ∧ s.staged = s₀.staged⌝, fun _ s => ⌜Apart s₀ s⌝⟩⦄ := by
  mvcgen [syncFile] with subst_vars
  all_goals grind [apart_act, Place.act]

@[spec]
theorem rename_spec : ⦃fun s => ⌜s = s₀⌝⦄ rename env
    ⦃post⟨fun _ s => ⌜s.renamed = true ∧ s.target = s₀.staged ∧ s.checked = s₀.checked ∧
        s.theirs = (env .rename).others s₀.theirs⌝, fun _ s => ⌜Apart s₀ s⌝⟩⦄ := by
  mvcgen [rename] with subst_vars
  all_goals grind [apart_act, Place.act]

@[spec]
theorem removeStaged_spec : ⦃fun s => ⌜s = s₀⌝⦄ removeStaged env
    ⦃post⟨fun _ s => ⌜Apart s₀ s⌝, fun _ s => ⌜Apart s₀ s⌝⟩⦄ := by
  mvcgen [removeStaged] with subst_vars
  all_goals grind [apart_act, Apart, Untouched]

structure Replaced (env : Point → Turn) (sha256 : Bytes → Vector UInt8 32) (contents : String)
    (expected : ContentDigest) (s : Place) : Prop where
  renamed : s.renamed = true
  contents : s.contents = some (utf8Bytes contents)
  theirs : (env .rename).others = id → s.theirs.map (fun f => sha256 f.bytes) = expected

def Checks (sha256 : Bytes → Vector UInt8 32) (expected : ContentDigest) (s s' : Place) : Prop :=
  ∃ c, s'.checked = s.checked ++ [c] ∧ c.map sha256 = expected

@[spec]
theorem stage_spec (huntouched : Untouched s₀) :
    ⦃fun s => ⌜s = s₀⌝⦄ stage env sha256 contents expected
    ⦃post⟨fun _ s => ⌜Replaced env sha256 contents expected s ∧ Checks sha256 expected s₀ s⌝,
      fun e s => ⌜Untouched s ∧ ∀ r, e = .report r → r.saysUnchanged = true⌝⟩⦄ := by
  mvcgen [stage] with subst_vars
  case vc2 s₀ mode _ s₁ mode' _ s₂ _ s₃ hwrite _ s₄ hsync digest hsame s₅ hcheck _ s₆ hcreate
      hmode =>
    intro hrenamed htarget hchecked htheirs
    obtain ⟨hs₅, hdigest⟩ := hcheck
    rw [not_not] at hsame
    -- nothing but the others has reached the target before the rename
    have hapart : Apart s₀ s₄ := ((apart_act _ _).trans hcreate.1).trans
      (((apart_act _ _).trans hmode.1).trans (hwrite.1.trans hsync.1))
    have hbefore : Untouched s₅ := by
      rw [hs₅]
      exact untouched_act _ (hapart.untouched huntouched)
    have hstaged : s₅.staged = some ⟨utf8Bytes contents, mode'⟩ := by
      have hkept : s₅.staged = s₄.staged := by rw [hs₅]; rfl
      rw [hkept, hsync.2, hwrite.2, hmode.2]
      simp only [Place.act, hcreate.2, Option.map_some, List.nil_append]
    refine ⟨⟨hrenamed, ?_, fun hidle => ?_⟩, s₅.contents, ?_, hdigest.symm.trans hsame⟩
    · rw [Place.contents, htarget, hstaged]
      rfl
    · have hsame' : s₆.theirs = s₅.target := by rw [htheirs, hidle, hbefore.2]; rfl
      rw [hsame', ← hsame, hdigest, Place.contents, Option.map_map]
      rfl
    · rw [hchecked, ← hapart.checked, hs₅]
      rfl
  all_goals grind [Report.saysUnchanged, apart_act, → Apart.trans, Apart, Untouched, Place.note]

/-- The others leave the target from the last check to the read-back. -/
def Idle (env : Point → Turn) : Prop :=
  ∀ p ∈ [Point.rename, .openParent, .syncParent, .readBack], (env p).others = id

theorem act_of_idle {p : Point} (h : (env p).others = id) (s : Place) : s.act (env p) = s := by
  rw [Place.act, h]
  rfl

@[spec]
theorem confirmReplaced_spec (hidle : Idle env) (s₀ : Place) :
    ⦃fun s => ⌜s = s₀⌝⦄ confirmReplaced env contents
    ⦃post⟨fun _ s => ⌜s = s₀⌝, fun r s => ⌜s = s₀ ∧ r.saysUnchanged = false⌝⟩⦄ := by
  have hopen := fun s => act_of_idle (hidle .openParent (by simp)) s
  have hsync := fun s => act_of_idle (hidle .syncParent (by simp)) s
  have hread := fun s => act_of_idle (hidle .readBack (by simp)) s
  mvcgen [confirmReplaced, resultOf, openParent, syncParent, verifyWritten, readToString]
    with subst_vars
  all_goals grind [Report.saysUnchanged]

def Checked (sha256 : Bytes → Vector UInt8 32) (expected : ContentDigest) (s : Place) : Prop :=
  ∀ c ∈ s.checked, c.map sha256 = expected

theorem Checks.checked (h : Checks sha256 expected s s') (hs : Checked sha256 expected s) :
    Checked sha256 expected s' := by
  obtain ⟨c, hchecked, hc⟩ := h
  intro c' hc'
  rw [hchecked] at hc'
  rcases List.mem_append.mp hc' with hc' | hc'
  · exact hs c' hc'
  · cases List.mem_singleton.mp hc'
    exact hc

theorem Apart.checks (h : Apart s s') (hs : Checked sha256 expected s) :
    Checked sha256 expected s' := by
  intro c hc
  rw [h.checked] at hc
  exact hs c hc

theorem checked_note (t : Turn) (hs : Checked sha256 expected s)
    (hc : (s.act t).note.contents.map sha256 = expected) : Checked sha256 expected (s.act t).note :=
  Checks.checked ⟨(s.act t).contents, rfl, hc⟩ hs

theorem writeGuarded_spec (hidle : Idle env) (hasParent : Bool) (s₀ : Place)
    (huntouched : Untouched s₀) (hchecked : Checked sha256 expected s₀) :
    ⦃fun s => ⌜s = s₀⌝⦄ writeGuarded env sha256 contents expected hasParent
    ⦃post⟨fun _ s => ⌜Replaced env sha256 contents expected s ∧ Checked sha256 expected s⌝,
      fun r s => ⌜(r.saysUnchanged → Untouched s) ∧ (r.saysUnchanged = false →
        Replaced env sha256 contents expected s ∧ Checked sha256 expected s)⌝⟩⦄ := by
  have hfirst : ∀ s : Place, Untouched s → Untouched (s.act (env .firstCheck)).note :=
    fun s h => untouched_act _ h
  mvcgen [writeGuarded, resultOf] with subst_vars
  all_goals grind [Report.saysUnchanged, Apart, Checks.checked, Apart.checks, checked_note]

/-- With failures at any call and others changing the target at any time but from the last check
to the read-back: the target is left to the others or holds the contents, which it does
after success; an error that says so has left it, and so has a call one of whose checks
found another digest; what was replaced had the digest that was expected. -/
theorem writeGuarded_honest {s₀ : Place} (hstart : s₀.renamed = false ∧ s₀.target = s₀.theirs)
    (hfresh : s₀.checked = []) (hidle : Idle env) (hasParent : Bool) :
    let (r, s) := (writeGuarded env sha256 contents expected hasParent).run.run s₀
    (s.renamed = false ∧ s.target = s.theirs ∨
        s.renamed = true ∧ s.contents = some (utf8Bytes contents)) ∧
      (r = .ok () → s.contents = some (utf8Bytes contents)) ∧
      (∀ e, r = .error e → e.saysUnchanged = true → s.renamed = false ∧ s.target = s.theirs) ∧
      (∀ c ∈ s.checked, c.map sha256 ≠ expected → s.renamed = false ∧ s.target = s.theirs) ∧
      (s.renamed = true → s.theirs.map (fun f => sha256 f.bytes) = expected) := by
  have hchecked : Checked sha256 expected s₀ := by
    intro c hc
    rw [hfresh] at hc
    cases hc
  obtain ⟨r, s, hrun, hends⟩ : ∃ r s,
      (writeGuarded env sha256 contents expected hasParent).run.run s₀ = (r, s) ∧
      (Untouched s ∧ r ≠ .ok () ∨ Replaced env sha256 contents expected s ∧
        Checked sha256 expected s ∧ ∀ e, r = .error e → e.saysUnchanged = false) := by
    rcases run_of_triple (writeGuarded_spec hidle hasParent s₀ hstart hchecked) rfl with
      ⟨⟨⟩, s, hrun, hdone, hcheck⟩ | ⟨e, s, hrun, hunchanged, hchanged⟩
    · exact ⟨_, s, hrun, .inr ⟨hdone, hcheck, nofun⟩⟩
    · refine ⟨_, s, hrun, ?_⟩
      cases hreport : e.saysUnchanged with
      | true => exact .inl ⟨hunchanged hreport, nofun⟩
      | false =>
        obtain ⟨hdone, hcheck⟩ := hchanged hreport
        exact .inr ⟨hdone, hcheck, fun _ he => Except.error.inj he ▸ hreport⟩
  rw [hrun]
  rcases hends with ⟨h, hfailed⟩ | ⟨h, hcheck, htold⟩
  · exact ⟨.inl h, fun hok => absurd hok hfailed, fun _ _ _ => h, fun _ _ _ => h,
      fun hrenamed => absurd (h.1.symm.trans hrenamed) (by decide)⟩
  · exact ⟨.inr ⟨h.renamed, h.contents⟩, fun _ => h.contents,
      fun e he hunchanged => absurd ((htold e he).symm.trans hunchanged) (by decide),
      fun c hc hne => absurd (hcheck c hc) hne, fun _ => h.theirs (hidle .rename (by simp))⟩

def quiet : Point → Turn := fun _ => ⟨id, none⟩

def emptyPlace : Place := ⟨none, none, true, none, false, []⟩

theorem writeGuarded_honest_new :
    ((writeGuarded quiet (fun _ => Vector.replicate 32 0) "new" none true).run.run
      emptyPlace).2.contents = some (utf8Bytes "new") :=
  have hok : ((writeGuarded quiet (fun _ => Vector.replicate 32 0) "new" none true).run.run
      emptyPlace).1 = .ok () := by decide +kernel
  (@writeGuarded_honest quiet (fun _ => Vector.replicate 32 0) "new" none emptyPlace
    ⟨rfl, rfl⟩ rfl (fun _ _ => rfl) true).2.1 hok

end Fornax.Cli.Guarded
