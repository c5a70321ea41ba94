import Fornax.Lib.Text

namespace Fornax.Files

open Std.Do

set_option mvcgen.warning false

inductive ErrorKind
  | notFound
  | alreadyExists
  | invalidInput
  | fileTooLarge
  | invalidData
  | wouldBlock
  | other
  deriving DecidableEq, Repr

structure Failure where
  kind : ErrorKind
  spurious : kind ≠ .notFound ∧ kind ≠ .alreadyExists
  written : ℕ

structure Event where
  time : ℕ
  failure : Option Failure

structure File where
  inode : ℕ
  mtime : ℕ
  ctime : ℕ
  bytes : Bytes

/-- The directories `D` above the files exist or not. -/
structure Disk (D : Type) where
  dirs : D → Bool
  device : ℕ
  nextInode : ℕ
  files : String → Option File

structure World (D : Type) where
  disk : Disk D
  now : ℕ
  script : List Event

abbrev Io (D : Type) := ExceptT ErrorKind (StateM (World D))

def resultOf {σ ε ε' α : Type} (p : ExceptT ε (StateM σ) α) :
    ExceptT ε' (StateM σ) (Except ε α) := monadLift p.run

variable {D : Type}

namespace Disk

def contents (d : Disk D) (name : String) : Option Bytes := (d.files name).map File.bytes

def withDir [DecidableEq D] (dir : D) (d : Disk D) : Disk D :=
  { d with dirs := Function.update d.dirs dir true }

def create (name : String) (now : ℕ) (d : Disk D) : Disk D :=
  { d with
    nextInode := d.nextInode + 1
    files := Function.update d.files name (some ⟨d.nextInode, now, now, []⟩) }

def append (name : String) (bytes : Bytes) (now : ℕ) (d : Disk D) : Disk D :=
  match d.files name with
  | none => d
  | some f =>
    { d with
      files := Function.update d.files name
        (some { f with mtime := now, ctime := now, bytes := f.bytes ++ bytes }) }

end Disk

/-- The next call returns, at the time given; `left` is what it leaves when it fails
after writing some bytes. -/
def call (left : ℕ → ℕ → Disk D → Disk D) : Io D ℕ := do
  let w ← get
  match w.script with
  | [] => return w.now
  | e :: rest =>
    match e.failure with
    | none =>
      set { w with now := e.time, script := rest }
      return e.time
    | some f =>
      set { disk := left f.written e.time w.disk, now := e.time, script := rest : World D }
      throw f.kind

def attempt : Io D ℕ := call fun _ _ d => d

def openDir (dir : D) : Io D Unit := do
  let _ ← attempt
  if (← get).disk.dirs dir then return () else throw .notFound

def makeDir [DecidableEq D] (dir : D) : Io D Unit := do
  let _ ← attempt
  let w ← get
  if w.disk.dirs dir then throw .alreadyExists
  else set { w with disk := w.disk.withDir dir }

def makeDirs [DecidableEq D] (dir : D) : Io D Unit := do
  let _ ← attempt
  let w ← get
  set { w with disk := w.disk.withDir dir }

def openFile (name : String) : Io D Unit := do
  let _ ← attempt
  match (← get).disk.files name with
  | none => throw .notFound
  | some _ => return ()

/-- `O_CREAT`. -/
def openOrCreate (name : String) : Io D Unit := do
  let now ← attempt
  let w ← get
  match w.disk.files name with
  | none => set { w with disk := w.disk.create name now }
  | some _ => return ()

/-- `O_CREAT` with `O_EXCL`. -/
def createNew (name : String) : Io D Unit := do
  let now ← attempt
  let w ← get
  match w.disk.files name with
  | none => set { w with disk := w.disk.create name now }
  | some _ => throw .alreadyExists

structure Metadata where
  device : ℕ
  inode : ℕ
  length : ℕ
  mtime : ℕ
  ctime : ℕ
  deriving DecidableEq

def metadata (name : String) : Io D Metadata := do
  let _ ← attempt
  let w ← get
  match w.disk.files name with
  | none => throw .notFound
  | some f => return ⟨w.disk.device, f.inode, f.bytes.length, f.mtime, f.ctime⟩

def readUpTo (name : String) (limit : ℕ) : Io D Bytes := do
  let _ ← attempt
  match (← get).disk.files name with
  | none => throw .notFound
  | some f => return f.bytes.take limit

def writeAll (name : String) (bytes : Bytes) : Io D Unit := do
  let now ← call fun written now d => d.append name (bytes.take written) now
  let w ← get
  set { w with disk := w.disk.append name bytes now }

def sync : Io D Unit := do
  let _ ← attempt

def rename (source target : String) : Io D Unit := do
  let now ← attempt
  let w ← get
  match w.disk.files source with
  | none => throw .notFound
  | some f =>
    set { w with disk := { w.disk with
      files := Function.update (Function.update w.disk.files source none) target
        (some { f with ctime := now }) } }

namespace World

def Calm (w : World D) : Prop := ∀ e ∈ w.script, e.failure = none

structure Quiet (w w' : World D) : Prop where
  disk : w'.disk = w.disk
  calm : w.Calm → w'.Calm

theorem Quiet.trans {w w' w'' : World D} (h : w.Quiet w') (h' : w'.Quiet w'') : w.Quiet w'' :=
  ⟨h'.disk.trans h.disk, h'.calm ∘ h.calm⟩

end World

variable (w₀ : World D)

@[spec] theorem call_spec (left : ℕ → ℕ → Disk D → Disk D) : ⦃fun w => ⌜w = w₀⌝⦄ call left
    ⦃post⟨fun _ w => ⌜w₀.Quiet w⌝, fun k w => ⌜¬ w₀.Calm ∧ k ≠ .notFound ∧ k ≠ .alreadyExists ∧
        ∃ written now, w.disk = left written now w₀.disk⌝⟩⦄ := by
  mvcgen [call] with subst_vars
  case vc1 => exact ⟨rfl, id⟩
  case vc2 w e rest hscript hfailure =>
    refine ⟨rfl, fun hcalm e' he' => hcalm e' ?_⟩
    rw [hscript]
    exact List.mem_cons_of_mem e he'
  case vc3 w e rest hscript f hfailure =>
    refine ⟨fun hcalm => ?_, f.spurious.1, f.spurious.2, f.written, e.time, rfl⟩
    have hnone := hcalm e (by rw [hscript]; exact List.mem_cons_self)
    rw [hfailure] at hnone
    cases hnone

@[spec] theorem attempt_spec : ⦃fun w => ⌜w = w₀⌝⦄ attempt ⦃post⟨fun _ w => ⌜w₀.Quiet w⌝,
      fun k w => ⌜w₀.Quiet w ∧ ¬ w₀.Calm ∧ k ≠ .notFound ∧ k ≠ .alreadyExists⌝⟩⦄ := by
  mvcgen [attempt] with subst_vars
  case vc1 => exact id
  case vc2 =>
    rintro hcalm hmissing hexists ⟨_, _, hdisk⟩
    exact ⟨⟨hdisk, fun h => absurd h hcalm⟩, hcalm, hmissing, hexists⟩

@[spec] theorem openDir_spec (dir : D) : ⦃fun w => ⌜w = w₀⌝⦄ openDir dir
    ⦃post⟨fun _ w => ⌜w₀.Quiet w ∧ w₀.disk.dirs dir = true⌝,
      fun k w => ⌜w₀.Quiet w ∧ (k = .notFound → w₀.disk.dirs dir = false) ∧
        (w₀.Calm → k = .notFound)⌝⟩⦄ := by
  mvcgen [openDir] with subst_vars
  all_goals grind [World.Quiet]

@[spec] theorem openFile_spec (name : String) : ⦃fun w => ⌜w = w₀⌝⦄ openFile name
    ⦃post⟨fun _ w => ⌜w₀.Quiet w ∧ w₀.disk.files name ≠ none⌝,
      fun k w => ⌜w₀.Quiet w ∧ (k = .notFound → w₀.disk.files name = none) ∧
        (w₀.Calm → k = .notFound)⌝⟩⦄ := by
  mvcgen [openFile] with subst_vars
  all_goals grind [World.Quiet]

@[spec] theorem metadata_spec (name : String) : ⦃fun w => ⌜w = w₀⌝⦄ metadata name
    ⦃post⟨fun m w => ⌜w₀.Quiet w ∧ ∃ f, w₀.disk.files name = some f ∧
        m = ⟨w₀.disk.device, f.inode, f.bytes.length, f.mtime, f.ctime⟩⌝,
      fun k w => ⌜w₀.Quiet w ∧ (k = .notFound ∨ w₀.Calm → w₀.disk.files name = none)⌝⟩⦄ := by
  mvcgen [metadata] with subst_vars
  all_goals grind [World.Quiet]

@[spec] theorem readUpTo_spec (name : String) (limit : ℕ) : ⦃fun w => ⌜w = w₀⌝⦄ readUpTo name limit
    ⦃post⟨fun bytes w => ⌜w₀.Quiet w ∧ ∃ f, w₀.disk.files name = some f ∧
        bytes = f.bytes.take limit⌝,
      fun k w => ⌜w₀.Quiet w ∧ (k = .notFound ∨ w₀.Calm → w₀.disk.files name = none)⌝⟩⦄ := by
  mvcgen [readUpTo] with subst_vars
  all_goals grind [World.Quiet]

@[spec] theorem sync_spec : ⦃fun w => ⌜w = w₀⌝⦄ sync
    ⦃post⟨fun _ w => ⌜w.disk = w₀.disk⌝, fun _ w => ⌜w.disk = w₀.disk⌝⟩⦄ := by
  mvcgen [sync] with subst_vars
  all_goals grind [World.Quiet]

namespace Disk

/-- No file has been changed or has gone, nor has one come or gone under the name `fixed`. -/
structure Grows (fixed : String) (d d' : Disk D) : Prop where
  kept : ∀ name, d.files name ≠ none → d'.files name = d.files name
  fixed : d'.files fixed = d.files fixed
  dirs : ∀ dir, d.dirs dir = true → d'.dirs dir = true

structure Only (name : String) (d d' : Disk D) : Prop where
  others : ∀ other, other ≠ name → d'.files other = d.files other
  dirs : d'.dirs = d.dirs

variable {d d' d'' : Disk D} {name fixed : String}

theorem Grows.refl (fixed : String) (d : Disk D) : d.Grows fixed d :=
  ⟨fun _ _ => rfl, rfl, fun _ h => h⟩

theorem Grows.trans (h : d.Grows fixed d') (h' : d'.Grows fixed d'') : d.Grows fixed d'' := by
  refine ⟨fun name hname => ?_, h'.fixed.trans h.fixed,
    fun dir hdir => h'.dirs dir (h.dirs dir hdir)⟩
  have hkept := h.kept name hname
  rw [h'.kept name (by rwa [hkept]), hkept]

theorem Only.trans (h : d.Only name d') (h' : d'.Only name d'') : d.Only name d'' :=
  ⟨fun other hne => (h'.others other hne).trans (h.others other hne), h'.dirs.trans h.dirs⟩

theorem Only.grows (h : d.Only name d') (hnew : d.files name = none) (hne : name ≠ fixed) :
    d.Grows fixed d' := by
  refine ⟨fun other hother => h.others other ?_, h.others fixed hne.symm, fun dir hdir => ?_⟩
  · rintro rfl
    exact hother hnew
  · rw [h.dirs]
    exact hdir

theorem Grows.of_files (hfiles : d'.files = d.files)
    (hdirs : ∀ dir, d.dirs dir → d'.dirs dir) : d.Grows fixed d' :=
  ⟨fun _ _ => by rw [hfiles], by rw [hfiles], hdirs⟩

theorem dirs_withDir [DecidableEq D] (dir : D) (d : Disk D) {other : D}
    (h : d.dirs other) : (d.withDir dir).dirs other := by
  by_cases heq : other = dir
  · rw [heq]
    exact Function.update_self dir true d.dirs
  · exact (Function.update_of_ne heq true d.dirs).trans h

theorem only_create (name : String) (now : ℕ) (d : Disk D) : d.Only name (d.create name now) :=
  ⟨fun _ hne => Function.update_of_ne hne _ _, rfl⟩

theorem contents_create (name : String) (now : ℕ) (d : Disk D) :
    (d.create name now).contents name = some [] := by
  simp [contents, create]

variable (name : String) (bytes : Bytes) (now : ℕ) (d : Disk D)

theorem only_append : d.Only name (d.append name bytes now) := by
  unfold append
  split
  · exact ⟨fun _ _ => rfl, rfl⟩
  · exact ⟨fun _ hne => Function.update_of_ne hne _ _, rfl⟩

theorem contents_append :
    (d.append name bytes now).contents name = (d.contents name).map (· ++ bytes) := by
  unfold append contents
  split
  · next h => rw [h]; rfl
  · next f h => simp [h]

end Disk

@[spec] theorem makeDir_spec [DecidableEq D] (dir : D) : ⦃fun w => ⌜w = w₀⌝⦄ makeDir dir
    ⦃post⟨fun _ w => ⌜w.disk.files = w₀.disk.files ∧
        ∀ other, w₀.disk.dirs other = true → w.disk.dirs other = true⌝,
      fun _ w => ⌜w.disk = w₀.disk⌝⟩⦄ := by
  mvcgen [makeDir] with subst_vars
  all_goals grind [World.Quiet, Disk.withDir, Disk.dirs_withDir]

@[spec] theorem makeDirs_spec [DecidableEq D] (dir : D) : ⦃fun w => ⌜w = w₀⌝⦄ makeDirs dir
    ⦃post⟨fun _ w => ⌜w.disk.files = w₀.disk.files ∧
        ∀ other, w₀.disk.dirs other = true → w.disk.dirs other = true⌝,
      fun _ w => ⌜w.disk = w₀.disk⌝⟩⦄ := by
  mvcgen [makeDirs] with subst_vars
  all_goals grind [World.Quiet, Disk.withDir, Disk.dirs_withDir]

@[spec] theorem openOrCreate_spec (name : String) : ⦃fun w => ⌜w = w₀⌝⦄ openOrCreate name
    ⦃post⟨fun _ w => ⌜∀ fixed, name ≠ fixed → w₀.disk.Grows fixed w.disk⌝,
      fun _ w => ⌜w.disk = w₀.disk⌝⟩⦄ := by
  mvcgen [openOrCreate] with subst_vars
  case vc1 w now w' hquiet hnew =>
    intro fixed hne
    rw [hquiet.disk] at hnew ⊢
    exact (Disk.only_create name now w.disk).grows hnew hne
  case vc2 w now w' hquiet f hold =>
    intro fixed _
    rw [hquiet.disk]
    exact .refl fixed w.disk
  case vc3 => exact fun hquiet _ _ _ => hquiet.disk

@[spec] theorem createNew_spec (name : String) : ⦃fun w => ⌜w = w₀⌝⦄ createNew name
    ⦃post⟨fun _ w => ⌜w₀.disk.files name = none ∧ w₀.disk.Only name w.disk ∧
        w.disk.contents name = some []⌝, fun _ w => ⌜w.disk = w₀.disk⌝⟩⦄ := by
  mvcgen [createNew] with subst_vars
  all_goals grind [World.Quiet, Disk.only_create, Disk.contents_create]

@[spec] theorem writeAll_spec (name : String) (bytes : Bytes) :
    ⦃fun w => ⌜w = w₀⌝⦄ writeAll name bytes ⦃post⟨fun _ w => ⌜w₀.disk.Only name w.disk ∧
        w.disk.contents name = (w₀.disk.contents name).map (· ++ bytes)⌝,
      fun _ w => ⌜w₀.disk.Only name w.disk⌝⟩⦄ := by
  mvcgen [writeAll] with subst_vars
  all_goals grind [World.Quiet, Disk.only_append, Disk.contents_append]

@[spec] theorem rename_spec (source target : String) : ⦃fun w => ⌜w = w₀⌝⦄ rename source target
    ⦃post⟨fun _ w => ⌜w.disk.contents target = w₀.disk.contents source ∧
        w.disk.dirs = w₀.disk.dirs ∧
        ∀ other, other ≠ source → other ≠ target → w.disk.files other = w₀.disk.files other⌝,
      fun _ w => ⌜w.disk = w₀.disk⌝⟩⦄ := by
  mvcgen [rename] with subst_vars
  case vc2 w now w' hquiet f hf =>
    rw [hquiet.disk] at hf
    refine ⟨?_, by rw [hquiet.disk], fun other hsource htarget => ?_⟩
    · simp [Disk.contents, hf]
    · rw [Function.update_of_ne htarget, Function.update_of_ne hsource, hquiet.disk]
  all_goals grind [World.Quiet]

theorem run_of_triple {σ ε α : Type} {p : ExceptT ε (StateM σ) α} {P : σ → Prop}
    {Q : α → σ → Prop} {E : ε → σ → Prop}
    (h : ⦃fun s => ⌜P s⌝⦄ p ⦃post⟨fun a s => ⌜Q a s⌝, fun e s => ⌜E e s⌝⟩⦄) {s : σ} (hs : P s) :
    (∃ a s', p.run.run s = (.ok a, s') ∧ Q a s') ∨
      ∃ e s', p.run.run s = (.error e, s') ∧ E e s' := by
  have hwp := h s hs
  simp only [wp, PredTrans.apply_pushExcept, PredTrans.apply_pushArg,
    PredTrans.apply_Pure_pure] at hwp
  rcases hrun : p.run.run s with ⟨_ | _, s'⟩
  · rw [hrun] at hwp
    exact .inr ⟨_, s', rfl, hwp⟩
  · rw [hrun] at hwp
    exact .inl ⟨_, s', rfl, hwp⟩

end Fornax.Files
