import Fornax.Registry.Owner

namespace Fornax.Registry

open Files Manifest Std.Do Fallible

set_option mvcgen.warning false

variable (w₀ : World Dir) (name : String) (uuid : Uuid)

@[spec] theorem readBounded_spec (max : ℕ) : ⦃fun w => ⌜w = w₀⌝⦄ readBounded name max
    ⦃post⟨fun bytes w => ⌜w₀.Quiet w ∧ w₀.disk.contents name = some bytes ∧ bytes.length ≤ max⌝,
      fun k w => ⌜w₀.Quiet w ∧ (k = .notFound → w₀.disk.contents name = none) ∧
        (w₀.Calm → (k = .notFound ∧ w₀.disk.contents name = none) ∨
          ∃ bytes, w₀.disk.contents name = some bytes ∧ max < bytes.length)⌝⟩⦄ := by
  mvcgen [readBounded] with subst_vars
  case vc2 w₀ _ w₁ h₁ before hfits w₂ h₂ bytes w₃ h₃ after hsame w₄ h₄ =>
    -- nothing has changed the file between the two looks at it
    obtain ⟨hq₃, -⟩ := h₃
    grind [World.Quiet]
  case vc3 w₀ _ w₁ h₁ before hfits w₂ h₂ bytes w₃ h₃ after hsame hlength w₄ h₄ =>
    obtain ⟨hq₂, f, hf, rfl⟩ := h₂
    obtain ⟨hq₃, f', hf', rfl⟩ := h₃
    rw [hq₂.disk, hf, Option.some.injEq] at hf'
    subst hf'
    rw [List.length_take] at hlength
    simp only at hfits
    omega
  case vc4 w₀ _ w₁ h₁ before hfits w₂ h₂ bytes w₃ h₃ after hsame hlength w₄ h₄ =>
    obtain ⟨hq₁, -⟩ := h₁
    obtain ⟨hq₂, f, hf, rfl⟩ := h₂
    obtain ⟨hq₃, f', hf', rfl⟩ := h₃
    rw [hq₂.disk, hf, Option.some.injEq] at hf'
    subst hf'
    rw [hq₁.disk] at hf
    refine ⟨hq₁.trans (hq₂.trans (hq₃.trans h₄.1)), ?_, Nat.le_of_not_lt hlength⟩
    rw [List.take_of_length_le (by simp only at hfits; omega), Disk.contents, hf]
    rfl
  case vc5 w₀ _ w₁ h₁ before hfits w₂ h₂ bytes w₃ h₃ k w₄ =>
    obtain ⟨hq₃, -⟩ := h₃
    grind [World.Quiet, Disk.contents]
  all_goals grind [World.Quiet, Disk.contents]

@[spec]
theorem readIndexBytes_spec : ⦃fun w => ⌜w = w₀⌝⦄ readIndexBytes
    ⦃post⟨fun bytes w => ⌜w₀.Quiet w ∧ w₀.disk.contents registryIndexFile = bytes⌝,
      fun e w => ⌜w₀.Quiet w ∧ e.indexPublished = false ∧ (w₀.Calm → ∃ bytes,
        w₀.disk.contents registryIndexFile = some bytes ∧ maxIndexBytes < bytes.length)⌝⟩⦄ := by
  mvcgen [readIndexBytes, resultOf] with subst_vars
  all_goals grind [fail]

@[spec] theorem ofResult_spec {α : Type} (r : Except RegistryError α) :
    ⦃fun w => ⌜w = w₀⌝⦄ ofResult r
    ⦃post⟨fun a w => ⌜w = w₀ ∧ r = .ok a⌝, fun e w => ⌜w = w₀ ∧ r = .error e⌝⟩⦄ := by
  mvcgen [ofResult]

variable {e : RegistryError} {c : Formats} {bytes : Bytes} {st : IndexState} {d d₁ d₂ : Disk Dir}

theorem deserializeUnique_error {malformed trailing : RegistryError}
    (h : deserializeUnique c bytes malformed trailing = .error e) :
    e = malformed ∨ e = trailing := by
  unfold deserializeUnique at h
  split at h
  · cases h
    exact .inl rfl
  · split at h
    · cases h
      exact .inl rfl
    · split_ifs at h
      cases h
      exact .inr rfl

theorem rootState_error {value : Json} {version : Option ℕ}
    (h : rootState value version = .error e) : e.indexPublished = false := by
  unfold rootState at h
  grind [legacyMalformed, unsupportedVersion, fail]

theorem validateEntries_error {ids : List String} {l : List WireEntry}
    (h : validateEntries ids l = .error e) : e.indexPublished = false := by
  induction l generalizing ids with
  | nil => cases h
  | cons row l ih =>
    rw [validateEntries] at h
    split_ifs at h
    · cases h
      rfl
    · cases h
      rfl
    · cases h
      rfl
    · exact ih h

theorem validateState_error (h : validateState st = .error e) : e.indexPublished = false := by
  unfold validateState at h
  split_ifs at h
  · cases h
    rfl
  · exact validateEntries_error h

theorem decodeIndex_error (h : decodeIndex c bytes = .error e) : e.indexPublished = false := by
  unfold decodeIndex at h
  split_ifs at h
  · cases h
    rfl
  · rcases bind_eq_error.mp h with he | ⟨value, -, he⟩
    · rcases deserializeUnique_error he with rfl | rfl <;> rfl
    · split_ifs at he
      · cases he
        rfl
      · rcases bind_eq_error.mp he with he | ⟨st, -, he⟩
        · exact rootState_error he
        · rcases bind_eq_error.mp he with he | ⟨_, -, he⟩
          · exact validateState_error he
          · cases he

def indexState (c : Formats) (d : Disk Dir) : Except RegistryError IndexState :=
  stateOf c (d.contents registryIndexFile)

@[spec] theorem readStateWithRevision_spec : ⦃fun w => ⌜w = w₀⌝⦄ readStateWithRevision c
    ⦃post⟨fun r w => ⌜w₀.Quiet w ∧ w₀.disk.contents registryIndexFile = r.2 ∧
        indexState c w₀.disk = .ok r.1⌝, fun e w => ⌜w₀.Quiet w ∧ e.indexPublished = false ∧
        (w₀.Calm → ∀ st, indexState c w₀.disk ≠ .ok st)⌝⟩⦄ := by
  mvcgen [readStateWithRevision] with subst_vars
  case vc1 => grind [indexState]
  case vc2 w₀ bytes w h e w' =>
    rintro rfl he
    have hpublished : e.indexPublished = false := by
      cases bytes with
      | none => cases he
      | some bytes => exact decodeIndex_error he
    refine ⟨h.1, hpublished, fun _ st hst => ?_⟩
    rw [indexState, h.2, he] at hst
    cases hst
  case vc3 w₀ e w =>
    intro hquiet hpublished hlarge
    refine ⟨hquiet, hpublished, fun hcalm st hst => ?_⟩
    obtain ⟨bytes, hbytes, hlength⟩ := hlarge hcalm
    rw [indexState, hbytes] at hst
    exact absurd (decodeIndex_sound hst).1 (Nat.not_le.mpr hlength)

@[spec]
theorem openExisting_spec : ⦃fun w => ⌜w = w₀⌝⦄ openExisting
    ⦃post⟨fun r w => ⌜w₀.Quiet w ∧ r = (w₀.disk.dirs .home && w₀.disk.dirs .adapters)⌝,
      fun _ _ => ⌜¬ w₀.Calm⌝⟩⦄ := by
  mvcgen [openExisting, resultOf] with subst_vars
  all_goals grind [World.Quiet]

@[spec]
theorem openForMutation_spec : ⦃fun w => ⌜w = w₀⌝⦄ openForMutation
    ⦃post⟨fun _ w => ⌜w₀.disk.Grows registryIndexFile w.disk ∧ w.disk.dirs .home = true ∧
        w.disk.dirs .adapters = true⌝,
      fun e w => ⌜e.indexPublished = false ∧ w₀.disk.Grows registryIndexFile w.disk⌝⟩⦄ := by
  have hgrows : ∀ {d d' : Disk Dir}, d'.files = d.files →
      (∀ dir, d.dirs dir = true → d'.dirs dir = true) → d.Grows registryIndexFile d' :=
    Disk.Grows.of_files
  mvcgen [openForMutation, resultOf, orFail] with subst_vars
  all_goals grind [World.Quiet, fail]

theorem pollLock_disk {deadline : ℕ} {disk : Disk Dir} {now : ℕ} {script : List Event}
    {r : Except RegistryError Unit} {w : World Dir}
    (h : pollLock deadline disk now script = (r, w)) :
    w.disk = disk ∧ ∀ e, r = .error e → e.indexPublished = false := by
  induction script generalizing now with
  | nil =>
    cases h
    exact ⟨rfl, fun e he => by cases he⟩
  | cons event rest ih =>
    rw [pollLock] at h
    split at h
    · cases h
      exact ⟨rfl, fun e he => by cases he⟩
    · split_ifs at h
      · cases h
        exact ⟨rfl, fun e he => by cases he; rfl⟩
      · exact ih h
      · cases h
        exact ⟨rfl, fun e he => by cases he; rfl⟩

theorem lockFile_ne : lockFile ≠ registryIndexFile := by decide

@[spec]
theorem lock_spec : ⦃fun w => ⌜w = w₀⌝⦄ lock
    ⦃post⟨fun _ w => ⌜w₀.disk.Grows registryIndexFile w.disk⌝,
      fun e w => ⌜e.indexPublished = false ∧ w₀.disk.Grows registryIndexFile w.disk⌝⟩⦄ := by
  mvcgen [lock, orFail] with subst_vars
  case vc1 w₀ _ w₁ hopen m w₂ hquiet _ w₃ =>
    rintro rfl hresult
    rw [(pollLock_disk rfl).1, hquiet.1.disk]
    exact hopen registryIndexFile lockFile_ne
  case vc2 w₀ _ w₁ hopen m w₂ hquiet e w₃ =>
    rintro rfl hresult
    refine ⟨(pollLock_disk rfl).2 e hresult, ?_⟩
    rw [(pollLock_disk rfl).1, hquiet.1.disk]
    exact hopen registryIndexFile lockFile_ne
  case vc3 w₀ _ w₁ hopen k w₂ =>
    intro hquiet _
    rw [hquiet.disk]
    exact ⟨rfl, hopen registryIndexFile lockFile_ne⟩
  case vc4 =>
    intro hdisk
    rw [hdisk]
    exact ⟨rfl, .refl _ _⟩

@[spec] theorem removeOwned_spec (created : CreatedIdentity) :
    ⦃fun w => ⌜w = w₀⌝⦄ removeOwned name created
    ⦃post⟨fun _ _ => ⌜False⌝, fun _ w => ⌜w.disk = w₀.disk⌝⟩⦄ := by
  mvcgen [removeOwned] with subst_vars
  all_goals grind [World.Quiet]

@[spec] theorem identityIfRegular_spec : ⦃fun w => ⌜w = w₀⌝⦄ identityIfRegular name
    ⦃post⟨fun _ w => ⌜w.disk = w₀.disk⌝, fun _ w => ⌜w.disk = w₀.disk⌝⟩⦄ := by
  mvcgen [identityIfRegular, resultOf] with subst_vars
  all_goals grind [World.Quiet]

@[spec] theorem writeNew_spec {occupied : ErrorKind → RegistryError}
    {unverified unwritten : RegistryError} (hoccupied : ∀ k, (occupied k).indexPublished = false)
    (hunverified : unverified.indexPublished = false)
    (hunwritten : unwritten.indexPublished = false) (name : String) (bytes : Bytes)
    (hname : name ≠ registryIndexFile) :
    ⦃fun w => ⌜w = w₀⌝⦄ writeNew occupied unverified unwritten name bytes
    ⦃post⟨fun _ w => ⌜w₀.disk.files name = none ∧ w₀.disk.Only name w.disk ∧
        w.disk.contents name = some bytes⌝,
      fun e w => ⌜e.indexPublished = false ∧ w₀.disk.Grows registryIndexFile w.disk⌝⟩⦄ := by
  mvcgen [writeNew, resultOf, orFail] with subst_vars
  case vc1 w₀ _ w₁ hnew m w₂ hquiet _ w₃ hwrite _ w₄ hsync =>
    obtain ⟨hnone, honly, hempty⟩ := hnew
    rw [hquiet.1.disk] at hwrite
    rw [hsync]
    refine ⟨hnone, honly.trans hwrite.1, ?_⟩
    rw [hwrite.2, hempty]
    rfl
  all_goals grind [World.Quiet, → Disk.Only.trans, Disk.Only.grows, Disk.Grows.refl]

/-- The index is the encoded state, every other file is kept. -/
structure Published (c : Formats) (st : IndexState) (d d' : Disk Dir) : Prop where
  index : ∃ bytes, st.encode c = .ok bytes ∧ d'.contents registryIndexFile = some bytes
  kept : ∀ name, name ≠ registryIndexFile → d.files name ≠ none → d'.files name = d.files name
  dirs : ∀ dir, d.dirs dir = true → d'.dirs dir = true

theorem stagingName_ne : stagingName uuid ≠ registryIndexFile := by
  unfold stagingName
  generalize uuid.text = suffix
  intro h
  have hlong : "registry.json.tmp-".length = 18 := by decide +kernel
  have hshort : registryIndexFile.length = 13 := by decide +kernel
  have hlength := congrArg String.length h
  rw [String.length_append, hlong, hshort] at hlength
  omega

theorem published_of_rename {staging : String} (hencode : st.encode c = .ok bytes)
    (hnew : d.files staging = none) (hstaged : d.Only staging d₁)
    (hbytes : d₁.contents staging = some bytes)
    (hindex : d₂.contents registryIndexFile = d₁.contents staging) (hdirs : d₂.dirs = d₁.dirs)
    (hothers : ∀ other, other ≠ staging → other ≠ registryIndexFile →
      d₂.files other = d₁.files other) : Published c st d d₂ := by
  refine ⟨⟨bytes, hencode, hindex.trans hbytes⟩, fun name hname hold => ?_, ?_⟩
  swap
  · rw [hdirs, hstaged.dirs]
    exact fun _ h => h
  have hne : name ≠ staging := by
    rintro rfl
    exact hold hnew
  rw [hothers name hne hname, hstaged.others name hne]

@[spec] theorem confirmPublished_spec (bytes : Bytes) :
    ⦃fun w => ⌜w = w₀⌝⦄ confirmPublished c bytes ⦃post⟨fun _ w => ⌜w.disk = w₀.disk⌝,
      fun e w => ⌜e.indexPublished = true ∧ w.disk = w₀.disk⌝⟩⦄ := by
  mvcgen [confirmPublished, orFail] with subst_vars
  all_goals grind [World.Quiet, committedUnverified, failPublished]

theorem encode_error (h : st.encode c = .error e) : e.indexPublished = false := by
  unfold IndexState.encode at h
  grind [fail]

@[spec]
theorem publish_spec (st : IndexState) (expected : Option Bytes) :
    ⦃fun w => ⌜w = w₀⌝⦄ publish c uuid st expected
    ⦃post⟨fun _ w => ⌜Published c st w₀.disk w.disk⌝,
      fun e w => ⌜(e.indexPublished → Published c st w₀.disk w.disk) ∧
        (e.indexPublished = false → w₀.disk.Grows registryIndexFile w.disk)⌝⟩⦄ := by
  mvcgen [publish, resultOf] with subst_vars
  case vc4 => exact stagingName_ne uuid
  case vc7 w₀ bytes _ w₁ hencode _ w₂ hstaged _ hcurrent w₃ hread _ w₄ hrename _ w₅ =>
    intro hconfirm
    obtain ⟨rfl, hencode⟩ := hencode
    rw [hread.1.disk] at hrename
    rw [hconfirm]
    exact published_of_rename hencode hstaged.1 hstaged.2.1 hstaged.2.2 hrename.1 hrename.2.1
      hrename.2.2
  case vc8 w₀ bytes _ w₁ hencode _ w₂ hstaged _ hcurrent w₃ hread _ w₄ hrename e w₅ =>
    intro hpublished hconfirm
    obtain ⟨rfl, hencode⟩ := hencode
    rw [hread.1.disk] at hrename
    rw [hconfirm, hpublished]
    refine ⟨fun _ => ?_, fun h => by cases h⟩
    exact published_of_rename hencode hstaged.1 hstaged.2.1 hstaged.2.2 hrename.1 hrename.2.1
      hrename.2.2
  all_goals grind [World.Quiet, fail, Disk.Only.grows, Disk.Grows.refl, Disk.Grows.trans,
    stagingName_ne, encode_error]

theorem Published.of_grows (hgrows : d.Grows registryIndexFile d₁) (h : Published c st d₁ d₂) :
    Published c st d d₂ := by
  refine ⟨h.index, fun name hname hold => ?_, fun dir hdir => h.dirs dir (hgrows.dirs dir hdir)⟩
  have hkept := hgrows.kept name hold
  rw [h.kept name hname (by rwa [hkept]), hkept]

structure Commits (c : Formats) (st st' : IndexState) (d d' : Disk Dir) : Prop where
  before : indexState c d = .ok st
  published : Published c st' d d'
  home : d'.dirs .home = true
  adapters : d'.dirs .adapters = true

def Registers (c : Formats) (entry : WireEntry) (bytes : Bytes) (upgrade : Bool)
    (d d' : Disk Dir) : Prop :=
  ∃ st, Commits c st (st.adding upgrade entry) d d' ∧ (∀ e ∈ st.entries, e.id ≠ entry.id) ∧
    entry.id ∉ builtinAdapterIds ∧ st.entries.length < maxEntries ∧
    d.files entry.manifestFile = none ∧ d'.contents entry.manifestFile = some bytes

def Enables (c : Formats) (id : String) (enabled : Bool) (d d' : Disk Dir) : Prop :=
  ∃ st row, Commits c st { st with entries := enableRow id enabled st.entries } d d' ∧
    st.entries.find? (·.id == id) = some row ∧ ¬ (row.kind = some .hostAdapterV1 ∧ enabled = true)

def Removes (c : Formats) (id : String) (d d' : Disk Dir) : Prop :=
  ∃ st row, Commits c st { st with entries := st.entries.eraseP (·.id == id) } d d' ∧
    st.entries.find? (·.id == id) = some row

theorem indexState_of_grows {d' : Disk Dir} (h : d.Grows registryIndexFile d') :
    indexState c d' = indexState c d := by
  rw [indexState, indexState, Disk.contents, Disk.contents, h.fixed]

structure Locked (c : Formats) (st : IndexState) (d d' : Disk Dir) : Prop where
  grows : d.Grows registryIndexFile d'
  home : d'.dirs .home = true
  adapters : d'.dirs .adapters = true
  state : indexState c d = .ok st

@[spec] theorem lockedState_spec : ⦃fun w => ⌜w = w₀⌝⦄ lockedState c
    ⦃post⟨fun r w => ⌜Locked c r.1 w₀.disk w.disk⌝,
      fun e w => ⌜e.indexPublished = false ∧ w₀.disk.Grows registryIndexFile w.disk⌝⟩⦄ := by
  mvcgen [lockedState] with subst_vars
  case vc1 w₀ _ w₁ hopen _ w₂ hlock r w₃ =>
    intro hquiet _ hstate
    have hgrows := hopen.1.trans hlock
    rw [hquiet.disk]
    refine ⟨hgrows, hlock.dirs _ hopen.2.1, hlock.dirs _ hopen.2.2, ?_⟩
    rwa [indexState_of_grows hgrows] at hstate
  all_goals grind [World.Quiet, → Disk.Grows.trans]

theorem Locked.commits {st' : IndexState} {d₃ : Disk Dir} (h₁ : Locked c st d d₁)
    (h₂ : d₁.Grows registryIndexFile d₂) (h₃ : Published c st' d₂ d₃) : Commits c st st' d d₃ :=
  ⟨h₁.state, h₃.of_grows (h₁.grows.trans h₂), h₃.dirs _ (h₂.dirs _ h₁.home),
    h₃.dirs _ (h₂.dirs _ h₁.adapters)⟩

theorem Registers.of_steps {entry : WireEntry} {upgrade : Bool} {d₃ : Disk Dir}
    (hname : entry.manifestFile ≠ registryIndexFile) (h₁ : Locked c st d d₁)
    (hid : ¬ (st.entries.any (·.id == entry.id))) (hbuiltin : ¬ builtinAdapterIds.contains entry.id)
    (hroom : ¬ maxEntries ≤ st.entries.length)
    (h₂ : d₁.files entry.manifestFile = none ∧ d₁.Only entry.manifestFile d₂ ∧
      d₂.contents entry.manifestFile = some bytes)
    (h₃ : Published c (st.adding upgrade entry) d₂ d₃) : Registers c entry bytes upgrade d d₃ := by
  obtain ⟨hnew, honly, hbytes⟩ := h₂
  refine ⟨st, h₁.commits (honly.grows hnew hname) h₃, ?_, ?_, Nat.lt_of_not_le hroom, ?_, ?_⟩
  · intro e he heq
    exact hid (List.any_eq_true.mpr ⟨e, he, beq_iff_eq.mpr heq⟩)
  · exact fun h => hbuiltin (List.contains_iff_mem.mpr h)
  · by_contra hold
    exact hold ((h₁.grows.kept _ hold).symm.trans hnew)
  · have hne : d₂.files entry.manifestFile ≠ none := by
      intro hnone
      rw [Disk.contents, hnone] at hbytes
      cases hbytes
    rw [Disk.contents, h₃.kept _ hname hne]
    exact hbytes

theorem indexPublished_occupiedError (k : ErrorKind) :
    (occupiedError k).indexPublished = false := by
  cases k <;> rfl

@[spec] theorem registerBytes_spec (entry : WireEntry) (bytes : Bytes)
    (upgrade : Bool) (hname : entry.manifestFile ≠ registryIndexFile) :
    ⦃fun w => ⌜w = w₀⌝⦄ registerBytes c uuid entry bytes upgrade
    ⦃post⟨fun _ w => ⌜Registers c entry bytes upgrade w₀.disk w.disk⌝,
      fun e w => ⌜(e.indexPublished → Registers c entry bytes upgrade w₀.disk w.disk) ∧
        (e.indexPublished = false → w₀.disk.Grows registryIndexFile w.disk)⌝⟩⦄ := by
  mvcgen [registerBytes, createOwned, resultOf] with subst_vars
  case vc4 => exact indexPublished_occupiedError
  case vc8 w₀ r hid hbuiltin hroom w₁ hlocked _ w₂ howned _ w₃ hpublished =>
    exact .of_steps hname hlocked hid hbuiltin hroom howned hpublished
  case vc9 w₀ r hid hbuiltin hroom w₁ hlocked _ w₂ howned e he w₃ hpublished =>
    refine ⟨fun _ => ?_, fun h => ?_⟩
    · exact .of_steps hname hlocked hid hbuiltin hroom howned (hpublished.1 he)
    · rw [he] at h
      cases h
  case vc11 w₀ r hid hbuiltin hroom w₁ hlocked _ w₂ howned e he w₃ hpublished _ w₄ hsame =>
    refine ⟨fun h => absurd h he, fun h => ?_⟩
    rw [hsame]
    exact hlocked.grows.trans ((howned.2.1.grows howned.1 hname).trans (hpublished.2 h))
  all_goals grind [fail, Locked, → Disk.Grows.trans]

@[spec]
theorem setEnabled_spec (id : String) (enabled : Bool) :
    ⦃fun w => ⌜w = w₀⌝⦄ setEnabled c uuid id enabled
    ⦃post⟨fun _ w => ⌜Enables c id enabled w₀.disk w.disk⌝,
      fun e w => ⌜(e.indexPublished → Enables c id enabled w₀.disk w.disk) ∧
        (e.indexPublished = false → w₀.disk.Grows registryIndexFile w.disk)⌝⟩⦄ := by
  mvcgen [setEnabled] with subst_vars
  case vc3 w₀ r row hrow hhost w₁ hlocked _ w₂ =>
    exact fun hp => ⟨r.1, row, hlocked.commits (.refl _ _) hp, hrow, hhost⟩
  case vc4 w₀ r row hrow hhost w₁ hlocked e w₂ =>
    exact fun hp hg => ⟨fun h => ⟨r.1, row, hlocked.commits (.refl _ _) (hp h), hrow, hhost⟩,
      fun h => hlocked.grows.trans (hg h)⟩
  all_goals grind [fail, Locked]

@[spec] theorem remove_spec (id : String) :
    ⦃fun w => ⌜w = w₀⌝⦄ remove c uuid id ⦃post⟨fun _ w => ⌜Removes c id w₀.disk w.disk⌝,
      fun e w => ⌜(e.indexPublished → Removes c id w₀.disk w.disk) ∧
        (e.indexPublished = false → w₀.disk.Grows registryIndexFile w.disk)⌝⟩⦄ := by
  have hremoves : ∀ {st row d d₁ d₂}, Locked c st d d₁ → st.entries.find? (·.id == id) = some row →
      Published c { st with entries := st.entries.eraseP (·.id == id) } d₁ d₂ →
      Removes c id d d₂ :=
    fun hlocked hrow hp => ⟨_, _, hlocked.commits (.refl _ _) hp, hrow⟩
  mvcgen [remove, resultOf] with subst_vars
  all_goals grind [fail, failPublished, Locked, → Disk.Grows.trans]

theorem checkConfig_error {id : String} {rawBytes : Bytes}
    (h : checkConfig c id rawBytes = .error e) : e.indexPublished = false := by
  unfold checkConfig at h
  split_ifs at h
  · cases h
    rfl
  · rcases bind_eq_error.mp h with he | ⟨raw, -, he⟩
    · rcases deserializeUnique_error he with rfl | rfl <;> rfl
    · split_ifs at he
      cases he
      rfl

theorem checkHostDescriptor_error {rawBytes : Bytes}
    (h : checkHostDescriptor c rawBytes = .error e) : e.indexPublished = false := by
  rcases bind_eq_error.mp h with he | ⟨manifest, -, he⟩
  · cases hdecode : decodeHostAdapterManifest c rawBytes with
    | error rejection =>
      rw [hdecode] at he
      cases he
      rfl
    | ok manifest =>
      rw [hdecode] at he
      cases he
  · split_ifs at he
    · cases he
    · cases he
      rfl

theorem filename_ne_index (kind : RegistrationKind) (id : String) :
    kind.filename id ≠ registryIndexFile := by
  intro h
  have hindex : registryIndexFile.length = 13 := by decide +kernel
  have hlength := congrArg String.length h
  cases kind with
  | configV1 =>
    have hsuffix : ".manifest.json".length = 14 := by decide +kernel
    rw [RegistrationKind.filename, String.length_append, hsuffix, hindex] at hlength
    omega
  | hostAdapterV1 =>
    have hsuffix : ".host-adapter.json".length = 18 := by decide +kernel
    rw [RegistrationKind.filename, String.length_append, hsuffix, hindex] at hlength
    omega

@[spec] theorem registerConfig_spec (id sourcePath registeredAt : String) (rawBytes : Bytes) :
    ⦃fun w => ⌜w = w₀⌝⦄ registerConfig c uuid id sourcePath registeredAt rawBytes
    ⦃post⟨fun _ w => ⌜checkConfig c id rawBytes = .ok () ∧
        Registers c (configRow c id sourcePath registeredAt rawBytes) rawBytes false
          w₀.disk w.disk⌝, fun e w => ⌜(e.indexPublished → checkConfig c id rawBytes = .ok () ∧
          Registers c (configRow c id sourcePath registeredAt rawBytes) rawBytes false
            w₀.disk w.disk) ∧
        (e.indexPublished = false → w₀.disk.Grows registryIndexFile w.disk)⌝⟩⦄ := by
  mvcgen [registerConfig] with subst_vars
  case vc1 => exact filename_ne_index .configV1 id
  case vc2 w₀ _ row w₁ hcheck _ w₂ hregisters =>
    obtain ⟨rfl, hcheck⟩ := hcheck
    exact ⟨hcheck, hregisters⟩
  case vc3 w₀ _ row w₁ hcheck e w₂ =>
    obtain ⟨rfl, hcheck⟩ := hcheck
    exact fun hregisters hgrows => ⟨fun h => ⟨hcheck, hregisters h⟩, hgrows⟩
  case vc4 w₀ e w₁ =>
    rintro rfl he
    exact ⟨fun h => by simp [checkConfig_error he] at h, fun _ => .refl _ _⟩

@[spec] theorem registerHostDescriptor_spec (sourcePath registeredAt : String) (rawBytes : Bytes) :
    ⦃fun w => ⌜w = w₀⌝⦄ registerHostDescriptor c uuid sourcePath registeredAt rawBytes
    ⦃post⟨fun _ w => ⌜∃ manifest, checkHostDescriptor c rawBytes = .ok manifest ∧
        Registers c (hostRow c manifest sourcePath registeredAt) manifest.source true
          w₀.disk w.disk⌝, fun e w => ⌜(e.indexPublished →
          ∃ manifest, checkHostDescriptor c rawBytes = .ok manifest ∧
            Registers c (hostRow c manifest sourcePath registeredAt) manifest.source true
              w₀.disk w.disk) ∧
        (e.indexPublished = false → w₀.disk.Grows registryIndexFile w.disk)⌝⟩⦄ := by
  mvcgen [registerHostDescriptor] with subst_vars
  case vc1 w₀ manifest row w₁ hcheck => exact filename_ne_index .hostAdapterV1 manifest.id
  case vc2 w₀ manifest row w₁ hcheck _ w₂ hregisters =>
    obtain ⟨rfl, hcheck⟩ := hcheck
    exact ⟨manifest, hcheck, hregisters⟩
  case vc3 w₀ manifest row w₁ hcheck e w₂ =>
    obtain ⟨rfl, hcheck⟩ := hcheck
    exact fun hregisters hgrows => ⟨fun h => ⟨manifest, hcheck, hregisters h⟩, hgrows⟩
  case vc4 w₀ e w₁ =>
    rintro rfl he
    exact ⟨fun h => by simp [checkHostDescriptor_error he] at h, fun _ => .refl _ _⟩

end Fornax.Registry
