import Fornax.Lib.Runs
import Fornax.Registry.Lookups

namespace Fornax.Registry

open List hiding Vector
open Files Manifest Fallible Std.Do Runs

set_option mvcgen.warning false

inductive Request
  | registerConfig (id sourcePath registeredAt : String) (rawBytes : Bytes)
  | registerHostDescriptor (sourcePath registeredAt : String) (rawBytes : Bytes)
  | setRegistrationEnabled (id : String) (enabled : Bool)
  | removeRegistration (id : String)

/-- A request with the fresh name of its staging file, the clock, and the failures of its calls. -/
structure Call where
  request : Request
  uuid : Uuid
  now : ℕ
  script : List Event

variable (c : Formats)

def program (uuid : Uuid) : Request → Owner Unit
  | .registerConfig id sourcePath registeredAt rawBytes => do
    let _ ← registerConfig c uuid id sourcePath registeredAt rawBytes
    return ()
  | .registerHostDescriptor sourcePath registeredAt rawBytes => do
    let _ ← registerHostDescriptor c uuid sourcePath registeredAt rawBytes
    return ()
  | .setRegistrationEnabled id enabled => setEnabled c uuid id enabled
  | .removeRegistration id => remove c uuid id

def perform (d : Disk Dir) (call : Call) : Except RegistryError Unit × Disk Dir :=
  let (r, w) := (program c call.uuid call.request).run.run ⟨d, call.now, call.script⟩
  (r, w.disk)

def step (d : Disk Dir) (call : Call) : Disk Dir := (perform c d call).2

def committed : Except RegistryError Unit → Bool
  | .ok () => true
  | .error e => e.indexPublished

def Requested (d d' : Disk Dir) : Request → Prop
  | .registerConfig id sourcePath registeredAt rawBytes =>
    checkConfig c id rawBytes = .ok () ∧
      Registers c (configRow c id sourcePath registeredAt rawBytes) rawBytes false d d'
  | .registerHostDescriptor sourcePath registeredAt rawBytes =>
    ∃ manifest, checkHostDescriptor c rawBytes = .ok manifest ∧
      Registers c (hostRow c manifest sourcePath registeredAt) manifest.source true d d'
  | .setRegistrationEnabled id enabled => Enables c id enabled d d'
  | .removeRegistration id => Removes c id d d'

theorem program_spec (uuid : Uuid) (request : Request) (w₀ : World Dir) :
    ⦃fun w => ⌜w = w₀⌝⦄ program c uuid request
    ⦃post⟨fun _ w => ⌜Requested c w₀.disk w.disk request⌝,
      fun e w => ⌜(e.indexPublished → Requested c w₀.disk w.disk request) ∧
        (e.indexPublished = false → w₀.disk.Grows registryIndexFile w.disk)⌝⟩⦄ := by
  cases request with
  | registerConfig id sourcePath registeredAt rawBytes =>
    mvcgen [program]
    all_goals grind [Requested]
  | registerHostDescriptor sourcePath registeredAt rawBytes =>
    mvcgen [program]
    all_goals grind [Requested]
  | setRegistrationEnabled id enabled =>
    exact setEnabled_spec w₀ uuid id enabled
  | removeRegistration id =>
    exact remove_spec w₀ uuid id

theorem perform_cases (d : Disk Dir) (call : Call) :
    (committed (perform c d call).1 ∧ Requested c d (step c d call) call.request) ∨
      (committed (perform c d call).1 = false ∧ d.Grows registryIndexFile (step c d call)) := by
  rcases run_of_triple (program_spec c call.uuid call.request ⟨d, call.now, call.script⟩) rfl with
    ⟨⟨⟩, w, hrun, hdone⟩ | ⟨e, w, hrun, hdone⟩
  · left
    simp only [step, perform, hrun]
    exact ⟨rfl, hdone⟩
  · simp only [step, perform, hrun, committed]
    cases he : e.indexPublished with
    | true => exact .inl ⟨rfl, hdone.1 he⟩
    | false => exact .inr ⟨rfl, hdone.2 he⟩

structure Kept (d d' : Disk Dir) : Prop where
  files : ∀ name, name ≠ registryIndexFile → d.files name ≠ none → d'.files name = d.files name
  dirs : ∀ dir, d.dirs dir = true → d'.dirs dir = true

variable {d d' : Disk Dir} {st : IndexState} {bytes : Bytes} {request : Request}
  {l : List WireEntry} {e : WireEntry} {log : List Registration}

theorem kept_of_grows (h : d.Grows registryIndexFile d') : Kept d d' :=
  ⟨fun name _ => h.kept name, h.dirs⟩

theorem Published.toKept {c : Formats} (h : Published c st d d') : Kept d d' :=
  ⟨h.kept, h.dirs⟩

theorem files_ne_none {name : String} (h : d.contents name = some bytes) : d.files name ≠ none := by
  intro hnone
  rw [Disk.contents, hnone] at h
  cases h

theorem Kept.contents (h : Kept d d') {name : String} (hname : name ≠ registryIndexFile)
    (hbytes : d.contents name = some bytes) : d'.contents name = some bytes := by
  rw [Disk.contents, h.files name hname (files_ne_none hbytes)]
  exact hbytes

structure EntriesValid (l : List RegistryEntry) : Prop where
  room : l.length ≤ maxEntries
  entry : ∀ e ∈ l, validId e.id e.kind = true ∧ e.manifestFile = e.kind.filename e.id ∧
    validDigest e.digest = true ∧ e.id ∉ builtinAdapterIds
  distinct : (l.map RegistryEntry.id).Nodup

theorem validateState_iff_entriesValid :
    validateState st = .ok () ↔ EntriesValid (st.entries.map publicEntry) := by
  have hids : (st.entries.map publicEntry).map RegistryEntry.id = st.entries.map WireEntry.id := by
    rw [map_map]
    rfl
  rw [validateState_ok_iff]
  constructor
  · rintro ⟨hroom, hrows, hdistinct⟩
    refine ⟨by rwa [length_map], ?_, by rwa [hids]⟩
    intro e he
    obtain ⟨row, hrow, rfl⟩ := mem_map.mp he
    exact hrows row hrow
  · rintro ⟨hroom, hentries, hdistinct⟩
    refine ⟨by rwa [length_map] at hroom, fun row hrow => ?_, by rwa [hids] at hdistinct⟩
    exact hentries (publicEntry row) (mem_map_of_mem hrow)

def Descriptor (id : String) (bytes : Bytes) : RegistrationKind → Prop
  | .configV1 => checkConfig c id bytes = .ok ()
  | .hostAdapterV1 => ∃ manifest, checkHostDescriptor c bytes = .ok manifest ∧ manifest.id = id

structure Registration where
  id : String
  kind : RegistrationKind
  bytes : Bytes

def Registration.key (r : Registration) : String × RegistrationKind := (r.id, r.kind)

def RegistryEntry.key (e : RegistryEntry) : String × RegistrationKind := (e.id, e.kind)

structure NewEntry (d d' : Disk Dir) (entries : List RegistryEntry) (entry : RegistryEntry)
    (bytes : Bytes) : Prop where
  fresh : ∀ e ∈ entries, e.id ≠ entry.id
  room : entries.length < maxEntries
  valid : validId entry.id entry.kind = true
  notBuiltin : entry.id ∉ builtinAdapterIds
  file : entry.manifestFile = entry.kind.filename entry.id
  free : d.files entry.manifestFile = none
  owned : d'.contents entry.manifestFile = some bytes
  digest : entry.digest = digest c bytes
  disabled : entry.kind = .hostAdapterV1 → entry.enabled = false
  descriptor : Descriptor c entry.id bytes entry.kind

def newEntry : Request → Option (RegistryEntry × Bytes)
  | .registerConfig id sourcePath registeredAt rawBytes =>
    some (publicEntry (configRow c id sourcePath registeredAt rawBytes), rawBytes)
  | .registerHostDescriptor sourcePath registeredAt rawBytes =>
    match checkHostDescriptor c rawBytes with
    | .ok manifest => some (publicEntry (hostRow c manifest sourcePath registeredAt), rawBytes)
    | .error _ => none
  | _ => none

def enableEntry (id : String) (enabled : Bool) (e : RegistryEntry) : RegistryEntry :=
  if e.id = id then { e with enabled := enabled } else e

def applied (entries : List RegistryEntry) : Request → Option (List RegistryEntry)
  | .setRegistrationEnabled id enabled =>
    if entries.any (·.id = id) then some (entries.map (enableEntry id enabled)) else none
  | .removeRegistration id =>
    if entries.any (·.id = id) then some (entries.filter (·.id ≠ id)) else none
  | request =>
    (newEntry c request).bind fun (entry, _) =>
      if entries.any (·.id = entry.id) then none else some (entries ++ [entry])

inductive Change (d d' : Disk Dir) (entries : List RegistryEntry) :
    Request → List RegistryEntry → Prop
  | register {request : Request} {entry : RegistryEntry} {bytes : Bytes}
      (hentry : newEntry c request = some (entry, bytes))
      (hnew : NewEntry c d d' entries entry bytes) :
      Change d d' entries request (entries ++ [entry])
  | enable {id : String} {enabled : Bool} {entry : RegistryEntry} (hentry : entry ∈ entries)
      (hid : entry.id = id) (hhost : entry.kind = .hostAdapterV1 → enabled = false) :
      Change d d' entries (.setRegistrationEnabled id enabled)
        (entries.map (enableEntry id enabled))
  | remove {id : String} {entry : RegistryEntry} (hentry : entry ∈ entries) (hid : entry.id = id) :
      Change d d' entries (.removeRegistration id) (entries.filter (·.id ≠ id))

variable {c}

theorem Change.applied {entries after : List RegistryEntry}
    (h : Change c d d' entries request after) : applied c entries request = some after := by
  cases h with
  | @register _ entry bytes hentry hnew =>
    cases request with
    | registerConfig => simpa [Registry.applied, hentry] using hnew.fresh
    | registerHostDescriptor => simpa [Registry.applied, hentry] using hnew.fresh
    | setRegistrationEnabled => cases hentry
    | removeRegistration => cases hentry
  | enable hentry hid | remove hentry hid =>
    have hfound : (entries.any fun e => e.id = _) :=
      any_eq_true.mpr ⟨_, hentry, decide_eq_true hid⟩
    simp only [Registry.applied, hfound, if_true]

theorem map_id_enableEntry (id : String) (enabled : Bool) (l : List RegistryEntry) :
    (l.map (enableEntry id enabled)).map RegistryEntry.id = l.map RegistryEntry.id := by
  rw [map_map]
  refine map_congr_left fun e _ => ?_
  simp only [Function.comp, enableEntry]
  split_ifs <;> rfl

theorem Change.entriesValid {entries after : List RegistryEntry}
    (h : Change c d d' entries request after) (hvalid : EntriesValid entries) :
    EntriesValid after := by
  cases h with
  | @register _ entry bytes hentry hnew =>
    refine ⟨?_, fun e he => ?_, ?_⟩
    · rw [length_append]
      exact hnew.room
    · rcases mem_append.mp he with he | he
      · exact hvalid.entry e he
      · cases mem_singleton.mp he
        refine ⟨hnew.valid, hnew.file, ?_, hnew.notBuiltin⟩
        rw [hnew.digest]
        exact validDigest_digest c bytes
    · rw [map_append, nodup_append]
      refine ⟨hvalid.distinct, by simp, fun id hid id' hid' => ?_⟩
      obtain ⟨e, he, rfl⟩ := mem_map.mp hid
      cases mem_singleton.mp hid'
      exact hnew.fresh e he
  | @enable id enabled entry hentry hid hhost =>
    refine ⟨by rw [length_map]; exact hvalid.room, fun e he => ?_, ?_⟩
    · obtain ⟨old, hold, rfl⟩ := mem_map.mp he
      unfold enableEntry
      split_ifs
      · exact hvalid.entry old hold
      · exact hvalid.entry old hold
    · rw [map_id_enableEntry]
      exact hvalid.distinct
  | remove hentry hid =>
    refine ⟨(length_filter_le _ _).trans hvalid.room, fun e he => ?_, ?_⟩
    · exact hvalid.entry e (mem_of_mem_filter he)
    · exact hvalid.distinct.sublist (filter_sublist.map _)

theorem EntriesValid.rows_distinct (h : EntriesValid (l.map publicEntry)) :
    (l.map WireEntry.id).Nodup := by
  have hdistinct := h.distinct
  rwa [map_map] at hdistinct

theorem indexState_sound (h : indexState c d = .ok st) :
    st.Shaped ∧ EntriesValid (st.entries.map publicEntry) := by
  unfold indexState stateOf at h
  split at h
  · cases h
    exact ⟨.inr ⟨rfl, by decide, by simp [IndexState.empty]⟩,
      ⟨by decide, by simp [IndexState.empty],
      by simp [IndexState.empty]⟩⟩
  · obtain ⟨-, hshaped, hvalid⟩ := decodeIndex_sound h
    exact ⟨hshaped, validateState_iff_entriesValid.mp hvalid⟩

theorem Commits.indexState (hreads : c.ReadsBack) {st' : IndexState} (h : Commits c st st' d d')
    (hshaped : st'.Shaped) (hvalid : EntriesValid (st'.entries.map publicEntry)) :
    indexState c d' = .ok { st' with storedVersion := some st'.effectiveVersion } := by
  obtain ⟨bytes, hencode, hindex⟩ := h.published.index
  rw [Registry.indexState, hindex]
  exact decodeIndex_encode hreads hshaped (validateState_iff_entriesValid.mpr hvalid) hencode

namespace IndexState

theorem upgraded_entries (st : IndexState) :
    st.upgraded.entries.map publicEntry = st.entries.map publicEntry := by
  rw [upgraded, map_map]
  rfl

theorem upgraded_shaped (st : IndexState) : st.upgraded.Shaped := by
  refine .inl ⟨rfl, rfl, fun e he => ?_⟩
  obtain ⟨row, -, rfl⟩ := mem_map.mp he
  exact Option.some_ne_none _

theorem publicEntry_withKind (entry : WireEntry) (v2 : Bool) :
    publicEntry (if v2 && entry.kind.isNone then { entry with kind := some .configV1 }
      else entry) = publicEntry entry := by
  split_ifs with h
  · rw [Bool.and_eq_true, Option.isNone_iff_eq_none] at h
    simp [publicEntry, WireEntry.kindOr, h.2]
  · rfl

theorem adding_entries (st : IndexState) (upgrade : Bool) (entry : WireEntry) :
    (st.adding upgrade entry).entries.map publicEntry =
      st.entries.map publicEntry ++ [publicEntry entry] := by
  unfold adding
  rw [map_append, map_singleton, publicEntry_withKind]
  split_ifs
  · rw [upgraded_entries]
  · rfl

theorem adding_v2 {st : IndexState} (upgrade : Bool) (entry : WireEntry) (h : st.v2) :
    (st.adding upgrade entry).v2 := by
  simp [adding, h]

theorem adding_shaped {st : IndexState} {entry : WireEntry} (h : st.Shaped) :
    (st.adding entry.kind.isSome entry).Shaped := by
  have hlast : ∀ {l : List WireEntry} {P : WireEntry → Prop} {e : WireEntry}, (∀ e ∈ l, P e) →
      P e → ∀ e' ∈ l ++ [e], P e' := fun hl he =>
    forall_mem_append.mpr ⟨hl, forall_mem_singleton.mpr he⟩
  rcases h with ⟨hv2, hversion, hkinds⟩ | ⟨hv2, hversion, hkinds⟩
  · -- already version 2: the new row is given its kind
    refine .inl ?_
    simp only [adding, hv2, Bool.not_true, Bool.and_false, Bool.false_eq_true, if_false,
      Bool.true_and]
    refine ⟨trivial, hversion, hlast hkinds ?_⟩
    split_ifs with hnone
    · exact Option.some_ne_none _
    · simpa using hnone
  · cases hkind : entry.kind with
    | none =>
      refine .inr ?_
      simp only [adding, hv2, hkind, Option.isSome_none, Bool.false_and, Bool.false_eq_true,
        if_false]
      exact ⟨trivial, hversion, hlast hkinds hkind⟩
    | some kind =>
      obtain ⟨hv2', hversion', hkinds'⟩ | ⟨hv2', -⟩ := st.upgraded_shaped
      · refine .inl ?_
        simp only [adding, hv2, hkind, Option.isSome_some, Bool.not_false, Bool.and_self, if_true,
          Option.isNone_some, Bool.and_false, Bool.false_eq_true, if_false]
        refine ⟨hv2', hversion', hlast hkinds' ?_⟩
        rw [hkind]
        exact Option.some_ne_none _
      · cases hv2'

end IndexState

variable {id : String} {entries after : List RegistryEntry}

theorem enableRow_entries {enabled : Bool} (hdistinct : (l.map WireEntry.id).Nodup) :
    (enableRow id enabled l).map publicEntry =
      (l.map publicEntry).map (enableEntry id enabled) := by
  induction l with
  | nil => rfl
  | cons e l ih =>
    rw [map_cons, nodup_cons] at hdistinct
    rw [enableRow, map_cons, map_cons]
    split_ifs with hid
    · -- no later row has the id
      have hrest : (l.map publicEntry).map (enableEntry id enabled) = l.map publicEntry := by
        rw [map_map]
        refine map_congr_left fun e' he' => if_neg ?_
        rintro rfl
        exact hdistinct.1 (hid ▸ mem_map_of_mem he')
      have hfirst : enableEntry id enabled (publicEntry e) =
          publicEntry { e with enabled := enabled } := if_pos hid
      rw [map_cons, hrest, hfirst]
    · have hfirst : enableEntry id enabled (publicEntry e) = publicEntry e := if_neg hid
      rw [map_cons, ih hdistinct.2, hfirst]

theorem eraseP_entries (hdistinct : (l.map WireEntry.id).Nodup) :
    (l.eraseP (·.id == id)).map publicEntry = (l.map publicEntry).filter (·.id ≠ id) := by
  induction l with
  | nil => rfl
  | cons e l ih =>
    rw [map_cons, nodup_cons] at hdistinct
    by_cases hid : e.id = id
    · have hrest : (l.map publicEntry).filter (·.id ≠ id) = l.map publicEntry := by
        refine filter_eq_self.mpr (forall_mem_map.mpr fun e' he' => ?_)
        rw [decide_eq_true_iff]
        rintro rfl
        exact hdistinct.1 (hid ▸ mem_map_of_mem he')
      simpa [publicEntry, hid] using hrest.symm
    · simpa [publicEntry, hid] using ih hdistinct.2

theorem kinds_enableRow (enabled : Bool) :
    (enableRow id enabled l).map WireEntry.kind = l.map WireEntry.kind := by
  induction l with
  | nil => rfl
  | cons first l ih =>
    rw [enableRow]
    split_ifs
    · rfl
    · rw [map_cons, map_cons, ih]

theorem IndexState.Shaped.of_kinds (h : st.Shaped)
    (hkinds : l.map WireEntry.kind ⊆ st.entries.map WireEntry.kind) :
    ({ st with entries := l } : IndexState).Shaped := by
  have hall : ∀ P : Option RegistrationKind → Prop, (∀ e ∈ st.entries, P e.kind) →
      ∀ e ∈ l, P e.kind := by
    intro P hst e he
    obtain ⟨e', he', hkind⟩ := mem_map.mp (hkinds (mem_map_of_mem he))
    exact hkind ▸ hst e' he'
  exact h.imp (fun h => ⟨h.1, h.2.1, hall (· ≠ none) h.2.2⟩)
    fun h => ⟨h.1, h.2.1, hall (· = none) h.2.2⟩

structure Effect (c : Formats) (d d' : Disk Dir) (request : Request) (st st' : IndexState) :
    Prop where
  before : indexState c d = .ok st
  after : indexState c d' = .ok st'
  change : Change c d d' (st.entries.map publicEntry) request (st'.entries.map publicEntry)
  v2 : st.v2 = true → st'.v2 = true
  kept : Kept d d'
  home : d'.dirs .home = true
  adapters : d'.dirs .adapters = true

theorem exists_effect (hreads : c.ReadsBack) {st' : IndexState} (h : Commits c st st' d d')
    (hshaped : st.Shaped → st'.Shaped) (hchange : (st.entries.map WireEntry.id).Nodup →
      Change c d d' (st.entries.map publicEntry) request (st'.entries.map publicEntry))
    (hv2 : st.v2 → st'.v2) : ∃ st st', Effect c d d' request st st' := by
  obtain ⟨hsh, hvalid⟩ := indexState_sound h.before
  have hchange := hchange hvalid.rows_distinct
  have hafter := h.indexState hreads (hshaped hsh) (hchange.entriesValid hvalid)
  exact ⟨st, _, h.before, hafter, hchange, hv2, h.published.toKept, h.home, h.adapters⟩

theorem Registers.effect (hreads : c.ReadsBack) {row : WireEntry}
    (h : Registers c row bytes row.kind.isSome d d')
    (hentry : newEntry c request = some (publicEntry row, bytes))
    (hvalid : validId row.id row.kindOr)
    (hfile : row.manifestFile = row.kindOr.filename row.id) (hdigest : row.digest = digest c bytes)
    (hdisabled : row.kindOr = .hostAdapterV1 → row.enabled = false)
    (hdescriptor : Descriptor c row.id bytes row.kindOr) :
    ∃ st st', Effect c d d' request st st' := by
  obtain ⟨st, hcommits, hfresh, hbuiltin, hroom, hfree, howned⟩ := h
  refine exists_effect hreads hcommits IndexState.adding_shaped (fun _ => ?_)
    (IndexState.adding_v2 _ _)
  rw [IndexState.adding_entries]
  refine .register hentry ⟨fun e he => ?_, ?_, hvalid, hbuiltin, hfile, hfree, howned, hdigest,
    hdisabled, hdescriptor⟩
  · obtain ⟨old, hold, rfl⟩ := mem_map.mp he
    exact hfresh old hold
  · rwa [length_map]

theorem kindOr_eq_host (h : e.kindOr = .hostAdapterV1) : e.kind = some .hostAdapterV1 := by
  unfold WireEntry.kindOr at h
  cases hkind : e.kind with
  | none => simp [hkind] at h
  | some kind => simpa [hkind] using h

theorem Requested.effect (hreads : c.ReadsBack) (h : Requested c d d' request) :
    ∃ st st', Effect c d d' request st st' := by
  cases request with
  | registerConfig id sourcePath registeredAt rawBytes =>
    obtain ⟨hcheck, hregisters⟩ := h
    exact hregisters.effect hreads rfl (checkConfig_eq_ok hcheck).2.1 rfl rfl
      (fun hkind => by cases hkind) hcheck
  | registerHostDescriptor sourcePath registeredAt rawBytes =>
    obtain ⟨manifest, hcheck, hregisters⟩ := h
    obtain ⟨-, hid, hsource, -, -⟩ := checkHostDescriptor_eq_ok hcheck
    rw [hsource] at hregisters
    refine hregisters.effect hreads ?_ hid rfl ?_ (fun _ => rfl) ⟨manifest, hcheck, rfl⟩
    · simp only [newEntry, hcheck]
    · rw [hostRow, hsource]
  | setRegistrationEnabled id enabled =>
    obtain ⟨st, row, hcommits, hrow, hhost⟩ := h
    have hid : row.id = id := by simpa using find?_some hrow
    refine exists_effect hreads hcommits
      (fun hshaped => hshaped.of_kinds (by rw [kinds_enableRow]; exact Subset.refl _))
      (fun hdistinct => ?_) fun h => h
    rw [enableRow_entries hdistinct]
    refine .enable (mem_map_of_mem (mem_of_find?_eq_some hrow)) hid fun hkind => ?_
    cases henabled : enabled with
    | false => rfl
    | true => exact absurd ⟨kindOr_eq_host hkind, henabled⟩ hhost
  | removeRegistration id =>
    obtain ⟨st, row, hcommits, hrow⟩ := h
    have hid : row.id = id := by simpa using find?_some hrow
    refine exists_effect hreads hcommits
      (fun hshaped => hshaped.of_kinds (map_subset _ eraseP_subset))
      (fun hdistinct => ?_) fun h => h
    rw [eraseP_entries hdistinct]
    exact .remove (mem_map_of_mem (mem_of_find?_eq_some hrow)) hid

theorem step_cases (hreads : c.ReadsBack) (d : Disk Dir) (call : Call) :
    (committed (perform c d call).1 ∧ ∃ st st', Effect c d (step c d call) call.request st st') ∨
      (committed (perform c d call).1 = false ∧ d.Grows registryIndexFile (step c d call)) := by
  rcases perform_cases c d call with ⟨hcommitted, hrequested⟩ | hgrows
  · exact .inl ⟨hcommitted, hrequested.effect hreads⟩
  · exact .inr hgrows

theorem step_from (hreads : c.ReadsBack) (hst : indexState c d = .ok st) (call : Call) :
    (committed (perform c d call).1 ∧ ∃ st', Effect c d (step c d call) call.request st st') ∨
      (committed (perform c d call).1 = false ∧ d.Grows registryIndexFile (step c d call)) := by
  rcases step_cases hreads d call with ⟨hcommitted, st₀, st', heffect⟩ | hgrows
  · have hbefore := heffect.before
    rw [hst] at hbefore
    cases hbefore
    exact .inl ⟨hcommitted, st', heffect⟩
  · exact .inr hgrows

def registration (c : Formats) (request : Request) : List Registration :=
  (newEntry c request).toList.map fun (entry, bytes) => ⟨entry.id, entry.kind, bytes⟩

def registered (c : Formats) (d : Disk Dir) (call : Call) : List Registration :=
  if committed (perform c d call).1 then registration c call.request else []

structure Holds (c : Formats) (d : Disk Dir) (log : List Registration) (e : RegistryEntry)
    (bytes : Bytes) : Prop where
  home : d.dirs .home = true
  adapters : d.dirs .adapters = true
  logged : ⟨e.id, e.kind, bytes⟩ ∈ log
  owned : d.contents e.manifestFile = some bytes
  digest : digest c bytes = e.digest
  disabled : e.kind = .hostAdapterV1 → e.enabled = false
  descriptor : Descriptor c e.id bytes e.kind

structure Sound (c : Formats) (d : Disk Dir) (log : List Registration) : Prop where
  index : ∃ st, indexState c d = .ok st ∧
    ∀ e ∈ st.entries.map publicEntry, ∃ bytes, Holds c d log e bytes
  kept : ∀ r ∈ log, d.files (r.kind.filename r.id) ≠ none
  once : (log.map Registration.key).Nodup

theorem Holds.mono {more : List Registration} {e : RegistryEntry} (h : Holds c d log e bytes)
    (hkept : Kept d d') (hname : e.manifestFile ≠ registryIndexFile) :
    Holds c d' (log ++ more) e bytes :=
  ⟨hkept.dirs _ h.home, hkept.dirs _ h.adapters, mem_append_left _ h.logged,
    hkept.contents hname h.owned, h.digest, h.disabled, h.descriptor⟩

theorem Kept.filename (h : Kept d d') {kind : RegistrationKind}
    (hold : d.files (kind.filename id) ≠ none) : d'.files (kind.filename id) ≠ none := by
  rwa [h.files _ (filename_ne_index kind id) hold]

theorem sound_empty (hempty : ∀ name, d.files name = none) : Sound c d [] := by
  refine ⟨⟨.empty, ?_, by simp [IndexState.empty]⟩, by simp, nodup_nil⟩
  rw [indexState, Disk.contents, hempty]
  rfl

theorem EntriesValid.name_ne {l : List RegistryEntry} (h : EntriesValid l) {e : RegistryEntry}
    (he : e ∈ l) : e.manifestFile ≠ registryIndexFile := by
  rw [(h.entry e he).2.1]
  exact filename_ne_index e.kind e.id

theorem Change.holds (h : Change c d d' entries request after) (hkept : Kept d d')
    (hhome : d'.dirs .home) (hadapters : d'.dirs .adapters)
    (hvalid : EntriesValid entries) (hholds : ∀ e ∈ entries, ∃ bytes, Holds c d log e bytes) :
    ∀ e ∈ after, ∃ bytes, Holds c d' (log ++ registration c request) e bytes := by
  have hold : ∀ e ∈ entries, ∃ bytes, Holds c d' (log ++ registration c request) e bytes :=
    fun e he => (hholds e he).imp fun _ hheld => hheld.mono hkept (hvalid.name_ne he)
  cases h with
  | @register _ entry bytes hentry hnew =>
    intro e he
    rcases mem_append.mp he with he | he
    · exact hold e he
    · cases mem_singleton.mp he
      refine ⟨bytes, hhome, hadapters, mem_append_right _ ?_, hnew.owned, hnew.digest.symm,
        hnew.disabled, hnew.descriptor⟩
      simp [registration, hentry]
  | @enable id enabled entry hentry hid hhost =>
    intro e he
    obtain ⟨old, hmem, rfl⟩ := mem_map.mp he
    obtain ⟨bytes, hheld⟩ := hold old hmem
    refine ⟨bytes, ?_⟩
    unfold enableEntry
    split_ifs with hsame
    · -- the ids are distinct, so this is the entry that was checked
      have heq : old = entry := inj_on_of_nodup_map hvalid.distinct hmem hentry
        (hsame.trans hid.symm)
      subst heq
      exact { hheld with disabled := hhost }
    · exact hheld
  | remove hentry hid =>
    exact fun e he => hold e (mem_of_mem_filter he)

theorem Change.names (h : Change c d d' entries request after) :
    ∀ r ∈ registration c request, d.files (r.kind.filename r.id) = none ∧
      d'.files (r.kind.filename r.id) ≠ none := by
  intro r hr
  cases h with
  | @register _ entry bytes hentry hnew =>
    have heq : r = ⟨entry.id, entry.kind, bytes⟩ := by simpa [registration, hentry] using hr
    subst heq
    simp only
    rw [← hnew.file]
    exact ⟨hnew.free, files_ne_none hnew.owned⟩
  | enable => cases hr
  | remove => cases hr

theorem nodup_registration (request : Request) :
    ((registration c request).map Registration.key).Nodup := by
  unfold registration
  cases newEntry c request with
  | none => exact nodup_nil
  | some entry => exact nodup_singleton _

theorem sound_step (hreads : c.ReadsBack) (d : Disk Dir) (call : Call) (log : List Registration)
    (h : Sound c d log) : Sound c (step c d call) (log ++ registered c d call) := by
  obtain ⟨⟨st, hst, hholds⟩, hnames, honce⟩ := h
  obtain ⟨-, hvalid⟩ := indexState_sound hst
  rcases step_from hreads hst call with ⟨hcommitted, st', heffect⟩ | ⟨hcommitted, hgrows⟩
  · obtain ⟨-, hafter, hchange, -, hkept, hhome, hadapters⟩ := heffect
    have hlogged : registered c d call = registration c call.request := if_pos hcommitted
    rw [hlogged]
    refine ⟨⟨st', hafter, hchange.holds hkept hhome hadapters hvalid hholds⟩, fun r hr => ?_, ?_⟩
    · rcases mem_append.mp hr with hr | hr
      · exact hkept.filename (hnames r hr)
      · exact (hchange.names r hr).2
    · rw [map_append, nodup_append]
      refine ⟨honce, nodup_registration call.request, fun key hkey key' hkey' heq => ?_⟩
      -- the name was taken by the earlier registration
      obtain ⟨r, hr, rfl⟩ := mem_map.mp hkey
      obtain ⟨r', hr', rfl⟩ := mem_map.mp hkey'
      obtain ⟨hid, hkind⟩ := Prod.mk.inj heq
      have hfree := (hchange.names r' hr').1
      rw [← hid, ← hkind] at hfree
      exact hnames r hr hfree
  · have hnone : registered c d call = [] := if_neg (by rw [hcommitted]; exact Bool.false_ne_true)
    have hkept := kept_of_grows hgrows
    rw [hnone, append_nil]
    refine ⟨⟨st, (indexState_of_grows hgrows).trans hst, fun e he => ?_⟩, ?_, honce⟩
    · obtain ⟨bytes, hheld⟩ := hholds e he
      have hheld' : Holds c (step c d call) (log ++ []) e bytes :=
        hheld.mono hkept (hvalid.name_ne he)
      rw [append_nil] at hheld'
      exact ⟨bytes, hheld'⟩
    · exact fun r hr => hkept.filename (hnames r hr)

def registrations (c : Formats) (d : Disk Dir) (calls : List Call) : List Registration :=
  outputs (step c) (registered c) d calls

theorem sound_run (hreads : c.ReadsBack) (hempty : ∀ name, d.files name = none)
    (calls : List Call) : Sound c (run (step c) d calls) (registrations c d calls) :=
  outputs_invariant (P := Sound c) (sound_empty hempty) (sound_step hreads) calls

def LooksUp (c : Formats) (w : World Dir) (e : WireEntry) (bytes : Bytes) : Prop :=
  match e.kindOr with
  | .configV1 =>
    ((lookupConfigDescriptor c e.id).run.run w).1 = .ok (publicEntry e, bytes)
  | .hostAdapterV1 => ∃ manifest : HostAdapterManifest, manifest.source = bytes ∧
    ((lookupHostDescriptor c e.id).run.run w).1 = .ok (publicEntry e, manifest)

theorem ok_of_triple {α : Type} {p : Owner α} {a : α} {w : World Dir}
    (h : ⦃fun w' => ⌜w' = w⌝⦄ p ⦃post⟨fun r _ => ⌜r = a⌝, fun _ _ => ⌜False⌝⟩⦄) :
    (p.run.run w).1 = .ok a := by
  rcases run_of_triple h rfl with ⟨r, w', hrun, rfl⟩ | ⟨_, _, _, hfalse⟩
  · rw [hrun]
  · exact hfalse.elim

theorem looksUp (hst : indexState c d = .ok st) (he : e ∈ st.entries)
    (hholds : Holds c d log (publicEntry e) bytes) {w : World Dir} (hdisk : w.disk = d)
    (hcalm : w.Calm) : LooksUp c w e bytes := by
  subst hdisk
  have hdistinct := (indexState_sound hst).2.rows_distinct
  have hpinned : Pinned c e.id e bytes w.disk :=
    ⟨hholds.home, hholds.adapters, ⟨st, hst, find?_of_nodup hdistinct he⟩, hholds.owned,
      hholds.digest⟩
  have hdescriptor : Descriptor c e.id bytes e.kindOr := hholds.descriptor
  unfold LooksUp
  cases hkind : e.kindOr with
  | configV1 =>
    rw [hkind] at hdescriptor
    exact ok_of_triple (lookupConfigDescriptor_spec hcalm hpinned hkind hdescriptor)
  | hostAdapterV1 =>
    rw [hkind] at hdescriptor
    obtain ⟨manifest, hcheck, hid⟩ := hdescriptor
    obtain ⟨-, -, hsource, -⟩ := checkHostDescriptor_eq_ok hcheck
    rw [← hid] at hpinned
    refine ⟨manifest, hsource, ?_⟩
    rw [← hid]
    exact ok_of_triple (lookupHostDescriptor_spec hcalm hpinned hkind hcheck)

theorem v2_step (hreads : c.ReadsBack) {call : Call} (h : ∃ st, indexState c d = .ok st ∧ st.v2) :
    ∃ st, indexState c (step c d call) = .ok st ∧ st.v2 := by
  obtain ⟨st, hst, hv2⟩ := h
  rcases step_from hreads hst call with ⟨-, st', heffect⟩ | ⟨-, hgrows⟩
  · exact ⟨st', heffect.after, heffect.v2 hv2⟩
  · exact ⟨st, (indexState_of_grows hgrows).trans hst, hv2⟩

def keys (c : Formats) (d : Disk Dir) : List (String × RegistrationKind) :=
  match indexState c d with
  | .ok st => st.entries.map fun e => (e.id, e.kindOr)
  | .error _ => []

theorem keys_eq (h : indexState c d = .ok st) :
    keys c d = (st.entries.map publicEntry).map RegistryEntry.key := by
  rw [keys, h, map_map]
  rfl

theorem Change.key (h : Change c d d' entries request after) {e : RegistryEntry} (he : e ∈ after) :
    e.key ∈ entries.map RegistryEntry.key ∨ d.files (e.kind.filename e.id) = none := by
  cases h with
  | register hentry hnew =>
    rcases mem_append.mp he with he | he
    · exact .inl (mem_map_of_mem he)
    · cases mem_singleton.mp he
      rw [← hnew.file]
      exact .inr hnew.free
  | @enable id enabled =>
    obtain ⟨old, hold, rfl⟩ := mem_map.mp he
    have hkey : (enableEntry id enabled old).key = old.key := by
      unfold enableEntry
      split_ifs <;> rfl
    rw [hkey]
    exact .inl (mem_map_of_mem hold)
  | remove => exact .inl (mem_map_of_mem (mem_of_mem_filter he))

theorem key_step (hreads : c.ReadsBack) {call : Call} {key : String × RegistrationKind}
    (h : d.files (key.2.filename key.1) ≠ none ∧ key ∉ keys c d) :
    (step c d call).files (key.2.filename key.1) ≠ none ∧ key ∉ keys c (step c d call) := by
  obtain ⟨htaken, habsent⟩ := h
  rcases step_cases hreads d call with ⟨-, st, st', heffect⟩ | ⟨-, hgrows⟩
  · refine ⟨heffect.kept.filename htaken, ?_⟩
    rw [keys_eq heffect.before] at habsent
    rw [keys_eq heffect.after]
    intro hkey
    obtain ⟨e, he, rfl⟩ := mem_map.mp hkey
    rcases heffect.change.key he with hold | hfree
    · exact habsent hold
    · exact htaken hfree
  · refine ⟨(kept_of_grows hgrows).filename htaken, ?_⟩
    rw [keys, indexState_of_grows hgrows]
    exact habsent

theorem Sound.taken (h : Sound c d log) {key : String × RegistrationKind} (hkey : key ∈ keys c d) :
    d.files (key.2.filename key.1) ≠ none := by
  obtain ⟨st, hst, hholds⟩ := h.index
  rw [keys_eq hst] at hkey
  obtain ⟨e, he, rfl⟩ := mem_map.mp hkey
  obtain ⟨bytes, hheld⟩ := hholds e he
  exact h.kept _ hheld.logged

theorem taken_run (hreads : c.ReadsBack) {name : String} (hname : name ≠ registryIndexFile)
    (htaken : d.files name ≠ none) (calls : List Call) :
    (run (step c) d calls).files name ≠ none := by
  refine run_always (P := fun d : Disk Dir => d.files name ≠ none) htaken
    (fun d call htaken => ?_) calls
  rcases step_cases hreads d call with ⟨-, st, st', heffect⟩ | ⟨-, hgrows⟩
  · rwa [heffect.kept.files name hname htaken]
  · rwa [hgrows.kept name htaken]

/-- Over every sequence of owner operations on an empty directory, with failures at any of their
calls: the index decodes and is valid, every entry is found with the bytes that were registered
for it, a result tells whether the index was changed as requested, version 2 stays, and
a removed id does not come back under its kind. -/
theorem registry_sound (hreads : c.ReadsBack) {d₀ : Disk Dir}
    (hempty : ∀ name, d₀.files name = none) (calls : List Call) :
    let d := run (step c) d₀ calls
    ∃ st, indexState c d = .ok st ∧ st.entries.length ≤ 64 ∧ (st.entries.map WireEntry.id).Nodup ∧
      (∀ e ∈ st.entries, e.id ∉ builtinAdapterIds ∧
        ¬ (e.kindOr = .hostAdapterV1 ∧ e.enabled = true) ∧
        ∃ bytes, ⟨e.id, e.kindOr, bytes⟩ ∈ registrations c d₀ calls ∧
          ∀ w : World Dir, w.disk = d → w.Calm → LooksUp c w e bytes) ∧
      ((registrations c d₀ calls).map Registration.key).Nodup ∧
      (∀ call, committed (perform c d call).1 = false →
        (perform c d call).2.contents registryIndexFile = d.contents registryIndexFile) ∧
      (∀ call, committed (perform c d call).1 = true →
        ∃ st', indexState c (perform c d call).2 = .ok st' ∧
          applied c (st.entries.map publicEntry) call.request =
            some (st'.entries.map publicEntry)) ∧
      (st.v2 = true → ∀ later, ∃ st', indexState c (run (step c) d later) = .ok st' ∧
        st'.v2 = true) ∧
      ∀ key ∈ keys c d, ∀ mid later, key ∉ keys c (run (step c) d mid) →
        key ∉ keys c (run (step c) d (mid ++ later)) := by
  intro d
  have hsound : Sound c d (registrations c d₀ calls) := sound_run hreads hempty calls
  obtain ⟨st, hst, hholds⟩ := hsound.index
  obtain ⟨-, hvalid⟩ := indexState_sound hst
  refine ⟨st, hst, ?_, hvalid.rows_distinct, fun e he => ?_, hsound.once, fun call hcall => ?_,
    fun call hcall => ?_, fun hv2 later => ?_, fun key hkey mid later habsent => ?_⟩
  · have hroom := hvalid.room
    rwa [length_map] at hroom
  · have he' := mem_map_of_mem (f := publicEntry) he
    obtain ⟨bytes, hheld⟩ := hholds _ he'
    refine ⟨(hvalid.entry _ he').2.2.2, fun ⟨hkind, henabled⟩ => ?_, bytes, hheld.logged,
      fun w hdisk hcalm => looksUp hst he hheld hdisk hcalm⟩
    have hdisabled : e.enabled = false := hheld.disabled hkind
    rw [hdisabled] at henabled
    cases henabled
  · rcases step_cases hreads d call with ⟨hcommitted, -⟩ | ⟨-, hgrows⟩
    · rw [hcommitted] at hcall
      cases hcall
    · have hfixed : (perform c d call).2.files registryIndexFile = d.files registryIndexFile :=
        hgrows.fixed
      rw [Disk.contents, hfixed]
      rfl
  · rcases step_from hreads hst call with ⟨-, st', heffect⟩ | ⟨hcommitted, -⟩
    · exact ⟨st', heffect.after, heffect.change.applied⟩
    · rw [hcommitted] at hcall
      cases hcall
  · exact run_always (P := fun d => ∃ st, indexState c d = .ok st ∧ st.v2 = true)
      ⟨st, hst, hv2⟩ (fun d call => v2_step hreads) later
  · have htaken := taken_run hreads (filename_ne_index key.2 key.1) (hsound.taken hkey) mid
    rw [run_append]
    exact (run_always (P := fun d => d.files (key.2.filename key.1) ≠ none ∧ key ∉ keys c d)
      ⟨htaken, habsent⟩ (fun d call => key_step hreads) later).2

section Sample

def sampleSha256 (_ : Bytes) : Vector UInt8 32 := Vector.replicate 32 0

def sampleRow : WireEntry where
  id := "abc"
  manifestFile := "abc.manifest.json"
  digest := digestText (sampleSha256 [5])
  sourcePath := "/m"
  registeredAt := "t"
  enabled := true
  kind := none

def sampleIndex : IndexState := ⟨some 1, 1, false, [sampleRow]⟩

def sampleFormats : Formats where
  toVecPretty
    | .object [(version, .number (.posInt n)), (entries, .array [.object
        [(id, .string idText), (file, .string fileText), (digest, .string digestText),
          (path, .string pathText), (registered, .string registeredText),
          (enabled, .bool b)]])] =>
      if (n, b, [version, entries, id, idText, file, fileText, digest, digestText, path, pathText,
          registered, registeredText, enabled]) = (1, true, ["schema_version", "entries", "id",
          sampleRow.id, "manifest_file", sampleRow.manifestFile, "digest", sampleRow.digest,
          "source_path", sampleRow.sourcePath, "registered_at", sampleRow.registeredAt,
          "enabled"]) then some [7]
      else none
    | _ => none
  fromSlice bytes :=
    if bytes = [7, 10] then some (sampleIndex.rootJson, true)
    else if bytes = [5] then
      some (.object [("schema_version", u32Json 1), ("id", .string "abc")], true)
    else none
  sha256 := sampleSha256
  manifestId := fun _ => .error .invalidJson

theorem sampleFormats_readsBack : sampleFormats.ReadsBack := by
  intro st printed h
  simp only [sampleFormats] at h
  split at h
  · next heq =>
    split_ifs at h with hfields
    cases h
    simp only [Prod.mk.injEq, cons.injEq, and_true] at hfields
    obtain ⟨rfl, rfl, rfl, rfl, rfl, rfl, rfl, rfl, rfl, rfl, rfl, rfl, rfl, rfl, rfl⟩ := hfields
    rw [heq]
    rfl
  · cases h

def sampleDisk : Disk Dir := ⟨fun _ => false, 0, 0, fun _ => none⟩

def sampleCall : Call := ⟨.registerConfig "abc" "/m" "t" [5], 0, 0, []⟩

/-- The sample manifest is registered, and found again. -/
theorem registry_sound_sample :
    committed (perform sampleFormats sampleDisk sampleCall).1 = true ∧
      ∃ st, indexState sampleFormats (run (step sampleFormats) sampleDisk [sampleCall]) = .ok st ∧
        ∀ e ∈ st.entries, ∃ bytes,
          ⟨e.id, e.kindOr, bytes⟩ ∈ registrations sampleFormats sampleDisk [sampleCall] ∧
          ∀ w : World Dir, w.disk = run (step sampleFormats) sampleDisk [sampleCall] →
            w.Calm → LooksUp sampleFormats w e bytes := by
  have hcommitted : committed (perform sampleFormats sampleDisk sampleCall).1 := by
    decide +kernel
  obtain ⟨st, hst, -, -, hentries, -⟩ :=
    registry_sound sampleFormats_readsBack (fun name => rfl : ∀ name, sampleDisk.files name = none)
      [sampleCall]
  exact ⟨hcommitted, st, hst, fun e he => (hentries e he).2.2⟩

end Sample

end Fornax.Registry
