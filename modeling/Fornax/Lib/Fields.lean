import Fornax.Lib.Runs
import Fornax.Lib.Text

namespace Fornax.Fields

open List

variable {V : Type*}

def get (key : String) (fields : List (String × V)) : Option V :=
  (fields.find? fun f => f.1 == key).map (·.2)

def remove (key : String) (fields : List (String × V)) : List (String × V) :=
  fields.filter fun f => f.1 ≠ key

def alter (key : String) (f : Option V → Option V) : List (String × V) → List (String × V)
  | [] => ((f none).map fun v => (key, v)).toList
  | (k, v) :: rest =>
    if k = key then
      match f (some v) with
      | some w => (k, w) :: rest
      | none => remove key rest
    else (k, v) :: alter key f rest

def set (key : String) (v : V) (fields : List (String × V)) : List (String × V) :=
  alter key (fun _ => some v) fields

@[simp]
theorem get_nil (key : String) : get key ([] : List (String × V)) = none := rfl

section

variable (key k : String) (v : V) (rest : List (String × V))

theorem get_cons : get key ((k, v) :: rest) = if k = key then some v else get key rest := by
  unfold get
  by_cases h : k = key <;> simp [h]

theorem remove_cons : remove key ((k, v) :: rest) =
      if k = key then remove key rest else (k, v) :: remove key rest := by
  by_cases h : k = key <;> simp [remove, h]

end

theorem get_remove (key other : String) (fields : List (String × V)) :
    get other (remove key fields) = if other = key then none else get other fields := by
  induction fields with
  | nil => simp [remove]
  | cons field rest ih =>
    obtain ⟨k, v⟩ := field
    rw [remove_cons, get_cons]
    split_ifs with hk hsame hfirst hsame hfirst
    · rw [ih, if_pos hsame]
    · exact absurd (hfirst.symm.trans hk) hsame
    · rw [ih, if_neg hsame]
    · rw [get_cons, if_neg (fun h => hk (h.trans hsame)), ih, if_pos hsame]
    · rw [get_cons, if_pos hfirst]
    · rw [get_cons, if_neg hfirst, ih, if_neg hsame]

theorem get_alter (key other : String) (f : Option V → Option V) (fields : List (String × V)) :
    get other (alter key f fields) =
      if other = key then f (get key fields) else get other fields := by
  induction fields with
  | nil =>
    rw [alter, get_nil, get_nil]
    cases hf : f none <;> simp [get_cons, eq_comm]
  | cons field rest ih =>
    obtain ⟨k, v⟩ := field
    rw [alter, get_cons]
    by_cases hk : k = key
    · rw [if_pos hk, if_pos hk, get_cons, ← hk]
      cases f (some v) with
      | none => simp +contextual [get_remove, eq_comm]
      | some w => simp +contextual [get_cons, eq_comm]
    · rw [if_neg hk, if_neg hk, get_cons, get_cons, ih]
      split_ifs with hfirst hsame
      · exact absurd (hfirst.trans hsame) hk
      all_goals rfl

theorem get_alter_self (key : String) (f : Option V → Option V) (fields : List (String × V)) :
    get key (alter key f fields) = f (get key fields) := by
  rw [get_alter, if_pos rfl]

variable {other : String} {fields : List (String × V)}
  {key : String} {keys : List String}

theorem get_alter_of_ne (hne : other ≠ key) (f : Option V → Option V) (fields : List (String × V)) :
    get other (alter key f fields) = get other fields := by
  rw [get_alter, if_neg hne]

theorem alter_congr {f g : Option V → Option V} (h : f (get key fields) = g (get key fields)) :
    alter key f fields = alter key g fields := by
  induction fields with
  | nil =>
    rw [get_nil] at h
    rw [alter, alter, h]
  | cons field rest ih =>
    obtain ⟨k, v⟩ := field
    rw [get_cons] at h
    rw [alter, alter]
    split_ifs with hk
    · rw [if_pos hk] at h
      rw [h]
    · rw [if_neg hk] at h
      rw [ih h]

theorem remove_eq_alter (key : String) (fields : List (String × V)) :
    remove key fields = alter key (fun _ => none) fields := by
  induction fields with
  | nil => rfl
  | cons field rest ih =>
    obtain ⟨k, v⟩ := field
    rw [remove_cons, alter, ih]

theorem alter_id (key : String) (fields : List (String × V)) : alter key id fields = fields := by
  induction fields with
  | nil => rfl
  | cons field rest ih => simp [alter, ih]

theorem alter_of_eq {f : Option V → Option V} (h : f (get key fields) = get key fields) :
    alter key f fields = fields :=
  (alter_congr h).trans (alter_id key fields)

theorem alter_alter {f g : Option V → Option V} (hf : ∀ v, f v ≠ none) :
    alter key g (alter key f fields) = alter key (fun v => g (f v)) fields := by
  induction fields with
  | nil =>
    obtain ⟨w, hw⟩ := Option.ne_none_iff_exists'.mp (hf none)
    cases hgw : g (some w) with
    | none => simp [alter, hw, hgw, remove]
    | some u => simp [alter, hw, hgw]
  | cons field rest ih =>
    obtain ⟨k, v⟩ := field
    by_cases hk : k = key
    · obtain ⟨w, hw⟩ := Option.ne_none_iff_exists'.mp (hf (some v))
      simp [alter, hk, hw]
    · simp only [alter, if_neg hk, ih]

theorem alter_comm (hne : key ≠ other) {f g : Option V → Option V} (hg : g none = none)
    (fields : List (String × V)) :
    alter other g (alter key f fields) = alter key f (alter other g fields) := by
  induction fields generalizing f g with
  | nil =>
    cases hf : f none with
    | none => simp [alter, hf, hg]
    | some v => simp [alter, hf, hg, hne]
  | cons field rest ih =>
    obtain ⟨k, v⟩ := field
    by_cases hk : k = key
    · subst hk
      cases hf : f (some v) with
      | none => simp [alter, hf, hne, remove_eq_alter, ih hg]
      | some w => simp [alter, hf, hne]
    · by_cases hother : k = other
      · subst hother
        cases hgv : g (some v) with
        | none => simp [alter, hgv, hk, remove_eq_alter, ih (g := fun _ => none) rfl]
        | some w => simp [alter, hgv, hk]
      · simp only [alter, if_neg hk, if_neg hother, ih hg]

def alterAll (f : String → Option V → Option V) (keys : List String)
    (fields : List (String × V)) : List (String × V) :=
  keys.foldl (fun fields key => alter key (f key) fields) fields

variable {f g : String → Option V → Option V}

theorem alterAll_cons (f : String → Option V → Option V) (key : String) (keys : List String)
    (fields : List (String × V)) :
    alterAll f (key :: keys) fields = alterAll f keys (alter key (f key) fields) := rfl

theorem get_alterAll (hkeys : keys.Nodup) (key : String) (fields : List (String × V)) :
    get key (alterAll f keys fields) =
      if key ∈ keys then f key (get key fields) else get key fields :=
  Runs.view_foldl (fun fields key => get key fields) f hkeys
    (fun fields key _ other => get_alter key other (f key) fields) fields key

theorem alterAll_congr (hkeys : keys.Nodup)
    (h : ∀ key ∈ keys, f key (get key fields) = g key (get key fields)) :
    alterAll f keys fields = alterAll g keys fields := by
  induction keys generalizing fields with
  | nil => rfl
  | cons key keys ih =>
    rw [nodup_cons] at hkeys
    rw [alterAll_cons, alterAll_cons, alter_congr (h key mem_cons_self)]
    refine ih hkeys.2 fun other hother => ?_
    rw [get_alter_of_ne (ne_of_mem_of_not_mem hother hkeys.1)]
    exact h other (mem_cons_of_mem _ hother)

theorem alterAll_of_eq (h : ∀ key ∈ keys, f key (get key fields) = get key fields) :
    alterAll f keys fields = fields := by
  induction keys with
  | nil => rfl
  | cons key keys ih =>
    rw [alterAll_cons, alter_of_eq (h key mem_cons_self)]
    exact ih fun key hkey => h key (mem_cons_of_mem _ hkey)

theorem alter_alterAll_comm (hkey : key ∉ keys) {h : Option V → Option V} (hh : h none = none)
    (fields : List (String × V)) :
    alter key h (alterAll f keys fields) = alterAll f keys (alter key h fields) := by
  induction keys generalizing fields with
  | nil => rfl
  | cons first keys ih =>
    rw [mem_cons, not_or] at hkey
    rw [alterAll_cons, alterAll_cons, ih hkey.2, alter_comm (Ne.symm hkey.1) hh]

theorem alterAll_alterAll (hkeys : keys.Nodup) (hf : ∀ key v, f key v ≠ none)
    (hg : ∀ key, g key none = none) (fields : List (String × V)) :
    alterAll g keys (alterAll f keys fields) =
      alterAll (fun key v => g key (f key v)) keys fields := by
  induction keys generalizing fields with
  | nil => rfl
  | cons key keys ih =>
    rw [nodup_cons] at hkeys
    rw [alterAll_cons, alterAll_cons, alterAll_cons, alter_alterAll_comm hkeys.1 (hg key),
      ih hkeys.2, alter_alter (hf key)]

end Fornax.Fields
