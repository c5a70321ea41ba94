import Mathlib

namespace Fornax.Fallible

open List

universe u

variable {ε : Type*} {α β : Type u}
  {x : Except ε α} {f : α → Except ε β} {l : List α}

theorem bind_eq_ok {b : β} : (x >>= f) = .ok b ↔ ∃ a, x = .ok a ∧ f a = .ok b := by
  cases x with
  | error e => simp [bind, Except.bind]
  | ok a => simp [bind, Except.bind]

theorem map_eq_ok {f : α → β} {b : β} : x.map f = .ok b ↔ ∃ a, x = .ok a ∧ f a = b := by
  cases x with
  | error e => simp [Except.map]
  | ok a => simp [Except.map]

theorem mapError_eq_ok {ε' : Type*} {f : ε → ε'} {a : α} : x.mapError f = .ok a ↔ x = .ok a := by
  cases x with
  | error e => simp [Except.mapError]
  | ok b => simp [Except.mapError]

@[simp] theorem isOk_ok (a : α) : (Except.ok a : Except ε α).isOk := rfl

theorem exists_of_isOk (h : x.isOk) : ∃ a, x = .ok a := by
  cases x with
  | error e => cases h
  | ok a => exact ⟨a, rfl⟩

theorem find?_of_nodup {κ : Type*} [DecidableEq κ] {key : α → κ} {a : α}
    (hkeys : (l.map key).Nodup) (ha : a ∈ l) : l.find? (fun b => key b == key a) = some a := by
  cases hfind : l.find? fun b => key b == key a with
  | none => simpa using find?_eq_none.mp hfind a ha
  | some b =>
    have hkey : key b = key a := by simpa using find?_some hfind
    rw [inj_on_of_nodup_map hkeys (mem_of_find?_eq_some hfind) ha hkey]

theorem foldlM_invariant {f : β → α → Except ε β} {P : β → Prop}
    (hstep : ∀ b a b', a ∈ l → P b → f b a = .ok b' → P b') {init final : β} (hinit : P init)
    (h : l.foldlM f init = .ok final) : P final := by
  induction l generalizing init with
  | nil =>
    rw [foldlM_nil] at h
    rw [← Except.ok.inj h]
    exact hinit
  | cons a l ih =>
    rw [foldlM_cons] at h
    obtain ⟨b, hb, hrest⟩ := bind_eq_ok.mp h
    refine ih ?_ (hstep init a b mem_cons_self hinit hb) hrest
    exact fun c d c' hd => hstep c d c' (mem_cons_of_mem _ hd)

theorem bind_eq_error {f : α → Except ε β} {e : ε} :
    x >>= f = .error e ↔ x = .error e ∨ ∃ a, x = .ok a ∧ f a = .error e := by
  cases x with
  | error e' => simp [bind, Except.bind]
  | ok a => simp [bind, Except.bind]

theorem foldlM_error {f : β → α → Except ε β} {P : ε → Prop}
    (hstep : ∀ b a e, f b a = .error e → P e) {init : β} {e : ε}
    (h : l.foldlM f init = .error e) : P e := by
  induction l generalizing init with
  | nil => cases h
  | cons a l ih =>
    rw [foldlM_cons] at h
    rcases bind_eq_error.mp h with ha | ⟨b, -, hrest⟩
    · exact hstep init a e ha
    · exact ih hrest

variable {r : List β}

theorem mapM_ok_iff : l.mapM f = .ok r ↔ List.Forall₂ (fun a b => f a = .ok b) l r := by
  induction l generalizing r with
  | nil =>
    rw [mapM_nil, forall₂_nil_left_iff]
    exact ⟨fun h => (Except.ok.inj h).symm, fun h => h ▸ rfl⟩
  | cons a l ih =>
    simp only [mapM_cons, bind_eq_ok, forall₂_cons_left_iff, ih]
    constructor
    · rintro ⟨b, hb, bs, hbs, hr⟩
      exact ⟨b, bs, hb, hbs, (Except.ok.inj hr).symm⟩
    · rintro ⟨b, bs, hb, hbs, rfl⟩
      exact ⟨b, hb, bs, hbs, rfl⟩

theorem forall₂_exists_iff {r : α → β → Prop} {P : α → Prop} {Q : β → Prop} {m : List β}
    (h : List.Forall₂ r l m) (hpq : ∀ a b, r a b → (Q b ↔ P a)) :
    (∃ b ∈ m, Q b) ↔ ∃ a ∈ l, P a := by
  induction h with
  | nil => simp
  | cons hab _ ih =>
    simp only [mem_cons, exists_eq_or_imp, ih, hpq _ _ hab]

theorem forall₂_mem {α β : Type*} {R : α → β → Prop} {l : List α} {m : List β}
    (h : List.Forall₂ R l m) {a : α} (ha : a ∈ l) : ∃ b ∈ m, R a b := by
  induction h with
  | nil => cases ha
  | cons hab _ ih =>
    rcases mem_cons.mp ha with rfl | ha
    · exact ⟨_, mem_cons_self, hab⟩
    · obtain ⟨b, hb, hab⟩ := ih ha
      exact ⟨b, mem_cons_of_mem _ hb, hab⟩

theorem mapM_ok_of_mem (h : l.mapM f = .ok r) {a : α} (ha : a ∈ l) : ∃ b ∈ r, f a = .ok b :=
  forall₂_mem (mapM_ok_iff.mp h) ha

theorem mem_of_mapM_ok (h : l.mapM f = .ok r) {b : β} (hb : b ∈ r) : ∃ a ∈ l, f a = .ok b :=
  forall₂_mem (mapM_ok_iff.mp h).flip hb

theorem mapM_isOk_iff : (∃ r, l.mapM f = .ok r) ↔ ∀ a ∈ l, ∃ b, f a = .ok b := by
  constructor
  · intro h a ha
    obtain ⟨r, hr⟩ := h
    obtain ⟨b, _, hb⟩ := mapM_ok_of_mem hr ha
    exact ⟨b, hb⟩
  · intro h
    induction l with
    | nil => exact ⟨[], rfl⟩
    | cons a l ih =>
      obtain ⟨b, hb⟩ := h a mem_cons_self
      obtain ⟨bs, hbs⟩ := ih fun a' ha' => h a' (mem_cons_of_mem _ ha')
      exact ⟨b :: bs, mapM_ok_iff.mpr (.cons hb (mapM_ok_iff.mp hbs))⟩

theorem forM_ok {γ : Type} {f : γ → Except ε Unit} {l : List γ} (h : l.forM f = .ok ()) :
    ∀ a ∈ l, f a = .ok () := by
  induction l with
  | nil => simp
  | cons a l ih =>
    change (f a >>= fun _ => l.forM f) = .ok () at h
    obtain ⟨⟨⟩, ha, hl⟩ := bind_eq_ok.mp h
    intro b hb
    rcases mem_cons.mp hb with rfl | hb
    · exact ha
    · exact ih hl b hb

end Fornax.Fallible
