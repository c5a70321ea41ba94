import Mathlib

namespace Fornax.Layers

open List Option

structure Slot (V P : Type*) where
  value : V
  origin : P
  deriving DecidableEq

/-- What one layer offers; `pin` is the origin that a pinning layer records. -/
structure Layer (V P : Type*) where
  value : V
  origin : P
  pin : Option P

structure Acc (V P : Type*) where
  floor : Option (Slot V P)
  current : Option (Slot V P)

variable {V P : Type*}

def Layer.pinned (l : Layer V P) : Bool := l.pin.isSome

def Acc.start : Acc V P := ⟨none, none⟩

section Run

variable (ge : V → V → Bool) (combine : Option V → V → V)

def offer (s : Acc V P) (l : Layer V P) : V := combine (s.current.map Slot.value) l.value

def accepted (s : Acc V P) (l : Layer V P) : Slot V P :=
  match s.floor with
  | some fl => if ge (offer combine s l) fl.value then ⟨offer combine s l, l.origin⟩ else fl
  | none => ⟨offer combine s l, l.origin⟩

def step (s : Acc V P) (l : Layer V P) : Acc V P :=
  match l.pin with
  | some p =>
    let slot : Slot V P := ⟨(accepted ge combine s l).value, p⟩
    ⟨some slot, some slot⟩
  | none => ⟨s.floor, some (accepted ge combine s l)⟩

def run (s : Acc V P) (ls : List (Layer V P)) : Acc V P := ls.foldl (step ge combine) s

theorem run_append (s : Acc V P) (ls ms : List (Layer V P)) :
    run ge combine s (ls ++ ms) = run ge combine (run ge combine s ls) ms :=
  foldl_append

theorem run_concat (s : Acc V P) (ls : List (Layer V P)) (l : Layer V P) :
    run ge combine s (ls ++ [l]) = step ge combine (run ge combine s ls) l :=
  run_append ge combine s ls [l]

theorem step_current (s : Acc V P) (l : Layer V P) :
    ∃ o, (step ge combine s l).current = some ⟨(accepted ge combine s l).value, o⟩ := by
  rw [step]
  cases l.pin with
  | some p => exact ⟨p, rfl⟩
  | none => exact ⟨(accepted ge combine s l).origin, rfl⟩

variable {s : Acc V P} {l : Layer V P}

theorem accepted_cases (s : Acc V P) (l : Layer V P) :
    (accepted ge combine s l = ⟨offer combine s l, l.origin⟩ ∧
      ∀ fl, s.floor = some fl → ge (offer combine s l) fl.value) ∨
    (s.floor = some (accepted ge combine s l) ∧
      ge (offer combine s l) (accepted ge combine s l).value = false) := by
  rw [accepted]
  cases hf : s.floor with
  | none => exact .inl ⟨rfl, nofun⟩
  | some fl =>
    cases hge : ge (offer combine s l) fl.value with
    | true => exact .inl ⟨by simp [hge], fun _ h => some.inj h ▸ hge⟩
    | false => exact .inr (by simp [hge])

def All (Q : V → Prop) (s : Acc V P) : Prop :=
  (∀ fl, s.floor = some fl → Q fl.value) ∧ ∀ c, s.current = some c → Q c.value

theorem All.start (Q : V → Prop) : All Q (Acc.start : Acc V P) := ⟨nofun, nofun⟩

theorem All.step {Q : V → Prop} (hcomb : ∀ p v, (∀ q, p = some q → Q q) → Q v → Q (combine p v))
    (h : All Q s) (hl : Q l.value) : All Q (Layers.step ge combine s l) := by
  have hoffer : Q (offer combine s l) := by
    refine hcomb _ _ ?_ hl
    intro q hq
    obtain ⟨c, hc, hcq⟩ := map_eq_some_iff.mp hq
    rw [← hcq]
    exact h.2 c hc
  have hacc : Q (accepted ge combine s l).value := by
    rcases accepted_cases ge combine s l with ⟨heq, -⟩ | ⟨hfl, -⟩
    · rw [heq]
      exact hoffer
    · exact h.1 _ hfl
  rw [Layers.step]
  cases l.pin with
  | some p => exact ⟨fun e he => some.inj he ▸ hacc, fun e he => some.inj he ▸ hacc⟩
  | none => exact ⟨h.1, fun e he => some.inj he ▸ hacc⟩

theorem All.run {Q : V → Prop} (hcomb : ∀ p v, (∀ q, p = some q → Q q) → Q v → Q (combine p v))
    (ls : List (Layer V P)) (hls : ∀ l ∈ ls, Q l.value) (h : All Q s) :
    All Q (Layers.run ge combine s ls) :=
  foldlRecOn ls _ h fun _ hs l hl => hs.step ge combine hcomb (hls l hl)

def AboveFloor (s : Acc V P) : Prop :=
  ∀ fl, s.floor = some fl → ∃ c, s.current = some c ∧
    (c.value = fl.value ∨ ge c.value fl.value = true)

theorem aboveFloor_step (s : Acc V P) (l : Layer V P) : AboveFloor ge (step ge combine s l) := by
  intro fl hf
  rw [step] at hf ⊢
  cases hp : l.pin with
  | some p =>
    rw [hp] at hf
    exact ⟨fl, hf, Or.inl rfl⟩
  | none =>
    rw [hp] at hf
    refine ⟨_, rfl, ?_⟩
    rcases accepted_cases ge combine s l with ⟨heq, hge⟩ | ⟨hfl, -⟩
    · rw [heq]
      exact .inr (hge fl hf)
    · exact .inl (congrArg Slot.value (some.inj (hfl.symm.trans hf)))

theorem aboveFloor_run (ls : List (Layer V P)) :
    AboveFloor ge (run ge combine (Acc.start : Acc V P) ls) := by
  rcases eq_nil_or_concat ls with rfl | ⟨init, l, rfl⟩
  · exact nofun
  · rw [concat_eq_append, run_concat]
    exact aboveFloor_step ge combine _ l

def Tightens (w v : V) : Prop := w = v ∨ ge w v = true

structure Holds (v : V) (s : Acc V P) : Prop where
  floor : ∃ fl, s.floor = some fl ∧ Tightens ge fl.value v
  current : ∃ c, s.current = some c ∧ Tightens ge c.value v

variable {ge combine} {Q : V → Prop}
  (htrans : ∀ a b c, Q b → ge a b = true → ge b c = true → ge a c = true)
  (hcomb : ∀ p v, (∀ q, p = some q → Q q) → Q v → Q (combine p v))

include htrans in
theorem Tightens.trans_of_ge {a b v : V} (hb : Q b) (hab : ge a b)
    (h : Tightens ge b v) : ge a v := by
  rcases h with heq | hstrict
  · rw [← heq]
    exact hab
  · exact htrans a b v hb hab hstrict

include htrans in
theorem accepted_tightens {v : V} (hall : All Q s) {fl : Slot V P} (hf : s.floor = some fl)
    (hfl : Tightens ge fl.value v) (l : Layer V P) :
    Tightens ge (accepted ge combine s l).value v := by
  rcases accepted_cases ge combine s l with ⟨heq, hge⟩ | ⟨hkept, -⟩
  · rw [heq]
    exact .inr (Tightens.trans_of_ge htrans (hall.1 fl hf) (hge fl hf) hfl)
  · rwa [← some.inj (hf.symm.trans hkept)]

include htrans in
theorem Holds.step {v : V} (hall : All Q s) (h : Holds ge v s) (l : Layer V P) :
    Holds ge v (step ge combine s l) := by
  obtain ⟨fl, hf, hfl⟩ := h.floor
  have hacc : Tightens ge (accepted ge combine s l).value v :=
    accepted_tightens htrans hall hf hfl l
  rw [Layers.step]
  cases l.pin with
  | some p => exact ⟨⟨_, rfl, hacc⟩, ⟨_, rfl, hacc⟩⟩
  | none => exact ⟨⟨fl, hf, hfl⟩, ⟨_, rfl, hacc⟩⟩

include htrans hcomb in
theorem Holds.run {v : V} (ls : List (Layer V P)) (hls : ∀ l ∈ ls, Q l.value) (hall : All Q s)
    (h : Holds ge v s) : Holds ge v (run ge combine s ls) :=
  (foldlRecOn (motive := fun s => All Q s ∧ Holds ge v s) ls _ ⟨hall, h⟩ fun _ hs l hl =>
    ⟨hs.1.step ge combine hcomb (hls l hl), hs.2.step htrans hs.1 l⟩).2

theorem holds_of_pinned (hp : l.pinned) :
    Holds ge (accepted ge combine s l).value (step ge combine s l) := by
  obtain ⟨p, hpin⟩ := isSome_iff_exists.mp hp
  rw [Layers.step, hpin]
  exact ⟨⟨_, rfl, Or.inl rfl⟩, ⟨_, rfl, Or.inl rfl⟩⟩

include htrans hcomb in
theorem pinned_value_kept (hall : All Q s) (hl : Q l.value) (hp : l.pinned)
    (ls : List (Layer V P)) (hls : ∀ m ∈ ls, Q m.value) :
    Holds ge (accepted ge combine s l).value (run ge combine (step ge combine s l) ls) :=
  Holds.run htrans hcomb ls hls (hall.step ge combine hcomb hl) (holds_of_pinned hp)

theorem run_floor_origin (ls : List (Layer V P)) :
    (run ge combine Acc.start ls).floor.map Slot.origin =
      ((ls.filter Layer.pinned).getLast?).bind Layer.pin := by
  induction ls using reverseRecOn with
  | nil => rfl
  | append_singleton ls l ih =>
    rw [run_concat, step, filter_append]
    cases hp : l.pin with
    | none =>
      have hl : [l].filter Layer.pinned = [] := by simp [Layer.pinned, hp]
      rw [hl, append_nil]
      exact ih
    | some p =>
      have hl : [l].filter Layer.pinned = [l] := by simp [Layer.pinned, hp]
      rw [hl, getLast?_concat, bind_some, hp]
      rfl

structure Alike (l m : Layer V P) : Prop where
  value : l.value = m.value
  origin : l.origin = m.origin
  pinned : l.pinned = m.pinned

structure SameValues (s t : Acc V P) : Prop where
  floor : s.floor.map Slot.value = t.floor.map Slot.value
  current : s.current.map Slot.value = t.current.map Slot.value

section

variable {t : Acc V P} (h : SameValues s t) {m : Layer V P} (hlm : Alike l m)

include h hlm

theorem SameValues.accepted :
    (Layers.accepted ge combine s l).value = (Layers.accepted ge combine t m).value := by
  have hoffer : offer combine s l = offer combine t m := by
    rw [offer, offer, h.current, hlm.value]
  have hfloor := h.floor
  rw [Layers.accepted, Layers.accepted, hoffer]
  cases hs : s.floor <;> cases ht : t.floor <;> rw [hs, ht] at hfloor
  case some.some fl fl' =>
    have hfl : fl.value = fl'.value := some.inj hfloor
    dsimp only
    rw [hfl]
    split
    · rfl
    · exact hfl
  all_goals cases hfloor

theorem SameValues.step : SameValues (Layers.step ge combine s l) (Layers.step ge combine t m) := by
  have hacc : (Layers.accepted ge combine s l).value = (Layers.accepted ge combine t m).value :=
    h.accepted hlm
  have hpin := hlm.pinned
  rw [Layers.step, Layers.step]
  cases hl : l.pin <;> cases hm : m.pin <;> rw [Layer.pinned, Layer.pinned, hl, hm] at hpin
  case none.none => exact ⟨h.floor, congrArg some hacc⟩
  case some.some => exact ⟨congrArg some hacc, congrArg some hacc⟩
  all_goals cases hpin

end

theorem SameValues.run {ls ms : List (Layer V P)} (hlm : List.Forall₂ Alike ls ms) {t : Acc V P}
    (hst : SameValues s t) :
    SameValues (Layers.run ge combine s ls) (Layers.run ge combine t ms) := by
  induction hlm generalizing s t with
  | nil => exact hst
  | cons h _ ih => exact ih (hst.step h)

end Run

/-! ### Layers that replace -/

section Override

def override (_ : Option V) (v : V) : V := v

variable (ge : V → V → Bool)

/-- A pinning layer takes charge when it passes the test against the one in charge; the layers after
it are collected. -/
def takeCharge (g : Option (Layer V P × List (Layer V P))) (l : Layer V P) :
    Option (Layer V P × List (Layer V P)) :=
  if l.pinned && g.all fun h => ge l.value h.1.value then some (l, [])
  else g.map fun h => (h.1, h.2 ++ [l])

def inCharge (ls : List (Layer V P)) : Option (Layer V P × List (Layer V P)) :=
  ls.foldl (takeCharge ge) none

variable (ls : List (Layer V P))

theorem inCharge_concat (l : Layer V P) :
    inCharge ge (ls ++ [l]) = takeCharge ge (inCharge ge ls) l := by
  rw [inCharge, inCharge, foldl_append, foldl_cons, foldl_nil]

theorem run_floor_value : (run ge override Acc.start ls).floor.map Slot.value =
      (inCharge ge ls).map fun h => h.1.value := by
  induction ls using reverseRecOn with
  | nil => rfl
  | append_singleton ls l ih =>
    rw [run_concat, inCharge_concat, step, takeCharge, Layer.pinned]
    cases hp : l.pin with
    | none =>
      simp only [Option.isSome_none, Bool.false_and, Bool.false_eq_true, if_false, Option.map_map]
      exact ih
    | some p =>
      rw [accepted]
      cases hf : (run ge override Acc.start ls).floor with
      | none =>
        rw [hf] at ih
        have hnone : inCharge ge ls = none := Option.map_eq_none_iff.mp ih.symm
        rw [hnone]
        rfl
      | some fl =>
        rw [hf] at ih
        obtain ⟨h, hh, hval⟩ := Option.map_eq_some_iff.mp ih.symm
        rw [hh]
        by_cases hge : ge l.value fl.value = true <;> simp [hge, hval, override, offer]

theorem floor_eq_some {ls : List (Layer V P)} {fl : Slot V P}
    (hf : (run ge override Acc.start ls).floor = some fl) :
    ∃ h, inCharge ge ls = some h ∧ h.1.value = fl.value := by
  have hfloor := run_floor_value ge ls
  rw [hf] at hfloor
  exact map_eq_some_iff.mp hfloor.symm

structure Charge (ls : List (Layer V P)) (l : Layer V P) (post : List (Layer V P)) : Prop where
  split : ∃ pre, ls = pre ++ l :: post ∧
    ∀ fl, (run ge override Acc.start pre).floor = some fl → ge l.value fl.value = true
  kept : ∀ m ∈ l :: post, m.pinned = true → ∃ pre post', ls = pre ++ m :: post' ∧
    (accepted ge override (run ge override Acc.start pre) m).value = l.value

variable {l : Layer V P}

theorem accepted_of_passes {s : Acc V P} (h : ∀ fl, s.floor = some fl → ge l.value fl.value) :
    (accepted ge override s l).value = l.value := by
  rcases accepted_cases ge override s l with ⟨heq, -⟩ | ⟨hfl, hfail⟩
  · exact congrArg Slot.value heq
  · exact absurd ((h _ hfl).symm.trans hfail) (by decide)

theorem charge_of_inCharge {post : List (Layer V P)}
    (h : inCharge ge ls = some (l, post)) : Charge ge ls l post := by
  induction ls using reverseRecOn generalizing l post with
  | nil => cases h
  | append_singleton ls x ih =>
    rw [inCharge_concat, takeCharge] at h
    by_cases htake : (x.pinned && (inCharge ge ls).all fun h => ge x.value h.1.value) = true
    · rw [if_pos htake] at h
      rw [Bool.and_eq_true] at htake
      obtain ⟨rfl, rfl⟩ := Prod.mk.inj (some.inj h)
      have hpass : ∀ fl, (run ge override Acc.start ls).floor = some fl →
          ge x.value fl.value = true := by
        intro fl hf
        obtain ⟨g, hg, hval⟩ := floor_eq_some ge hf
        have htest := htake.2
        rw [hg] at htest
        rw [← hval]
        exact htest
      refine ⟨⟨ls, rfl, hpass⟩, ?_⟩
      intro m hm hpin
      rw [mem_singleton.mp hm]
      exact ⟨ls, [], rfl, accepted_of_passes ge hpass⟩
    · rw [if_neg htake] at h
      obtain ⟨⟨l', post'⟩, hg, heq⟩ := map_eq_some_iff.mp h
      obtain ⟨rfl, rfl⟩ := Prod.mk.inj heq
      obtain ⟨⟨pre, hpre, hpass⟩, hkept⟩ := ih hg
      refine ⟨⟨pre, by rw [hpre]; simp, hpass⟩, ?_⟩
      intro m hm hpin
      rcases mem_append.mp (show m ∈ (l' :: post') ++ [x] from hm) with hin | hlast
      · obtain ⟨p, q, hpq, hval⟩ := hkept m hin hpin
        exact ⟨p, q ++ [x], by rw [hpq]; simp, hval⟩
      · -- the last layer pins but fails the test: the floor stays in force
        rw [mem_singleton.mp hlast] at hpin ⊢
        refine ⟨ls, [], rfl, ?_⟩
        have hfloor := run_floor_value ge ls
        rw [hg] at hfloor
        obtain ⟨fl, hf, hfl⟩ := map_eq_some_iff.mp hfloor
        rcases accepted_cases ge override (run ge override Acc.start ls) x with
          ⟨-, hmeets⟩ | ⟨hkeeps, -⟩
        · have hge : ge x.value fl.value := hmeets fl hf
          rw [hfl] at hge
          exact absurd (by simp [hpin, hg, hge]) htake
        · exact (congrArg Slot.value (some.inj (hkeeps.symm.trans hf))).trans hfl

theorem current_of_floor {g : Layer V P} {post : List (Layer V P)}
    (hg : inCharge ge ls = some (g, post)) :
    ∃ l c, ls.getLast? = some l ∧ (run ge override Acc.start ls).current = some c ∧
      if l.pinned = false ∧ ge l.value g.value = true then c.value = l.value
      else c.value = g.value := by
  rcases eq_nil_or_concat ls with rfl | ⟨init, l, rfl⟩
  · cases hg
  rw [concat_eq_append] at hg ⊢
  have hfloor := run_floor_value ge (init ++ [l])
  rw [hg, run_concat] at hfloor
  rw [run_concat]
  refine ⟨l, ?_⟩
  cases hp : l.pin with
  | some p =>
    rw [step, hp] at hfloor ⊢
    refine ⟨_, getLast?_concat, rfl, ?_⟩
    rw [if_neg (by simp [Layer.pinned, hp])]
    exact some.inj hfloor
  | none =>
    rw [step, hp] at hfloor ⊢
    obtain ⟨fl, hf, hfl⟩ := map_eq_some_iff.mp hfloor
    have hf' : (run ge override Acc.start init).floor = some fl := hf
    have hfl' : fl.value = g.value := hfl
    refine ⟨_, getLast?_concat, rfl, ?_⟩
    rw [accepted, hf', ← hfl']
    by_cases hge : ge l.value fl.value = true <;> simp [hge, Layer.pinned, hp, offer, override]

/-- The layer whose value is in force at the end: the last one, unless it fails
the test against the layer in charge before it. -/
def winner (ls : List (Layer V P)) : Option (Layer V P) :=
  match ls.getLast? with
  | none => none
  | some l =>
    match inCharge ge ls.dropLast with
    | some g => if ge l.value g.1.value then some l else some g.1
    | none => some l

theorem winner_concat (l : Layer V P) : winner ge (ls ++ [l]) = match inCharge ge ls with
      | some g => if ge l.value g.1.value then some l else some g.1
      | none => some l := by
  rw [winner, getLast?_concat, dropLast_concat]

theorem run_current_value :
    (run ge override Acc.start ls).current.map Slot.value = (winner ge ls).map Layer.value := by
  rcases eq_nil_or_concat ls with rfl | ⟨init, l, rfl⟩
  · rfl
  rw [concat_eq_append, run_concat, winner_concat]
  obtain ⟨o, ho⟩ := step_current ge override (run ge override Acc.start init) l
  have hfloor := run_floor_value ge init
  rw [ho, map_some]
  cases hg : inCharge ge init with
  | none =>
    rw [hg] at hfloor
    rw [accepted, map_eq_none_iff.mp hfloor]
    rfl
  | some g =>
    rw [hg] at hfloor
    obtain ⟨fl, hf, hfl⟩ := map_eq_some_iff.mp hfloor
    rw [accepted, hf]
    by_cases hge : ge l.value g.1.value = true <;> simp [offer, override, hge, hfl]

theorem winner_mem {ls : List (Layer V P)} (h : winner ge ls = some l) : l ∈ ls := by
  rcases eq_nil_or_concat ls with rfl | ⟨init, last, rfl⟩
  · cases h
  rw [concat_eq_append] at h ⊢
  rw [winner_concat] at h
  cases hg : inCharge ge init with
  | none => simp_all
  | some g =>
    obtain ⟨pre, hsplit, -⟩ := (charge_of_inCharge ge init hg).split
    simp only [hg] at h
    split at h <;> rw [← some.inj h]
    · exact mem_append_right _ mem_cons_self
    · simp [hsplit]

/-- Every value in force after a marked pinning layer is still met at the end. -/
def PinsKept (mark : Layer V P → Prop) (ls : List (Layer V P)) : Prop :=
  ∀ pre l post, ls = pre ++ l :: post → l.pinned = true → mark l →
    ∃ c, (run ge override Acc.start ls).current = some c ∧
      ge c.value (accepted ge override (run ge override Acc.start pre) l).value = true

variable {ge}

theorem run_split (pre post : List (Layer V P)) (l : Layer V P) :
    run ge override Acc.start (pre ++ l :: post) =
      run ge override (step ge override (run ge override Acc.start pre) l) post := by
  rw [run_append]
  rfl

section

variable {Q : V → Prop} (htrans : ∀ a b c, Q b → ge a b = true → ge b c = true → ge a c = true)
  {ls : List (Layer V P)} (hls : ∀ l ∈ ls, Q l.value)

include htrans hls

theorem holds_after (pre post rest : List (Layer V P)) {m : Layer V P}
    (hsplit : ls = pre ++ m :: post ++ rest) (hm : m.pinned) :
    Holds ge (accepted ge override (run ge override Acc.start pre) m).value
      (run ge override Acc.start (pre ++ m :: post)) := by
  have hcomb : ∀ (p : Option V) (v : V), (∀ q, p = some q → Q q) → Q v → Q (override p v) :=
    fun _ _ _ hv => hv
  have hpre : ∀ l ∈ pre, Q l.value := fun l hl => hls l (by rw [hsplit]; simp [hl])
  have hpost : ∀ l ∈ post, Q l.value := fun l hl => hls l (by rw [hsplit]; simp [hl])
  have hstart := (All.start Q).run ge override hcomb pre hpre
  rw [run_split]
  exact pinned_value_kept htrans hcomb hstart (hls m (by rw [hsplit]; simp)) hm post hpost

omit htrans in
theorem floor_offered {pre post : List (Layer V P)} (hsplit : ls = pre ++ post) {fl : Slot V P}
    (hf : (run ge override Acc.start pre).floor = some fl) : Q fl.value := by
  have hpre : ∀ l ∈ pre, Q l.value := fun l hl => hls l (by rw [hsplit]; simp [hl])
  exact ((All.start Q).run ge override (fun _ _ _ hv => hv) pre hpre).1 fl hf

theorem charge_meets_earlier {l m : Layer V P} {pre mid post : List (Layer V P)}
    (hsplit : ls = pre ++ m :: mid ++ l :: post) (hm : m.pinned)
    (hpass : ∀ fl, (run ge override Acc.start (pre ++ m :: mid)).floor = some fl →
      ge l.value fl.value) :
    ge l.value (accepted ge override (run ge override Acc.start pre) m).value := by
  obtain ⟨fl, hf, hfl⟩ := (holds_after htrans hls pre mid (l :: post) hsplit hm).floor
  exact Tightens.trans_of_ge htrans (floor_offered hls hsplit hf) (hpass fl hf) hfl

/-- Pins are kept exactly when, wherever a marked layer pins from the one in
charge on, the value in charge meets itself or the last layer does not pin and
meets it. -/
theorem pinsKept_iff (mark : Layer V P → Prop) :
    PinsKept ge mark ls ↔ ∀ g post, inCharge ge ls = some (g, post) →
      (∃ m ∈ g :: post, m.pinned ∧ mark m) → ge g.value g.value ∨
        ∃ l, ls.getLast? = some l ∧ l.pinned = false ∧ ge l.value g.value := by
  constructor
  · intro h g post hg hmark
    obtain ⟨m, hm, hpin, hmk⟩ := hmark
    obtain ⟨pre, post', hsplit, hval⟩ := (charge_of_inCharge ge ls hg).kept m hm hpin
    obtain ⟨c, hc, hkept⟩ := h pre m post' hsplit hpin hmk
    obtain ⟨l, c', hlast, hc', hcur⟩ := current_of_floor ge ls hg
    have hcc : c = c' := some.inj (hc.symm.trans hc')
    rw [hval, hcc] at hkept
    by_cases hl : l.pinned = false ∧ ge l.value g.value = true
    · exact .inr ⟨l, hlast, hl⟩
    · rw [if_neg hl] at hcur
      rw [hcur] at hkept
      exact .inl hkept
  · intro h pre m post hsplit hm hmk
    have hholds := holds_after htrans hls pre post [] (hsplit.trans (append_nil _).symm) hm
    rw [← hsplit] at hholds
    obtain ⟨fl, hf, hfl⟩ := hholds.floor
    have hfloor : Q fl.value := floor_offered hls (append_nil ls).symm hf
    obtain ⟨⟨g, gpost⟩, hg, hgv⟩ := floor_eq_some ge hf
    have hgv' : g.value = fl.value := hgv
    obtain ⟨l, c, hlast, hc, hcur⟩ := current_of_floor ge ls hg
    rw [hgv'] at hcur
    refine ⟨c, hc, ?_⟩
    by_cases hl : l.pinned = false ∧ ge l.value fl.value = true
    · rw [if_pos hl] at hcur
      rw [hcur]
      exact Tightens.trans_of_ge htrans hfloor hl.2 hfl
    · rw [if_neg hl] at hcur
      rw [hcur]
      have hfrom : m ∈ g :: gpost → ge fl.value
          (accepted ge override (run ge override Acc.start pre) m).value = true := by
        intro hmem
        have hself := h g gpost hg ⟨m, hmem, hm, hmk⟩
        rw [hgv'] at hself
        rcases hself with hself | ⟨t, ht, hrest⟩
        · exact Tightens.trans_of_ge htrans hfloor hself hfl
        · rw [some.inj (ht.symm.trans hlast)] at hrest
          exact absurd hrest hl
      obtain ⟨gpre, hgsplit, hpass⟩ := (charge_of_inCharge ge ls hg).split
      -- the pinning layer stands in front of the one in charge, or from it on
      rcases append_eq_append_iff.mp (hsplit.symm.trans hgsplit) with
        ⟨mid, hmid, htail⟩ | ⟨mid, hmid, htail⟩
      · cases mid with
        | nil => exact hfrom ((cons.inj htail).1 ▸ mem_cons_self)
        | cons x mid =>
          obtain ⟨hmx, -⟩ := cons.inj htail
          rw [← hmx] at hmid
          have hlsplit : ls = pre ++ m :: mid ++ g :: gpost := by rw [hgsplit, hmid]
          rw [hmid] at hpass
          rw [← hgv']
          exact charge_meets_earlier htrans hls hlsplit hm hpass
      · exact hfrom (by rw [htail]; simp)

end

end Override

end Fornax.Layers
