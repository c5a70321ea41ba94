import Fornax.Lib.Processes
import Fornax.Lib.Refcounts
import Fornax.Lib.Runs

namespace Fornax.Daemon

open Processes List Runs

inductive HandoffToken
  | session (sid : String)
  | unknown
  deriving DecidableEq, Repr

def HandoffToken.session? : HandoffToken → Option String
  | .session sid => some sid
  | .unknown => none

structure PendingHandoff where
  sessions : OrdMap String ℕ
  unknown : ℕ

namespace PendingHandoff

def register (p : PendingHandoff) : Option String → HandoffToken × PendingHandoff
  | some sid => (.session sid, { p with sessions := Refcounts.acquire p.sessions sid })
  | none => (.unknown, { p with unknown := p.unknown + 1 })

def drop (p : PendingHandoff) : HandoffToken → PendingHandoff
  | .session sid => { p with sessions := Refcounts.release p.sessions sid }
  | .unknown => { p with unknown := p.unknown - 1 }

structure Tracks (p : PendingHandoff) (guards : List HandoffToken) : Prop where
  sessions : Refcounts.Counts p.sessions (guards.filterMap HandoffToken.session?)
  unknown : p.unknown = guards.count .unknown

end PendingHandoff

def evidenceMayBeIncompleteFor (p : PendingHandoff) (sid : String) : Bool :=
  decide (0 < p.unknown) || p.sessions.contains sid

namespace PendingHandoff.Tracks

variable {p : PendingHandoff} {guards guards' : List HandoffToken}

theorem perm (h : p.Tracks guards) (hperm : guards'.Perm guards) : p.Tracks guards' :=
  ⟨h.sessions.perm (hperm.filterMap _), by rw [hperm.count_eq, h.unknown]⟩

theorem register (h : p.Tracks guards) (hint : Option String) :
    (p.register hint).2.Tracks ((p.register hint).1 :: guards) := by
  cases hint with
  | some sid =>
    refine ⟨h.sessions.acquire sid, ?_⟩
    have hne : HandoffToken.session sid ≠ .unknown := nofun
    exact h.unknown.trans (count_cons_of_ne hne).symm
  | none =>
    refine ⟨h.sessions, ?_⟩
    change p.unknown + 1 = count _ (HandoffToken.unknown :: guards)
    rw [count_cons_self, h.unknown]

theorem drop {token : HandoffToken} (h : p.Tracks (token :: guards)) :
    (p.drop token).Tracks guards := by
  cases token with
  | session sid =>
    refine ⟨h.sessions.release, ?_⟩
    have hne : HandoffToken.session sid ≠ .unknown := nofun
    exact h.unknown.trans (count_cons_of_ne hne)
  | unknown =>
    refine ⟨h.sessions, ?_⟩
    have hcount := h.unknown
    rw [count_cons_self] at hcount
    change p.unknown - 1 = _
    omega

theorem incomplete_iff (h : p.Tracks guards) (sid : String) : evidenceMayBeIncompleteFor p sid ↔
      ∃ token ∈ guards, token = .session sid ∨ token = .unknown := by
  have hsession : sid ∈ guards.filterMap HandoffToken.session? ↔ .session sid ∈ guards := by
    rw [mem_filterMap]
    constructor
    · rintro ⟨token, hmem, htoken⟩
      cases token with
      | session other =>
        cases htoken
        exact hmem
      | unknown => cases htoken
    · intro hmem
      exact ⟨_, hmem, rfl⟩
  rw [evidenceMayBeIncompleteFor, Bool.or_eq_true, decide_eq_true_iff, h.unknown,
    count_pos_iff, h.sessions.contains_iff, hsession]
  constructor
  · rintro (hmem | hmem)
    · exact ⟨_, hmem, .inr rfl⟩
    · exact ⟨_, hmem, .inl rfl⟩
  · rintro ⟨token, hmem, rfl | rfl⟩
    · exact .inr hmem
    · exact .inl hmem

end PendingHandoff.Tracks

/-- `Notified` futures keep the number of `notify_waiters` calls at their creation. -/
inductive TaskPhase
  | arriving
  | checking (notices : ℕ)
  | parked (notices : ℕ)
  | draining
  /-- Handed off, with the turn not yet released. -/
  | registered (token : HandoffToken)
  /-- Drained to the end, failed or unwinding. -/
  | releasing
  /-- Between the two statements of `TurnGuard::drop`. -/
  | notifying (token : Option HandoffToken)
  | handed (token : HandoffToken)
  | ended
  deriving DecidableEq, Repr

namespace TaskPhase

def waits : TaskPhase → Bool
  | .arriving | .checking _ | .parked _ => true
  | _ => false

def inTurn : TaskPhase → Bool
  | .draining | .registered _ | .releasing => true
  | _ => false

def guard : TaskPhase → Option HandoffToken
  | .registered token | .handed token => some token
  | .notifying token => token
  | _ => none

def settled : TaskPhase → Bool
  | .registered _ | .releasing | .notifying _ | .handed _ | .ended => true
  | _ => false

end TaskPhase

structure ConnectionTask where
  ticket : ℕ
  sessionHint : Option String
  phase : TaskPhase
  deriving DecidableEq, Repr

structure TurnState where
  nextTurn : ℕ
  notices : ℕ
  pending : PendingHandoff

structure Turnstile where
  nextTicket : ℕ
  shared : TurnState
  tasks : List ConnectionTask

def Turnstile.fresh : Turnstile := ⟨0, ⟨0, 0, ⟨OrdMap.empty, 0⟩⟩, []⟩

inductive TaskMove
  /-- `notified()`. -/
  | subscribe
  /-- The load of `next_turn`. -/
  | check
  | wake
  /-- `process_line`, with the session the line names, if any. -/
  | line (named : Option String)
  /-- End of the stream or a read error. -/
  | finish
  | handOff
  | panic
  /-- `fetch_add` of `TurnGuard::drop`. -/
  | release
  | notify
  deriving DecidableEq, Repr

inductive TurnStep
  | accept
  | task (index : ℕ) (move : TaskMove)
  deriving DecidableEq, Repr

def maxInflightConnections : ℕ := 256

/-- A move of one task, nothing where it cannot be made. A panic drops the hand-off guard before the
turn guard. -/
def advance (sh : TurnState) (t : ConnectionTask) :
    TaskMove → Option (ConnectionTask × TurnState)
  | .subscribe =>
    match t.phase with
    | .arriving => some ({ t with phase := .checking sh.notices }, sh)
    | _ => none
  | .check =>
    match t.phase with
    | .checking notices =>
      if sh.nextTurn = t.ticket then some ({ t with phase := .draining }, sh)
      else some ({ t with phase := .parked notices }, sh)
    | _ => none
  | .wake =>
    match t.phase with
    | .parked notices =>
      if notices < sh.notices then some ({ t with phase := .arriving }, sh) else none
    | _ => none
  | .line named =>
    match t.phase with
    | .draining | .handed _ => some ({ t with sessionHint := named.or t.sessionHint }, sh)
    | _ => none
  | .finish =>
    match t.phase with
    | .draining => some ({ t with phase := .releasing }, sh)
    | .handed token =>
      some ({ t with phase := .ended }, { sh with pending := sh.pending.drop token })
    | _ => none
  | .handOff =>
    match t.phase with
    | .draining =>
      let (token, pending) := sh.pending.register t.sessionHint
      some ({ t with phase := .registered token }, { sh with pending })
    | _ => none
  | .panic =>
    match t.phase with
    | .draining => some ({ t with phase := .releasing }, sh)
    | .registered token =>
      some ({ t with phase := .releasing }, { sh with pending := sh.pending.drop token })
    | .handed token =>
      some ({ t with phase := .ended }, { sh with pending := sh.pending.drop token })
    | _ => none
  | .release =>
    match t.phase with
    | .registered token =>
      some ({ t with phase := .notifying (some token) }, { sh with nextTurn := sh.nextTurn + 1 })
    | .releasing =>
      some ({ t with phase := .notifying none }, { sh with nextTurn := sh.nextTurn + 1 })
    | _ => none
  | .notify =>
    match t.phase with
    | .notifying (some token) =>
      some ({ t with phase := .handed token }, { sh with notices := sh.notices + 1 })
    | .notifying none => some ({ t with phase := .ended }, { sh with notices := sh.notices + 1 })
    | _ => none

def turnStep (s : Turnstile) : TurnStep → Turnstile
  | .accept =>
    if s.tasks.countP (fun t => t.phase != .ended) < maxInflightConnections then
      { s with
        nextTicket := s.nextTicket + 1
        tasks := s.tasks ++ [⟨s.nextTicket, none, .arriving⟩] }
    else s
  | .task index move =>
    match s.tasks[index]? with
    | none => s
    | some t =>
      match advance s.shared t move with
      | none => s
      | some (t', shared) => { s with shared, tasks := s.tasks.set index t' }

def turnRun (steps : List TurnStep) : Turnstile := run turnStep .fresh steps

def drainsBegunBy (s : Turnstile) : TurnStep → List ℕ
  | .task index .check =>
    match s.tasks[index]? with
    | none => []
    | some t =>
      if (advance s.shared t .check).any (fun moved => moved.1.phase == .draining) then [t.ticket]
      else []
  | _ => []

def turnsReleasedBy (s : Turnstile) : TurnStep → List ℕ
  | .task index .release =>
    match s.tasks[index]? with
    | none => []
    | some t => if (advance s.shared t .release).isSome then [t.ticket] else []
  | _ => []

def drainsBegun (steps : List TurnStep) : List ℕ := outputs turnStep drainsBegunBy .fresh steps

def turnsReleased (steps : List TurnStep) : List ℕ :=
  outputs turnStep turnsReleasedBy .fresh steps

namespace Turnstile

def Passed (s : Turnstile) (ticket : ℕ) : Prop :=
  ∃ t ∈ s.tasks, t.ticket = ticket ∧ (t.phase = .ended ∨ ∃ token, t.phase = .handed token)

def Guards (s : Turnstile) (ticket : ℕ) (token : HandoffToken) : Prop :=
  ∃ t ∈ s.tasks, t.ticket = ticket ∧ t.phase.guard = some token

end Turnstile

variable {sh sh' : TurnState} {t t' : ConnectionTask} {move : TaskMove} {s : Turnstile}

inductive Passage (move : TaskMove) (sh : TurnState) (t t' : ConnectionTask) (sh' : TurnState) :
    Prop
  | stays (hmove : move ≠ .release) (hcheck : move = .check → t'.phase ≠ .draining)
      (hwaits : t'.phase.waits = t.phase.waits) (hturn : t'.phase.inTurn = t.phase.inTurn)
      (hnext : sh'.nextTurn = sh.nextTurn)
  | begins (hmove : move = .check) (hwaits : t.phase.waits = true) (hown : sh.nextTurn = t.ticket)
      (hphase : t'.phase = .draining) (hnext : sh'.nextTurn = sh.nextTurn)
  | releases (hmove : move = .release) (hturn : t.phase.inTurn = true)
      (hturn' : t'.phase.inTurn = false) (hwaits' : t'.phase.waits = false)
      (hnext : sh'.nextTurn = sh.nextTurn + 1) (hsettled : t.phase.settled = true)

inductive Guarding (move : TaskMove) (sh : TurnState) (t t' : ConnectionTask) (sh' : TurnState) :
    Prop
  | keeps (hguard : t'.phase.guard = t.phase.guard) (hpending : sh'.pending = sh.pending)
  | takes (hmove : move = .handOff) (hphase : t.phase = .draining)
      (hguard : t'.phase.guard = some (sh.pending.register t.sessionHint).1)
      (hpending : sh'.pending = (sh.pending.register t.sessionHint).2)
  | drops (token : HandoffToken) (hguard : t.phase.guard = some token)
      (hnone : t'.phase.guard = none) (hpending : sh'.pending = sh.pending.drop token)

structure Effect (move : TaskMove) (sh : TurnState) (t t' : ConnectionTask) (sh' : TurnState) :
    Prop where
  ticket : t'.ticket = t.ticket
  passage : Passage move sh t t' sh'
  guarding : Guarding move sh t t' sh'
  settled : t.phase.settled = true → t'.phase.settled = true
  notices : sh.notices ≤ sh'.notices
  subscribed : ∀ {n : ℕ}, t'.phase = .checking n → n ≤ sh'.notices
  parked : ∀ {n : ℕ}, t'.phase = .parked n →
    t.phase = .checking n ∧ sh.nextTurn ≠ t.ticket ∧ sh' = sh
  released : sh'.nextTurn ≠ sh.nextTurn → ∃ token, t'.phase = .notifying token
  notified : ∀ {token : Option HandoffToken}, t.phase = .notifying token → sh.notices < sh'.notices

theorem advance_effect (h : advance sh t move = some (t', sh')) : Effect move sh t t' sh' := by
  obtain ⟨ticket, hint, phase⟩ := t
  -- what remains is the moves that can be made
  cases move <;> cases phase <;> try cases h
  case subscribe.arriving =>
    exact ⟨rfl, .stays nofun nofun rfl rfl rfl, .keeps rfl rfl, nofun, le_rfl,
      fun hn => by cases hn; exact le_rfl, nofun, fun hne => absurd rfl hne, nofun⟩
  case check.checking n =>
    simp only [advance] at h
    split at h
    · rename_i hown
      cases h
      exact ⟨rfl, .begins rfl rfl hown rfl rfl, .keeps rfl rfl, nofun, le_rfl, nofun, nofun,
        fun hne => absurd rfl hne, nofun⟩
    · rename_i hother
      cases h
      refine ⟨rfl, .stays nofun nofun rfl rfl rfl, .keeps rfl rfl, nofun, le_rfl, nofun, ?_,
        fun hne => absurd rfl hne, nofun⟩
      intro n' hn
      cases hn
      exact ⟨rfl, hother, rfl⟩
  case wake.parked n =>
    simp only [advance] at h
    split at h <;> cases h
    exact ⟨rfl, .stays nofun nofun rfl rfl rfl, .keeps rfl rfl, nofun, le_rfl, nofun, nofun,
      fun hne => absurd rfl hne, nofun⟩
  case line.draining | line.handed =>
    exact ⟨rfl, .stays nofun nofun rfl rfl rfl, .keeps rfl rfl, id, le_rfl, nofun, nofun,
      fun hne => absurd rfl hne, nofun⟩
  case finish.draining | panic.draining =>
    exact ⟨rfl, .stays nofun nofun rfl rfl rfl, .keeps rfl rfl, fun _ => rfl, le_rfl, nofun, nofun,
      fun hne => absurd rfl hne, nofun⟩
  case finish.handed token | panic.registered token | panic.handed token =>
    exact ⟨rfl, .stays nofun nofun rfl rfl rfl, .drops token rfl rfl rfl, fun _ => rfl, le_rfl,
      nofun, nofun, fun hne => absurd rfl hne, nofun⟩
  case handOff.draining =>
    exact ⟨rfl, .stays nofun nofun rfl rfl rfl, .takes rfl rfl rfl rfl, nofun, le_rfl, nofun, nofun,
      fun hne => absurd rfl hne, nofun⟩
  case release.registered | release.releasing =>
    exact ⟨rfl, .releases rfl rfl rfl rfl rfl rfl, .keeps rfl rfl, fun _ => rfl, le_rfl, nofun,
      nofun, fun _ => ⟨_, rfl⟩, nofun⟩
  case notify.notifying token =>
    cases token <;> cases h <;>
      exact ⟨rfl, .stays nofun nofun rfl rfl rfl, .keeps rfl rfl, fun _ => rfl, Nat.le_succ _,
        nofun, nofun, fun hne => absurd rfl hne, fun _ => Nat.lt_succ_self _⟩

inductive StepEffect (s : Turnstile) (step : TurnStep) : Prop
  | idle (hstep : turnStep s step = s) (hbegun : drainsBegunBy s step = [])
      (hreleased : turnsReleasedBy s step = [])
  | accepts (hstep : turnStep s step = { s with
          nextTicket := s.nextTicket + 1
          tasks := s.tasks ++ [⟨s.nextTicket, none, .arriving⟩] })
      (hbegun : drainsBegunBy s step = []) (hreleased : turnsReleasedBy s step = [])
  | moves (index : ℕ) (move : TaskMove) (t t' : ConnectionTask) (shared : TurnState)
      (hkind : step = .task index move) (htask : s.tasks[index]? = some t)
      (heff : Effect move s.shared t t' shared)
      (hstep : turnStep s step = { s with shared, tasks := s.tasks.set index t' })
      (hbegun : drainsBegunBy s step =
        if move = .check ∧ t'.phase = .draining then [t.ticket] else [])
      (hreleased : turnsReleasedBy s step = if move = .release then [t.ticket] else [])

theorem turnStep_effect (s : Turnstile) (step : TurnStep) : StepEffect s step := by
  cases step with
  | accept =>
    by_cases hpermit : s.tasks.countP (fun t => t.phase != .ended) < maxInflightConnections
    · exact .accepts (if_pos hpermit) rfl rfl
    · exact .idle (if_neg hpermit) rfl rfl
  | task index move =>
    cases htask : s.tasks[index]? with
    | none =>
      refine .idle ?_ ?_ ?_
      · simp only [turnStep, htask]
      · cases move <;> simp only [drainsBegunBy, htask]
      · cases move <;> simp only [turnsReleasedBy, htask]
    | some t =>
      cases hadvance : advance s.shared t move with
      | none =>
        refine .idle ?_ ?_ ?_
        · simp only [turnStep, htask, hadvance]
        · cases move <;> simp [drainsBegunBy, htask, hadvance]
        · cases move <;> simp [turnsReleasedBy, htask, hadvance]
      | some moved =>
        refine .moves index move t moved.1 moved.2 rfl htask (advance_effect hadvance) ?_ ?_ ?_
        · simp only [turnStep, htask, hadvance]
        · cases move <;> simp [drainsBegunBy, htask, hadvance]
        · cases move <;> simp [turnsReleasedBy, htask, hadvance]

/-- Tasks stand in the order of their tickets: those before the turn are through with it, those
after it wait. -/
structure Orderly (s : Turnstile) : Prop where
  issued : s.nextTicket = s.tasks.length
  served : s.shared.nextTurn ≤ s.tasks.length
  ticket : ∀ {k : ℕ} {t : ConnectionTask}, s.tasks[k]? = some t → t.ticket = k
  waits : ∀ {k : ℕ} {t : ConnectionTask}, s.tasks[k]? = some t →
    t.phase.waits = true → s.shared.nextTurn ≤ k
  inTurn : ∀ {k : ℕ} {t : ConnectionTask}, s.tasks[k]? = some t →
    t.phase.inTurn = true → k = s.shared.nextTurn
  through : ∀ {k : ℕ} {t : ConnectionTask}, s.tasks[k]? = some t →
    t.phase.waits = false → t.phase.inTurn = false → k < s.shared.nextTurn
  tracked : s.shared.pending.Tracks (s.tasks.filterMap fun t => t.phase.guard)
  subscribed : ∀ {k n : ℕ} {t : ConnectionTask}, s.tasks[k]? = some t →
    t.phase = .checking n → n ≤ s.shared.notices
  parked : ∀ {k n : ℕ} {t : ConnectionTask}, s.tasks[k]? = some t →
    t.phase = .parked n → n ≤ s.shared.notices
  heard : ∀ {k n : ℕ} {t : ConnectionTask}, s.tasks[k]? = some t →
    t.phase = .parked n → k = s.shared.nextTurn → n < s.shared.notices ∨
      ∃ (j : ℕ) (u : ConnectionTask) (token : Option HandoffToken),
        s.tasks[j]? = some u ∧ u.phase = .notifying token

theorem orderly_fresh : Orderly .fresh where
  issued := rfl
  served := le_rfl
  ticket := nofun
  waits := nofun
  inTurn := nofun
  through := nofun
  tracked := ⟨Refcounts.counts_empty, rfl⟩
  subscribed := nofun
  parked := nofun
  heard := nofun

theorem Orderly.accept (h : Orderly s) : Orderly { s with
    nextTicket := s.nextTicket + 1
    tasks := s.tasks ++ [⟨s.nextTicket, none, .arriving⟩] } where
  issued := by
    change s.nextTicket + 1 = (s.tasks ++ _).length
    rw [length_append, h.issued, length_singleton]
  served := by
    have hserved := h.served
    change s.shared.nextTurn ≤ (s.tasks ++ _).length
    rw [length_append]
    omega
  ticket hk := by
    rcases getElem?_concat_cases hk with ⟨hindex, rfl⟩ | hold
    · exact h.issued.trans hindex.symm
    · exact h.ticket hold
  waits hk hwaits := by
    rcases getElem?_concat_cases hk with ⟨hindex, rfl⟩ | hold
    · rw [hindex]
      exact h.served
    · exact h.waits hold hwaits
  inTurn hk hturn := by
    rcases getElem?_concat_cases hk with ⟨-, rfl⟩ | hold
    · cases hturn
    · exact h.inTurn hold hturn
  through hk hwaits hturn := by
    rcases getElem?_concat_cases hk with ⟨-, rfl⟩ | hold
    · cases hwaits
    · exact h.through hold hwaits hturn
  tracked := by
    change s.shared.pending.Tracks
      ((s.tasks ++ [_]).filterMap fun t : ConnectionTask => t.phase.guard)
    rw [filterMap_append]
    exact h.tracked.perm (by simp [TaskPhase.guard])
  subscribed hk hphase := by
    rcases getElem?_concat_cases hk with ⟨-, rfl⟩ | hold
    · cases hphase
    · exact h.subscribed hold hphase
  parked hk hphase := by
    rcases getElem?_concat_cases hk with ⟨-, rfl⟩ | hold
    · cases hphase
    · exact h.parked hold hphase
  heard {k n t} hk hphase hown := by
    rcases getElem?_concat_cases hk with ⟨-, rfl⟩ | hold
    · cases hphase
    · rcases h.heard hold hphase hown with hlt | ⟨j, u, token, hj, hu⟩
      · exact .inl hlt
      · refine .inr ⟨j, u, token, ?_, hu⟩
        have hlt := (List.getElem?_eq_some_iff.mp hj).1
        exact (getElem?_append_left hlt).trans hj

section Move

variable {index : ℕ} (h : Orderly s) (htask : s.tasks[index]? = some t)
  (heff : Effect move s.shared t t' sh')

include h htask heff

theorem Orderly.nextTurn_cases : sh'.nextTurn = s.shared.nextTurn ∨
    index = s.shared.nextTurn ∧ sh'.nextTurn = s.shared.nextTurn + 1 := by
  cases heff.passage with
  | stays _ _ _ _ hnext | begins _ _ _ _ hnext => exact .inl hnext
  | releases _ hturn _ _ hnext => exact .inr ⟨h.inTurn htask hturn, hnext⟩

theorem Orderly.pending_move :
    sh'.pending.Tracks ((s.tasks.set index t').filterMap fun t => t.phase.guard) := by
  cases heff.guarding with
  | keeps hguard hpending =>
    rw [hpending]
    exact h.tracked.perm (holdings_set_same htask hguard)
  | takes _ hphase hguard hpending =>
    have hnone : t.phase.guard = none := by rw [hphase]; rfl
    rw [hpending]
    exact (h.tracked.register t.sessionHint).perm (holdings_set_take htask hnone hguard)
  | drops token hguard hnone hpending =>
    rw [hpending]
    exact (h.tracked.perm (holdings_set_drop htask hguard hnone).symm).drop

theorem Orderly.heard_move {u : ConnectionTask} {k n : ℕ}
    (hk : (s.tasks.set index t')[k]? = some u)
    (hphase : u.phase = .parked n) (hown : k = sh'.nextTurn) : n < sh'.notices ∨
      ∃ (j : ℕ) (u : ConnectionTask) (token : Option HandoffToken),
        (s.tasks.set index t')[j]? = some u ∧ u.phase = .notifying token := by
  have hlt := (List.getElem?_eq_some_iff.mp htask).1
  have hself : (s.tasks.set index t')[index]? = some t' := by
    rw [List.getElem?_set_self hlt]
  rcases getElem?_set_cases hk with ⟨rfl, rfl⟩ | ⟨hne, hold⟩
  · -- a task parks only while the turn is another's
    obtain ⟨-, hother, rfl⟩ := heff.parked hphase
    rw [h.ticket htask] at hother
    exact absurd hown.symm hother
  · by_cases hnext : sh'.nextTurn = s.shared.nextTurn
    · rcases h.heard hold hphase (hown.trans hnext) with hheard | ⟨j, v, token, hj, hv⟩
      · exact .inl (hheard.trans_le heff.notices)
      · by_cases hji : j = index
        · subst hji
          rw [htask] at hj
          cases hj
          exact .inl ((h.parked hold hphase).trans_lt (heff.notified hv))
        · refine .inr ⟨j, v, token, ?_, hv⟩
          rw [List.getElem?_set_ne (Ne.symm hji)]
          exact hj
    · obtain ⟨token, htoken⟩ := heff.released hnext
      exact .inr ⟨index, t', token, hself, htoken⟩

theorem Orderly.moved : Orderly { s with shared := sh', tasks := s.tasks.set index t' } where
  issued := by
    change s.nextTicket = (s.tasks.set index t').length
    rw [length_set, h.issued]
  served := by
    change sh'.nextTurn ≤ (s.tasks.set index t').length
    have hserved := h.served
    have hlt := (List.getElem?_eq_some_iff.mp htask).1
    have hnext := h.nextTurn_cases htask heff
    rw [length_set]
    omega
  ticket hk := by
    rcases getElem?_set_cases hk with ⟨rfl, rfl⟩ | ⟨-, hold⟩
    · exact heff.ticket.trans (h.ticket htask)
    · exact h.ticket hold
  waits {k u} hk hwaits := by
    rcases getElem?_set_cases hk with ⟨rfl, rfl⟩ | ⟨hne, hold⟩
    · cases heff.passage with
      | stays _ _ hsame _ hnext =>
        rw [hsame] at hwaits
        exact hnext.trans_le (h.waits htask hwaits)
      | begins _ _ _ hphase =>
        rw [hphase] at hwaits
        cases hwaits
      | releases _ _ _ hwaits' => exact absurd (hwaits'.symm.trans hwaits) nofun
    · have hle := h.waits hold hwaits
      have hnext := h.nextTurn_cases htask heff
      change sh'.nextTurn ≤ k
      omega
  inTurn {k u} hk hturn := by
    rcases getElem?_set_cases hk with ⟨rfl, rfl⟩ | ⟨hne, hold⟩
    · cases heff.passage with
      | stays _ _ _ hsame hnext =>
        rw [hsame] at hturn
        exact (h.inTurn htask hturn).trans hnext.symm
      | begins _ _ hown _ hnext => exact (h.ticket htask).symm.trans (hown.symm.trans hnext.symm)
      | releases _ _ hturn' => exact absurd (hturn'.symm.trans hturn) nofun
    · have hown := h.inTurn hold hturn
      have hnext := h.nextTurn_cases htask heff
      change k = sh'.nextTurn
      omega
  through {k u} hk hwaits hturn := by
    have hle : s.shared.nextTurn ≤ sh'.nextTurn := by
      have hnext := h.nextTurn_cases htask heff
      omega
    rcases getElem?_set_cases hk with ⟨rfl, rfl⟩ | ⟨-, hold⟩
    · cases heff.passage with
      | stays _ _ hsame hsame' _ =>
        rw [hsame] at hwaits
        rw [hsame'] at hturn
        exact (h.through htask hwaits hturn).trans_le hle
      | begins _ _ _ hphase =>
        rw [hphase] at hturn
        cases hturn
      | releases _ hbefore _ _ hnext =>
        have hindex := h.inTurn htask hbefore
        change k < sh'.nextTurn
        omega
    · exact (h.through hold hwaits hturn).trans_le hle
  tracked := h.pending_move htask heff
  subscribed hk hphase := by
    rcases getElem?_set_cases hk with ⟨rfl, rfl⟩ | ⟨-, hold⟩
    · exact heff.subscribed hphase
    · exact (h.subscribed hold hphase).trans heff.notices
  parked hk hphase := by
    rcases getElem?_set_cases hk with ⟨rfl, rfl⟩ | ⟨-, hold⟩
    · obtain ⟨hchecking, -, rfl⟩ := heff.parked hphase
      exact h.subscribed htask hchecking
    · exact (h.parked hold hphase).trans heff.notices
  heard hk hphase hown := h.heard_move htask heff hk hphase hown

end Move

theorem orderly_step (h : Orderly s) (step : TurnStep) : Orderly (turnStep s step) := by
  cases turnStep_effect s step with
  | idle hstep =>
    rw [hstep]
    exact h
  | accepts hstep =>
    rw [hstep]
    exact h.accept
  | moves index move t t' shared _ htask heff hstep =>
    rw [hstep]
    exact h.moved htask heff

variable (steps : List TurnStep)

theorem orderly_run : Orderly (turnRun steps) :=
  run_always orderly_fresh (fun _ step h => orderly_step h step) steps

theorem Orderly.ticket_of_mem (h : Orderly s) (hmem : t ∈ s.tasks) :
    s.tasks[t.ticket]? = some t := by
  obtain ⟨k, hk⟩ := mem_iff_getElem?.mp hmem
  rw [h.ticket hk]
  exact hk

theorem turnsReleased_eq : Orderly (turnRun steps) ∧
      turnsReleased steps = range (turnRun steps).shared.nextTurn := by
  refine outputs_invariant (P := fun s released => Orderly s ∧ released = range s.shared.nextTurn)
    ⟨orderly_fresh, rfl⟩ ?_ steps
  rintro s step released ⟨h, rfl⟩
  refine ⟨orderly_step h step, ?_⟩
  cases turnStep_effect s step with
  | idle hstep _ hreleased | accepts hstep _ hreleased =>
    rw [hstep, hreleased, append_nil]
  | moves index move t t' shared _ htask heff hstep _ hreleased =>
    rw [hstep, hreleased]
    cases heff.passage with
    | stays hmove _ _ _ hnext =>
      rw [if_neg hmove, append_nil, hnext]
    | begins hmove _ _ _ hnext =>
      rw [if_neg (by rw [hmove]; nofun), append_nil, hnext]
    | releases hmove hturn _ _ hnext =>
      have hticket : t.ticket = s.shared.nextTurn := (h.ticket htask).trans (h.inTurn htask hturn)
      rw [if_pos hmove, hnext, range_succ, hticket]

/-- The first `n` tickets have begun their turns and the others wait. -/
structure Begun (s : Turnstile) (n : ℕ) : Prop where
  bound : n ≤ s.tasks.length
  split : ∀ {k : ℕ} {t : ConnectionTask}, s.tasks[k]? = some t → (t.phase.waits = false ↔ k < n)

theorem Begun.accept {n : ℕ} (h : Begun s n) (task : ConnectionTask)
    (hwaits : task.phase.waits) : Begun { s with
      nextTicket := s.nextTicket + 1
      tasks := s.tasks ++ [task] } n where
  bound := by
    have hbound := h.bound
    change n ≤ (s.tasks ++ [task]).length
    rw [length_append]
    omega
  split {k t} hk := by
    rcases getElem?_concat_cases hk with ⟨rfl, rfl⟩ | hold
    · have hbound := h.bound
      rw [hwaits]
      exact ⟨nofun, fun hlt => absurd hlt (Nat.not_lt.mpr hbound)⟩
    · exact h.split hold

theorem Begun.moved {n index : ℕ} (h : Begun s n) (htask : s.tasks[index]? = some t)
    (hwaits : t'.phase.waits = t.phase.waits) :
    Begun { s with shared := sh', tasks := s.tasks.set index t' } n where
  bound := h.bound.trans_eq length_set.symm
  split hk := by
    rcases getElem?_set_cases hk with ⟨rfl, rfl⟩ | ⟨-, hold⟩
    · rw [hwaits]
      exact h.split htask
    · exact h.split hold

theorem Begun.begins {n index : ℕ} (hb : Begun s n) (h : Orderly s)
    (htask : s.tasks[index]? = some t) (hwaits : t.phase.waits)
    (hown : s.shared.nextTurn = t.ticket) (hphase : t'.phase = .draining) :
    t.ticket = n ∧ Begun { s with shared := sh', tasks := s.tasks.set index t' } (n + 1) := by
  have hlt := (List.getElem?_eq_some_iff.mp htask).1
  have hticket := h.ticket htask
  have hindex : ¬ index < n := by
    intro hbegun
    rw [(hb.split htask).mpr hbegun] at hwaits
    cases hwaits
  have hn : n = index := by
    refine le_antisymm (Nat.not_lt.mp hindex) ?_
    by_contra hshort
    -- the ticket `n` would wait before the one whose turn it is
    obtain ⟨u, hu⟩ : ∃ u, s.tasks[n]? = some u := ⟨_, List.getElem?_eq_getElem (by omega)⟩
    have huwaits : u.phase.waits := by
      cases hcase : u.phase.waits with
      | true => rfl
      | false => exact absurd ((hb.split hu).mp hcase) (Nat.lt_irrefl n)
    have hle := h.waits hu huwaits
    omega
  refine ⟨hticket.trans hn.symm, ?_, ?_⟩
  · change n + 1 ≤ (s.tasks.set index t').length
    rw [List.length_set]
    omega
  · intro k u hk
    rcases getElem?_set_cases hk with ⟨rfl, rfl⟩ | ⟨hne, hold⟩
    · rw [hphase]
      exact ⟨fun _ => by omega, fun _ => rfl⟩
    · rw [hb.split hold]
      omega

theorem drainsBegun_eq :
    Orderly (turnRun steps) ∧ ∃ n, drainsBegun steps = range n ∧ Begun (turnRun steps) n := by
  refine outputs_invariant (P := fun s begun => Orderly s ∧ ∃ n, begun = range n ∧ Begun s n)
    ⟨orderly_fresh, 0, rfl, le_rfl, nofun⟩ ?_ steps
  rintro s step begun ⟨h, n, rfl, hb⟩
  refine ⟨orderly_step h step, ?_⟩
  cases turnStep_effect s step with
  | idle hstep hbegun =>
    rw [hstep, hbegun, append_nil]
    exact ⟨n, rfl, hb⟩
  | accepts hstep hbegun =>
    rw [hstep, hbegun, append_nil]
    exact ⟨n, rfl, hb.accept _ rfl⟩
  | moves index move t t' shared _ htask heff hstep hbegun =>
    rw [hstep, hbegun]
    cases heff.passage with
    | stays _ hcheck hwaits =>
      rw [if_neg fun hboth => hcheck hboth.1 hboth.2, append_nil]
      exact ⟨n, rfl, hb.moved htask hwaits⟩
    | begins hmove hwaits hown hphase =>
      obtain ⟨hticket, hb'⟩ := hb.begins h htask hwaits hown hphase
      rw [if_pos ⟨hmove, hphase⟩, hticket, ← range_succ]
      exact ⟨n + 1, rfl, hb'⟩
    | releases hmove hturn _ hwaits' =>
      rw [if_neg (by rw [hmove]; exact fun hboth => by cases hboth.1), append_nil]
      refine ⟨n, rfl, hb.moved htask (hwaits'.trans ?_)⟩
      cases hphase : t.phase <;> rw [hphase] at hturn <;> first | rfl | cases hturn

def GuardsSettled (s s' : Turnstile) : Prop :=
  ∀ {k : ℕ} {t : ConnectionTask}, s.tasks[k]? = some t → t.phase.settled = true →
    ∃ t', s'.tasks[k]? = some t' ∧ t'.phase.settled = true ∧
      ∀ token, t'.phase.guard = some token → t.phase.guard = some token

theorem GuardsSettled.refl (s : Turnstile) : GuardsSettled s s :=
  fun {_ t} hk hsettled => ⟨t, hk, hsettled, fun _ h => h⟩

theorem GuardsSettled.trans {s s' s'' : Turnstile} (h : GuardsSettled s s')
    (h' : GuardsSettled s' s'') : GuardsSettled s s'' := by
  intro k t hk hsettled
  obtain ⟨t', hk', hsettled', hguard⟩ := h hk hsettled
  obtain ⟨t'', hk'', hsettled'', hguard'⟩ := h' hk' hsettled'
  exact ⟨t'', hk'', hsettled'', fun token htoken => hguard token (hguard' token htoken)⟩

theorem guardsSettled_step (s : Turnstile) (step : TurnStep) :
    GuardsSettled s (turnStep s step) := by
  intro k t hk hsettled
  have hlt := (List.getElem?_eq_some_iff.mp hk).1
  cases turnStep_effect s step with
  | idle hstep =>
    rw [hstep]
    exact ⟨t, hk, hsettled, fun _ h => h⟩
  | accepts hstep =>
    rw [hstep]
    exact ⟨t, (List.getElem?_append_left hlt).trans hk, hsettled, fun _ h => h⟩
  | moves index move u u' shared _ htask heff hstep =>
    rw [hstep]
    by_cases hindex : k = index
    · subst hindex
      rw [hk] at htask
      cases htask
      refine ⟨u', List.getElem?_set_self hlt, heff.settled hsettled, ?_⟩
      intro token htoken
      cases heff.guarding with
      | keeps hguard => rwa [hguard] at htoken
      | takes _ hphase =>
        rw [hphase] at hsettled
        cases hsettled
      | drops _ _ hnone => exact absurd (hnone.symm.trans htoken) nofun
    · exact ⟨t, (List.getElem?_set_ne (Ne.symm hindex)).trans hk, hsettled, fun _ h => h⟩

theorem guardsSettled_run (s : Turnstile) (steps : List TurnStep) :
    GuardsSettled s (run turnStep s steps) :=
  run_related (R := fun s s' => GuardsSettled s s') GuardsSettled.refl
    (fun _ _ _ h h' => h.trans h') guardsSettled_step s steps

theorem guard_of_step {step : TurnStep} {k : ℕ} {token : HandoffToken}
    (hk : (turnStep s step).tasks[k]? = some t') (hguard : t'.phase.guard = some token) :
    (∃ t, s.tasks[k]? = some t ∧ t.phase.guard = some token) ∨
      (step = .task k .handOff ∧ ∃ t, s.tasks[k]? = some t ∧ t.phase = .draining ∧
        token = (s.shared.pending.register t.sessionHint).1) := by
  cases turnStep_effect s step with
  | idle hstep =>
    rw [hstep] at hk
    exact .inl ⟨t', hk, hguard⟩
  | accepts hstep =>
    rw [hstep] at hk
    rcases getElem?_concat_cases hk with ⟨-, rfl⟩ | hold
    · cases hguard
    · exact .inl ⟨t', hold, hguard⟩
  | moves index move t u shared hkind htask heff hstep =>
    rw [hstep] at hk
    rcases getElem?_set_cases hk with ⟨rfl, rfl⟩ | ⟨-, hold⟩
    · cases heff.guarding with
      | keeps hsame =>
        rw [hsame] at hguard
        exact .inl ⟨t, htask, hguard⟩
      | takes hmove hphase hnew =>
        rw [hnew] at hguard
        exact .inr ⟨by rw [hkind, hmove], t, htask, hphase, (Option.some.inj hguard).symm⟩
      | drops _ _ hnone => exact absurd (hnone.symm.trans hguard) nofun
    · exact .inl ⟨t', hold, hguard⟩

theorem settled_of_released {step : TurnStep} {k : ℕ} (h : Orderly s)
    (hk : k ∈ turnsReleasedBy s step) : ∃ t, s.tasks[k]? = some t ∧ t.phase.settled := by
  cases turnStep_effect s step with
  | idle _ _ hreleased | accepts _ _ hreleased =>
    rw [hreleased] at hk
    cases hk
  | moves index move t t' shared _ htask heff _ _ hreleased =>
    rw [hreleased] at hk
    split at hk
    · rename_i hmove
      rw [mem_singleton.mp hk, h.ticket htask]
      refine ⟨t, htask, ?_⟩
      cases heff.passage with
      | stays hother => exact absurd hmove hother
      | begins hcheck => exact absurd (hmove.symm.trans hcheck) nofun
      | releases _ _ _ _ _ hsettled => exact hsettled
    · cases hk

example : drainsBegun [.accept, .accept, .task 0 .subscribe, .task 0 .check, .task 1 .subscribe,
    .task 1 .check, .task 0 .handOff, .task 0 .release, .task 0 .notify, .task 1 .wake,
    .task 1 .subscribe, .task 1 .check] = [0, 1] := by decide +kernel

end Fornax.Daemon
