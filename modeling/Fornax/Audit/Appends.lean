import Fornax.Audit.Ledger
import Fornax.Lib.Runs

namespace Fornax

open HashChain List

/-- `delete` is a statement that removes rows from `audit_events` and nothing else. -/
inductive LedgerOp
  | append (event : AuditEvent) (now : Instant)
  | delete (seqs : List ℤ)

def ledgerStep (c : AuditCrates) (db : AuditTables) : LedgerOp → AuditTables
  | .append event now => (appendAuditEvent c db event now).2
  | .delete seqs => { db with auditEvents := db.auditEvents.deleteAll seqs }

def ledgerRun (c : AuditCrates) (ops : List LedgerOp) : AuditTables :=
  Runs.run (ledgerStep c) .fresh ops

def appendedBy (c : AuditCrates) (db : AuditTables) : LedgerOp → List AppendedAuditEvent
  | .append event now => (appendAuditEvent c db event now).1.toOption.toList
  | .delete _ => []

def deletedBy (db : AuditTables) : LedgerOp → List ℤ
  | .append _ _ => []
  | .delete seqs => db.auditEvents.keys.filter (· ∈ seqs)

def appendedEvents (c : AuditCrates) (ops : List LedgerOp) : List AppendedAuditEvent :=
  Runs.outputs (ledgerStep c) (appendedBy c) .fresh ops

def deletedSeqs (c : AuditCrates) (ops : List LedgerOp) : List ℤ :=
  Runs.outputs (ledgerStep c) deletedBy .fresh ops

variable (c : AuditCrates) (ops : List LedgerOp)

theorem ledgerRun_concat (op : LedgerOp) :
    ledgerRun c (ops ++ [op]) = ledgerStep c (ledgerRun c ops) op :=
  Runs.run_append (ledgerStep c) .fresh ops [op]

theorem appendedEvents_concat (op : LedgerOp) :
    appendedEvents c (ops ++ [op]) = appendedEvents c ops ++ appendedBy c (ledgerRun c ops) op :=
  Runs.outputs_concat (appendedBy c) .fresh ops op

theorem deletedSeqs_concat (op : LedgerOp) :
    deletedSeqs c (ops ++ [op]) = deletedSeqs c ops ++ deletedBy (ledgerRun c ops) op :=
  Runs.outputs_concat deletedBy .fresh ops op

variable {c} {db : AuditTables}

def appendedTables (c : AuditCrates) (db : AuditTables) (event : AuditEvent) (now : Instant)
    (seq : ℤ) (prevHash payload : String) : AuditTables where
  auditEvents := db.auditEvents.insert seq
    (newAuditRow c (event.redacted c.upper) now prevHash (entryHash c seq prevHash payload) payload)
  highWater := raiseHighWater db.highWater seq (entryHash c seq prevHash payload)

theorem appendAuditEvent_ok {event : AuditEvent} {now : Instant} {seq : ℤ}
    {prevHash payload : String} (hlink : nextLink db.highWater = .ok (seq, prevHash))
    (hjson : c.eventJson (event.redacted c.upper) = .ok payload)
    (hfree : db.auditEvents.contains seq = false) : appendAuditEvent c db event now =
      (.ok ⟨seq, entryHash c seq prevHash payload⟩,
        appendedTables c db event now seq prevHash payload) := by
  simp only [appendAuditEvent, appendAuditEventLocked, hlink, hjson, hfree, Bool.false_eq_true,
    if_false]
  rfl

theorem appendAuditEvent_cases (c : AuditCrates) (db : AuditTables) (event : AuditEvent)
    (now : Instant) : (∃ e, appendAuditEvent c db event now = (.error e, db)) ∨
      ∃ seq prevHash payload, nextLink db.highWater = .ok (seq, prevHash) ∧
        appendAuditEvent c db event now = (.ok ⟨seq, entryHash c seq prevHash payload⟩,
            appendedTables c db event now seq prevHash payload) := by
  cases hlink : nextLink db.highWater with
  | error e => exact .inl ⟨e, by simp [appendAuditEvent, appendAuditEventLocked, hlink]⟩
  | ok link =>
    obtain ⟨seq, prevHash⟩ := link
    cases hjson : c.eventJson (event.redacted c.upper) with
    | error message =>
      exact .inl ⟨.json message, by
        simp [appendAuditEvent, appendAuditEventLocked, hlink, hjson]⟩
    | ok payload =>
      cases hfree : db.auditEvents.contains seq with
      | true =>
        exact .inl ⟨.uniqueViolation "audit_events", by
          simp [appendAuditEvent, appendAuditEventLocked, hlink, hjson, hfree]⟩
      | false => exact .inr ⟨seq, prevHash, payload, rfl, appendAuditEvent_ok hlink hjson hfree⟩

def reportOf (r : ℤ × AuditEventRow) : AppendedAuditEvent := ⟨r.1, r.2.entryHash⟩

def markOf (rows : List (ℤ × AuditEventRow)) : Option LedgerHighWater :=
  rows.getLast?.map fun r => ⟨r.1, r.2.entryHash⟩

/-- The tables after `rows` were appended and those with a number in `deleted` taken out. -/
structure TakenOut (c : AuditCrates) (rows : List (ℤ × AuditEventRow)) (deleted : List ℤ)
    (db : AuditTables) : Prop where
  chain : ChainFromGenesis c rows
  mark : db.highWater = markOf rows
  left : db.auditEvents.entries = rows.filter fun r => r.1 ∉ deleted
  appended : ∀ s ∈ deleted, ∃ r ∈ rows, r.1 = s

variable {rows : List (ℤ × AuditEventRow)} {deleted : List ℤ}

theorem takenOut_fresh (c : AuditCrates) : TakenOut c [] [] .fresh where
  chain := trivial
  mark := rfl
  left := rfl
  appended := fun _ hs => absurd hs not_mem_nil

theorem ChainFromGenesis.seq_bounds (h : ChainFromGenesis c rows) {r : ℤ × AuditEventRow}
    (hr : r ∈ rows) : 1 ≤ r.1 ∧ r.1 ≤ rows.length := by
  have hbounds : genesisSeq ≤ r.1 ∧ r.1 < genesisSeq + (rows.map rowEntry).length :=
    Linked.seq_bounds h (mem_map_of_mem hr)
  rw [genesisSeq, length_map] at hbounds
  omega

theorem nextLink_markOf (h : ChainFromGenesis c rows) {seq : ℤ} {prevHash : String}
    (hlink : nextLink (markOf rows) = .ok (seq, prevHash)) :
    seq = genesisSeq + rows.length ∧ prevHash = head genesisPrevHash (rows.map rowEntry) := by
  cases hlast : rows.getLast? with
  | none =>
    rw [getLast?_eq_none_iff.mp hlast] at hlink ⊢
    obtain ⟨hseq, hprev⟩ := Prod.mk.inj (Except.ok.inj hlink)
    exact ⟨by simp [← hseq], hprev.symm⟩
  | some r =>
    simp only [markOf, hlast, Option.map_some, nextLink] at hlink
    split at hlink
    · obtain ⟨hseq, hprev⟩ := Prod.mk.inj (Except.ok.inj hlink)
      constructor
      · rw [← hseq, h.seq_last hlast, genesisSeq, add_comm]
      · rw [head_eq_getLast?, getLast?_map, hlast, ← hprev]
        rfl
    · cases hlink

theorem raiseHighWater_markOf {r : ℤ × AuditEventRow} (hnew : ∀ r' ∈ rows, r'.1 < r.1) :
    raiseHighWater (markOf rows) r.1 r.2.entryHash = markOf (rows ++ [r]) := by
  cases hlast : rows.getLast? with
  | none => simp [raiseHighWater, markOf, hlast]
  | some r' =>
    have hlt : r'.1 < r.1 := hnew r' (mem_of_getLast? hlast)
    simp [raiseHighWater, markOf, hlast, hlt]

theorem TakenOut.append (h : TakenOut c rows deleted db) (event : AuditEvent) (now : Instant)
    {seq : ℤ} {prevHash : String} (hlink : nextLink db.highWater = .ok (seq, prevHash))
    (payload : String) : ∃ r, reportOf r = ⟨seq, entryHash c seq prevHash payload⟩ ∧
      TakenOut c (rows ++ [r]) deleted (appendedTables c db event now seq prevHash payload) := by
  rw [h.mark] at hlink
  obtain ⟨hseq, hprev⟩ := nextLink_markOf h.chain hlink
  have hnew : ∀ r ∈ rows, r.1 < seq := by
    intro r hr
    have hle := (h.chain.seq_bounds hr).2
    rw [hseq, genesisSeq]
    omega
  have hkept : seq ∉ deleted := by
    intro hmem
    obtain ⟨r, hr, hrs⟩ := h.appended seq hmem
    have hlt := hnew r hr
    omega
  refine ⟨(seq, newAuditRow c (event.redacted c.upper) now prevHash
    (entryHash c seq prevHash payload) payload), rfl, ?_, ?_, ?_, ?_⟩
  · rw [ChainFromGenesis, map_append]
    refine linked_append.mpr ⟨h.chain, ?_, hprev, rfl, trivial⟩
    rw [length_map]
    exact hseq
  · rw [← raiseHighWater_markOf hnew, ← h.mark]
    rfl
  · have hbelow : ∀ e ∈ db.auditEvents.entries, e.1 < seq := by
      rw [h.left]
      exact fun e he => hnew e (mem_of_mem_filter he)
    rw [filter_append, ← h.left]
    simp only [appendedTables, OrdMap.entries_insert_of_lt _ hbelow]
    rw [filter_cons_of_pos (by simpa using hkept)]
    rfl
  · intro s hs
    obtain ⟨r, hr, hrs⟩ := h.appended s hs
    exact ⟨r, mem_append_left _ hr, hrs⟩

theorem TakenOut.delete (h : TakenOut c rows deleted db) (seqs : List ℤ) :
    TakenOut c rows (deleted ++ db.auditEvents.keys.filter (· ∈ seqs))
      { db with auditEvents := db.auditEvents.deleteAll seqs } where
  chain := h.chain
  mark := h.mark
  left := by
    change db.auditEvents.entries.filter (fun e => e.1 ∉ seqs) = _
    rw [h.left, filter_filter]
    refine filter_congr fun r hr => ?_
    -- A row that is still there is one with a key; the others are deleted already.
    have hkey : r.1 ∉ deleted → r.1 ∈ db.auditEvents.keys := by
      intro hleft
      rw [OrdMap.keys, h.left]
      exact mem_map_of_mem (mem_filter.mpr ⟨hr, by simpa using hleft⟩)
    simp only [mem_append, mem_filter, decide_eq_true_eq]
    by_cases hdel : r.1 ∈ deleted
    · simp [hdel]
    · simp [hdel, hkey hdel]
  appended := by
    intro s hs
    rcases mem_append.mp hs with hs | hs
    · exact h.appended s hs
    · obtain ⟨e, he, hes⟩ := mem_map.mp (mem_of_mem_filter hs)
      rw [h.left] at he
      exact ⟨e, mem_of_mem_filter he, hes⟩

theorem ledgerRun_takenOut (c : AuditCrates) (ops : List LedgerOp) :
    ∃ rows, TakenOut c rows (deletedSeqs c ops) (ledgerRun c ops) ∧
      rows.map reportOf = appendedEvents c ops := by
  induction ops using reverseRecOn with
  | nil => exact ⟨[], takenOut_fresh c, rfl⟩
  | append_singleton before op ih =>
    obtain ⟨rows, hrows, hreport⟩ := ih
    rw [ledgerRun_concat, deletedSeqs_concat, appendedEvents_concat]
    cases op with
    | delete seqs =>
      refine ⟨rows, hrows.delete seqs, ?_⟩
      rw [hreport, appendedBy, append_nil]
    | append event now =>
      rw [deletedBy, append_nil, ledgerStep, appendedBy]
      rcases appendAuditEvent_cases c (ledgerRun c before) event now with
        ⟨e, hfailed⟩ | ⟨seq, prevHash, payload, hlink, happended⟩
      · rw [hfailed]
        exact ⟨rows, hrows, by simpa [Except.toOption] using hreport⟩
      · rw [happended]
        obtain ⟨r, hr, hrows'⟩ := hrows.append event now hlink payload
        refine ⟨rows ++ [r], hrows', ?_⟩
        rw [map_append, hreport, map_singleton, hr]
        rfl

theorem TakenOut.maxSeq (h : TakenOut c rows deleted db) :
    (db.highWater.map LedgerHighWater.maxSeq).getD 0 = rows.length := by
  rw [h.mark, markOf]
  cases hlast : rows.getLast? with
  | none => simp [getLast?_eq_none_iff.mp hlast]
  | some r => simp [h.chain.seq_last hlast]

theorem TakenOut.valid (h : TakenOut c rows [] db) : verifyAuditChainConn c db = .valid := by
  have hleft : db.auditEvents.entries = rows := by
    rw [h.left]
    simp
  refine verifyAuditChainConn_valid_iff.mpr ⟨hleft ▸ h.chain, ?_⟩
  rw [OrdMap.size, hleft, h.maxSeq]

theorem TakenOut.split (h : TakenOut c rows deleted db) {d : ℤ} (hd : d ∈ deleted)
    (hleast : ∀ s ∈ deleted, d ≤ s) :
    ∃ before after, db.auditEvents.entries = before ++ after ∧ ChainFromGenesis c before ∧
      d = before.length + 1 ∧ ∀ r ∈ after, d < r.1 := by
  obtain ⟨r, hr, hrd⟩ := h.appended d hd
  obtain ⟨before, after, hsplit, hlinked, hcount, hafter⟩ :=
    Linked.filter_split (fun e => decide (e.seq ∉ deleted)) h.chain
      ⟨rowEntry r, mem_map_of_mem hr, hrd, by simpa [rowEntry, hrd] using hd⟩
      (fun e _ hdrop => hleast e.seq (by simpa using hdrop))
  have hmap : db.auditEvents.entries.map rowEntry = before ++ after := by
    rw [h.left, ← hsplit, filter_map]
    rfl
  obtain ⟨rb, ra, hentries, rfl, rfl⟩ := map_eq_append_iff.mp hmap
  refine ⟨rb, ra, hentries, hlinked, ?_, fun r hr => hafter _ (mem_map_of_mem hr)⟩
  rw [← hcount, length_map, genesisSeq, add_comm]

def gapKind (db : AuditTables) (d : ℤ) : DivergenceKind :=
  if db.auditEvents.keys.any (fun s => d < s) then .missingSeq else .truncatedTail

theorem TakenOut.diverged (h : TakenOut c rows deleted db) {d : ℤ} (hd : d ∈ deleted)
    (hleast : ∀ s ∈ deleted, d ≤ s) : verifyAuditChainConn c db = .diverged d (gapKind db d) := by
  obtain ⟨before, after, hentries, hchain, hcount, hafter⟩ := h.split hd hleast
  have hmark : (before.length : ℤ) < (db.highWater.map LedgerHighWater.maxSeq).getD 0 := by
    obtain ⟨r, hr, hrd⟩ := h.appended d hd
    have hle := (h.chain.seq_bounds hr).2
    rw [h.maxSeq]
    omega
  have hbefore : ∀ r ∈ before, ¬ d < r.1 := by
    intro r hr
    have hle := (hchain.seq_bounds hr).2
    omega
  unfold verifyAuditChainConn
  cases after with
  | nil =>
    have hkind : gapKind db d = .truncatedTail := by
      rw [gapKind, OrdMap.keys, hentries]
      exact if_neg (by simpa using hbefore)
    rw [hkind, hentries, scanRows_genesis hchain, hcount]
    exact if_pos hmark
  | cons r rest =>
    have hr : d < r.1 := hafter r mem_cons_self
    have hkind : gapKind db d = .missingSeq := by
      rw [gapKind, OrdMap.keys, hentries]
      exact if_pos (by simp [hr])
    have hgap : r.1 ≠ genesisSeq + before.length := by
      rw [genesisSeq]
      omega
    have hexpected : genesisSeq + (before.length : ℤ) = d := by
      rw [genesisSeq, hcount, add_comm]
    rw [hkind, hentries, scanRows_genesis hchain, scanRows, if_pos hgap, hexpected]

theorem appended_seqs {rows : List (ℤ × AuditEventRow)} (h : ChainFromGenesis c rows) :
    rows.map Prod.fst = (range rows.length).map fun i : ℕ => (i : ℤ) + 1 := by
  have hseqs := Linked.seqs h
  rw [map_map, length_map] at hseqs
  rw [show Prod.fst = Entry.seq ∘ rowEntry from rfl, hseqs]
  refine map_congr_left fun i _ => ?_
  rw [genesisSeq, add_comm]

theorem TakenOut.appends (h : TakenOut c rows deleted db) {event : AuditEvent} (now : Instant)
    {payload : String} (hjson : c.eventJson (event.redacted c.upper) = .ok payload)
    (hroom : (rows.length : ℤ) + 1 < 2 ^ 63) :
    ∃ hash, (appendAuditEvent c db event now).1 = .ok ⟨rows.length + 1, hash⟩ := by
  obtain ⟨link, hlink⟩ : ∃ link, nextLink db.highWater = .ok link := by
    rw [h.mark, markOf]
    cases hlast : rows.getLast? with
    | none => exact ⟨_, rfl⟩
    | some r =>
      have hlt : r.1 + 1 < 2 ^ 63 := by
        rw [h.chain.seq_last hlast]
        exact hroom
      exact ⟨_, if_pos hlt⟩
  obtain ⟨seq, prevHash⟩ := link
  have hseq : seq = genesisSeq + rows.length := (nextLink_markOf h.chain (h.mark ▸ hlink)).1
  have hfree : db.auditEvents.contains seq = false := by
    by_contra hcontains
    have hkey : seq ∈ db.auditEvents.keys :=
      OrdMap.mem_keys.mpr (Bool.not_eq_false _ ▸ hcontains)
    obtain ⟨e, he, hes⟩ := mem_map.mp hkey
    rw [h.left] at he
    have hle := (h.chain.seq_bounds (mem_of_mem_filter he)).2
    rw [genesisSeq] at hseq
    omega
  refine ⟨entryHash c seq prevHash payload, ?_⟩
  rw [appendAuditEvent_ok hlink hjson hfree, hseq, genesisSeq, add_comm]

theorem appended_chain_never_healed (c : AuditCrates) (ops : List LedgerOp) :
    (appendedEvents c ops).map AppendedAuditEvent.seq =
        (range (appendedEvents c ops).length).map (fun i : ℕ => (i : ℤ) + 1) ∧
      (∀ event now payload, c.eventJson (event.redacted c.upper) = .ok payload →
        ((appendedEvents c ops).length : ℤ) + 1 < 2 ^ 63 →
        ∃ hash, (appendAuditEvent c (ledgerRun c ops) event now).1 =
          .ok ⟨(appendedEvents c ops).length + 1, hash⟩) ∧
      (deletedSeqs c ops = [] → verifyAuditChainConn c (ledgerRun c ops) = .valid ∧
        (ledgerRun c ops).auditEvents.keys = (appendedEvents c ops).map AppendedAuditEvent.seq) ∧
      ∀ d ∈ deletedSeqs c ops, (∀ s ∈ deletedSeqs c ops, d ≤ s) →
        verifyAuditChainConn c (ledgerRun c ops) = .diverged d (gapKind (ledgerRun c ops) d) := by
  obtain ⟨rows, hrows, hreport⟩ := ledgerRun_takenOut c ops
  have hseqs : (appendedEvents c ops).map AppendedAuditEvent.seq = rows.map Prod.fst := by
    rw [← hreport, map_map]
    rfl
  have hcount : (appendedEvents c ops).length = rows.length := by
    rw [← hreport, length_map]
  rw [hseqs, hcount]
  refine ⟨appended_seqs hrows.chain, ?_, ?_, ?_⟩
  · intro event now payload hjson hroom
    exact hrows.appends now hjson hroom
  · intro hnone
    rw [hnone] at hrows
    refine ⟨hrows.valid, ?_⟩
    rw [OrdMap.keys, hrows.left]
    simp
  · intro d hd hleast
    exact hrows.diverged hd hleast

def cutAndGoOn : List LedgerOp :=
  [.append (permissionChecked "event-1") 0, .append (permissionChecked "event-2") 0,
    .append (permissionChecked "event-3") 0, .delete [2, 3],
    .append (permissionChecked "event-4") 0]

theorem appended_chain_never_healed_cut :
    (ledgerRun lengthDigests cutAndGoOn).auditEvents.keys = [1, 4] ∧
      verifyAuditChainConn lengthDigests (ledgerRun lengthDigests cutAndGoOn) =
        .diverged 2 .missingSeq := by
  have hkeys : (ledgerRun lengthDigests cutAndGoOn).auditEvents.keys = [1, 4] := by
    decide +kernel
  have hdeleted : deletedSeqs lengthDigests cutAndGoOn = [2, 3] := by decide +kernel
  have hverdict := (appended_chain_never_healed lengthDigests cutAndGoOn).2.2.2 2
    (by rw [hdeleted]; decide) (by rw [hdeleted]; decide)
  refine ⟨hkeys, hverdict.trans ?_⟩
  rw [gapKind, hkeys]
  rfl

end Fornax
