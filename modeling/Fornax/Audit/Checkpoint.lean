import Fornax.Audit.Appends

namespace Fornax

open HashChain List

structure AuditCheckpointRow where
  headLedgerSeq : ℤ
  headEntryHash : String
  issuedAt : String
  deviceId : String
  envelope : String
  deriving DecidableEq, Repr

structure AuditCheckpointReceipt where
  checkpointSeq : ℕ
  headLedgerSeq : ℤ
  headEntryHash : String
  issuedAt : String
  deviceId : String
  envelope : String
  deriving DecidableEq, Repr

def AuditCheckpointRow.intoReceipt (checkpointSeq : ℤ) (row : AuditCheckpointRow) :
    AuditCheckpointReceipt :=
  ⟨(checkpointSeq % 2 ^ 64).toNat, row.headLedgerSeq, row.headEntryHash, row.issuedAt,
    row.deviceId, row.envelope⟩

inductive CheckpointConsistencyVerdict
  | consistent
  | anchorMissing
  | anchorRewritten (attested found : String)
  | divergedAfterAnchor (firstBadLedgerSeq : ℤ) (kind : DivergenceKind)
  | attestedPrefixCorrupted (firstBadLedgerSeq : ℤ) (kind : DivergenceKind)
  deriving DecidableEq, Repr

def evaluateCheckpointConsistency (chain : ChainVerification) (headLedgerSeq : ℤ)
    (headEntryHash : String) (rowEntryHashAtHead : Option String) :
    CheckpointConsistencyVerdict :=
  match chain with
  | .diverged firstBadSeq kind =>
    if firstBadSeq ≤ headLedgerSeq then .attestedPrefixCorrupted firstBadSeq kind
    else .divergedAfterAnchor firstBadSeq kind
  | .valid =>
    match rowEntryHashAtHead with
    | none => .anchorMissing
    | some found =>
      if found ≠ headEntryHash then .anchorRewritten headEntryHash found else .consistent

abbrev CheckpointTable := OrdMap ℤ AuditCheckpointRow

def auditCheckpointReceipts (checkpoints : CheckpointTable) : List AuditCheckpointReceipt :=
  checkpoints.entries.map fun e => e.2.intoReceipt e.1

def AuditTables.entryHashAt (db : AuditTables) (seq : ℤ) : Option String :=
  (db.auditEvents.get? seq).map AuditEventRow.entryHash

def AuditTables.payloadAt (db : AuditTables) (seq : ℤ) : Option String :=
  (db.auditEvents.get? seq).map AuditEventRow.payload

def evaluateAllCheckpointReceipts (c : AuditCrates) (db : AuditTables)
    (checkpoints : CheckpointTable) :
    List (AuditCheckpointReceipt × CheckpointConsistencyVerdict) :=
  let chain := verifyAuditChainConn c db
  (auditCheckpointReceipts checkpoints).map fun receipt =>
    (receipt, evaluateCheckpointConsistency chain receipt.headLedgerSeq receipt.headEntryHash
      (db.entryHashAt receipt.headLedgerSeq))

def CheckpointConsistencyVerdict.prefixIntact : CheckpointConsistencyVerdict → Bool
  | .consistent => true
  | .divergedAfterAnchor _ _ => true
  | _ => false

variable {c : AuditCrates}

theorem verifyAuditChainConn_diverged {db : AuditTables} {bad : ℤ} {kind : DivergenceKind}
    (h : verifyAuditChainConn c db = .diverged bad kind) :
    ∃ before after, db.auditEvents.entries = before ++ after ∧ ChainFromGenesis c before ∧
      bad = before.length + 1 := by
  unfold verifyAuditChainConn at h
  rcases scanRows_cases c db.auditEvents.entries with
    hchain | ⟨before, after, kind', hrows, hchain, hscan⟩
  · rw [scanRows_chain hchain] at h
    simp only at h
    split at h
    · obtain ⟨hbad, -⟩ := ChainVerification.diverged.inj h
      exact ⟨db.auditEvents.entries, [], (append_nil _).symm, hchain, hbad.symm⟩
    · cases h
  · simp only [hscan, ChainVerification.diverged.injEq] at h
    exact ⟨before, after, hrows, hchain, h.1.symm⟩

structure LinkedPrefix (c : AuditCrates) (db : AuditTables) (n : ℕ)
    (rows : List (ℤ × AuditEventRow)) : Prop where
  leads : rows <+: db.auditEvents.entries
  chain : ChainFromGenesis c rows
  length_eq : rows.length = n

variable {db : AuditTables} {n : ℕ} {rows : List (ℤ × AuditEventRow)}

theorem LinkedPrefix.get? (h : LinkedPrefix c db n rows) {r : ℤ × AuditEventRow} (hr : r ∈ rows) :
    db.auditEvents.get? r.1 = some r.2 :=
  OrdMap.mem_entries.mp (h.leads.subset hr)

theorem ChainFromGenesis.exists_prefix (h : ChainFromGenesis c rows)
    (hleads : rows <+: db.auditEvents.entries) (hn : n ≤ rows.length) :
    ∃ rows', LinkedPrefix c db n rows' := by
  refine ⟨rows.take n, (List.take_prefix n rows).trans hleads, ?_, length_take_of_le hn⟩
  rw [ChainFromGenesis, ← take_append_drop n rows, map_append] at h
  exact (linked_append.mp h).1

theorem exists_linkedPrefix {hash : String}
    (h : (evaluateCheckpointConsistency (verifyAuditChainConn c db) n hash
      (db.entryHashAt n)).prefixIntact) : ∃ rows, LinkedPrefix c db n rows := by
  cases hchain : verifyAuditChainConn c db with
  | diverged bad kind =>
    obtain ⟨before, after, hentries, hlinked, hbad⟩ := verifyAuditChainConn_diverged hchain
    rw [hchain, evaluateCheckpointConsistency] at h
    split at h
    · cases h
    · refine hlinked.exists_prefix ⟨after, hentries.symm⟩ ?_
      omega
  | valid =>
    obtain ⟨hlinked, -⟩ := verifyAuditChainConn_valid_iff.mp hchain
    rw [hchain] at h
    cases hrow : db.auditEvents.get? n with
    | none => simp [AuditTables.entryHashAt, hrow, evaluateCheckpointConsistency,
        CheckpointConsistencyVerdict.prefixIntact] at h
    | some row =>
      have hmem : ((n : ℤ), row) ∈ db.auditEvents.entries := OrdMap.mem_entries.mpr hrow
      have hle : (n : ℤ) ≤ db.auditEvents.entries.length := (hlinked.seq_bounds hmem).2
      exact hlinked.exists_prefix (prefix_refl _) (by omega)

theorem LinkedPrefix.payloads (h : LinkedPrefix c db n rows) :
    ((rows.map rowEntry).map Entry.payload).map some =
      (range n).map fun i : ℕ => db.payloadAt ((i : ℤ) + 1) := by
  have hrow : ∀ r ∈ rows, some r.2.payload = db.payloadAt r.1 := by
    intro r hr
    rw [AuditTables.payloadAt, h.get? hr]
    rfl
  have hseqs : rows.map Prod.fst = (range n).map fun i : ℕ => (i : ℤ) + 1 := by
    rw [appended_seqs h.chain, h.length_eq]
  calc ((rows.map rowEntry).map Entry.payload).map some
      = rows.map fun r => some r.2.payload := by rw [map_map, map_map]; rfl
    _ = rows.map fun r => db.payloadAt r.1 := map_congr_left hrow
    _ = (rows.map Prod.fst).map db.payloadAt := by rw [map_map]; rfl
    _ = (range n).map fun i : ℕ => db.payloadAt ((i : ℤ) + 1) := by
      rw [hseqs, map_map]
      rfl

theorem LinkedPrefix.entryHashAt (h : LinkedPrefix c db n rows) (hn : 0 < n) :
    db.entryHashAt n = some (head genesisPrevHash (rows.map rowEntry)) := by
  cases hlast : rows.getLast? with
  | none =>
    have hlength := h.length_eq
    rw [getLast?_eq_none_iff.mp hlast, length_nil] at hlength
    omega
  | some r =>
    have hseq : r.1 = n := by
      rw [h.chain.seq_last hlast, h.length_eq]
    rw [AuditTables.entryHashAt, ← hseq, h.get? (mem_of_getLast? hlast), head_eq_getLast?,
      getLast?_map, hlast]
    rfl

theorem payloadAt_agree_iff {attested later : AuditTables} :
    (∀ s : ℤ, 1 ≤ s → s ≤ n → later.payloadAt s = attested.payloadAt s) ↔
      (range n).map (fun i : ℕ => later.payloadAt ((i : ℤ) + 1)) =
        (range n).map fun i : ℕ => attested.payloadAt ((i : ℤ) + 1) := by
  rw [map_inj_left]
  constructor
  · intro h i hi
    have hlt := mem_range.mp hi
    exact h _ (by omega) (by omega)
  · intro h s hlow hhigh
    obtain ⟨i, hi⟩ := Int.eq_ofNat_of_zero_le (show 0 ≤ s - 1 by omega)
    have hs : s = (i : ℤ) + 1 := by omega
    rw [hs]
    exact h i (mem_range.mpr (by omega))

theorem LinkedPrefix.agree_iff {attested later : AuditTables} {rows' : List (ℤ × AuditEventRow)}
    (hinj : Set.InjOn c.sha256 {bytes | bytes ∈ attested.hashed ∨ bytes ∈ later.hashed})
    (h : LinkedPrefix c attested n rows) (h' : LinkedPrefix c later n rows') (hn : 0 < n) :
    (∀ s : ℤ, 1 ≤ s → s ≤ n → later.payloadAt s = attested.payloadAt s) ↔
      later.entryHashAt n = attested.entryHashAt n := by
  rw [payloadAt_agree_iff, ← h.payloads, ← h'.payloads, h.entryHashAt hn, h'.entryHashAt hn]
  constructor
  · intro hpayloads
    have hlists := (Option.some_injective String).list_map hpayloads
    rw [Linked.eq_of_payloads h'.chain h.chain hlists]
  · intro hheads
    have hlength : (rows.map rowEntry).length = (rows'.map rowEntry).length := by
      rw [length_map, length_map, h.length_eq, h'.length_eq]
    have hsep := separates_of_injOn hinj h.leads.subset h'.leads.subset h.chain h'.chain
    have hheads' : head genesisPrevHash (rows.map rowEntry) =
        head genesisPrevHash (rows'.map rowEntry) := (Option.some.inj hheads).symm
    rw [Linked.eq_of_head h.chain h'.chain hlength hheads' hsep]

theorem intact_verdict_iff (c : AuditCrates) (attested later : AuditTables)
    (checkpoints : CheckpointTable) (receipt : AuditCheckpointReceipt)
    (verdict : CheckpointConsistencyVerdict) (row : AuditEventRow)
    (hinj : Set.InjOn c.sha256 {bytes | bytes ∈ attested.hashed ∨ bytes ∈ later.hashed})
    (hvalid : verifyAuditChainConn c attested = .valid)
    (hlast : attested.lastRow = some (receipt.headLedgerSeq, row))
    (hhash : row.entryHash = receipt.headEntryHash)
    (hreceipt : (receipt, verdict) ∈ evaluateAllCheckpointReceipts c later checkpoints)
    (hintact : verdict.prefixIntact = true) :
    ((∀ s, 1 ≤ s → s ≤ receipt.headLedgerSeq → later.payloadAt s = attested.payloadAt s) ↔
        later.entryHashAt receipt.headLedgerSeq = some receipt.headEntryHash) ∧
      (verdict = .consistent →
        ∀ s, 1 ≤ s → s ≤ receipt.headLedgerSeq → later.payloadAt s = attested.payloadAt s) := by
  obtain ⟨hchain, -⟩ := verifyAuditChainConn_valid_iff.mp hvalid
  have hseq : receipt.headLedgerSeq = attested.auditEvents.size := hchain.seq_last hlast
  have hprefix : LinkedPrefix c attested attested.auditEvents.size attested.auditEvents.entries :=
    ⟨prefix_refl _, hchain, rfl⟩
  have hpos : 0 < attested.auditEvents.size := by
    rw [OrdMap.size, length_pos_iff]
    rintro hnil
    rw [AuditTables.lastRow, hnil] at hlast
    cases hlast
  have hattested : attested.entryHashAt attested.auditEvents.size = some receipt.headEntryHash := by
    rw [← hseq, AuditTables.entryHashAt, hprefix.get? (mem_of_getLast? hlast), ← hhash]
    rfl
  obtain ⟨receipt', -, hpair⟩ := mem_map.mp hreceipt
  obtain ⟨rfl, rfl⟩ := Prod.mk.inj hpair
  rw [hseq] at hintact ⊢
  obtain ⟨rows', hprefix'⟩ := exists_linkedPrefix hintact
  have hiff := hprefix.agree_iff hinj hprefix' hpos
  rw [hattested] at hiff
  refine ⟨hiff, fun hconsistent => hiff.mpr ?_⟩
  cases hverify : verifyAuditChainConn c later with
  | diverged bad kind =>
    rw [hverify, evaluateCheckpointConsistency] at hconsistent
    split at hconsistent <;> cases hconsistent
  | valid =>
    rw [hverify] at hconsistent
    cases hfound : later.entryHashAt attested.auditEvents.size with
    | none => simp [hfound, evaluateCheckpointConsistency] at hconsistent
    | some found =>
      simpa [hfound, evaluateCheckpointConsistency] using hconsistent

def oneCheck : AuditTables :=
  (appendAuditEvent lengthDigests .fresh (permissionChecked "event-1") 0).2

def oneCheckRow : AuditEventRow :=
  ⟨"event-1", "2026-01-01T00:00:00+00:00", genesisPrevHash,
    computeEntryHash lengthDigests 1 genesisPrevHash (utf8Bytes "event-1"), "metadata", "event-1"⟩

def oneCheckReceipt : AuditCheckpointRow :=
  ⟨1, oneCheckRow.entryHash, "2026-01-01T00:00:00Z", "device-1", "signed"⟩

def oneCheckpoint : CheckpointTable := OrdMap.empty.insert 1 oneCheckReceipt

def goneOn : AuditTables :=
  (appendAuditEvent lengthDigests oneCheck (permissionChecked "event-200") 0).2

def rewrittenAnchor : AuditTables :=
  { goneOn with
    auditEvents := goneOn.auditEvents.update 1 fun row =>
      { row with
        payload := "event-10"
        entryHash := computeEntryHash lengthDigests 1 row.prevHash (utf8Bytes "event-10") } }

theorem oneCheck_lastRow : oneCheck.lastRow = some (1, oneCheckRow) := by
  decide +kernel

/-- The second row still names the old hash, so the chain diverges there, behind the
attested row. -/
theorem rewritten_anchor_called_intact :
    ¬ ∀ (c : AuditCrates) (attested later : AuditTables) (checkpoints : CheckpointTable)
      (receipt : AuditCheckpointReceipt) (verdict : CheckpointConsistencyVerdict)
      (row : AuditEventRow),
      Set.InjOn c.sha256 {bytes | bytes ∈ attested.hashed ∨ bytes ∈ later.hashed} →
      verifyAuditChainConn c attested = .valid →
      attested.lastRow = some (receipt.headLedgerSeq, row) →
      row.entryHash = receipt.headEntryHash →
      (receipt, verdict) ∈ evaluateAllCheckpointReceipts c later checkpoints →
      verdict.prefixIntact = true →
      ∀ s, 1 ≤ s → s ≤ receipt.headLedgerSeq → later.payloadAt s = attested.payloadAt s := by
  intro h
  have hinj := lengthDigests_injOn (a := oneCheck) (b := rewrittenAnchor) (by decide +kernel)
  have hpayload := h lengthDigests oneCheck rewrittenAnchor oneCheckpoint
    (oneCheckReceipt.intoReceipt 1) (.divergedAfterAnchor 2 .relinkedPrevHash) oneCheckRow hinj
    (by decide +kernel) oneCheck_lastRow rfl (by decide +kernel) rfl 1 (by decide) (by decide)
  exact absurd hpayload (by decide +kernel)

theorem intact_verdict_iff_goneOn : goneOn.payloadAt 1 = oneCheck.payloadAt 1 := by
  have hinj := lengthDigests_injOn (a := oneCheck) (b := goneOn) (by decide +kernel)
  exact (intact_verdict_iff lengthDigests oneCheck goneOn oneCheckpoint
    (oneCheckReceipt.intoReceipt 1) .consistent oneCheckRow hinj (by decide +kernel)
    oneCheck_lastRow rfl (by decide +kernel) rfl).2 rfl 1 (by decide) (by decide)

end Fornax
