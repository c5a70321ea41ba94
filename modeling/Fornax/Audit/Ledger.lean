import Fornax.Audit.Event
import Fornax.Evidence.Types
import Fornax.Lib.HashChain
import Fornax.Lib.Table

namespace Fornax

open HashChain OrdMap

/-- SHA-256, the serializer of events, the formatter of instants and upper case
outside the ASCII range. -/
structure AuditCrates where
  sha256 : Bytes → Vector UInt8 32
  eventJson : AuditEvent → Except String String
  toRfc3339 : Instant → String
  upper : Char → Text

def auditLedgerDomain : Bytes := asciiBytes "fornax-audit-ledger/v1\n"

def genesisSeq : ℤ := 1

def genesisPrevHash : String := "sha256:" ++ String.ofList (List.replicate 64 '0')

def i64BeBytes (n : ℤ) : Bytes :=
  (List.range 8).map fun i => UInt8.ofNat ((n % 2 ^ 64).toNat / 256 ^ (7 - i))

def hashedBytes (seq : ℤ) (prevHash : String) (payloadBytes : Bytes) : Bytes :=
  auditLedgerDomain ++ i64BeBytes seq ++ utf8Bytes prevHash ++ payloadBytes

def digestText (digest : Vector UInt8 32) : String :=
  "sha256:" ++ String.ofList (digest.toList.flatMap fun b => hexDigits 2 b.toNat)

def computeEntryHash (c : AuditCrates) (seq : ℤ) (prevHash : String) (payloadBytes : Bytes) :
    String :=
  digestText (c.sha256 (hashedBytes seq prevHash payloadBytes))

structure AuditEventRow where
  eventId : String
  recordedAt : String
  prevHash : String
  entryHash : String
  exportClass : String
  payload : String
  deriving DecidableEq, Repr

structure LedgerHighWater where
  maxSeq : ℤ
  lastEntryHash : String
  deriving DecidableEq, Repr

structure AuditTables where
  auditEvents : OrdMap ℤ AuditEventRow
  highWater : Option LedgerHighWater

def AuditTables.fresh : AuditTables := ⟨empty, none⟩

structure AppendedAuditEvent where
  seq : ℤ
  entryHash : String
  deriving DecidableEq, Repr

inductive LedgerError
  | json (message : String)
  | uniqueViolation (table : String)
  | panicked (message : String)
  deriving DecidableEq, Repr

def nextLink : Option LedgerHighWater → Except LedgerError (ℤ × String)
  | some mark =>
    if mark.maxSeq + 1 < 2 ^ 63 then .ok (mark.maxSeq + 1, mark.lastEntryHash)
    else .error (.panicked "attempt to add with overflow")
  | none => .ok (genesisSeq, genesisPrevHash)

def raiseHighWater (current : Option LedgerHighWater) (seq : ℤ) (entryHash : String) :
    Option LedgerHighWater :=
  match current with
  | none => some ⟨seq, entryHash⟩
  | some mark => if seq > mark.maxSeq then some ⟨seq, entryHash⟩ else some mark

def newAuditRow (c : AuditCrates) (event : AuditEvent) (now : Instant)
    (prevHash entryHash payload : String) : AuditEventRow :=
  ⟨event.eventId, c.toRfc3339 now, prevHash, entryHash, event.exportClass.tag, payload⟩

def appendAuditEventLocked (c : AuditCrates) (db : AuditTables) (event : AuditEvent)
    (now : Instant) : Except LedgerError (AppendedAuditEvent × AuditTables) :=
  match nextLink db.highWater with
  | .error e => .error e
  | .ok (seq, prevHash) =>
    match c.eventJson event with
    | .error message => .error (.json message)
    | .ok payloadJson =>
      let entryHash := computeEntryHash c seq prevHash (utf8Bytes payloadJson)
      if db.auditEvents.contains seq then .error (.uniqueViolation "audit_events")
      else
        .ok (⟨seq, entryHash⟩,
          { auditEvents := db.auditEvents.insert seq
              (newAuditRow c event now prevHash entryHash payloadJson)
            highWater := raiseHighWater db.highWater seq entryHash })

def appendAuditEvent (c : AuditCrates) (db : AuditTables) (event : AuditEvent) (now : Instant) :
    Except LedgerError AppendedAuditEvent × AuditTables :=
  match appendAuditEventLocked c db (event.redacted c.upper) now with
  | .ok (appended, db') => (.ok appended, db')
  | .error e => (.error e, db)

inductive DivergenceKind
  | hashMismatch
  | missingSeq
  | truncatedTail
  | relinkedPrevHash
  deriving DecidableEq, Repr

inductive ChainVerification
  | valid
  | diverged (firstBadSeq : ℤ) (kind : DivergenceKind)
  deriving DecidableEq, Repr

def scanRows (c : AuditCrates) (index : ℕ) (expectedPrevHash : String) (lastSeenSeq : ℤ) :
    List (ℤ × AuditEventRow) → Except (ℤ × DivergenceKind) ℤ
  | [] => .ok lastSeenSeq
  | (seq, row) :: rest =>
    if seq ≠ genesisSeq + index then .error (genesisSeq + index, .missingSeq)
    else if row.prevHash ≠ expectedPrevHash then .error (seq, .relinkedPrevHash)
    else if computeEntryHash c seq row.prevHash (utf8Bytes row.payload) ≠ row.entryHash then
      .error (seq, .hashMismatch)
    else scanRows c (index + 1) row.entryHash seq rest

def verifyAuditChainConn (c : AuditCrates) (db : AuditTables) : ChainVerification :=
  let highWater := (db.highWater.map LedgerHighWater.maxSeq).getD 0
  match scanRows c 0 genesisPrevHash 0 db.auditEvents.entries with
  | .error (firstBadSeq, kind) => .diverged firstBadSeq kind
  | .ok lastSeenSeq =>
    if lastSeenSeq < highWater then .diverged (lastSeenSeq + 1) .truncatedTail else .valid

def rowEntry (r : ℤ × AuditEventRow) : Entry String String :=
  ⟨r.1, r.2.prevHash, r.2.entryHash, r.2.payload⟩

def entryHash (c : AuditCrates) (seq : ℤ) (prevHash payload : String) : String :=
  computeEntryHash c seq prevHash (utf8Bytes payload)

def ChainFromGenesis (c : AuditCrates) (rows : List (ℤ × AuditEventRow)) : Prop :=
  Linked (entryHash c) genesisSeq genesisPrevHash (rows.map rowEntry)

variable {c : AuditCrates}

theorem genesisSeq_succ (index : ℕ) :
    genesisSeq + ((index + 1 : ℕ) : ℤ) = genesisSeq + index + 1 := by
  push_cast
  ring

theorem scanRows_append {index : ℕ} {prevHash : String} {before : List (ℤ × AuditEventRow)}
    (after : List (ℤ × AuditEventRow))
    (h : Linked (entryHash c) (genesisSeq + index) prevHash (before.map rowEntry)) :
    scanRows c index prevHash index (before ++ after) =
      scanRows c (index + before.length) (head prevHash (before.map rowEntry))
        (index + before.length : ℕ) after := by
  induction before generalizing index prevHash with
  | nil => rfl
  | cons r rest ih =>
    obtain ⟨hseq, hprev, hhash, hrest⟩ := h
    obtain ⟨seq, row⟩ := r
    change seq = genesisSeq + index at hseq
    change row.prevHash = prevHash at hprev
    change computeEntryHash c seq row.prevHash (utf8Bytes row.payload) = row.entryHash at hhash
    have hseen : seq = (index + 1 : ℕ) := by
      rw [hseq, genesisSeq]
      push_cast
      ring
    have hcount : index + 1 + rest.length = index + ((seq, row) :: rest).length := by
      rw [List.length_cons]
      omega
    rw [← genesisSeq_succ] at hrest
    have hscan := ih hrest
    rw [← hseen, hcount] at hscan
    rw [List.cons_append, scanRows, if_neg (not_not.mpr hseq), if_neg (not_not.mpr hprev),
      if_neg (not_not.mpr hhash)]
    exact hscan

variable {rows : List (ℤ × AuditEventRow)}

theorem scanRows_outcome (c : AuditCrates) (index : ℕ) (prevHash : String) (lastSeen : ℤ)
    (rows : List (ℤ × AuditEventRow)) : ∃ before after, rows = before ++ after ∧
      Linked (entryHash c) (genesisSeq + index) prevHash (before.map rowEntry) ∧
      (after = [] ∨ ∃ kind, scanRows c index prevHash lastSeen rows =
        .error (genesisSeq + index + before.length, kind)) := by
  induction rows generalizing index prevHash lastSeen with
  | nil => exact ⟨[], [], rfl, trivial, .inl rfl⟩
  | cons r rest ih =>
    obtain ⟨seq, row⟩ := r
    rw [scanRows]
    split_ifs with hseq hprev hhash
    · exact ⟨[], _, rfl, trivial, .inr (by simp)⟩
    · exact ⟨[], _, rfl, trivial, .inr (by simp [not_not.mp hseq])⟩
    · exact ⟨[], _, rfl, trivial, .inr (by simp [not_not.mp hseq])⟩
    · obtain ⟨before, after, hrows, hlinked, hend⟩ := ih (index + 1) row.entryHash seq
      rw [genesisSeq_succ] at hlinked hend
      refine ⟨(seq, row) :: before, after, by rw [hrows]; rfl,
        ⟨not_not.mp hseq, not_not.mp hprev, not_not.mp hhash, hlinked⟩, ?_⟩
      rwa [List.length_cons, Nat.cast_succ, add_comm (before.length : ℤ), ← add_assoc]

theorem scanRows_genesis {before : List (ℤ × AuditEventRow)} (h : ChainFromGenesis c before)
    (after : List (ℤ × AuditEventRow)) : scanRows c 0 genesisPrevHash 0 (before ++ after) =
      scanRows c before.length (head genesisPrevHash (before.map rowEntry)) before.length
        after := by
  have hlinked : Linked (entryHash c) (genesisSeq + (0 : ℕ)) genesisPrevHash
      (before.map rowEntry) := by simpa [ChainFromGenesis] using h
  simpa using scanRows_append after hlinked

theorem scanRows_chain (h : ChainFromGenesis c rows) :
    scanRows c 0 genesisPrevHash 0 rows = .ok rows.length := by
  have hscan := scanRows_genesis h []
  rwa [List.append_nil] at hscan

theorem scanRows_cases (c : AuditCrates) (rows : List (ℤ × AuditEventRow)) :
    ChainFromGenesis c rows ∨ ∃ before after kind, rows = before ++ after ∧
      ChainFromGenesis c before ∧
      scanRows c 0 genesisPrevHash 0 rows = .error (before.length + 1, kind) := by
  obtain ⟨before, after, rfl, hlinked, hend⟩ := scanRows_outcome c 0 genesisPrevHash 0 rows
  have hchain : ChainFromGenesis c before := by simpa [ChainFromGenesis] using hlinked
  rcases hend with rfl | ⟨kind, hscan⟩
  · exact .inl (by rwa [List.append_nil])
  · refine .inr ⟨before, after, kind, rfl, hchain, ?_⟩
    rw [hscan, genesisSeq, Nat.cast_zero, add_zero, add_comm]

theorem verifyAuditChainConn_valid_iff {db : AuditTables} :
    verifyAuditChainConn c db = .valid ↔ ChainFromGenesis c db.auditEvents.entries ∧
      (db.highWater.map LedgerHighWater.maxSeq).getD 0 ≤ db.auditEvents.size := by
  unfold verifyAuditChainConn
  constructor
  · intro h
    rcases scanRows_cases c db.auditEvents.entries with hchain | ⟨_, _, kind, -, -, hscan⟩
    · rw [scanRows_chain hchain] at h
      refine ⟨hchain, ?_⟩
      by_contra hlow
      simp [size] at hlow
      simp [hlow] at h
    · simp [hscan] at h
  · rintro ⟨hchain, hmark⟩
    rw [scanRows_chain hchain]
    exact if_neg (not_lt.mpr hmark)

theorem utf8Bytes_injective : Function.Injective utf8Bytes := by
  intro s t h
  exact String.toByteArray_inj.mp (ByteArray.ext (Array.toList_inj.mp h))

@[simp]
theorem length_hexDigits (width n : ℕ) : (hexDigits width n).length = width := by
  induction width generalizing n with
  | zero => rfl
  | succ width ih => simp [hexDigits, ih]

theorem hexDigit_mod (n : ℕ) : hexDigit (n % 16) = hexDigit n := by
  rw [hexDigit, hexDigit, Nat.mod_mod]

theorem hexDigit_inj {m n : ℕ} (h : hexDigit m = hexDigit n) : m % 16 = n % 16 := by
  have hall : ∀ i j : Fin 16, hexDigit i = hexDigit j → i = j := by decide
  rw [← hexDigit_mod m, ← hexDigit_mod n] at h
  exact congrArg Fin.val (hall ⟨m % 16, by omega⟩ ⟨n % 16, by omega⟩ h)

theorem hexDigits_two_injective {a b : UInt8}
    (h : hexDigits 2 a.toNat = hexDigits 2 b.toNat) : a = b := by
  simp only [hexDigits, List.nil_append, List.cons_append, List.cons.injEq, and_true] at h
  obtain ⟨hhigh, hlow⟩ := h
  have hhigh := hexDigit_inj hhigh
  have hlow := hexDigit_inj hlow
  have ha := a.toNat_lt
  have hb := b.toNat_lt
  exact UInt8.toNat_inj.mp (by omega)

theorem flatMap_hexDigits_injective {l m : List UInt8}
    (h : l.flatMap (fun b => hexDigits 2 b.toNat) = m.flatMap fun b => hexDigits 2 b.toNat) :
    l = m := by
  induction l generalizing m with
  | nil =>
    cases m with
    | nil => rfl
    | cons b m => simp [hexDigits] at h
  | cons a l ih =>
    cases m with
    | nil => simp [hexDigits] at h
    | cons b m =>
      rw [List.flatMap_cons, List.flatMap_cons] at h
      obtain ⟨hfirst, hrest⟩ := List.append_inj h (by simp)
      rw [hexDigits_two_injective hfirst, ih hrest]

theorem digestText_injective : Function.Injective digestText := by
  intro d e h
  have hlist := congrArg String.toList h
  simp only [digestText, String.toList_append, String.toList_ofList, List.append_cancel_left_eq]
    at hlist
  exact Vector.toList_inj.mp (flatMap_hexDigits_injective hlist)

def HashShaped (s : String) : Prop := (utf8Bytes s).length = 71

theorem utf8Size_hexDigit (n : ℕ) : (hexDigit n).utf8Size = 1 := by
  have hall : ∀ i : Fin 16, (hexDigit i).utf8Size = 1 := by decide
  rw [← hexDigit_mod]
  exact hall ⟨n % 16, by omega⟩

theorem hashShaped_of_ascii {l : List Char} (hlength : l.length = 64)
    (hascii : ∀ ch ∈ l, ch.utf8Size = 1) : HashShaped ("sha256:" ++ String.ofList l) := by
  have hones : l.map Char.utf8Size = l.map fun _ => 1 := List.map_congr_left hascii
  have hsize : (String.ofList l).toByteArray.size = 64 := by
    rw [String.toByteArray_ofList, List.utf8Encode]
    simp [hones, hlength]
  change ("sha256:" ++ String.ofList l).toByteArray.size = 71
  rw [String.toByteArray_append, ByteArray.size_append, hsize]
  rfl

theorem hashShaped_genesis : HashShaped genesisPrevHash := by
  refine hashShaped_of_ascii (by simp) fun ch hch => ?_
  rw [List.eq_of_mem_replicate hch]
  rfl

theorem hashShaped_computeEntryHash (c : AuditCrates) (seq : ℤ) (prevHash : String)
    (payloadBytes : Bytes) : HashShaped (computeEntryHash c seq prevHash payloadBytes) := by
  refine hashShaped_of_ascii ?_ fun ch hch => ?_
  · rw [List.length_flatMap]
    simp
  · obtain ⟨b, -, hb⟩ := List.mem_flatMap.mp hch
    simp only [hexDigits, List.nil_append, List.cons_append, List.mem_cons, List.not_mem_nil,
      or_false] at hb
    rcases hb with rfl | rfl
    · exact utf8Size_hexDigit _
    · exact utf8Size_hexDigit _

theorem hashedBytes_inj {seq : ℤ} {prev₁ prev₂ payload₁ payload₂ : String}
    (h₁ : HashShaped prev₁) (h₂ : HashShaped prev₂)
    (h : hashedBytes seq prev₁ (utf8Bytes payload₁) = hashedBytes seq prev₂ (utf8Bytes payload₂)) :
    prev₁ = prev₂ ∧ payload₁ = payload₂ := by
  simp only [hashedBytes, List.append_assoc, List.append_cancel_left_eq] at h
  obtain ⟨hprev, hpayload⟩ := List.append_inj h (h₁.trans h₂.symm)
  exact ⟨utf8Bytes_injective hprev, utf8Bytes_injective hpayload⟩

def AuditTables.hashed (db : AuditTables) : List Bytes :=
  db.auditEvents.entries.map fun r => hashedBytes r.1 r.2.prevHash (utf8Bytes r.2.payload)

def AuditTables.lastRow (db : AuditTables) : Option (ℤ × AuditEventRow) :=
  db.auditEvents.entries.getLast?

theorem ChainFromGenesis.hashShaped (h : ChainFromGenesis c rows) {r : ℤ × AuditEventRow}
    (hr : r ∈ rows) : HashShaped r.2.prevHash :=
  Linked.prev_of h hashShaped_genesis (fun _ _ _ => hashShaped_computeEntryHash c _ _ _)
    (rowEntry r) (List.mem_map_of_mem hr)

theorem ChainFromGenesis.seq_last (h : ChainFromGenesis c rows) {r : ℤ × AuditEventRow}
    (hr : rows.getLast? = some r) : r.1 = rows.length := by
  obtain ⟨before, rfl⟩ := List.getLast?_eq_some_iff.mp hr
  rw [ChainFromGenesis, List.map_append] at h
  obtain ⟨-, hseq, -⟩ := linked_append.mp h
  change r.1 = genesisSeq + _ at hseq
  rw [hseq, genesisSeq, List.length_append, List.length_map, List.length_singleton]
  push_cast
  ring

theorem separates_of_injOn {db₁ db₂ : AuditTables} {rows₁ rows₂ : List (ℤ × AuditEventRow)}
    (hinj : Set.InjOn c.sha256 {bytes | bytes ∈ db₁.hashed ∨ bytes ∈ db₂.hashed})
    (hrows₁ : rows₁ ⊆ db₁.auditEvents.entries) (hrows₂ : rows₂ ⊆ db₂.auditEvents.entries)
    (h₁ : ChainFromGenesis c rows₁) (h₂ : ChainFromGenesis c rows₂) :
    Separates (entryHash c) (rows₁.map rowEntry) (rows₂.map rowEntry) := by
  intro e₁ he₁ e₂ he₂ hseq hhash
  obtain ⟨r₁, hr₁, rfl⟩ := List.mem_map.mp he₁
  obtain ⟨r₂, hr₂, rfl⟩ := List.mem_map.mp he₂
  have hbytes := hinj (Or.inl (List.mem_map_of_mem (hrows₁ hr₁)))
    (Or.inr (List.mem_map_of_mem (hrows₂ hr₂))) (digestText_injective hhash)
  change r₁.1 = r₂.1 at hseq
  rw [hseq] at hbytes
  exact hashedBytes_inj (h₁.hashShaped hr₁) (h₂.hashShaped hr₂) hbytes

theorem payload_of_entries_eq {m₁ m₂ : OrdMap ℤ AuditEventRow}
    (h : m₁.entries.map rowEntry = m₂.entries.map rowEntry) (seq : ℤ) :
    (m₁.get? seq).map AuditEventRow.payload = (m₂.get? seq).map AuditEventRow.payload := by
  have hget : ∀ l : List (ℤ × AuditEventRow), (lookup seq l).map AuditEventRow.payload =
      ((l.map rowEntry).find? fun e => e.seq = seq).map Entry.payload := by
    intro l
    induction l with
    | nil => rfl
    | cons r rest ih =>
      obtain ⟨s, row⟩ := r
      by_cases hs : s = seq
      · simp [lookup, rowEntry, hs]
      · simpa [lookup, rowEntry, hs] using ih
  rw [get?, get?, hget, hget, h]

theorem ledger_head_binds_history (c : AuditCrates) (db₁ db₂ : AuditTables)
    (hinj : Set.InjOn c.sha256 {bytes | bytes ∈ db₁.hashed ∨ bytes ∈ db₂.hashed})
    (hvalid₁ : verifyAuditChainConn c db₁ = .valid)
    (hvalid₂ : verifyAuditChainConn c db₂ = .valid)
    (seq : ℤ) (row₁ row₂ : AuditEventRow) (hlast₁ : db₁.lastRow = some (seq, row₁))
    (hlast₂ : db₂.lastRow = some (seq, row₂)) (hhead : row₁.entryHash = row₂.entryHash) :
    db₁.auditEvents.size = db₂.auditEvents.size ∧
      ∀ s, (db₁.auditEvents.get? s).map AuditEventRow.payload =
        (db₂.auditEvents.get? s).map AuditEventRow.payload := by
  obtain ⟨hchain₁, -⟩ := verifyAuditChainConn_valid_iff.mp hvalid₁
  obtain ⟨hchain₂, -⟩ := verifyAuditChainConn_valid_iff.mp hvalid₂
  have hsize : db₁.auditEvents.size = db₂.auditEvents.size := by
    have hcount₁ : seq = db₁.auditEvents.size := hchain₁.seq_last hlast₁
    have hcount₂ : seq = db₂.auditEvents.size := hchain₂.seq_last hlast₂
    omega
  have hheads : head genesisPrevHash (db₁.auditEvents.entries.map rowEntry) =
      head genesisPrevHash (db₂.auditEvents.entries.map rowEntry) := by
    rw [head_eq_getLast?, head_eq_getLast?, List.getLast?_map, List.getLast?_map]
    rw [AuditTables.lastRow] at hlast₁ hlast₂
    rw [hlast₁, hlast₂]
    exact hhead
  have hrows := Linked.eq_of_head hchain₁ hchain₂ (by simpa [size] using hsize) hheads
    (separates_of_injOn hinj (List.Subset.refl _) (List.Subset.refl _) hchain₁ hchain₂)
  exact ⟨hsize, payload_of_entries_eq hrows⟩

/-! ### A small ledger

The digest is the length of the input, an event is printed as its identifier. -/

def lengthDigests : AuditCrates where
  sha256 := fun bytes => Vector.replicate 32 (UInt8.ofNat bytes.length)
  eventJson := fun event => .ok event.eventId
  toRfc3339 := fun t => if t = 0 then "2026-01-01T00:00:00+00:00" else "2026-01-02T00:00:00+00:00"
  upper := fun ch => [ch]

def permissionChecked (eventId : String) : AuditEvent :=
  ⟨1, eventId, "2026-01-01T00:00:00Z", .system, .permissionCheck, .permission "perm-1", .granted,
    .metadata, none, .object [], empty⟩

def twoChecks (now : Instant) : AuditTables :=
  (appendAuditEvent lengthDigests
    (appendAuditEvent lengthDigests .fresh (permissionChecked "event-1") now).2
    (permissionChecked "event-20") now).2

theorem lengthDigests_injOn {a b : AuditTables}
    (h : ∀ x ∈ a.hashed ++ b.hashed, ∀ y ∈ a.hashed ++ b.hashed,
      lengthDigests.sha256 x = lengthDigests.sha256 y → x = y) :
    Set.InjOn lengthDigests.sha256 {bytes | bytes ∈ a.hashed ∨ bytes ∈ b.hashed} :=
  fun x hx y hy => h x (List.mem_append.mpr hx) y (List.mem_append.mpr hy)

/-- Two ledgers that differ in `recorded_at`, a column that the hash does not cover. -/
theorem ledger_head_binds_history_two_rows :
    (twoChecks 0).auditEvents ≠ (twoChecks 1).auditEvents ∧
      (twoChecks 0).auditEvents.size = (twoChecks 1).auditEvents.size ∧
      ∀ s, ((twoChecks 0).auditEvents.get? s).map AuditEventRow.payload =
        ((twoChecks 1).auditEvents.get? s).map AuditEventRow.payload := by
  have hinj := lengthDigests_injOn (a := twoChecks 0) (b := twoChecks 1) (by decide +kernel)
  obtain ⟨row₁, hlast₁⟩ : ∃ row₁, (twoChecks 0).lastRow = some (2, row₁) := ⟨_, rfl⟩
  obtain ⟨row₂, hlast₂⟩ : ∃ row₂, (twoChecks 1).lastRow = some (2, row₂) := ⟨_, rfl⟩
  have hhead : (twoChecks 0).lastRow.map (fun r => r.2.entryHash) =
      (twoChecks 1).lastRow.map (fun r => r.2.entryHash) := by decide +kernel
  rw [hlast₁, hlast₂] at hhead
  exact ⟨by decide +kernel, ledger_head_binds_history lengthDigests _ _ hinj (by decide +kernel)
    (by decide +kernel) 2 row₁ row₂ hlast₁ hlast₂ (Option.some.inj hhead)⟩

end Fornax
