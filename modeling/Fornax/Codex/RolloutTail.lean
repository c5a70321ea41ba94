import Fornax.Lib.Lines
import Fornax.Lib.Runs
import Fornax.Lib.Text

namespace Fornax.Codex

open Lines List

structure TailCursor where
  dev : ℕ
  ino : ℕ
  offset : ℕ
  skipping : Bool
  deriving DecidableEq, Repr

structure RolloutFile where
  dev : ℕ
  ino : ℕ
  bytes : Bytes
  deriving DecidableEq

inductive Start
  | beginning
  | fileEnd
  deriving DecidableEq, Repr

structure TailRead where
  lines : List String
  cursor : TailCursor
  skipped : ℕ
  deriving DecidableEq

def newline : UInt8 := 10

def fromUtf8 (raw : Bytes) : Option String := String.fromUTF8? ⟨raw.toArray⟩

def blankLine (s : String) : Bool := (Text.trim s.toList).isEmpty

def lineText (raw : Bytes) : Option String := (fromUtf8 raw).filter fun s => !blankLine s

def resolve (cursor : Option TailCursor) (start : Start) (dev ino len : ℕ) : TailCursor :=
  match cursor with
  | some c =>
    if c.dev = dev ∧ c.ino = ino ∧ c.offset ≤ len then c
    else { dev, ino, offset := 0, skipping := false }
  | none =>
    { dev
      ino
      offset := match start with
        | .beginning => 0
        | .fileEnd => len
      skipping := false }

/-- The position after a line that is being skipped, 0 when none is; nothing when it does not end in
the window. -/
def skipLine (skipping : Bool) (buf : Bytes) : Option ℕ :=
  if skipping then (buf.findIdx? (· == newline)).map (· + 1) else some 0

/-- The loop over the lines that end in the window, from position `pos` on. -/
def collectLines (buf : Bytes) (pos : ℕ) (lines : List String) (skipped : ℕ) :
    ℕ × List String × ℕ :=
  match _hfound : (buf.drop pos).findIdx? (· == newline) with
  | none => (pos, lines, skipped)
  | some rel =>
    let raw := (buf.drop pos).take rel
    match fromUtf8 raw with
    | some s =>
      if blankLine s then collectLines buf (pos + rel + 1) lines skipped
      else collectLines buf (pos + rel + 1) (lines ++ [s]) skipped
    | none => collectLines buf (pos + rel + 1) lines (skipped + 1)
termination_by buf.length - pos
decreasing_by
  all_goals
    have hrel := findIdx?_eq_some_iff_findIdx_eq.mp _hfound
    rw [length_drop] at hrel
    omega

def readNewLines (file : RolloutFile) (cursor : Option TailCursor) (start : Start) (maxLine : ℕ) :
    TailRead :=
  let len := file.bytes.length
  let cur := resolve cursor start file.dev file.ino len
  if len ≤ cur.offset then { lines := [], cursor := cur, skipped := 0 }
  else
    let window := min (len - cur.offset) maxLine
    let buf := (file.bytes.drop cur.offset).take window
    match skipLine cur.skipping buf with
    | none =>
      { lines := [], cursor := { cur with offset := cur.offset + buf.length }, skipped := 0 }
    | some pos =>
      let (pos, lines, skipped) := collectLines buf pos [] 0
      if pos = 0 ∧ maxLine ≤ buf.length then
        { lines
          cursor := { cur with skipping := true, offset := cur.offset + buf.length }
          skipped := skipped + 1 }
      else
        { lines
          cursor := { cur with skipping := false, offset := cur.offset + pos }
          skipped }

def lastLineEnd (buf : Bytes) : ℕ :=
  match buf.reverse.findIdx? (· == newline) with
  | some k => buf.length - k
  | none => 0

def readPrefix (file : RolloutFile) (upto cap : ℕ) : Option (List String × ℕ) :=
  if cap < upto then none
  else
    let buf := file.bytes.take upto
    let consumed := lastLineEnd buf
    some (((buf.take consumed).splitOn newline).filterMap lineText, consumed)

def resumeCursor (file : RolloutFile) (cursor : Option TailCursor) (start : Start) : TailCursor :=
  resolve cursor start file.dev file.ino file.bytes.length

def lastNewlineBefore (file : RolloutFile) (upto : ℕ) : ℕ :=
  let start := upto - 8 * 1024 * 1024
  match lastLineEnd ((file.bytes.drop start).take (upto - start)) with
  | 0 => 0
  | found + 1 => start + (found + 1)

def maxLineBytes : ℕ := 8 * 1024 * 1024

def warmReplayCap : ℕ := 8 * 1024 * 1024

/-- The per-file state: the cursor, and the lines the adapter has replayed silently. -/
structure Tracked where
  cursor : TailCursor
  replayed : List String
  deriving DecidableEq

/-- `createdAfter`: the file was created after the watcher began. -/
def startFor (saved : Option TailCursor) (createdAfter : Bool) : Start :=
  if saved.isSome || createdAfter then .beginning else .fileEnd

/-- Of a prefix too large to replay only the first line is; a file seen for the first time is
resumed on a line boundary, or inside a line to be skipped. -/
def trackWithoutPrefix (file : RolloutFile) (saved : Option TailCursor) (cursor : TailCursor)
    (upto : ℕ) : Tracked :=
  let head := readNewLines file none .beginning maxLineBytes
  let replayed := head.lines.take 1
  match saved with
  | some _ => { cursor, replayed }
  | none =>
    match lastNewlineBefore file upto with
    | 0 => { cursor := { cursor with offset := upto, skipping := true }, replayed }
    | found + 1 => { cursor := { cursor with offset := found + 1 }, replayed }

def startTracking (file : RolloutFile) (saved : Option TailCursor) (createdAfter : Bool) :
    Tracked :=
  let len := file.bytes.length
  let cursor := resumeCursor file saved (startFor saved createdAfter)
  if cursor.offset = 0 then { cursor, replayed := [] }
  else
    let upto := min cursor.offset len
    match readPrefix file upto warmReplayCap with
    | some (lines, consumed) => { cursor := { cursor with offset := consumed }, replayed := lines }
    | none => trackWithoutPrefix file saved cursor upto

structure TailState where
  file : RolloutFile
  cursor : TailCursor

inductive TailStep
  | append (more : Bytes)
  | read (fails : Bool)
  | restart (fails : Bool)

def tailStep (maxLine : ℕ) (s : TailState) : TailStep → TailState
  | .append more => { s with file := { s.file with bytes := s.file.bytes ++ more } }
  | .read true => s
  | .read false =>
    { s with cursor := (readNewLines s.file (some s.cursor) .beginning maxLine).cursor }
  | .restart true => s
  | .restart false => { s with cursor := (startTracking s.file (some s.cursor) false).cursor }

def linesOf (maxLine : ℕ) (s : TailState) : TailStep → List String
  | .read false => (readNewLines s.file (some s.cursor) .beginning maxLine).lines
  | _ => []

def tailRun (maxLine : ℕ) (s : TailState) (ops : List TailStep) : TailState :=
  Runs.run (tailStep maxLine) s ops

def linesOfRun (maxLine : ℕ) (s : TailState) (ops : List TailStep) : List String :=
  Runs.outputs (tailStep maxLine) (linesOf maxLine) s ops

def TailState.fresh (file : RolloutFile) : TailState :=
  { file, cursor := { dev := file.dev, ino := file.ino, offset := 0, skipping := false } }

def keptLine (maxLine : ℕ) (raw : Bytes) : Option String :=
  if raw.length ≤ maxLine - 1 then lineText raw else none

def keptLines (maxLine : ℕ) (bytes : Bytes) : List String :=
  (records newline bytes).filterMap (keptLine maxLine)

theorem keptLines_append (maxLine : ℕ) (before more : Bytes) : keptLines maxLine (before ++ more)
      = keptLines maxLine before ++ keptLines maxLine (unfinished newline before ++ more) := by
  rw [keptLines, records_append, filterMap_append]
  rfl

variable {maxLine : ℕ} {s : TailState}

theorem keptLine_of_le {raw : Bytes} (hmax : 1 ≤ maxLine) (h : maxLine ≤ raw.length) :
    keptLine maxLine raw = none := by
  have hlong : ¬ raw.length ≤ maxLine - 1 := by omega
  rw [keptLine, if_neg hlong]

theorem keptLines_of_length_le {bytes : Bytes} (h : bytes.length ≤ maxLine) :
    keptLines maxLine bytes = (records newline bytes).filterMap lineText := by
  refine filterMap_congr fun raw hraw => ?_
  have hlt := length_lt_of_mem_records hraw
  have hfits : raw.length ≤ maxLine - 1 := by omega
  rw [keptLine, if_pos hfits]

theorem lineText_eq (raw : Bytes) : lineText raw = match fromUtf8 raw with
      | some s => if blankLine s then none else some s
      | none => none := by
  unfold lineText
  cases fromUtf8 raw with
  | none => rfl
  | some s => cases hblank : blankLine s <;> simp [Option.filter, hblank]

theorem collectLines_eq (buf : Bytes) (pos : ℕ) (lines : List String) (skipped : ℕ) :
    collectLines buf pos lines skipped = (pos + endedLength newline (buf.drop pos),
        lines ++ (records newline (buf.drop pos)).filterMap lineText,
        skipped + (records newline (buf.drop pos)).countP fun raw => (fromUtf8 raw).isNone) := by
  generalize hl : buf.drop pos = l
  induction l using recordInduction newline generalizing pos lines skipped with
  | hfree l hfree =>
    rw [collectLines, hl]
    split
    · simp [endedLength_of_notMem hfree, records_of_notMem hfree]
    · rename_i rel hrel
      rw [findIdx?_of_notMem hfree] at hrel
      cases hrel
  | hended a b ha ih =>
    have hnext : buf.drop (pos + a.length + 1) = b := by
      rw [Nat.add_assoc, ← drop_drop, hl, ← drop_drop, drop_left]
      rfl
    rw [collectLines, hl]
    split
    · rename_i hnone
      rw [findIdx?_append_sep ha] at hnone
      cases hnone
    · rename_i rel hrel
      rw [findIdx?_append_sep ha, Option.some.injEq] at hrel
      subst hrel
      have hpos : pos + a.length + 1 + endedLength newline b
          = pos + endedLength newline (a ++ newline :: b) := by
        rw [endedLength_append_sep ha]
        omega
      rw [take_left, records_append_sep ha, ← hpos, filterMap_cons, countP_cons, lineText_eq]
      dsimp only
      cases hutf : fromUtf8 a with
      | none =>
        refine (ih _ lines (skipped + 1) hnext).trans (Prod.ext rfl (Prod.ext rfl ?_))
        simp only [Option.isNone_none, if_true]
        omega
      | some s =>
        dsimp only
        cases hblank : blankLine s with
        | true => exact ih _ lines skipped hnext
        | false =>
          refine (ih _ (lines ++ [s]) skipped hnext).trans (Prod.ext rfl (Prod.ext ?_ rfl))
          simp

/-- Where a call stands: the cursor is of this file and inside it; between lines
it is right after a line end, and while a line is skipped that line is too long. -/
structure Placed (maxLine : ℕ) (s : TailState) : Prop where
  sameDev : s.cursor.dev = s.file.dev
  sameIno : s.cursor.ino = s.file.ino
  inFile : s.cursor.offset ≤ s.file.bytes.length
  between : s.cursor.skipping = false → unfinished newline (s.file.bytes.take s.cursor.offset) = []
  oversized : s.cursor.skipping = true →
    maxLine ≤ ((unfinished newline (s.file.bytes.take s.cursor.offset) ++
      s.file.bytes.drop s.cursor.offset).takeWhile (· != newline)).length

theorem Placed.resolve_eq (h : Placed maxLine s) (start : Start) :
    resolve (some s.cursor) start s.file.dev s.file.ino s.file.bytes.length = s.cursor := by
  simp [resolve, h.sameDev, h.sameIno, h.inFile]

def window (maxLine : ℕ) (s : TailState) : Bytes :=
  (s.file.bytes.drop s.cursor.offset).take (min (s.file.bytes.length - s.cursor.offset) maxLine)

theorem window_length (maxLine : ℕ) (s : TailState) :
    (window maxLine s).length = min (s.file.bytes.length - s.cursor.offset) maxLine := by
  rw [window, length_take, length_drop]
  omega

theorem take_window {k : ℕ} (hk : k ≤ (window maxLine s).length) :
    s.file.bytes.take (s.cursor.offset + k)
      = s.file.bytes.take s.cursor.offset ++ (window maxLine s).take k := by
  rw [window_length] at hk
  rw [take_add, window, take_take, min_eq_left hk]

/-- A call that finds nothing new, stays in a skipped line, meets a line which fills the window, or
reads lines. -/
inductive CallResult (maxLine : ℕ) (s : TailState) : List String → TailCursor → Prop
  | nothing (h : s.cursor.offset = s.file.bytes.length) : CallResult maxLine s [] s.cursor
  | stillSkipping (hskip : s.cursor.skipping = true) (h : newline ∉ window maxLine s)
      (hin : s.cursor.offset < s.file.bytes.length) :
      CallResult maxLine s []
        { s.cursor with
          skipping := true
          offset := s.cursor.offset + (window maxLine s).length }
  | tooLong (hskip : s.cursor.skipping = false) (h : newline ∉ window maxLine s)
      (hfull : (window maxLine s).length = maxLine) :
      CallResult maxLine s []
        { s.cursor with
          skipping := true
          offset := s.cursor.offset + (window maxLine s).length }
  | skipped (hskip : s.cursor.skipping = true) (rest lines : Bytes) (hrest : newline ∉ rest)
      (h : window maxLine s = rest ++ newline :: lines) :
      CallResult maxLine s ((records newline lines).filterMap lineText)
        { s.cursor with
          skipping := false
          offset := s.cursor.offset + (rest.length + 1 + endedLength newline lines) }
  | lines (hskip : s.cursor.skipping = false)
      (h : newline ∉ window maxLine s → (window maxLine s).length < maxLine) :
      CallResult maxLine s ((records newline (window maxLine s)).filterMap lineText)
        { s.cursor with
          skipping := false
          offset := s.cursor.offset + endedLength newline (window maxLine s) }

theorem readNewLines_result (h : Placed maxLine s) :
    CallResult maxLine s (readNewLines s.file (some s.cursor) .beginning maxLine).lines
      (readNewLines s.file (some s.cursor) .beginning maxLine).cursor := by
  have hin := h.inFile
  have hwindow : (s.file.bytes.drop s.cursor.offset).take
      (min (s.file.bytes.length - s.cursor.offset) maxLine) = window maxLine s := rfl
  unfold readNewLines
  simp only [h.resolve_eq, hwindow]
  by_cases hend : s.file.bytes.length ≤ s.cursor.offset
  · simp only [if_pos hend]
    exact .nothing (by omega)
  · simp only [if_neg hend]
    cases hskip : s.cursor.skipping with
    | true =>
      by_cases hmem : newline ∈ window maxLine s
      · obtain ⟨rest, lines, hsplit, hrest⟩ := eq_append_cons_of_mem hmem
        have hpos : skipLine true (window maxLine s) = some (rest.length + 1) := by
          rw [skipLine, if_pos rfl, hsplit, findIdx?_append_sep hrest, Option.map_some]
        have hdrop : (window maxLine s).drop (rest.length + 1) = lines := by
          rw [hsplit, ← drop_drop, drop_left]
          rfl
        have hmoved : ¬ (rest.length + 1 + endedLength newline lines = 0 ∧
            maxLine ≤ (window maxLine s).length) := by omega
        simp only [hpos, collectLines_eq, hdrop, if_neg hmoved, nil_append]
        exact .skipped hskip rest lines hrest hsplit
      · have hpos : skipLine true (window maxLine s) = none := by
          rw [skipLine, if_pos rfl, findIdx?_of_notMem hmem, Option.map_none]
        simp only [hpos]
        exact .stillSkipping hskip hmem (by omega)
    | false =>
      have hpos : skipLine false (window maxLine s) = some 0 := rfl
      simp only [hpos, collectLines_eq, drop_zero, Nat.zero_add, nil_append]
      by_cases hfull : endedLength newline (window maxLine s) = 0 ∧
          maxLine ≤ (window maxLine s).length
      · have hfree := notMem_of_endedLength_eq_zero hfull.1
        have hlength : (window maxLine s).length = maxLine := by
          have := window_length maxLine s
          omega
        simp only [if_pos hfull, records_of_notMem hfree, filterMap_nil]
        exact .tooLong hskip hfree hlength
      · simp only [if_neg hfull]
        refine .lines hskip fun hfree => ?_
        have := endedLength_of_notMem hfree
        omega

/-- The cursor is placed again, and the returned lines are those to be handed on between the two
cursors. -/
structure Advanced (maxLine : ℕ) (s : TailState) (lines : List String) (cursor : TailCursor) :
    Prop where
  placed : Placed maxLine { s with cursor }
  delivered : keptLines maxLine (s.file.bytes.take cursor.offset)
    = keptLines maxLine (s.file.bytes.take s.cursor.offset) ++ lines

theorem drop_offset (maxLine : ℕ) (s : TailState) :
    s.file.bytes.drop s.cursor.offset = window maxLine s ++
      s.file.bytes.drop (s.cursor.offset + (window maxLine s).length) := by
  rw [← drop_drop, window_length]
  conv_lhs => rw [← take_append_drop (min (s.file.bytes.length - s.cursor.offset) maxLine)
    (s.file.bytes.drop s.cursor.offset)]
  rfl

theorem offset_add_window_le (h : Placed maxLine s) :
    s.cursor.offset + (window maxLine s).length ≤ s.file.bytes.length := by
  have hin := h.inFile
  rw [window_length]
  omega

theorem takeWhile_ne_of_notMem {bytes : Bytes} (h : newline ∉ bytes) (more : Bytes) :
    (bytes ++ more).takeWhile (· != newline) = bytes ++ more.takeWhile (· != newline) := by
  refine takeWhile_append_of_pos fun c hc => ?_
  rw [bne_iff_ne]
  exact ne_of_mem_of_not_mem hc h

theorem notMem_unfinished_append (before : Bytes) {bytes : Bytes} (h : newline ∉ bytes) :
    newline ∉ unfinished newline before ++ bytes := by
  rw [mem_append, not_or]
  exact ⟨notMem_unfinished _, h⟩

theorem advanced_of_notMem (h : Placed maxLine s) (hfree : newline ∉ window maxLine s)
    (hlong : maxLine ≤ ((unfinished newline (s.file.bytes.take s.cursor.offset) ++
      s.file.bytes.drop s.cursor.offset).takeWhile (· != newline)).length) : Advanced maxLine s []
      { s.cursor with
        skipping := true
        offset := s.cursor.offset + (window maxLine s).length } := by
  have htake : s.file.bytes.take (s.cursor.offset + (window maxLine s).length)
      = s.file.bytes.take s.cursor.offset ++ window maxLine s := by
    rw [take_window le_rfl, take_length]
  have hopen := notMem_unfinished_append (s.file.bytes.take s.cursor.offset) hfree
  refine ⟨⟨h.sameDev, h.sameIno, offset_add_window_le h, nofun, fun _ => ?_⟩, ?_⟩
  · simp only [htake]
    rw [unfinished_append, unfinished_of_notMem hopen, append_assoc, ← drop_offset]
    exact hlong
  · simp only [htake]
    rw [keptLines_append]
    congr 1
    rw [keptLines, records_of_notMem hopen, filterMap_nil]

theorem advanced_between (h : Placed maxLine s) {k : ℕ} (hk : k ≤ (window maxLine s).length)
    {lines : List String}
    (hclean : unfinished newline (unfinished newline (s.file.bytes.take s.cursor.offset) ++
      (window maxLine s).take k) = [])
    (hlines : keptLines maxLine (unfinished newline (s.file.bytes.take s.cursor.offset) ++
      (window maxLine s).take k) = lines) :
    Advanced maxLine s lines
      { s.cursor with
        skipping := false
        offset := s.cursor.offset + k } := by
  have hbound := offset_add_window_le h
  refine ⟨⟨h.sameDev, h.sameIno, by dsimp only; omega, fun _ => ?_, nofun⟩, ?_⟩
  · simp only [take_window hk]
    rw [unfinished_append, hclean]
  · simp only [take_window hk]
    rw [keptLines_append, hlines]

theorem advanced_of_result (hmax : 1 ≤ maxLine) (h : Placed maxLine s) {lines : List String}
    {cursor : TailCursor} (hr : CallResult maxLine s lines cursor) :
    Advanced maxLine s lines cursor := by
  have hlength := window_length maxLine s
  cases hr with
  | nothing hend => exact ⟨h, (append_nil _).symm⟩
  | stillSkipping hskip hfree => exact advanced_of_notMem h hfree (h.oversized hskip)
  | tooLong hskip hfree hfull =>
    refine advanced_of_notMem h hfree ?_
    rw [h.between hskip, nil_append, drop_offset maxLine s, takeWhile_ne_of_notMem hfree,
      length_append]
    omega
  | skipped hskip rest lines hrest hwindow =>
    obtain ⟨hrecords, hclean, -⟩ := take_endedLength newline lines
    have hle := endedLength_le newline lines
    have hwhole := congrArg length hwindow
    rw [length_append, length_cons] at hwhole
    have hfit : lines.length ≤ maxLine := by omega
    have hended : (window maxLine s).take (rest.length + 1 + endedLength newline lines)
        = rest ++ newline :: lines.take (endedLength newline lines) := by
      rw [hwindow, Nat.add_assoc, take_length_add_append, Nat.add_comm 1, take_succ_cons]
    have hopen := notMem_unfinished_append (s.file.bytes.take s.cursor.offset) hrest
    -- the skipped line ends in this window, after at least a whole window of bytes
    have hlong := h.oversized hskip
    rw [drop_offset maxLine s, hwindow, append_assoc, cons_append,
      ← append_assoc, takeWhile_ne_of_notMem hopen, takeWhile_cons_of_neg (by simp),
      append_nil] at hlong
    refine advanced_between h (by omega) ?_ ?_
    · rw [hended, ← append_assoc, unfinished_append_sep hopen, hclean]
    · rw [hended, ← append_assoc, keptLines, records_append_sep hopen, hrecords, filterMap_cons,
        keptLine_of_le hmax hlong, ← keptLines_of_length_le hfit]
      rfl
  | lines hskip hshort =>
    obtain ⟨hrecords, hclean, -⟩ := take_endedLength newline (window maxLine s)
    have hfit : (window maxLine s).length ≤ maxLine := by omega
    refine advanced_between h (endedLength_le newline _) ?_ ?_
    · rw [h.between hskip, nil_append, hclean]
    · rw [h.between hskip, nil_append, keptLines, hrecords, ← keptLines_of_length_le hfit]
      rfl

theorem notMem_of_unmoved (hmax : 1 ≤ maxLine) {lines : List String} {cursor : TailCursor}
    (hr : CallResult maxLine s lines cursor) (hsame : cursor = s.cursor) :
    newline ∉ s.file.bytes.drop s.cursor.offset := by
  have hlength := window_length maxLine s
  have hoffset := congrArg TailCursor.offset hsame
  cases hr with
  | nothing hend =>
    rw [hend, drop_length]
    exact not_mem_nil
  | stillSkipping hskip hfree hin =>
    dsimp only at hoffset
    omega
  | tooLong hskip hfree hfull =>
    dsimp only at hoffset
    omega
  | skipped hskip rest lines hrest hwindow =>
    dsimp only at hoffset
    omega
  | lines hskip hshort =>
    dsimp only at hoffset
    have hfree : newline ∉ window maxLine s := notMem_of_endedLength_eq_zero (by omega)
    -- the window is not full, so it reaches the end of the file
    have hshort := hshort hfree
    have hrest : s.file.bytes.drop (s.cursor.offset + (window maxLine s).length) = [] := by
      rw [drop_eq_nil_iff]
      omega
    rwa [drop_offset maxLine s, hrest, append_nil]

theorem lastLineEnd_eq (buf : Bytes) : lastLineEnd buf = endedLength newline buf := by
  obtain ⟨ended, hsplit, -, hopen, hlast⟩ := exists_ended newline buf
  have hfree : newline ∉ (unfinished newline buf).reverse := by
    rw [mem_reverse]
    exact notMem_unfinished buf
  rcases hlast with rfl | ⟨most, rfl⟩
  · rw [nil_append] at hsplit
    have hnone : newline ∉ buf := hsplit ▸ notMem_unfinished buf
    have hnoneRev : newline ∉ buf.reverse := by rwa [mem_reverse]
    rw [lastLineEnd, findIdx?_of_notMem hnoneRev, endedLength_of_notMem hnone]
  · have hrev : buf.reverse = (unfinished newline buf).reverse ++ newline :: most.reverse := by
      conv_lhs => rw [hsplit]
      simp
    rw [lastLineEnd, hrev, findIdx?_append_sep hfree, endedLength, length_reverse]

theorem startTracking_cursor (h : Placed maxLine s) :
    (startTracking s.file (some s.cursor) false).cursor = s.cursor ∨
      (startTracking s.file (some s.cursor) false).cursor =
        { s.cursor with offset := endedLength newline (s.file.bytes.take s.cursor.offset) } := by
  unfold startTracking resumeCursor
  simp only [h.resolve_eq, min_eq_left h.inFile]
  by_cases hstart : s.cursor.offset = 0
  · rw [if_pos hstart]
    exact .inl rfl
  · rw [if_neg hstart, readPrefix]
    by_cases hcap : warmReplayCap < s.cursor.offset
    · rw [if_pos hcap]
      exact .inl rfl
    · rw [if_neg hcap]
      dsimp only
      rw [lastLineEnd_eq]
      exact .inr rfl

theorem advanced_restart (h : Placed maxLine s) :
    Advanced maxLine s [] (startTracking s.file (some s.cursor) false).cursor := by
  rcases startTracking_cursor h with hsame | hback
  · rw [hsame]
    exact ⟨h, (append_nil _).symm⟩
  · rw [hback]
    have htail := take_endedLength newline (s.file.bytes.take s.cursor.offset)
    have hle := endedLength_le newline (s.file.bytes.take s.cursor.offset)
    have hin := h.inFile
    rw [length_take, min_eq_left hin] at hle
    have htake : s.file.bytes.take (endedLength newline (s.file.bytes.take s.cursor.offset))
        = (s.file.bytes.take s.cursor.offset).take
          (endedLength newline (s.file.bytes.take s.cursor.offset)) := by
      rw [take_take, min_eq_left hle]
    refine ⟨⟨h.sameDev, h.sameIno, by dsimp only; omega, fun _ => ?_, fun hskip => ?_⟩, ?_⟩
    · simp only [htake]
      exact htail.2.1
    · -- the line that is being skipped is still in front of the cursor
      have hover := h.oversized hskip
      have hline : s.file.bytes.drop (endedLength newline (s.file.bytes.take s.cursor.offset))
          = unfinished newline (s.file.bytes.take s.cursor.offset) ++
            s.file.bytes.drop s.cursor.offset := by
        rw [← append_right_inj ((s.file.bytes.take s.cursor.offset).take
          (endedLength newline (s.file.bytes.take s.cursor.offset)))]
        rw [← append_assoc, ← htail.2.2, take_append_drop, ← htake, take_append_drop]
      simp only [htake]
      rwa [htail.2.1, nil_append, hline]
    · simp only [htake, keptLines, htail.1, append_nil]

structure UpToDate (maxLine : ℕ) (s : TailState) (done : List String) : Prop where
  placed : Placed maxLine s
  delivered : done = keptLines maxLine (s.file.bytes.take s.cursor.offset)

theorem upToDate_fresh (maxLine : ℕ) (file : RolloutFile) :
    UpToDate maxLine (TailState.fresh file) [] :=
  ⟨⟨rfl, rfl, Nat.zero_le _, fun _ => rfl, nofun⟩, rfl⟩

theorem UpToDate.append {done : List String} (h : UpToDate maxLine s done) (more : Bytes) :
    UpToDate maxLine { s with file := { s.file with bytes := s.file.bytes ++ more } } done := by
  have hin := h.placed.inFile
  have htake : (s.file.bytes ++ more).take s.cursor.offset = s.file.bytes.take s.cursor.offset :=
    take_append_of_le_length hin
  refine ⟨⟨h.placed.sameDev, h.placed.sameIno, ?_, ?_, fun hskip => ?_⟩, ?_⟩
  · dsimp only
    rw [length_append]
    omega
  · simp only [htake]
    exact h.placed.between
  · have hover := h.placed.oversized hskip
    simp only [htake]
    rw [drop_append_of_le_length hin, ← append_assoc, takeWhile_append]
    split
    · rename_i hall
      rw [length_append]
      omega
    · exact hover
  · simp only [htake]
    exact h.delivered

theorem UpToDate.step (hmax : 1 ≤ maxLine) (s : TailState) (op : TailStep) (done : List String)
    (h : UpToDate maxLine s done) :
    UpToDate maxLine (tailStep maxLine s op) (done ++ linesOf maxLine s op) := by
  cases op with
  | append more => simpa [tailStep, linesOf] using h.append more
  | read fails =>
    cases fails with
    | true => simpa [tailStep, linesOf] using h
    | false =>
      have hadvanced := advanced_of_result hmax h.placed (readNewLines_result h.placed)
      refine ⟨hadvanced.placed, ?_⟩
      rw [h.delivered]
      exact hadvanced.delivered.symm
  | restart fails =>
    cases fails with
    | true => simpa [tailStep, linesOf] using h
    | false =>
      have hadvanced := advanced_restart h.placed
      refine ⟨hadvanced.placed, ?_⟩
      rw [h.delivered]
      exact hadvanced.delivered.symm

/-- Over every interleaving of appends, calls and restarts, the lines returned so
far are exactly the lines to be handed on before the cursor, each once and in
order; and where a call does not move the cursor, no complete line follows it. -/
theorem tail_returns_every_line_once {maxLine : ℕ} (hmax : 1 ≤ maxLine) (file : RolloutFile)
    (ops : List TailStep) :
    linesOfRun maxLine (.fresh file) ops
        = keptLines maxLine ((tailRun maxLine (.fresh file) ops).file.bytes.take
            (tailRun maxLine (.fresh file) ops).cursor.offset) ∧
      ((readNewLines (tailRun maxLine (.fresh file) ops).file
          (some (tailRun maxLine (.fresh file) ops).cursor) .beginning maxLine).cursor
          = (tailRun maxLine (.fresh file) ops).cursor →
        newline ∉ (tailRun maxLine (.fresh file) ops).file.bytes.drop
          (tailRun maxLine (.fresh file) ops).cursor.offset) := by
  have hdone : UpToDate maxLine (tailRun maxLine (.fresh file) ops)
      (linesOfRun maxLine (.fresh file) ops) :=
    Runs.outputs_invariant (upToDate_fresh maxLine file)
      (fun s op done h => UpToDate.step hmax s op done h) ops
  exact ⟨hdone.delivered, notMem_of_unmoved hmax (readNewLines_result hdone.placed)⟩

def longThenShort : RolloutFile := { dev := 1, ino := 2, bytes := asciiBytes "abcdef\nok\n" }

def longThenShortRun : List TailStep :=
  [.read false, .restart false, .append (asciiBytes "more\n"), .read false, .read false, .read true,
    .read false]

theorem tail_returns_every_line_once_longThenShort :
    linesOfRun 4 (.fresh longThenShort) longThenShortRun = ["ok"] ∧
      linesOfRun 4 (.fresh longThenShort) longThenShortRun
        = keptLines 4 ((tailRun 4 (.fresh longThenShort) longThenShortRun).file.bytes.take
            (tailRun 4 (.fresh longThenShort) longThenShortRun).cursor.offset) :=
  ⟨by decide +kernel, (tail_returns_every_line_once (by decide) longThenShort longThenShortRun).1⟩

end Fornax.Codex
