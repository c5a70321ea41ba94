import Fornax.Lib.Patterns
import Fornax.Verify.Attestation

namespace Fornax.Claude

open List RunnerCommand

inductive VcsOutcome
  | created
  | nothingToCommit
  | refUpdated
  | upToDate
  | rejected
  deriving DecidableEq, Repr

def isAsciiHexdigit (c : Char) : Bool := decide (c ∈ "0123456789abcdefABCDEF".toList)

def looksShaShaped (s : Text) : Bool :=
  7 ≤ Text.utf8Len s && Text.utf8Len s ≤ 40 && s.all isAsciiHexdigit

def commitSummary (line : Text) : Option (Text × Option Text) := do
  let rest ← Text.stripPrefix ['['] (Text.trim line)
  let (inner, _) ← Text.splitOnce ']' rest
  let tokens := Text.splitWhitespace inner
  let last ← tokens.getLast?
  let branch := [' '].intercalate tokens.dropLast
  if looksShaShaped last then some (last, if branch.isEmpty then none else some branch) else none

def namesNoCommit (t : TextTables) (text : Text) : Bool :=
  Text.contains (t.toLowercase text) "nothing to commit" ||
    Text.contains (t.toLowercase text) "no changes added to commit"

def parseCommit (t : TextTables) (text : Text) :
    Option (VcsOutcome × Option Text × Option Text) :=
  if namesNoCommit t text then some (.nothingToCommit, none, none)
  else ((Text.lines text).findSome? commitSummary).map fun s => (.created, some s.1, s.2)

def IsWord (w : Text) : Prop := w ≠ [] ∧ ∀ c ∈ w, isWhitespace c = false ∧ c ≠ ']'

structure CommitSha (sha : Text) : Prop where
  digits : ∀ c ∈ sha, isAsciiHexdigit c
  min : 7 ≤ sha.length
  max : sha.length ≤ 40

def summaryLine (words : List Text) (sha message : Text) : Text :=
  '[' :: ([' '].intercalate (words ++ [sha]) ++ ']' :: ' ' :: message)

theorem hexdigit_facts {c : Char} (h : isAsciiHexdigit c) :
    (isWhitespace c = false ∧ c ≠ ']') ∧ c.utf8Size = 1 := by
  have hall : ("0123456789abcdefABCDEF".toList.all fun c =>
      !isWhitespace c && c != ']' && c.utf8Size == 1) = true := by decide +kernel
  simpa using all_eq_true.mp hall c (of_decide_eq_true h)

theorem CommitSha.looksShaShaped {sha : Text} (h : CommitSha sha) : looksShaShaped sha := by
  have hone : sha.map Char.utf8Size = sha.map fun _ => 1 :=
    map_congr_left fun c hc => (hexdigit_facts (h.digits c hc)).2
  have hlen : Text.utf8Len sha = sha.length := by
    rw [Text.utf8Len, hone]
    simp
  simpa [Claude.looksShaShaped, hlen, h.min, h.max] using h.digits

theorem CommitSha.isWord {sha : Text} (h : CommitSha sha) : IsWord sha := by
  refine ⟨?_, fun c hc => (hexdigit_facts (h.digits c hc)).1⟩
  rintro rfl
  exact absurd h.min (by decide)

theorem intercalate_words {words : List Text} (hne : words ≠ []) (hwords : ∀ w ∈ words, IsWord w) :
    Text.splitWhitespace ([' '].intercalate words) = words ∧
      ∀ c ∈ [' '].intercalate words, (c != ']') = true := by
  have hsplit : ([' '].intercalate words).splitOnP isWhitespace = words ∧
      ∀ c ∈ [' '].intercalate words, (c != ']') = true := by
    induction words with
    | nil => exact absurd rfl hne
    | cons w words ih =>
      obtain ⟨⟨-, hw⟩, hrest⟩ := forall_mem_cons.mp hwords
      have hblank : ∀ c ∈ w, isWhitespace c = false := fun c hc => (hw c hc).1
      have hopen : ∀ c ∈ w, (c != ']') = true := fun c hc => bne_iff_ne.mpr (hw c hc).2
      cases words with
      | nil =>
        rw [intercalate_singleton, splitOnP_eq_singleton hblank]
        exact ⟨rfl, hopen⟩
      | cons v words =>
        obtain ⟨htokens, hclosed⟩ := ih (cons_ne_nil _ _) hrest
        rw [intercalate_cons_cons, append_assoc, singleton_append,
          splitOnP_append_cons _ _ (by decide), splitOnP_eq_singleton hblank, htokens]
        exact ⟨rfl, forall_mem_append.mpr ⟨hopen, forall_mem_cons.mpr ⟨by decide, hclosed⟩⟩⟩
  refine ⟨?_, hsplit.2⟩
  rw [Text.splitWhitespace, hsplit.1, filter_eq_self]
  intro w hw
  simpa using (hwords w hw).1

theorem trim_bracketed (x m : Text) :
    ∃ m', Text.trim ('[' :: (x ++ ']' :: m)) = '[' :: (x ++ ']' :: m') := by
  have hstart : Text.trimStart ('[' :: (x ++ ']' :: m)) = '[' :: (x ++ ']' :: m) :=
    dropWhile_cons_of_neg (by decide)
  have hend : Text.trimStart (m.reverse ++ ']' :: (x.reverse ++ ['['])) =
      Text.trimStart m.reverse ++ ']' :: (x.reverse ++ ['[']) := by
    rw [Text.trimStart, dropWhile_append, dropWhile_cons_of_neg (by decide), Text.trimStart]
    split
    · rename_i hblank
      rw [isEmpty_iff.mp hblank, nil_append]
    · rfl
  refine ⟨(Text.trimStart m.reverse).reverse, ?_⟩
  rw [Text.trim, hstart]
  simp only [reverse_cons, reverse_append, append_assoc, hend, reverse_reverse, reverse_nil,
    nil_append, cons_append]

section Recorded

variable {words : List Text} {sha : Text}

theorem commitSummary_summaryLine (hne : words ≠ []) (hwords : ∀ w ∈ words, IsWord w)
    (hsha : CommitSha sha) (message : Text) :
    commitSummary (summaryLine words sha message) = some (sha, some ([' '].intercalate words)) := by
  have htokens : ∀ w ∈ words ++ [sha], IsWord w :=
    forall_mem_append.mpr ⟨hwords, forall_mem_singleton.mpr hsha.isWord⟩
  obtain ⟨hsplit, hclosed⟩ := intercalate_words (by simp) htokens
  obtain ⟨m, hm⟩ := trim_bracketed ([' '].intercalate (words ++ [sha])) (' ' :: message)
  have hcut : Text.splitOnce ']' ([' '].intercalate (words ++ [sha]) ++ ']' :: m) =
      some ([' '].intercalate (words ++ [sha]), m) := by
    rw [Text.splitOnce, if_pos (by simp), takeWhile_append_of_pos hclosed,
      dropWhile_append_of_pos hclosed]
    simp
  have hbranch : [' '].intercalate words ≠ [] := by
    intro hnil
    have hnone := (intercalate_words hne hwords).1
    rw [hnil] at hnone
    exact hne hnone.symm
  simp [commitSummary, summaryLine, hm, Text.stripPrefix, isPrefixOf?, hcut, hsplit,
    hsha.looksShaShaped, hbranch]

/-- A summary line is recorded exactly when no phrase of a failed commit stands anywhere in the
output and no earlier line gives another summary. -/
theorem commit_recorded_iff (t : TextTables) (text : Text) (before after words : List Text)
    (sha message : Text) (hne : words ≠ []) (hwords : ∀ w ∈ words, IsWord w) (hsha : CommitSha sha)
    (hlines : Text.lines text = before ++ summaryLine words sha message :: after) :
    parseCommit t text = some (.created, some sha, some ([' '].intercalate words)) ↔
      namesNoCommit t text = false ∧ ∀ s, before.findSome? commitSummary = some s →
        s = (sha, some ([' '].intercalate words)) := by
  rw [parseCommit, hlines, findSome?_append, findSome?_cons,
    commitSummary_summaryLine hne hwords hsha]
  cases namesNoCommit t text with
  | true => simp
  | false =>
    cases before.findSome? commitSummary with
    | none => simp
    | some s => simp [Prod.ext_iff]

end Recorded

theorem commit_recorded_iff_hook :
    parseCommit asciiTables "checks passed\n[detached HEAD 0e2fbd4] Fix it\n 1 file changed\n" =
      some (.created, some "0e2fbd4".toList, some "detached HEAD".toList) :=
  (commit_recorded_iff asciiTables _ ["checks passed".toList] [" 1 file changed".toList]
    ["detached".toList, "HEAD".toList] "0e2fbd4" "Fix it" (by simp)
    (by simp [IsWord, isWhitespace]) ⟨by simp [isAsciiHexdigit], by decide, by decide⟩
    (by decide +kernel)).mpr ⟨by decide +kernel, nofun⟩

/-- The commit was made; its message names the notice of a commit that was not. -/
theorem commit_message_read_as_failure :
    Text.lines "[main 0e2fbd4] Explain the nothing to commit notice" =
      [summaryLine ["main".toList] "0e2fbd4" "Explain the nothing to commit notice"] ∧
    parseCommit asciiTables "[main 0e2fbd4] Explain the nothing to commit notice" =
      some (.nothingToCommit, none, none) := by
  decide +kernel

end Fornax.Claude
