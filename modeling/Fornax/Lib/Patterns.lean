import Fornax.Lib.Text

namespace Fornax.Text

open List

def stripPrefix (p s : Text) : Option Text := p.isPrefixOf? s

variable {rest : Text} {p : Char → Bool}

theorem stripPrefix_eq_some {p s : Text} : stripPrefix p s = some rest ↔ p ++ rest = s :=
  isPrefixOf?_eq_some_iff_append_eq

theorem startsWith_cons (c d : Char) (s : Text) : startsWith (d :: s) [c] = (c == d) := by
  simp [startsWith, isPrefixOf]

def stripSuffix (p s : Text) : Option Text := (stripPrefix p.reverse s.reverse).map reverse

def trimMatches (p : Char → Bool) (s : Text) : Text :=
  ((s.dropWhile p).reverse.dropWhile p).reverse

def splitOnceStr (sep : Text) : Text → Option (Text × Text)
  | [] => (stripPrefix sep []).map fun rest => ([], rest)
  | c :: s =>
    match stripPrefix sep (c :: s) with
    | some rest => some ([], rest)
    | none => (splitOnceStr sep s).map fun parts => (c :: parts.1, parts.2)

def rsplitOnceStr (sep s : Text) : Option (Text × Text) :=
  (splitOnceStr sep.reverse s.reverse).map fun parts => (parts.2.reverse, parts.1.reverse)

/-- The pieces of what remains: `skip` characters of a separator are still to be passed over,
`piece` is the current one in reverse. -/
def splitStrFrom (sep : Text) : ℕ → Text → Text → List Text
  | _, piece, [] => [piece.reverse]
  | skip + 1, piece, _ :: rest => splitStrFrom sep skip piece rest
  | 0, piece, c :: rest =>
    if startsWith (c :: rest) sep then
      piece.reverse :: splitStrFrom sep (sep.length - 1) [] rest
    else splitStrFrom sep 0 (c :: piece) rest

def splitStr (sep s : Text) : List Text := splitStrFrom sep 0 [] s

theorem dropWhile_append_of_all {blank : Text} (hblank : ∀ c ∈ blank, p c)
    (hrest : ∀ c ∈ rest.head?, p c = false) : (blank ++ rest).dropWhile p = rest := by
  induction blank with
  | nil =>
    cases rest with
    | nil => rfl
    | cons c rest => exact dropWhile_cons_of_neg (by simp [hrest c rfl])
  | cons b blank ih =>
    rw [cons_append, dropWhile_cons_of_pos (hblank b (by simp))]
    exact ih fun c hc => hblank c (mem_cons_of_mem b hc)

theorem takeWhile_append_of_all {word : Text} (hword : ∀ c ∈ word, p c)
    (hrest : ∀ c ∈ rest.head?, p c = false) : (word ++ rest).takeWhile p = word := by
  rw [takeWhile_append_of_pos hword]
  cases rest with
  | nil => simp
  | cons c rest => rw [takeWhile_cons_of_neg (by simp [hrest c rfl]), append_nil]

theorem head_dropWhile {s : Text} : ∀ c ∈ (s.dropWhile p).head?, p c = false := by
  intro c hc
  have hhead := head?_dropWhile_not p s
  rw [Option.mem_def] at hc
  rw [hc] at hhead
  exact hhead

end Fornax.Text
