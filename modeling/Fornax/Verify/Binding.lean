import Fornax.Verify.Runner

namespace Fornax.RunnerCommand

variable (t : TextTables)

inductive CommandBinding
  | exact
  | prefixed
  | mentioned
  | notBound
  deriving DecidableEq, Repr

inductive Fit
  | exact
  | close
  | no
  deriving DecidableEq, Repr

def claimCommandParses (literal : Text) : Bool :=
  (shellSegments literal).any fun segments =>
    !segments.isEmpty && segments.all fun s => !(core s).isEmpty

def leadingAssignments (words : Segment) : List Text :=
  (words.take (words.length - (core words).length)).map Word.text

/-- Every assignment the claim names is on the observed command, where a name assigned twice has no
single value. -/
def assignmentsFit (claimSeg observedSeg : Segment) : Bool :=
  let observed := leadingAssignments observedSeg
  let names : List Text := observed.filterMap fun a => (Text.splitOnce '=' a).map (·.1)
  decide names.Nodup && (leadingAssignments claimSeg).all (oneOf observed)

def wordMatches (claimed observed : Word) : Bool :=
  let unquoted := if claimed.quoted then observed else claimed
  decide (claimed.text = observed.text) &&
    (claimed.quoted == observed.quoted ||
      !unquoted.text.any fun c => decide (c ∈ ['*', '?', '[', ']', '~', '\x7b', '\x7d']))

def programFit (claimed observed : Text) : Fit :=
  if claimed = observed then .exact
  else if '/' ∉ claimed ∧ Text.startsWith observed "/" = true ∧ basename observed = claimed then
    .close
  else .no

def compareSegments (claimedSeg observedSeg : Segment) : Fit :=
  if assignmentsFit claimedSeg observedSeg then
    match core claimedSeg, core observedSeg with
    | c :: claimed, o :: observed =>
      if claimed.length = observed.length ∧
          (claimed.zip observed).all (fun p => wordMatches p.1 p.2) = true then
        programFit c.text o.text
      else .no
    | _, _ => .no
  else .no

def comparePrefix (claimedSeg observedSeg : Segment) : Fit :=
  if assignmentsFit claimedSeg observedSeg then
    match core claimedSeg, core observedSeg with
    | c :: claimed, o :: observed =>
      if claimed.length ≤ observed.length ∧
          (claimed.zip observed).all (fun p => wordMatches p.1 p.2) = true then
        match programFit c.text o.text with
        | .no => .no
        | fit => if claimed.length < observed.length then .close else fit
      else .no
    | _, _ => .no
  else .no

/-- Search for a non-empty needle between word boundaries, `before` the character in front of the
rest. A slash ends a word to the left and continues one to the right. -/
def mentionedAfter (needle : Text) (before : Option Char) : Text → Bool
  | [] => false
  | c :: rest =>
    (needle.isPrefixOf (c :: rest) && !before.any isLeftWord &&
      !((c :: rest).drop needle.length).head?.any isWord) ||
    mentionedAfter needle (some c) rest
where
  isLeftWord (c : Char) : Bool := t.isAlphanumeric c || c == '_' || c == '-' || c == '.'
  isWord (c : Char) : Bool := isLeftWord c || c == '/'

def mentionOrNot (claimed evidenceTextLower : Text) : CommandBinding :=
  let needle := t.toLowercase (Text.trim claimed)
  if needle.isEmpty then .notBound
  else if mentionedAfter t needle none evidenceTextLower then .mentioned
  else .notBound

def compareSteps (claim evidence : List Segment) : Fit :=
  if claim.length = evidence.length then
    let fits := (claim.zip evidence).map fun p => compareSegments p.1 p.2
    if fits.all (· == .exact) then .exact
    else if fits.all (· != .no) then .close
    else .no
  else .no

/-- The one command a row ran, silent `cd` steps apart; of a list only a genuine exit status 0 shows
that it ran. -/
def observedRun (evidence : List Segment) (exitZeroReliable : Bool) : Option Segment :=
  match evidence with
  | [only] => some only
  | list =>
    if exitZeroReliable && decide (1 < list.length) then
      match list.filter fun s => !isPlainCd s with
      | [observed] => some observed
      | _ => none
    else none

def bindCommand (claimed : Text) (evidence : Option Json) (evidenceTextLower : Text)
    (exitZeroReliable : Bool) : CommandBinding :=
  match shellSegments claimed with
  | none => .notBound
  | some claimSegments =>
    match commandSegments evidence with
    | none => mentionOrNot t claimed evidenceTextLower
    | some evidenceSegments =>
      match compareSteps claimSegments evidenceSegments with
      | .exact => .exact
      | .close => .prefixed
      | .no =>
        match claimSegments, observedRun evidenceSegments exitZeroReliable with
        | [claim], some observed =>
          match comparePrefix claim observed with
          | .exact => if evidenceSegments.length = 1 then .exact else .prefixed
          | .close => .prefixed
          | .no => mentionOrNot t claimed evidenceTextLower
        | _, _ => mentionOrNot t claimed evidenceTextLower

end Fornax.RunnerCommand
