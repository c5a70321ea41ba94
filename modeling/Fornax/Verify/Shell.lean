import Fornax.Lib.Text

namespace Fornax.RunnerCommand

structure Word where
  text : Text
  -- Any part of the word was quoted or escaped.
  quoted : Bool
  deriving DecidableEq, Repr

abbrev Segment := List Word

structure Lexer where
  segments : List Segment
  words : Segment
  cur : Text
  inWord : Bool
  quoted : Bool
  deriving DecidableEq, Repr

namespace Lexer

def init : Lexer := ⟨[], [], [], false, false⟩

def flush (st : Lexer) : Lexer :=
  if st.inWord then
    { st with words := st.words ++ [⟨st.cur, st.quoted⟩], cur := [], inWord := false,
              quoted := false }
  else st

def push (st : Lexer) (c : Char) : Lexer := { st with cur := st.cur ++ [c], inWord := true }

def quote (st : Lexer) : Lexer := { st with inWord := true, quoted := true }

def loneTwo (st : Lexer) : Bool := st.inWord && !st.quoted && decide (st.cur = "2")

def dropWord (st : Lexer) : Lexer := { st with cur := [], inWord := false }

def closeSegment (st : Lexer) : Option Lexer :=
  if st.flush.words = [] then none
  else some { st.flush with segments := st.flush.segments ++ [st.flush.words], words := [] }

def finish (st : Lexer) : Option (List Segment) :=
  let words := if st.inWord then st.words ++ [⟨st.cur, st.quoted⟩] else st.words
  if words = [] then none else some (st.segments ++ [words])

end Lexer

def isOperator (c : Char) : Bool :=
  decide (c ∈ ['\n', '\r', ';', '&', '|', '<', '>', '(', ')', '\x7b', '\x7d', '$', '\x60'])

/-- After `2>&1` a word boundary must follow. -/
def atBoundary : Text → Bool
  | [] => true
  | c :: _ => c == ' ' || c == '\t'

mutual

def scan (st : Lexer) : Text → Option (List Segment)
  | [] => st.finish
  | c :: rest =>
    if c = ' ' ∨ c = '\t' then scan st.flush rest
    else if c = '>' then
      -- Only `2>&1`, which leaves the exit status alone.
      match rest with
      | '&' :: '1' :: after =>
        if st.loneTwo && atBoundary after then scan st.dropWord after else none
      | _ => none
    else if c = '&' then
      match rest with
      | '&' :: after =>
        match st.closeSegment with
        | some st' => scan st' after
        | none => none
      | _ => none
    else if isOperator c then none
    else if c = '#' ∧ st.inWord = false then none
    else if c = '\\' then
      match rest with
      | next :: after =>
        if next = '\n' ∨ next = '\r' then none else scan (st.quote.push next) after
      | [] => none
    else if c = '\x27' then scanSingle st.quote rest
    else if c = '"' then scanDouble st.quote rest
    else scan (st.push c) rest

def scanSingle (st : Lexer) : Text → Option (List Segment)
  | [] => none
  | c :: rest => if c = '\x27' then scan st rest else scanSingle (st.push c) rest

def scanDouble (st : Lexer) : Text → Option (List Segment)
  | [] => none
  | c :: rest =>
    if c = '"' then scan st rest
    else if c = '$' ∨ c = '\x60' then none
    else if c = '\\' then
      match rest with
      | ch :: after =>
        if ch ∈ ['"', '\\', '$', '\x60'] then scanDouble (st.push ch) after
        else scanDouble ((st.push '\\').push ch) after
      | [] => none
    else scanDouble (st.push c) rest

end

/-- Words are split on space and tab only; a script with any other white space or control character
but line ends is not read. -/
def shellSegments (script : Text) : Option (List Segment) :=
  if script.any fun c =>
      (isWhitespace c || isControl c) && !decide (c ∈ [' ', '\t', '\n', '\r']) then none
  else scan .init script

def basename (program : Text) : Text := Text.afterLast '/' program

/-- A single-dash cluster that contains `c` and lets the shell run the script. -/
def isShellCommandFlag (flag : Text) : Bool :=
  Text.startsWith flag "-" && !Text.startsWith flag "--" && decide ('c' ∈ flag) &&
    flag.tail.all fun c => decide (c ∈ "cleuxvi".toList)

def isShell (program : Text) : Bool :=
  decide (basename program ∈ (["sh", "bash", "zsh", "dash"] : List Text))

/-- Those of the script when the vector is exactly a shell, a command flag and a script; otherwise
the vector is one command. -/
def argvSegments (argv : List Text) : Option (List Segment) :=
  match argv with
  | [] => none
  | program :: args =>
    let direct : List Segment := [argv.map fun t => ⟨t, true⟩]
    if isShell program then
      match args with
      | [] => none
      | flag :: more =>
        if isShellCommandFlag flag then
          match more with
          | [script] => shellSegments script
          | _ => none
        else some direct
    else some direct

def commandSegments : Option Json → Option (List Segment)
  | some (.string script) => shellSegments script
  | some (.array tokens) =>
    match tokens.mapM Json.asStr with
    | some argv => argvSegments (argv.map String.toList)
    | none => none
  | _ => none

end Fornax.RunnerCommand
