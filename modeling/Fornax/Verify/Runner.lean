import Fornax.Verify.Shell

namespace Fornax.RunnerCommand

open Text

variable (t : TextTables)

def oneOf (names : List Text) (a : Text) : Bool := names.contains a

def leadsWith (pattern args : List Text) : Bool := pattern.isPrefixOf args

def nonExecutingLongFlags : List Text :=
  ["--collect-only", "--help", "--version", "--no-run", "--list", "--listTests",
   "--passWithNoTests", "--dry-run", "--fixtures", "--fixtures-per-test", "--markers",
   "--setup-plan", "--setup-only", "--showConfig", "--collectonly", "--setupplan", "--setuponly",
   "--funcargs", "--changedFilesWithAncestor", "--cache-show", "--override-ini", "--clearCache",
   "--init", "--onlyChanged", "--changedSince", "--lastCommit", "--findRelatedTests", "--changed",
   "--if-present", "--no-tests"]

def nonExecutingShortFlags : List Text := ["-h", "-V", "-o"]

def shellStateBuiltins : List Text :=
  ["exit", "logout", "exec", "return", "break", "continue", "source", ".", "eval", "export",
   "hash", "rehash", "alias", "unalias", "set", "setopt", "unsetopt", "emulate", "enable",
   "declare", "typeset", "integer", "readonly", "local", "unset", "function", "autoload", "trap",
   "shopt", "builtin", "command", "kill", "wait", "disown", "pushd", "popd", "path", "printf",
   "read", "mapfile", "readarray", "let", "getopts", "ulimit", "umask"]

def launcherValuelessFlags : List Text :=
  ["--yes", "-y", "--no-install", "--frozen", "--locked", "--isolated", "--no-sync", "--"]

def benignAssignments : List Text :=
  ["CI", "FORCE_COLOR", "NO_COLOR", "RUST_BACKTRACE", "RUST_LOG", "CARGO_TERM_COLOR",
   "PYTHONDONTWRITEBYTECODE", "PYTHONUNBUFFERED", "NODE_ENV"]

def testSubcommandPrograms : List Text :=
  ["go", "mvn", "mvnw", "gradle", "gradlew", "dotnet", "deno", "bun", "swift", "mix", "bazel",
   "bazelisk", "make", "gmake", "just", "rake", "sbt", "flutter", "dart", "yarn", "pnpm", "npm",
   "composer", "lein", "stack", "cabal", "turbo", "nx", "lerna", "task", "poe", "playwright"]

def standaloneTestPrograms : List Text :=
  ["rspec", "phpunit", "ctest", "mocha", "ava", "nose2", "behave", "karma", "jasmine", "pest",
   "pytest", "py.test", "jest", "vitest", "bats", "ginkgo", "gotestsum"]

def suiteRunningTargets : List (Text × List Text) :=
  [("mvn", ["verify", "install", "package"]), ("mvnw", ["verify", "install", "package"]),
   ("gradle", ["check", "build"]), ("gradlew", ["check", "build"]),
   ("make", ["check", "verify", "ci"]), ("gmake", ["check", "verify", "ci"]),
   ("just", ["check", "verify", "ci"])]

def packageTools : List Text :=
  ["go", "dart", "flutter", "dotnet", "yarn", "pnpm", "npm", "bun", "composer", "deno", "swift",
   "mix", "lein", "stack", "cabal"]

def nonTestVerbs : List Text :=
  ["add", "install", "i", "remove", "rm", "uninstall", "get", "new", "init", "help", "doc",
   "build", "list", "outdated", "update", "upgrade", "publish", "pack"]

def pubNonTestVerbs : List Text :=
  ["add", "get", "remove", "deps", "upgrade", "downgrade", "outdated", "publish"]

def wrapperPrograms : List Text :=
  ["time", "timeout", "env", "nice", "nohup", "sudo", "command", "exec", "stdbuf", "ionice",
   "setsid", "caffeinate", "arch", "doas", "xcrun", "flock", "unbuffer", "taskset"]

def nonTestEnvs : List Text :=
  ["lint", "format", "fmt", "docs", "doc", "type", "types", "mypy", "ruff", "flake8", "black",
   "isort", "style", "pylint", "clippy"]

def assignmentName (w : Word) : Option Text :=
  if w.quoted then none
  else
    match splitOnce '=' w.text with
    | some (name, _) => if isIdentifier name then some name else none
    | none => none

def changesShellState (words : Segment) : Bool :=
  match words.find? fun w => (assignmentName w).isNone with
  | none => true
  | some w => oneOf shellStateBuiltins w.text

def stripAssignments : Segment → Option Segment
  | [] => some []
  | first :: rest =>
    match assignmentName first with
    | some name => if oneOf benignAssignments name then stripAssignments rest else none
    | none => some (first :: rest)

def core : Segment → Segment
  | [] => []
  | first :: rest =>
    match assignmentName first with
    | some name => if oneOf benignAssignments name then core rest else first :: rest
    | none => first :: rest

inductive RunnerKind
  | pytest
  | cargo
  | other
  deriving DecidableEq, Repr

def isPython (name : Text) : Bool :=
  match name.dropPrefix? "python" with
  | some v => v.all fun c => c.isDigit || c == '.'
  | none => false

def normalizeFlag (flag : Text) : Text :=
  (flag.filter fun c => !(c == '-' || c == '_')).flatMap t.lowerChar

def isShortNonExecuting (c : Char) : Bool := c == 'o' || c == 'h' || c == 'V'

/-- A flag after which a runner runs no test: a listed short flag, alone, with a value or in a
cluster, or an abbreviation of a listed long one. -/
def isNonExecutingFlag (arg : Text) : Bool :=
  let short := arg.tail
  let base := match splitOnce '=' arg with
    | some (flag, _) => flag
    | none => arg
  oneOf nonExecutingShortFlags arg ||
  (startsWith arg "-" && !startsWith arg "--" &&
    (short.head?.any isShortNonExecuting ||
      (decide (1 < utf8Len short) && short.all Char.isAlpha &&
        short.any isShortNonExecuting))) ||
  (startsWith base "--" && decide (2 ≤ utf8Len (normalizeFlag t base)) &&
    nonExecutingLongFlags.any fun flag =>
      startsWith (normalizeFlag t flag) (normalizeFlag t base))

def runnerProgram (name : Text) (tail : List Text) : Option RunnerKind :=
  if oneOf ["pytest", "py.test"] name then some .pytest
  else if oneOf ["vitest", "jest"] name then
    if tail.head?.any (oneOf ["list", "init", "bench"]) || oneOf tail "-v" then none
    else some .other
  else if isPython name then
    if leadsWith ["-m", "pytest"] tail then some .pytest else none
  else if name = "cargo" then
    let sub := if tail.head?.any fun a => startsWith a "+" then tail.tail else tail
    if leadsWith ["test"] sub then some .cargo
    else if leadsWith ["nextest", "run"] sub then some .other
    else none
  else if name = "npm" then
    if leadsWith ["test"] tail then some .other else none
  else none

def directRunner : List Text → Option RunnerKind
  | [] => none
  | program :: tail =>
    (runnerProgram (basename program) tail).filter fun _ => !tail.any (isNonExecutingFlag t)

def launchedRunner : List Text → Option RunnerKind
  | [] => directRunner t []
  | arg :: rest =>
    if startsWith arg "-" then
      if oneOf launcherValuelessFlags arg then launchedRunner rest else none
    else directRunner t (arg :: rest)

def runnerInvocation : List Text → Option RunnerKind
  | [] => none
  | program :: tail =>
    let name := basename program
    if oneOf ["npx", "pnpx", "bunx"] name then launchedRunner t tail
    else if oneOf ["uv", "poetry"] name then
      if leadsWith ["run"] tail then launchedRunner t tail.tail else none
    else if name = "pnpm" then
      if leadsWith ["exec"] tail then launchedRunner t tail.tail else none
    else directRunner t (program :: tail)

def classifySegment (words : Segment) : Option RunnerKind :=
  (stripAssignments words).bind fun rest => runnerInvocation t (rest.map Word.text)

def simpleCommandRunsTests (words : Segment) : Bool := (classifySegment t words).isSome

/-- One simple command may be a test run with any exit status; of a list only
status 0 shows that every step ran. -/
def isTestRun (command : Option Json) (exitCode : Option Int) : Bool :=
  match commandSegments command with
  | none => false
  | some [only] => simpleCommandRunsTests t only
  | some segments =>
    decide (exitCode = some 0) && !segments.any changesShellState &&
      segments.any (simpleCommandRunsTests t)

def isPlainCd : Segment → Bool
  | [cd, dir] =>
    decide (cd.text = "cd") && !cd.quoted && !dir.text.isEmpty && !startsWith dir.text "-"
  | _ => false

def provenFrom (runner : Option RunnerKind) : List Segment → Option (Option RunnerKind)
  | [] => some runner
  | segment :: rest =>
    match classifySegment t segment with
    | some kind => if runner.isSome then none else provenFrom (some kind) rest
    | none => if isPlainCd segment then provenFrom runner rest else none

def provenRunner (command : Option Json) : Option RunnerKind :=
  match commandSegments command with
  | none => none
  | some segments =>
    match provenFrom t none segments with
    | none => none
    | some runner => runner.filter fun kind => decide (kind ≠ .other)

def isAssignmentArg (a : Text) : Bool :=
  match splitOnce '=' a with
  | some (name, _) => isIdentifier name
  | none => false

def launchedArgs (name : Text) (tail : List Text) : Option (List Text) :=
  if oneOf ["uv", "poetry", "pdm", "hatch", "rye"] name && leadsWith ["run"] tail then
    some tail.tail
  else if name = "bundle" && leadsWith ["exec"] tail then some tail.tail
  else if oneOf ["npx", "pnpx", "bunx"] name then some tail
  else if name = "pnpm" && leadsWith ["exec"] tail then some tail.tail
  else none

/-- Whether a leading verb of a package tool makes a later `test` a package name. -/
def managesPackages (tail : List Text) : Bool :=
  match tail with
  | [] => false
  | verb :: rest =>
    if verb = "pub" then rest.head?.any (oneOf pubNonTestVerbs) else oneOf nonTestVerbs verb

/-- `tox` or `nox` without an environment, or with one that may be a suite. -/
def runsTestEnv (tail : List Text) : Bool :=
  let envs := ((tail.zip tail.tail).filter fun w => oneOf ["-e", "-s", "--session"] w.1).map (·.2)
  envs.isEmpty || envs.any fun e => !(e.splitOn ',').all (oneOf nonTestEnvs)

def asksForSuite (name : Text) (tail : List Text) : Bool :=
  let isTestName := fun a : Text => startsWith a "test"
  tail.any (oneOf ["test", "tests"]) ||
  (oneOf ["yarn", "pnpm", "make", "gmake", "just", "rake", "task", "poe"] name &&
    tail.any isTestName) ||
  (oneOf ["npm", "yarn", "pnpm", "bun"] name &&
    (tail.dropWhile fun a => !oneOf ["run", "run-script"] a).tail.any isTestName) ||
  (decide (name = "npm") &&
    tail.head?.any (oneOf ["t", "install-test", "it", "cit", "install-ci-test"])) ||
  ((suiteRunningTargets.find? fun p => p.1 == name).any fun p => tail.any (oneOf p.2))

/-- `known_test_args` with `left` levels of wrapping still to be followed. -/
def knownTestArgsWithin : ℕ → List Text → Bool
  | 0, _ => true
  | left + 1, args =>
    let isTestCommand := fun suffix : List Text =>
      (classifySegment t (suffix.map fun a => ⟨a, false⟩)).isSome || knownTestArgsWithin left suffix
    match args.dropWhile isAssignmentArg with
    | [] => false
    | program :: tail =>
      let name := basename program
      if isShell name then
        match tail with
        | [flag, script] =>
          isShellCommandFlag flag &&
            (shellSegments script).any fun segments => segments.any fun segment =>
              knownTestArgsWithin left (segment.map Word.text) ||
                (classifySegment t (core segment)).isSome
        | _ => false
      else if oneOf wrapperPrograms name then
        -- Every later word is tried as the start of the wrapped command.
        tail.tails.dropLast.any isTestCommand
      else if oneOf testSubcommandPrograms name then
        if oneOf packageTools name && managesPackages tail then false
        else
          (decide (name = "pnpm") &&
            (tail.dropWhile fun a => !oneOf ["exec"] a).tail.tails.dropLast.any isTestCommand) ||
          asksForSuite name tail
      else if oneOf standaloneTestPrograms name then true
      else if name = "node" then oneOf tail "--test"
      else if oneOf ["tox", "nox"] name then runsTestEnv tail
      else if isPython name then
        leadsWith ["-m", "unittest"] tail || leadsWith ["-m", "nose2"] tail
      else
        match launchedArgs name tail with
        | none => false
        | some launched =>
          let rest := launched.dropWhile fun a => startsWith a "-"
          (oneOf ["uv", "poetry", "pdm", "hatch", "rye"] name &&
            rest.head?.any fun a => startsWith a "test") ||
          knownTestArgsWithin left rest

def knownTestArgs (args : List Text) (depth : ℕ) : Bool := knownTestArgsWithin t (5 - depth) args

def suffixIsTestCommand (args : List Text) (depth : ℕ) : Bool :=
  (classifySegment t (args.map fun a => ⟨a, false⟩)).isSome || knownTestArgs t args depth

def knownTestCommand (words : Segment) : Bool := knownTestArgs t (words.map Word.text) 0

def namesTestCommand (literal : Text) : Bool :=
  (shellSegments literal).any fun segments => segments.any fun segment =>
    (classifySegment t (core segment)).isSome || knownTestCommand t (core segment)

end Fornax.RunnerCommand
