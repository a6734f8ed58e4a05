import ProofScript.Program
import ProofScript.Settings.Load
import ProofScript.Verifier

/-!
# Sessions

What the commands do: they read a script, load the settings, compile the script, hand the program to
a verifier and print the result. A script that asks to be skipped is neither compiled nor checked.
-/

namespace ProofScript

/-! ## Sources -/

/-- Where the text of a script comes from. -/
inductive ScriptSource where
  /-- The standard input. -/
  | input
  /-- The file of this path. -/
  | file (path : String)
  /-- The text itself. -/
  | literal (text : String)
  deriving DecidableEq, Repr

namespace ScriptSource

/-- The source that an argument names. A dash is the standard input, the path of something that
exists is a file, and anything else is the script itself. -/
def ofArgument (w : Workspace) (argument : String) : ScriptSource :=
  if argument == "-" then input
  else if w.contains argument then file argument
  else literal argument

/-- The text of a source, where `stdin` is the standard input. -/
def read (w : Workspace) (stdin : String) : ScriptSource → Except FileFault String
  | input => .ok stdin
  | file path => w.read path
  | literal text => .ok text

/-- Where the manifest for a source is looked for. -/
def start (w : Workspace) : ScriptSource → Except FileFault String
  | file path => w.canonical path
  | input | literal _ => .ok w.current.path

end ScriptSource

/-! ## Requests -/

/-- What both commands are told. -/
structure Options where
  /-- The argument that names the script. -/
  script : String
  /-- Whether the program is kept. -/
  keep : Bool
  /-- Whether the program is printed. -/
  showProgram : Bool
  /-- The backend, unless it is the one of the settings. -/
  backend : Option Backend
  /-- Directories in which verifiers are looked for before those of the settings. -/
  searchPaths : List String
  deriving DecidableEq, Repr

/-- A command. -/
inductive Command where
  /-- Prove the claims of a script. -/
  | prove
  /-- Run a script, with a text for the expected result and one for the seed. -/
  | run (expect seed : Option String)
  deriving DecidableEq, Repr

/-- A command with its options. -/
structure Request where
  /-- The command. -/
  command : Command
  /-- Its options. -/
  options : Options
  /-- The path of the manifest, unless it is looked for. -/
  manifest : Option String
  deriving DecidableEq, Repr

/-! ## Sessions -/

/-- Why a session ends early. -/
inductive SessionError where
  /-- The script cannot be read. -/
  | source (fault : FileFault)
  /-- The settings cannot be loaded. -/
  | settings (e : SettingsError)
  /-- The seed that is asked for is none. -/
  | seed (e : ProofError)
  /-- The script gives no program. -/
  | program (e : ProgramError)
  /-- The verifier gives no answer. -/
  | verifier (e : VerifierError)

/-- The settings of a request. -/
def Request.settings (r : Request) (w : Workspace) : Except SessionError Settings :=
  match r.manifest with
  | some path => (w.loadManifest path).mapError .settings
  | none => do
    let start ← ((ScriptSource.ofArgument w r.options.script).start w).mapError .source
    (w.loadSettings start).mapError .settings

/-- What a session has printed, and the files that it sees. -/
structure SessionState where
  /-- The files. -/
  workspace : Workspace
  /-- What has been printed. -/
  printed : String

/-- A part of a session. -/
abbrev Session := ExceptT SessionError (StateM SessionState)

namespace Session

/-- Prints a text. -/
def write (text : String) : Session Unit := modify fun s => { s with printed := s.printed ++ text }

/-- Prints a line. -/
def writeLine (line : String) : Session Unit := write (line ++ "\n")

/-- Goes on with a result, or ends the session. -/
def attempt {ε α : Type} (describe : ε → SessionError) (r : Except ε α) : Session α :=
  match r with
  | .ok a => pure a
  | .error e => throw (describe e)

/-- Hands a program to a verifier. -/
def check (v : Verifier) (run : Runner) (program : String) : Session Outcome := do
  let s ← get
  let (r, w) := (v.check run program).run s.workspace
  set { s with workspace := w }
  attempt .verifier r

/-- The script, settings and backend of a session. -/
structure Loaded where
  /-- The text of the script. -/
  source : String
  /-- The settings. -/
  settings : Settings
  /-- The backend. -/
  backend : Backend

/-- Reads the script and loads the settings. A line of dashes ends what is read from the standard
input. -/
def load (r : Request) (stdin : String) : Session Loaded := do
  let w := (← get).workspace
  let origin := ScriptSource.ofArgument w r.options.script
  let source ← attempt .source (origin.read w stdin)
  if origin = .input then writeLine "---"
  let settings ← attempt id (r.settings w)
  return {
    source := source
    settings := settings
    backend := r.options.backend.getD settings.backend }

/-- The seed and the expected result that a command asks for, and the program of a script. -/
def compile (l : Loaded) : Command → Session String
  | .prove => attempt .program (l.settings.proofProgram l.backend l.source)
  | .run expect seed => do
    let seed ← match seed with
      | some text => some <$> attempt .seed (Seed.read text)
      | none => pure none
    attempt .program
      (l.settings.runProgram l.backend l.source seed (expect.bind Expectation.ofText?))

/-- Prints the program, if that is asked for. -/
def writeProgram (o : Options) (program : String) : Session Unit :=
  if o.showProgram then do
    writeLine ""
    writeLine "Script:"
    writeLine program
  else pure ()

/-- Prints where the program is kept, if it is. -/
def writeKept (outcome : Outcome) : Session Unit :=
  match outcome.kept with
  | some path => writeLine ("  Script: " ++ path)
  | none => pure ()

/-- Prints the result of a proof, behind what the verifier wrote. -/
def writeProof (o : Options) (program : String) (outcome : Outcome) : Session Unit := do
  write outcome.answer.out
  writeLine (if outcome.answer.accepted then "Success!" else "FAILED!")
  writeKept outcome
  writeProgram o program

/-- Prints the result of a run. -/
def writeRun (o : Options) (backend : Backend) (program : String) (outcome : Outcome) :
    Session Unit := do
  if !outcome.answer.accepted then writeLine "FAILED!\n"
  writeLine (outcome.answer.report backend)
  writeProgram o program
  writeKept outcome

/-- Prints what a verdict means, where it is not plain from the answer. -/
def writeVerdict : Verdict → Session Unit
  | .expectedFailure => writeLine "(expected failure)"
  | .unexpectedPass => writeLine "(unexpected pass: script is marked XFAIL)"
  | .passed | .failed => pure ()

/-- Carries out a request and tells whether the result is the one that was hoped for. -/
def perform (run : Runner) (r : Request) (stdin : String) : Session Bool := do
  let l ← load r stdin
  if l.backend.isSkippedBy l.source then
    writeLine ("Skipped (" ++ l.backend.name ++ " is excluded by the script)")
    return true
  let program ← compile l r.command
  let verifier := l.settings.verifier l.backend r.options.searchPaths r.options.keep
  let outcome ← check verifier run program
  match r.command with
  | .prove => writeProof r.options program outcome
  | .run _ _ => writeRun r.options l.backend program outcome
  let verdict := Verdict.ofSource l.source l.backend outcome.answer.accepted
  writeVerdict verdict
  return verdict.isGood

end Session

end ProofScript
