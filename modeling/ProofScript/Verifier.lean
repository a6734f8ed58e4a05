import ProofScript.Settings
import ProofScript.Text.Split
import ProofScript.Workspace

/-!
# Verifiers

Handing a program to the executable of a backend. The program is written to a file that is kept
under a name that depends on its text, or to a scratch file that is removed. The exit status of the
executable decides whether the program is accepted.
-/

namespace ProofScript

/-- What an executable answers. -/
structure Answer where
  /-- Whether its exit status is zero. -/
  accepted : Bool
  /-- What it wrote to its standard output. -/
  out : String
  /-- What it wrote to its standard error. -/
  err : String
  deriving DecidableEq, Repr

/-- How the executable file of a path runs with arguments. -/
abbrev Runner := (path : String) → (arguments : List String) →
  ExceptT FileFault (StateM Workspace) Answer

/-- What Dafny prints before it runs a program that it accepts. -/
def runMarker : String := "Running..."

/-- What a compiled program printed: the text behind the first marker, up to the next one, without
the blanks around it. Without a marker there is nothing. -/
def programOutput? (out : String) : Option String :=
  (Text.cut? runMarker.toList out.toList).map fun (_, behind) =>
    let printed := match Text.cut? runMarker.toList behind with
      | some (before, _) => before
      | none => behind
    Text.trim (String.ofList printed)

/-- The output that an answer is reported with. When Dafny accepts a program and runs it, this is
what the program printed; otherwise it is all that the executable wrote. -/
def Answer.report (a : Answer) (backend : Backend) : String :=
  let all := a.out ++ a.err
  match backend, a.accepted with
  | .dafny, true => (programOutput? a.out).getD all
  | _, _ => all

/-! ## Finding executables -/

namespace Workspace

/-- The first of some directories in which there is a file of this name, joined with the name. -/
def findIn? (w : Workspace) (name : String) (dirs : List String) : Option String :=
  (dirs.map fun dir => Path.join dir name).find? w.isFile

/-- The path of an executable. A name with several components is a path already; any other name is
looked for among the commands, and then in `extra`. -/
def executable? (w : Workspace) (name : String) (extra : List String) : Option String :=
  if 1 < Path.componentCount name then if w.isFile name then some name else none
  else w.findIn? name (w.commandDirs ++ extra)

end Workspace

/-! ## Checking programs -/

/-- How the verifier of a backend is used. -/
structure Verifier where
  /-- The backend. -/
  backend : Backend
  /-- The name or path of the executable. -/
  executable : String
  /-- The directories in which the executable is looked for last. -/
  searchPaths : List String
  /-- The directory in which the program is kept, if it is. -/
  keepDir : Option String
  deriving DecidableEq, Repr

/-- Why a verifier gives no answer. -/
inductive VerifierError where
  /-- There is no executable of this name. -/
  | missingExecutable (name : String)
  /-- The directory cannot be made. -/
  | makeDirectory (path : String) (fault : FileFault)
  /-- The program file cannot be written. -/
  | write (path : String) (fault : FileFault)
  /-- The executable cannot be run. -/
  | run (path : String) (fault : FileFault)
  deriving DecidableEq, Repr

/-- The wording of an error. -/
def VerifierError.message : VerifierError → String
  | missingExecutable name => "couldn't find executable `" ++ name ++ "` on your PATH"
  | makeDirectory path fault => "verify error: create " ++ path ++ ": " ++ fault.message
  | write path fault => "verify error: write " ++ path ++ ": " ++ fault.message
  | run path fault => "verify error: run " ++ path ++ ": " ++ fault.message

/-- The answer of a verifier. -/
structure Outcome where
  /-- What the executable answered. -/
  answer : Answer
  /-- Where the program is kept, if it is. -/
  kept : Option String
  deriving DecidableEq, Repr

/-- An action on a workspace that may need a verifier. -/
abbrev Checking := ExceptT VerifierError (StateM Workspace)

namespace Checking

/-- Changes the workspace. -/
def change (describe : FileFault → VerifierError)
    (f : Workspace → Except FileFault Workspace) : Checking Unit := do
  match f (← get) with
  | .ok w => set w
  | .error fault => throw (describe fault)

/-- Runs an executable file. The workspace keeps what the executable did to it. -/
def running (run : Runner) (path : String) (arguments : List String) : Checking Answer := do
  let (r, w) := (run path arguments).run (← get)
  set w
  match r with
  | .ok answer => return answer
  | .error fault => throw (.run path fault)

end Checking

namespace Verifier

/-- Finds the executable and runs it on a program file. -/
def runOn (v : Verifier) (run : Runner) (file : String) : Checking Answer := do
  match (← get).executable? v.executable v.searchPaths with
  | none => throw (.missingExecutable v.executable)
  | some path => Checking.running run path (v.backend.arguments file)

/-- The place of a scratch file for a program of a backend. -/
def scratch (backend : Backend) : Workspace.Place :=
  ["sable-script." ++ backend.extension, "tmp"]

/-- Hands a program to the verifier. -/
def check (v : Verifier) (run : Runner) (program : String) : Checking Outcome := do
  match v.keepDir with
  | some dir =>
    Checking.change (.makeDirectory dir) fun w => w.makeDirectories dir
    let path := Path.join dir (programFileName program v.backend.extension)
    Checking.change (.write path) fun w => w.write path program
    let answer ← v.runOn run path
    return { answer := answer, kept := some path }
  | none =>
    let file := scratch v.backend
    modify fun w => w.install file (.ofText program false)
    let answer ← tryCatch (v.runOn run file.path) fun e => do
      modify fun w => w.remove file
      throw e
    modify fun w => w.remove file
    return { answer := answer, kept := none }

end Verifier

/-- The verifier of a backend as it is set, which looks into the directories `extra` first. -/
def Settings.verifier (s : Settings) (backend : Backend) (extra : List String) (keep : Bool) :
    Verifier :=
  { backend := backend
    executable := s.executable backend
    searchPaths := extra ++ s.searchPaths
    keepDir := if keep then some s.keepDir else none }

end ProofScript
