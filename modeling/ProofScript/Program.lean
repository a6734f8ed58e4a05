import ProofScript.Code.Emit
import ProofScript.Settings

/-!
# Programs

The programs that a script gives: one that proves its claims, and one that runs it. The directives
of the script stand in for a seed or an expectation that is not asked for.
-/

namespace ProofScript

/-- Why a script gives no program. -/
inductive ProgramError where
  /-- The script has no obligations. -/
  | script (e : ScriptError)
  /-- The obligations have no program. -/
  | code (e : CodeFault)

/-- The wording of an error, without its place. -/
def ProgramError.message : ProgramError → String
  | script e => e.message
  | code e => e.report

/-- The program that states obligations, for a backend and with its library as it is set. -/
def Settings.program (s : Settings) (backend : Backend) (obligations : List Obligation) :
    Except ProgramError String :=
  ((backend.dialect (s.libraryRoot backend)).program obligations).mapError .code

/-- The program that proves the claims of a script. -/
def Settings.proofProgram (s : Settings) (backend : Backend) (source : String) :
    Except ProgramError String := do
  let script ← (Script.ofSource source).mapError .script
  let obligations ← script.proofObligations.mapError fun e => .script (.proof e)
  s.program backend obligations

/-- The script that is run for a source text: its seed and its expectation are the ones that are
asked for, or else those of the directives. A directive that is not needed is not read. -/
def Script.toRun (source : String) (seed : Option Seed) (expect : Option Expectation) :
    Except ScriptError Script := do
  let directives := Directives.ofSource source
  let seed ← match seed with
    | some seed => pure (some seed)
    | none => directives.seed.mapError .proof
  let script ← Script.ofSource source
  return { script with seed := seed, expect := expect <|> directives.expectation? }

/-- The program that runs a script and traces the result of each statement. -/
def Settings.runProgram (s : Settings) (backend : Backend) (source : String) (seed : Option Seed)
    (expect : Option Expectation) : Except ProgramError String := do
  let script ← (Script.toRun source seed expect).mapError .script
  s.program backend script.runObligations

end ProofScript
