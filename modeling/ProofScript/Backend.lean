import ProofScript.Digest
import ProofScript.Text.Blank
import ProofScript.Text.Case

/-!
# Backends

The two verifiers that a program can be handed to.
-/

namespace ProofScript

/-- A verifier that generated programs are written for. -/
inductive Backend where
  /-- The Dafny verifier. -/
  | dafny
  /-- Rosette, which runs in Racket. -/
  | rosette
  deriving DecidableEq, Repr

namespace Backend

/-- The name of a backend, as it is given on the command line and in a script. -/
def name : Backend → String
  | dafny => "dafny"
  | rosette => "rosette"

/-- The extension of a program file, without the dot. -/
def extension : Backend → String
  | dafny => "dfy"
  | rosette => "rkt"

/-- The executable that checks a program unless another one is configured. -/
def executable : Backend → String
  | dafny => "dafny"
  | rosette => "racket"

/-- Every backend. -/
def all : List Backend := [dafny, rosette]

/-- The backend of a name. Rosette also goes by the name of its executable; blanks around the name
and the case of ASCII letters do not matter. -/
def ofName? (name : String) : Option Backend :=
  match Text.lower (Text.trim name) with
  | "dafny" => some dafny
  | "rosette" | "racket" => some rosette
  | _ => none

/-- The arguments that the executable is called with to check the program file `program`. -/
def arguments (b : Backend) (program : String) : List String :=
  match b with
  | dafny => ["/compile:3", "/induction:1", program]
  | rosette => [program]

end Backend

/-- The file name of a kept program, which depends on its text alone. -/
def programFileName (program extension : String) : String :=
  let digest := (Digest.ofText program).toList.take 8
  "test-" ++ String.ofList digest ++ "." ++ extension

end ProofScript
