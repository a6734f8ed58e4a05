import ProofScript.Text.Blank
import ProofScript.Text.Decimal

/-!
# Seeds and expectations

A run of a script can start from a context that holds one named integer, the seed, and can be
checked against an expected result. Both are written as short texts.
-/

namespace ProofScript

/-- A named integer in the initial context of a run. -/
structure Seed where
  /-- The name. -/
  name : String
  /-- The integer. -/
  value : Int64
  deriving DecidableEq, Repr

/-- Why a text is no seed. -/
inductive SeedFault where
  /-- There is no equals sign. -/
  | form
  /-- There is nothing before the equals sign. -/
  | name
  /-- There is no 64-bit integer behind the equals sign. -/
  | value
  deriving DecidableEq, Repr

/-- The wording of a fault in the text of a seed. -/
def SeedFault.message (text : String) : SeedFault → String
  | form => s!"context seed `{text}` must look like `name = value`"
  | name => s!"context seed `{text}` has no name"
  | value => s!"context seed value in `{text}` is not an integer"

namespace Seed

/-- Reads a seed: a name, an equals sign and an integer, with blanks around each. The name ends at
the first equals sign and may hold blanks itself. -/
def ofText (text : String) : Except SeedFault Seed :=
  let cs := text.toList
  match cs.dropWhile (· != '=') with
  | [] => .error .form
  | _ :: value =>
    let name := Text.trim (String.ofList (cs.takeWhile (· != '=')))
    if name.isEmpty then .error .name
    else
      match Text.int64? (Text.trim (String.ofList value)) with
      | some n => .ok { name := name, value := n }
      | none => .error .value

end Seed

/-- The expected result of a run. -/
inductive Expectation where
  /-- The integer `n`. -/
  | int (n : Int64)
  /-- Some value of the kind that has this name. -/
  | kind (name : String)
  deriving DecidableEq, Repr

/-- Reads an expectation. A text that is blank or the word `None` expects nothing, an integer
expects itself, and any other text names a kind of value. -/
def Expectation.ofText? (text : String) : Option Expectation :=
  let text := Text.trim text
  if text.isEmpty || text == "None" then none
  else
    match Text.int64? text with
    | some n => some (.int n)
    | none => some (.kind text)

end ProofScript
