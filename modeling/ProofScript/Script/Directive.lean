import ProofScript.Backend
import ProofScript.NameMap
import ProofScript.Seed
import ProofScript.Text.Case
import ProofScript.Text.Lines

/-!
# Directives

A comment line of the form `// TAG: value` tells how a script is to be checked. The comment starts
the line and the tag is a run of capital letters.

* `EXPECT` gives the expected result of a run.
* `CONTEXT` gives the seed of a run.
* `XFAIL` names a backend that is expected to reject the script.
* `SKIP` names a backend that is not to be used.

A star names every backend. When a tag occurs twice, the last line counts.
-/

namespace ProofScript

/-- The directives of a script: the values of the tags. -/
abbrev Directives := NameMap String

namespace Directives

/-- Whether `c` can be part of a tag. -/
def isTagChar (c : Char) : Bool := 'A' ≤ c && c ≤ 'Z'

/-- The tag and the value of a directive line. -/
def ofLine? (line : String) : Option (String × String) :=
  match line.toList with
  | '/' :: '/' :: cs =>
    let cs := Text.trimStart cs
    match cs.takeWhile isTagChar, cs.dropWhile isTagChar with
    | [], _ => none
    | tag, ':' :: value => some (String.ofList tag, Text.trim (String.ofList value))
    | _, _ => none
  | _ => none

/-- The directives of a source text. -/
def ofSource (source : String) : Directives :=
  (Text.lines source).foldl (fun directives line =>
    match ofLine? line with
    | some (tag, value) => directives.insert tag value
    | none => directives) NameMap.empty

/-- Whether the value of a directive names a backend. The case of ASCII letters does not matter. -/
def appliesTo (value backend : String) : Bool :=
  let value := Text.trim value
  value == "*" || Text.lower value == Text.lower backend

/-- The expected result of a run. -/
def expectation? (d : Directives) : Option Expectation :=
  (NameMap.get? d "EXPECT").bind Expectation.ofText?

/-- The text of the seed of a run. -/
def seedText? (d : Directives) : Option String := NameMap.get? d "CONTEXT"

/-- Whether the backend of this name is expected to reject the script. -/
def expectsFailure (d : Directives) (backend : String) : Bool :=
  ((NameMap.get? d "XFAIL").map fun value => appliesTo value backend).getD false

/-- Whether the backend of this name is not to be used. -/
def skips (d : Directives) (backend : String) : Bool :=
  ((NameMap.get? d "SKIP").map fun value => appliesTo value backend).getD false

end Directives

/-- What the answer of a verifier means for a script. -/
inductive Verdict where
  /-- Accepted, as it should be. -/
  | passed
  /-- Rejected, and it should have been accepted. -/
  | failed
  /-- Rejected, as it should be. -/
  | expectedFailure
  /-- Accepted, and it should have been rejected. -/
  | unexpectedPass
  deriving DecidableEq, Repr

namespace Verdict

/-- The verdict on an answer. -/
def of (accepted expectsFailure : Bool) : Verdict :=
  match accepted, expectsFailure with
  | true, false => passed
  | false, false => failed
  | false, true => expectedFailure
  | true, true => unexpectedPass

/-- Whether a verdict is the one that was hoped for. -/
def isGood : Verdict → Bool
  | passed | expectedFailure => true
  | failed | unexpectedPass => false

/-- The verdict on an answer of a backend to a script. -/
def ofSource (source : String) (backend : Backend) (accepted : Bool) : Verdict :=
  of accepted (Directives.expectsFailure (Directives.ofSource source) backend.name)

end Verdict

/-- Whether a script asks not to be handed to a backend. -/
def Backend.isSkippedBy (backend : Backend) (source : String) : Bool :=
  Directives.skips (Directives.ofSource source) backend.name

end ProofScript
