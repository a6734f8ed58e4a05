import ProofScript.Shell.Declare

/-!
# Reading into variables

The utility that reads a line of the input and gives its fields to variables.
-/

namespace ProofScript.Shell

/-- A line that was read. -/
structure Intake where
  /-- Its characters, and whether each was behind a backslash. -/
  chars : List (Char × Bool)
  /-- What is behind it. -/
  rest : List Char
  /-- Whether it has an end. -/
  isEnded : Bool

/-- Reads a line. A backslash in front of the end of a line joins it with the next one, unless
`raw`. Null characters are left out. -/
def Intake.ofText (raw : Bool) : List Char → Intake
  | [] => ⟨[], [], false⟩
  | '\n' :: cs => ⟨[], cs, true⟩
  | '\x00' :: cs => ofText raw cs
  | '\\' :: c :: cs =>
    if raw then
      let r := ofText raw (c :: cs)
      { r with chars := ('\\', false) :: r.chars }
    else
      let r := ofText raw cs
      if c == '\n' then r else { r with chars := (c, true) :: r.chars }
  | c :: cs =>
    let r := ofText raw cs
    if c == '\\' && !raw then r else { r with chars := (c, false) :: r.chars }

/-- Whether a character ends a field. -/
def endsField (ends : List Char) (c : Char × Bool) : Bool := !c.2 && ends.contains c.1

/-- Whether a character is a blank that ends a field. -/
def isLoose (ends : List Char) (c : Char × Bool) : Bool :=
  endsField ends c && (c.1 == ' ' || c.1 == '\t' || c.1 == '\n')

/-- What is behind the first field of a line: blanks that end it and one other character that does
are left out. -/
def behindField (ends : List Char) (line : List (Char × Bool)) : List (Char × Bool) :=
  match (line.dropWhile fun c => !endsField ends c).dropWhile (isLoose ends) with
  | c :: cs => if endsField ends c then cs.dropWhile (isLoose ends) else c :: cs
  | [] => []

/-- The values that the fields of a line give to so many variables. The last one takes the rest of
the line. -/
def fieldValues (ends : List Char) : Nat → List (Char × Bool) → List String
  | 0, _ => []
  | n + 1, line =>
    let field := line.takeWhile fun c => !endsField ends c
    let rest := behindField ends line
    let whole := if n == 0 && !rest.isEmpty then
      (line.reverse.dropWhile (isLoose ends)).reverse else field
    String.ofList (whole.map Prod.fst) :: fieldValues ends n rest

namespace Process

/-- Reads a line of the input into variables. -/
def readLine (p : Process) (arguments : List String) : Process :=
  p.withOptions "r" "p" arguments fun o =>
    if o.operands.isEmpty then p.fail "arg count"
    else
      let r := Intake.ofText (o.has 'r') (p.scene "read").inputText.toList
      let p := match p.streamChannel? 0 with
        | some n => p.withMachine (p.toMachine.leave n (String.ofList r.rest))
        | none => p
      let ends := p.fieldEnds.toList
      let values := fieldValues ends o.operands.length (r.chars.dropWhile (isLoose ends))
      let given := (o.operands.zip values).map fun (name, value) => name ++ "=" ++ value
      eachDeclared assignSome given { p with status := if r.isEnded then 0 else 1 }

end Process

end ProofScript.Shell
