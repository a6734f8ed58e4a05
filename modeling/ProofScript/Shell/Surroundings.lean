import ProofScript.Shell.Options
import ProofScript.Text.Decimal

/-!
# Surroundings

Utilities that tell about the user, the machine, the variables and the programs around a script.
-/

namespace ProofScript.Shell

/-- A utility that knows one option for each of some facts, and tells one of them. -/
def telling (facts : List (Char × String)) (default : String) : Utility :=
  (OptionTable.plain (String.ofList (facts.map Prod.fst)) "").utility fun s o =>
    if !o.operands.isEmpty then
      (OptionTable.plain "" "").refuse s ("extra operand '" ++ o.operands.headD "" ++ "'")
    else
      let asked := facts.filter fun f => o.has f.1
      .printLine s (if asked.isEmpty then default else " ".intercalate (asked.map Prod.snd))

/-- Tells the name of the user. -/
def whoami : Utility := telling [] "root"

/-- Tells about the system. -/
def uname : Utility := fun s arguments =>
  let facts := [('s', "Linux"), ('n', "localhost"), ('r', "6.1.0"), ('v', "#1 SMP"),
    ('m', "x86_64"), ('p', "unknown"), ('i', "unknown"), ('o', "GNU/Linux")]
  if arguments == ["-a"] then
    .printLine s (" ".intercalate ((facts.filter fun f => f.2 != "unknown").map Prod.snd))
  else telling facts "Linux" s arguments

/-- Tells who the user is, by numbers or names. -/
def identity : Utility :=
  (OptionTable.plain "ugGnrz" "").utility fun s o =>
    match o.last? "ugG" with
    | some _ => .printLine s (if o.has 'n' then "root" else "0")
    | none => .printLine s "uid=0(root) gid=0(root) groups=0(root)"

/-- Tells whether the input comes from a terminal, which it never does. -/
def tty : Utility := (OptionTable.plain "s" "").utility fun s o =>
  if o.has 's' then .silent s 1
  else { Effect.printLine s "not a tty" with status := 1 }

/-- Writes the values of some variables, or all variables with their values. -/
def printenv : Utility := ({ OptionTable.plain "0" "" with status := 2 }).utility fun s o =>
  if o.operands.isEmpty then
    .print s (String.join (s.environment.map fun (name, value) => name ++ "=" ++ value ++ "\n"))
  else
    let values := o.operands.map fun name => s.environment.lookup name
    { Effect.print s (String.join ((values.filterMap id).map (· ++ "\n"))) with
      status := if values.all Option.isSome then 0 else 1 }

/-- The parts of a moment that a format can ask for, at the start of all counting. -/
def momentPart (c : Char) : String :=
  match c with
  | 'Y' => "1970"
  | 'm' | 'd' => "01"
  | 'y' => "70"
  | 'H' | 'M' | 'S' => "00"
  | 'F' => "1970-01-01"
  | 'T' => "00:00:00"
  | 's' => "0"
  | 'N' => "000000000"
  | 'j' => "001"
  | 'Z' => "UTC"
  | 'z' => "+0000"
  | 'n' => "\n"
  | c => String.singleton c

/-- A format with the parts of a moment in it. -/
def momentText : List Char → String
  | '%' :: c :: cs => momentPart c ++ momentText cs
  | c :: cs => String.singleton c ++ momentText cs
  | [] => ""

/-- Tells the moment, for which the clock stands still. -/
def date : Utility := fun s arguments =>
  match (arguments.find? fun a => a.startsWith "+").map String.toList with
  | some (_ :: format) => .printLine s (momentText format)
  | _ => .printLine s "Thu Jan  1 00:00:00 UTC 1970"

/-- Whether a path leads to something that can be executed. -/
def Scene.isProgram (s : Scene) (path : String) : Bool :=
  match s.find path with
  | .ok (_, .file _ executable) => executable
  | .ok (_, .program _) => true
  | _ => false

/-- The paths at which a program of a name can be executed. -/
def Scene.programPaths (s : Scene) (name : String) : List String :=
  let paths := if name.toList.contains '/' then [name]
    else (((s.environment.lookup "PATH").getD "").splitOn ":").map fun dir =>
      if dir.isEmpty then name else dir ++ "/" ++ name
  paths.filter s.isProgram

/-- Tells where programs are. -/
def which : Utility := ({ OptionTable.plain "as" "" with status := 2 }).utility fun s o =>
  let paths := o.operands.map fun name =>
    if o.has 'a' then s.programPaths name else (s.programPaths name).take 1
  let text := String.join (paths.flatten.map (· ++ "\n"))
  { Effect.print s (if o.has 's' then "" else text) with
    status := if o.operands.isEmpty || paths.any List.isEmpty then 1 else 0 }

end ProofScript.Shell
