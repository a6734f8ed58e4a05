import ProofScript.Shell.Options
import ProofScript.Shell.Portion
import ProofScript.Shell.Supplies

/-!
# Commands for other commands

Utilities that run other commands: with changed variables, in another way, or with arguments that
are read from the input. Here they only tell which commands are run.
-/

namespace ProofScript.Shell

/-! ## Variables -/

/-- A command and the variables that it is given. -/
structure EnvRequest where
  /-- The variables. -/
  environment : List (String × String)
  /-- The words of the command; without any, the variables are written. -/
  words : List String

/-- The options for changed variables. -/
def envTable : OptionTable :=
  { flags := "iv0", valued := "uCS", status := 125, anywhere := false, usage := ""
    names := [("ignore-environment", 'i'), ("unset", 'u'), ("chdir", 'C'), ("split-string", 'S')] }

/-- The parts of an argument that names a variable and its value. -/
def splitAssignment? (a : String) : Option (String × String) :=
  let name := a.toList.takeWhile (· != '=')
  if name.length < a.length then
    some (String.ofList name, String.ofList (a.toList.drop (name.length + 1)))
  else none

/-- Sets a variable among others. -/
def setAmong (name value : String) (environment : List (String × String)) :
    List (String × String) :=
  if environment.any fun v => v.1 == name then
    environment.map fun v => if v.1 == name then (name, value) else v
  else environment ++ [(name, value)]

/-- The command of some arguments in an environment. -/
def EnvRequest.ofWords (environment : List (String × String)) : List String → EnvRequest
  | [] => ⟨environment, []⟩
  | a :: rest =>
    match splitAssignment? a with
    | some (name, value) => ofWords (setAmong name value environment) rest
    | none => ⟨environment, a :: rest⟩

/-- Reads the arguments of the utility that changes variables. -/
def EnvRequest.ofArguments (s : Scene) (arguments : List String) : Except Effect EnvRequest :=
  match envTable.read (arguments.map fun a => if a == "-" then "-i" else a) with
  | .error fault => .error (envTable.refuse s fault.message)
  | .ok o =>
    let start := if o.has 'i' then [] else s.environment
    let kept := start.filter fun v => !(o.values 'u').contains v.1
    let split := (o.values 'S').flatMap fun t =>
      ((Text.pieces (fun c => c == ' ' || c == '\t') t.toList).map String.ofList).filter
        fun w => !w.isEmpty
    .ok (ofWords kept (split ++ o.operands))

/-! ## Arguments from the input -/

/-- A word of the input that is being read. -/
structure ItemReader where
  /-- The lines of complete words, last one first, each with its words, last one first. -/
  lines : List (List String)
  /-- The word that is being read, last character first. -/
  current : Option (List Char)

namespace ItemReader

/-- Ends the word that is being read. -/
def close (r : ItemReader) : ItemReader :=
  match r.current, r.lines with
  | none, _ => r
  | some cs, [] => ⟨[[String.ofList cs.reverse]], none⟩
  | some cs, line :: lines => ⟨(String.ofList cs.reverse :: line) :: lines, none⟩

/-- Ends the line that is being read. -/
def closeLine (r : ItemReader) : ItemReader :=
  let r := r.close
  if (r.lines.headD []).isEmpty then r else { r with lines := [] :: r.lines }

/-- Adds a character to the word that is being read. -/
def push (r : ItemReader) (c : Char) : ItemReader :=
  { r with current := some (c :: r.current.getD []) }

end ItemReader

/-- Reads words between blanks, in which quotes and backslashes have their meaning, where `quote` is
the quote that is open. -/
def readItems (r : ItemReader) (quote : Option Char) : List Char → Except String ItemReader
  | [] =>
    match quote with
    | none => .ok r.closeLine
    | some q => .error ("unmatched " ++ (if q == '"' then "double" else "single")
        ++ " quote; by default quotes are special to xargs unless you use the -0 option")
  | c :: cs =>
    match quote with
    | some q =>
      if c == q then readItems { r with current := some (r.current.getD []) } none cs
      else if c == '\n' then
        .error ("unmatched " ++ (if q == '"' then "double" else "single")
          ++ " quote; by default quotes are special to xargs unless you use the -0 option")
      else readItems (r.push c) quote cs
    | none =>
      if c == '\n' then readItems r.closeLine none cs
      else if c == ' ' || c == '\t' then readItems r.close none cs
      else if c == '"' || c == '\'' then
        readItems { r with current := some (r.current.getD []) } (some c) cs
      else if c == '\\' then
        match cs with
        | d :: cs => readItems (r.push d) none cs
        | [] => readItems r none []
      else readItems (r.push c) none cs

/-- The options for arguments from the input. -/
def xargsTable : OptionTable :=
  { flags := "0rtpx", valued := "nILdPsE", status := 1, anywhere := false, usage := ""
    names := [("null", '0'), ("no-run-if-empty", 'r'), ("max-args", 'n'), ("replace", 'I'),
      ("max-lines", 'L'), ("delimiter", 'd'), ("max-procs", 'P'), ("verbose", 't')] }

/-- The lists of a list of lists, so many of them joined. -/
def joinedBy {α : Type} (n : Nat) (fuel : Nat) (xs : List (List α)) : List (List α) :=
  match fuel, xs with
  | 0, _ => []
  | _, [] => []
  | fuel + 1, xs => (xs.take n).flatten :: joinedBy n fuel (xs.drop n)

/-- The commands that are run, and whether each is told before. -/
structure XargsRequest where
  /-- The words of the commands. -/
  commands : List (List String)
  /-- Whether they are told. -/
  told : Bool

/-- A text with another one in the place of each occurrence of a mark. -/
def replaced (mark by_ : String) (text : String) : String :=
  if mark.isEmpty then text else by_.intercalate (text.splitOn mark)

/-- Reads the arguments and the input of the utility. -/
def XargsRequest.ofArguments (s : Scene) (arguments : List String) :
    Except Effect XargsRequest := do
  let o ← (xargsTable.read arguments).mapError fun fault => xargsTable.refuse s fault.message
  let command := if o.operands.isEmpty then ["echo"] else o.operands
  let text := s.inputText
  let divided (mark : Char) : List (List String) :=
    let all := Text.pieces (· == mark) text.toList
    let all := if all.getLast? == some [] then all.dropLast else all
    all.map fun item => [String.ofList item]
  let lines ← match o.value? 'd', o.has '0' with
    | some d, _ => pure (divided ((if d == "\\n" then '\n' else d.toList.headD '\n')))
    | none, true => pure (divided '\x00')
    | none, false =>
      if o.has 'I' then
        pure (((divided '\n').map fun line =>
          line.map fun item => String.ofList (item.toList.dropWhile fun c => c == ' ')).filter
            fun line => line != [""])
      else
        match readItems ⟨[], none⟩ none text.toList with
        | .ok r => pure ((r.lines.map List.reverse).reverse.filter fun line => !line.isEmpty)
        | .error message => throw (Effect.blame s 1 message).drained
  let number (c : Char) : Option Nat := (o.value? c).bind fun v => Text.digits? v.toList
  let commands := match o.value? 'I', number 'L', number 'n' with
    | some mark, _, _ => lines.map fun line =>
        command.map fun w => replaced mark (" ".intercalate line) w
    | none, some n, _ => (joinedBy n lines.length lines).map (command ++ ·)
    | none, none, some n =>
      let items := lines.flatten.map fun item => [item]
      (joinedBy (max n 1) items.length items).map (command ++ ·)
    | none, none, none => [command ++ lines.flatten]
  let commands := if lines.isEmpty then
    if o.has 'r' || o.has 'I' then [] else [command] else commands
  return ⟨commands, o.has 't'⟩

/-! ## Other ways to run a command -/

/-- A utility that runs the command in its arguments in another way. -/
structure Wrapper where
  /-- Its options. -/
  table : OptionTable
  /-- The number of arguments in front of the command. -/
  before : Nat
  /-- What is told when there is no command. -/
  missing : Option String
  /-- What is told when the command cannot be run, given its name. -/
  failure : (name : String) → String

/-- The utility of a name that runs a command in another way. -/
def wrapper? (name : String) : Option Wrapper :=
  let quoted (start name : String) : String := start ++ "'" ++ name ++ "'"
  let failed := quoted "failed to run command "
  let table (flags valued : String) (names : List (String × Char)) : OptionTable :=
    ⟨flags, valued, names, 125, false, ""⟩
  match name with
  | "nice" => some ⟨table "" "n" [("adjustment", 'n')], 0, none, quoted ""⟩
  | "nohup" => some ⟨table "" "" [], 0, some "missing operand", failed⟩
  | "setsid" => some ⟨{ table "cfw" "" [] with status := 1 }, 0, some "no command specified",
      fun name => "failed to execute " ++ name⟩
  | "stdbuf" => some ⟨table "" "ioe" [], 0, some "missing operand", failed⟩
  | "timeout" => some ⟨table "fpv" "ks"
      [("foreground", 'f'), ("kill-after", 'k'), ("preserve-status", 'p'), ("signal", 's'),
        ("verbose", 'v')], 1, none, failed⟩
  | _ => none

/-- The number of milliseconds that some spans of time take. -/
def milliseconds (spans : List String) : Nat :=
  (spans.map fun text =>
    match Fraction.read? text.toList with
    | some (f, unit) =>
      let seconds := match unit with
        | ['m'] => 60
        | ['h'] => 3600
        | ['d'] => 86400
        | _ => 1
      if f.den = 0 then 0 else f.num * seconds * 1000 / f.den
    | none => 0).foldl (· + ·) 0

/-- The words of the command that a utility runs, or its answer without one. -/
def Wrapper.words (k : Wrapper) (s : Scene) (arguments : List String) :
    Except Effect (List String) :=
  match k.table.read arguments with
  | .error fault => .error (k.table.refuse s fault.message)
  | .ok o =>
    let before := o.operands.take k.before
    let words := o.operands.drop k.before
    match words, k.missing with
    | [], some message => .error (k.table.refuse s message)
    | [], none => .error (.complain s k.table.status (k.table.explain s))
    | name :: rest, _ =>
      if let some wrong := before.find? fun a => !isTimeSpan a then
        .error (k.table.refuse s ("invalid time interval '" ++ wrong ++ "'"))
      else if !before.isEmpty && name == "sleep" && 0 < milliseconds before
          && milliseconds before < milliseconds rest then
        .error (.silent s 124)
      else .ok words

end ProofScript.Shell
