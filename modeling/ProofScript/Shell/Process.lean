import ProofScript.NameMap
import ProofScript.Shell.Channel
import ProofScript.Shell.Command
import ProofScript.Shell.Effect
import ProofScript.Text.Decimal

/-!
# Processes

The state of a shell script that runs: its parameters, its files and streams, and where it goes on.
-/

namespace ProofScript.Shell

/-- Where a script goes on behind a command. -/
inductive Flow where
  /-- With the next command. -/
  | onward
  /-- Behind the innermost loop, after which `n` more loops are left. -/
  | breaking (n : Nat)
  /-- With the next round of the innermost loop, or of an outer one after `n` loops are left. -/
  | continuing (n : Nat)
  /-- Behind the call of the function. -/
  | returning
  /-- Nowhere. -/
  | ending
  /-- Nowhere, because of an error; behind a utility of the shell that lets it go on. -/
  | failing
  /-- Nowhere, because of the signal of this number. -/
  | killed (signal : Nat)
  deriving DecidableEq, Repr

/-- A function, and the number of lines in front of the text that it was read from. -/
structure Function where
  /-- What it does. -/
  body : Cmd
  /-- The number of lines. -/
  base : Nat

/-- A variable as it was before a function made it its own: its name, its value, and whether it was
exported. -/
structure Saved where
  /-- The name. -/
  name : String
  /-- The value. -/
  value : Option String
  /-- Whether it was exported. -/
  exported : Bool
  deriving DecidableEq, Repr

/-- A command that is not waited for. -/
inductive Job where
  /-- It has not been run yet. When it runs, it has a status and changes files and channels. -/
  | waiting (go : Machine → Nat × Machine)
  /-- It has ended with a status. -/
  | done (status : Nat)

/-- The state of a script. -/
structure Process extends Machine where
  /-- The path of the script. -/
  name : String
  /-- Its arguments. -/
  arguments : List String
  /-- Its variables. -/
  bindings : NameMap String
  /-- The variables that utilities are given. -/
  exported : NameSet
  /-- The variables that must not change. -/
  fixed : NameSet
  /-- Its functions. -/
  functions : NameMap Function
  /-- The directory that it is in, as it was named. -/
  directory : String
  /-- The channels that its streams lead to. -/
  streams : List (Nat × Nat)
  /-- The status of the last command. -/
  status : Nat
  /-- The number of lines in front of the text that is run. -/
  base : Nat
  /-- The line of the last command in that text. -/
  line : Nat
  /-- Where it goes on. -/
  flow : Flow
  /-- The number of loops around the command. -/
  loops : Nat
  /-- The letters of the options that are set. -/
  options : List Char
  /-- What it does when it gets a signal or ends. -/
  traps : NameMap String
  /-- The variables that the active functions have made their own, for each function. -/
  frames : List (List Saved)
  /-- The utility of the shell that runs the text, as messages name it. -/
  caller : String
  /-- The commands that are not waited for, in order. -/
  jobs : List Job
  /-- The number of letters of an argument that have been read as options. -/
  lettersRead : Nat
  /-- Whether it is a part of a script that runs on its own. -/
  isInner : Bool
  /-- The signals that the script has got and not heeded yet. -/
  signals : List Nat
  /-- The status that it ends with when an action for a signal ends it. -/
  ownStatus : Option Nat

namespace Process

/-- The number that a script goes by. -/
def number : Nat := 4242

/-- The directories in which utilities are looked for at first. -/
def defaultPath : String := "/usr/local/sbin:/usr/local/bin:/usr/sbin:/usr/bin:/sbin:/bin"

/-- The characters that end fields at first. -/
def defaultEnds : String := " \t\n"

/-- The state in which a script starts, given the variables of its environment. -/
def start (m : Machine) (streams : List (Nat × Nat)) (environment : List (String × String))
    (name : String) (arguments : List String) : Process :=
  let directory := match environment.lookup "PWD" with
    | some path =>
      let place := (m.files.find (decode path)).toOption.map Prod.fst
      if place == some m.files.current && path.startsWith "/" then path
      else encode m.files.current.path
    | none => encode m.files.current.path
  let usual := [("PATH", defaultPath), ("PS1", "$ "), ("PS2", "> "), ("PS4", "+ ")]
  let own := [("IFS", defaultEnds), ("OPTIND", "1"), ("PPID", (number - 1).repr),
    ("PWD", directory)]
  { m with
    name := name
    arguments := arguments
    bindings := (usual ++ environment ++ own).foldl (fun b (n, v) => b.insert n v) NameMap.empty
    exported := NameSet.ofList ("PWD" :: environment.map Prod.fst)
    fixed := NameMap.empty
    functions := NameMap.empty
    directory := directory
    streams := streams
    status := 0, base := 0, line := 0, flow := .onward, loops := 0
    options := [], traps := NameMap.empty, frames := [], caller := "", jobs := []
    lettersRead := 0, isInner := false, signals := [], ownStatus := none }

/-- The channel that a stream leads to. -/
def streamChannel? (p : Process) (stream : Nat) : Option Nat := p.streams.lookup stream

/-- Sends a stream to a channel. -/
def send (p : Process) (stream channel : Nat) : Process :=
  { p with streams := (stream, channel) :: p.streams.filter fun s => s.1 != stream }

/-- Closes a stream. -/
def closeStream (p : Process) (stream : Nat) : Process :=
  { p with streams := p.streams.filter fun s => s.1 != stream }

/-- Changes files and channels. -/
def withMachine (p : Process) (m : Machine) : Process := { p with toMachine := m }

/-- Succeeds. -/
def succeed (p : Process) : Process := { p with status := 0 }

/-! ## Writing -/

/-- Writes a text to a stream; the status tells when that is impossible. -/
def writeTo (p : Process) (stream : Nat) (text : String) : Process :=
  if text.isEmpty then p
  else
    match (p.streamChannel? stream).bind fun n => p.toMachine.write n text with
    | some m => p.withMachine m
    | none => if stream == 2 then p else { p with status := 1 }

/-- How a message of the shell itself starts: the script, the line and the utility that it comes
from. -/
def teller (p : Process) : String :=
  p.name ++ ": " ++ (p.base + p.line).repr ++ ": "
    ++ if p.caller.isEmpty then "" else p.caller ++ ": "

/-- Writes a message and goes on. -/
def complain (p : Process) (status : Nat) (message : String) : Process :=
  { p.writeTo 2 (p.teller ++ message ++ "\n") with status := status }

/-- Writes a message and ends. -/
def fail (p : Process) (message : String) : Process :=
  { p.complain 2 message with flow := .failing }

/-- Ends without a word, since it is too deep in itself. -/
def giveUp (p : Process) : Process := { p with flow := .killed 11, traps := NameMap.empty }

/-! ## Parameters -/

/-- Whether an option is set. -/
def isSet (p : Process) (letter : Char) : Bool := p.options.contains letter

/-- Sets a variable, unless it must not change. -/
def assign (p : Process) (name value : String) : Process :=
  if p.fixed.contains name then p.fail (name ++ ": is read only")
  else
    { p with
      bindings := p.bindings.insert name value
      exported := if p.isSet 'a' then p.exported.add name else p.exported
      lettersRead := if name == "OPTIND" then 0 else p.lettersRead }

/-- The order in which the letters of options are shown. -/
def optionLetters : String := "efIimnsxvVECabu"

/-- The values of a parameter; several only for all arguments. -/
def values (p : Process) (name : String) : List String :=
  match name with
  | "@" | "*" => p.arguments
  | "#" => [p.arguments.length.repr]
  | "?" => [p.status.repr]
  | "$" => [number.repr]
  | "0" => [p.name]
  | "!" => if p.jobs.isEmpty then [] else [(number + p.jobs.length).repr]
  | "-" => [String.ofList (optionLetters.toList.filter p.options.contains)]
  | name =>
    match Text.digits? name.toList with
    | some n => (p.arguments[n - 1]?).toList
    | none => (p.bindings.get? name).toList

/-- The characters that end fields. -/
def fieldEnds (p : Process) : String := (p.bindings.get? "IFS").getD defaultEnds

/-- The text between arguments that are joined: the first of the characters that end fields. -/
def joint (p : Process) : String := String.ofList (p.fieldEnds.toList.take 1)

/-- The value of a parameter as one text. -/
def text (p : Process) (name : String) : String := p.joint.intercalate (p.values name)

/-- Whether a parameter has a value. With `whenEmpty`, an empty value does not count. -/
def has (p : Process) (whenEmpty : Bool) (name : String) : Bool :=
  (p.values name).any fun value => !(whenEmpty && value.isEmpty)

/-- The variables that utilities are given. -/
def environment (p : Process) : List (String × String) :=
  p.exported.names.filterMap fun name => (p.bindings.get? name).map fun value => (name, value)

/-! ## Utilities -/

/-- What a utility that is called by a name starts from. -/
def scene (p : Process) (called : String) : Scene :=
  let input := (p.streamChannel? 0).getD p.channels.size
  { called := called
    files := p.files
    input := p.toMachine.rest input
    seekable := p.toMachine.isSeekable input
    teller := { p with caller := called }.teller
    environment := p.environment }

/-- Adds what a utility does. -/
def apply (p : Process) (e : Effect) : Process :=
  let p := { p with files := e.files, status := e.status }
  let p := match e.left, p.streamChannel? 0 with
    | some left, some n => p.withMachine (p.toMachine.leave n left)
    | _, _ => p
  e.chunks.foldl (fun p c => p.writeTo (if c.isError then 2 else 1) c.text) p

/-! ## Parts that run on their own -/

/-- The state of a part of a script that runs on its own. What is to be done at the end or on a
signal is forgotten, unless the signal is ignored. -/
def inside (p : Process) : Process :=
  { p with
    flow := .onward, loops := 0, jobs := [], isInner := true, signals := []
    traps := ⟨p.traps.entries.filter fun e => e.2.isEmpty,
      List.Pairwise.filter _ p.traps.sorted⟩ }

/-- The status that it ends with. -/
def lastStatus (p : Process) : Nat :=
  match p.flow with
  | .killed signal => 128 + signal
  | _ => p.status % 256

/-- The state behind a part that ran on its own and leaves the files and its status. -/
def back (p inner : Process) : Process :=
  { p with
    files := { inner.files with current := p.files.current }
    channels := inner.channels
    status := inner.lastStatus
    signals := p.signals ++ if inner.isInner then inner.signals else [] }

/-- Runs the commands that are not waited for. -/
def settle (p : Process) : Process :=
  p.jobs.foldl (fun p job =>
    match job with
    | .done _ => { p with jobs := p.jobs ++ [job] }
    | .waiting go =>
      let (status, m) := go p.toMachine
      { p.withMachine { m with files := { m.files with current := p.files.current } } with
        jobs := p.jobs ++ [.done status] }) { p with jobs := [] }

end Process

end ProofScript.Shell
