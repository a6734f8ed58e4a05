import ProofScript.Shell.Process
import ProofScript.Text.Case

/-!
# Signals

The signals that scripts send, what they do when they get one, and how their end by a signal is
told.
-/

namespace ProofScript.Shell

/-- The names of signals by their numbers; the end of a script counts as number zero. -/
def signalNames : List String :=
  ["EXIT", "HUP", "INT", "QUIT", "ILL", "TRAP", "ABRT", "BUS", "FPE", "KILL", "USR1", "SEGV",
    "USR2", "PIPE", "ALRM", "TERM", "16", "CHLD", "CONT", "STOP", "TSTP", "TTIN", "TTOU",
    "URG", "XCPU", "XFSZ", "VTALRM", "PROF", "WINCH", "IO", "PWR", "SYS"]

/-- The number of signals, of which not all have a name. -/
def signalCount : Nat := 65

/-- The name of a signal; one without a name goes by its number. -/
def signalName (n : Nat) : String := signalNames.getD n n.repr

/-- The signal that a text tells by its number or its name. -/
def signal? (text : String) : Option Nat :=
  match Text.digits? text.toList with
  | some n => if n < signalCount then some n else none
  | none => signalNames.findIdx? fun name => Text.lower name == Text.lower text

/-- The signals that do nothing unless something is to be done. -/
def harmlessSignals : List Nat := [17, 18, 23, 28]

/-- What is told about a process that was ended by a signal. -/
def deathMessage (signal : Nat) : String :=
  match signal with
  | 1 => "Hangup\n"
  | 2 | 13 => ""
  | 3 => "Quit\n"
  | 6 => "Aborted\n"
  | 9 => "Killed\n"
  | 10 => "User defined signal 1\n"
  | 11 => "Segmentation fault\n"
  | 12 => "User defined signal 2\n"
  | 14 => "Alarm clock\n"
  | 15 => "Terminated\n"
  | n => "Signal " ++ n.repr ++ "\n"

/-- A text in single quotes. -/
def singleQuoted (s : String) : String := "'" ++ s.replace "'" "'\"'\"'" ++ "'"

namespace Process

/-- What a script does on a signal. -/
def action? (p : Process) (signal : Nat) : Option String := p.traps.get? (signalName signal)

/-- Lists what is done on signals. -/
def trapList (p : Process) : String :=
  String.join ((List.range signalCount).filterMap fun n => (p.action? n).map fun action =>
    "trap -- " ++ singleQuoted action ++ " " ++ signalName n ++ "\n")

/-- Says for signals what is done on them; without an action, what is usual. -/
def setTraps (action : Option String) : List String → Process → Process
  | [], p => p.succeed
  | name :: names, p =>
    match signal? name with
    | none => { p.writeTo 2 ("trap: " ++ name ++ ": bad trap\n") with status := 1 }
    | some n =>
      let traps := match action with
        | none => p.traps.erase (signalName n)
        | some action => p.traps.insert (signalName n) action
      setTraps action names { p with traps := traps }

/-- Says what is done on signals and at the end. -/
def trap (p : Process) (arguments : List String) : Process :=
  match if arguments.head? == some "--" then arguments.tail else arguments with
  | [] => p.succeed.writeTo 1 p.trapList
  | [name] => setTraps none [name] p
  | action :: names =>
    if (Text.digits? action.toList).isSome then setTraps none (action :: names) p
    else setTraps (if action == "-" then none else some action) names p

/-- Sends a signal to the process or the job of a number; nothing when there is none. -/
def signalTo (p : Process) (signal : Nat) (target : Nat) : Option Process :=
  if target == 0 || target == number then
    some (if signal == 0 then p else { p with signals := p.signals ++ [signal] })
  else if target == number - 1 then some p
  else if number < target && target ≤ number + p.jobs.length then
    let stopped := p.jobs.mapIdx fun i job =>
      match job with
      | .waiting _ =>
        if number + i + 1 == target && signal != 0 && !harmlessSignals.contains signal then
          Job.done (128 + signal)
        else job
      | .done _ => job
    some { p with jobs := stopped }
  else none

/-- The number that a target of a signal stands for. -/
def target? (p : Process) (text : String) : Option Nat :=
  match text.toList with
  | '%' :: cs => (Text.digits? cs).elim (some (number + p.jobs.length)) fun n => some (number + n)
  | '-' :: cs => Text.digits? cs
  | cs => Text.digits? cs

/-- Sends a signal to some targets. -/
def signalAll (signal : Nat) : List String → Process → Process
  | [], p => p
  | text :: rest, p =>
    match p.target? text with
    | none => p.fail ("Illegal number: " ++ text)
    | some n =>
      match p.signalTo signal n with
      | some p => signalAll signal rest p
      | none => signalAll signal rest (p.complain 1 "No such process\n")

/-- How the utility that sends signals is used. -/
def killUsage : String :=
  "Usage: kill [-s sigspec | -signum | -sigspec] [pid | job]... or\nkill -l [exitstatus]"

/-- Lists the names of signals, or writes the one that a status tells. -/
def listSignals (p : Process) (arguments : List String) : Process :=
  match arguments with
  | [] => p.succeed.writeTo 1
      ("0\n" ++ String.join ((List.range signalCount).tail.map fun n => signalName n ++ "\n"))
  | text :: _ =>
    match Text.digits? text.toList with
    | none => p.fail ("Illegal number: " ++ text)
    | some n =>
      let n := if 128 < n then n - 128 else n
      if 0 < n && n < signalCount then p.succeed.writeTo 1 (signalName n ++ "\n")
      else p.fail ("invalid signal number or exit status: " ++ text)

/-- Sends a signal that is told by the first argument, or else the usual one. -/
def kill (p : Process) (arguments : List String) : Process :=
  let sending (signal : Nat) (targets : List String) : Process :=
    if targets.isEmpty then p.fail killUsage else signalAll signal targets p.succeed
  match arguments with
  | [] => p.fail killUsage
  | first :: rest =>
    match first.toList with
    | ['-', 'l'] => p.listSignals rest
    | ['-', 's'] =>
      match rest with
      | [] => p.fail "No arg for -s option"
      | name :: targets =>
        match signal? name with
        | some n => sending n targets
        | none => p.fail ("invalid signal number or name: " ++ name)
    | ['-', '-'] => sending 15 rest
    | '-' :: c :: cs =>
      match signal? (String.ofList (c :: cs)) with
      | some n => sending n rest
      | none => p.fail ("Illegal option -" ++ String.singleton c)
    | _ => sending 15 arguments

end Process

end ProofScript.Shell
