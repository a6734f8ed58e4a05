import ProofScript.Shell.Intake

/-!
# Control of a script

The utilities that change the state of the script itself: where it goes on, its options and
arguments, the directory that it is in and the commands that it does not wait for.
-/

namespace ProofScript.Shell

namespace Process

/-- Goes on with a number that an argument spells; without one, with another number. -/
def withNumber (p : Process) (default : Nat) (arguments : List String) (f : Nat → Process) :
    Process :=
  match arguments with
  | [] => f default
  | a :: _ =>
    match Text.digits? a.toList with
    | some n => f n
    | none => p.fail ("Illegal number: " ++ a)

/-! ## Where it goes on -/

/-- Leaves loops, or goes on with their next rounds. Outside of loops nothing happens. -/
def leaveLoops (p : Process) (arguments : List String) (how : Nat → Flow) : Process :=
  p.withNumber 1 arguments fun n =>
    if n = 0 then p.fail "Illegal number: 0"
    else if p.loops = 0 then p.succeed
    else { p.succeed with flow := how (min n p.loops - 1) }

/-- The state behind a round of a loop, and whether the loop goes on. -/
def afterRound (p : Process) : Process × Bool :=
  match p.flow with
  | .onward => (p, true)
  | .continuing 0 => ({ p with flow := .onward }, true)
  | .breaking 0 => ({ p with flow := .onward }, false)
  | .continuing (n + 1) => ({ p with flow := .continuing n }, false)
  | .breaking (n + 1) => ({ p with flow := .breaking n }, false)
  | .returning | .ending | .failing | .killed _ => (p, false)

/-- The state behind a function or a script that was read in. -/
def afterReturn (p : Process) : Process :=
  if p.flow = .returning then { p with flow := .onward } else p

/-- Ends the script. Without a number, an action for a signal or for the end keeps the status that
the script had before. -/
def leave (p : Process) (arguments : List String) : Process :=
  p.withNumber (p.ownStatus.getD p.status) arguments fun n =>
    { p with status := n, flow := .ending }

/-- Leaves a function or a script that was read in. -/
def giveBack (p : Process) (arguments : List String) : Process :=
  p.withNumber p.status arguments fun n => { p with status := n, flow := .returning }

/-! ## Options and arguments -/

/-- Drops arguments. -/
def shift (p : Process) (arguments : List String) : Process :=
  p.withNumber 1 arguments fun n =>
    if p.arguments.length < n then p.fail "can't shift that many"
    else { p.succeed with arguments := p.arguments.drop n }

/-- The names of options and their letters, in the order in which they are shown. -/
def optionNames : List (String × Char) :=
  [("errexit", 'e'), ("noglob", 'f'), ("ignoreeof", 'I'), ("interactive", 'i'), ("monitor", 'm'),
    ("noexec", 'n'), ("stdin", 's'), ("xtrace", 'x'), ("verbose", 'v'), ("vi", 'V'),
    ("emacs", 'E'), ("noclobber", 'C'), ("allexport", 'a'), ("notify", 'b'), ("nounset", 'u'),
    ("privileged", 'p'), ("nolog", 'L'), ("debug", 'D')]

end Process

/-- What arguments say about the options of a shell. -/
structure Setup where
  /-- The letters of the options that are set. -/
  options : List Char
  /-- Whether the options are to be listed, and whether as commands. -/
  listed : Option Bool
  /-- Whether a script is given as an argument. -/
  isCommand : Bool
  /-- Whether the arguments are replaced even when there are none. -/
  clears : Bool
  /-- The other arguments. -/
  rest : List String

namespace Setup

/-- Sets or clears an option. -/
def set (s : Setup) (value : Bool) (letter : Char) : Setup :=
  let others := s.options.filter (· != letter)
  { s with options := if value then letter :: others else others }

/-- Reads joined letters of options, with the arguments behind them. -/
def readLetters (starting value : Bool) : List Char → List String → Setup → Except String Setup
  | [], arguments, s => .ok { s with rest := arguments }
  | c :: cs, arguments, s =>
    if c == 'c' && starting then
      readLetters starting value cs arguments { s with isCommand := true }
    else if c == 'o' then
      match arguments with
      | [] => readLetters starting value cs [] { s with listed := some (!value) }
      | name :: rest =>
        match Process.optionNames.lookup name with
        | some letter => readLetters starting value cs rest (s.set value letter)
        | none => .error ("Illegal option " ++ (if value then "-o " else "+o ") ++ name)
    else if (Process.optionLetters.toList ++ ['p', 'l']).contains c then
      readLetters starting value cs arguments (s.set value c)
    else .error ("Illegal option " ++ (if value then "-" else "+") ++ String.singleton c)

/-- Reads arguments, of which there are at most so many. -/
def read (starting : Bool) : (fuel : Nat) → List String → Setup → Except String Setup
  | 0, arguments, s => .ok { s with rest := arguments }
  | _, [], s => .ok { s with rest := [] }
  | fuel + 1, a :: rest, s =>
    match a.toList with
    | ['-'] => .ok { (s.set false 'x').set false 'v' with rest := rest }
    | ['-', '-'] => .ok { s with clears := true, rest := rest }
    | '-' :: cs => do
      let s ← readLetters starting true cs rest s
      read starting fuel s.rest s
    | '+' :: cs => do
      let s ← readLetters starting false cs rest s
      read starting fuel s.rest s
    | _ => .ok { s with rest := a :: rest }

/-- Reads arguments, where some options are set at first. -/
def ofArguments (starting : Bool) (options : List Char) (arguments : List String) :
    Except String Setup :=
  read starting arguments.length arguments ⟨options, none, false, false, []⟩

end Setup

namespace Process

/-- The list of options. -/
def optionList (p : Process) (asCommands : Bool) : String :=
  if asCommands then String.join (optionNames.map fun (name, letter) =>
    (if p.isSet letter then "set -o " else "set +o ") ++ name ++ "\n")
  else "Current option settings\n" ++ String.join (optionNames.map fun (name, letter) =>
    name ++ String.ofList (List.replicate (16 - name.length) ' ')
      ++ (if p.isSet letter then "on" else "off") ++ "\n")

/-- Sets options and arguments; without any, writes the variables. -/
def setAll (p : Process) (arguments : List String) : Process :=
  if arguments.isEmpty then
    p.succeed.writeTo 1 (p.declarations "" p.bindings.names)
  else
    match Setup.ofArguments false p.options arguments with
    | .error message => p.fail message
    | .ok s =>
      let p := { p.succeed with
        options := s.options
        arguments := if s.clears || !s.rest.isEmpty then s.rest else p.arguments }
      s.listed.elim p fun asCommands => p.writeTo 1 (p.optionList asCommands)

/-! ## Options of the script -/

/-- Sets the variables that tell about the next option of the script. -/
def tellOption (p : Process) (name : String) (c : Char) (value : Option String)
    (index lettersRead : Nat) (found : Bool) : Process :=
  let p := match value with
    | some v => p.assign "OPTARG" v
    | none => p.unsetVariable "OPTARG"
  let p := (p.assign "OPTIND" index.repr).assign name (String.singleton c)
  if p.flow != .onward then p
  else { p with lettersRead := lettersRead, status := if found then 0 else 1 }

/-- Reads the next option of some arguments into a variable. -/
def nextOption (p : Process) (letters name : String) (all : List String) : Process :=
  let index := ((p.bindings.get? "OPTIND").bind fun v => Text.digits? v.toList).getD 1
  let index := max index 1
  let current := if p.lettersRead = 0 then []
    else ((all[index - 2]?).getD "").toList.drop p.lettersRead
  let finished (index : Nat) : Process :=
    let p := (p.assign "OPTIND" index.repr).assign name "?"
    if p.flow != .onward then p else { p with lettersRead := 0, status := 1 }
  let go (c : Char) (cs : List Char) (index lettersRead : Nat) : Process :=
    let quiet := letters.startsWith ":"
    let lettersRead := if cs.isEmpty then 0 else lettersRead
    match (letters.toList.dropWhile (· == ':')).dropWhile (· != c) with
    | [] =>
      if quiet then p.tellOption name '?' (some (String.singleton c)) index lettersRead true
      else (p.writeTo 2 ("Illegal option -" ++ String.singleton c ++ "\n")).tellOption name '?' none
        index lettersRead true
    | _ :: ':' :: _ =>
      if !cs.isEmpty then p.tellOption name c (some (String.ofList cs)) index 0 true
      else
        match all[index - 1]? with
        | some value => p.tellOption name c (some value) (index + 1) 0 true
        | none =>
          if quiet then p.tellOption name ':' (some (String.singleton c)) index 0 true
          else (p.writeTo 2 ("No arg for -" ++ String.singleton c ++ " option\n")).tellOption name
            '?' none index 0 true
    | _ => p.tellOption name c (some "") index lettersRead true
  match current with
  | c :: cs => go c cs index (p.lettersRead + 1)
  | [] =>
    match ((all[index - 1]?).getD "").toList with
    | ['-', '-'] => finished (index + 1)
    | '-' :: c :: cs => go c cs (index + 1) 2
    | _ => finished index

/-- Reads the next option of the script, or of other arguments, into a variable. -/
def takeOption (p : Process) (arguments : List String) : Process :=
  match arguments with
  | letters :: name :: rest =>
    p.nextOption letters name (if rest.isEmpty then p.arguments else rest)
  | _ => p.fail "Usage: getopts optstring var [arg...]"

/-! ## Surroundings -/

/-- The absolute path of a path whose parents are taken as its text says. -/
def plainPath (dir path : String) : String :=
  let parts := Path.parts (Path.join dir path)
  let back := parts.foldl (fun back part =>
    if part.isEmpty || part == "." then back
    else if part == ".." then back.tail
    else part :: back) ([] : List String)
  "/" ++ "/".intercalate back.reverse

/-- Goes to another directory. -/
def changeDirectory (p : Process) (arguments : List String) : Process :=
  p.withOptions "LP" "" arguments fun o =>
    let old := (p.bindings.get? "OLDPWD").getD ""
    let home := (p.bindings.get? "HOME").getD ""
    let path := match o.operands with
      | [] => home
      | "-" :: _ => if old.isEmpty then p.directory else old
      | path :: _ => path
    if path.isEmpty then p.succeed
    else
      let goal := plainPath p.directory path
      match p.files.find (decode (if o.last? "LP" == some 'P' then path else goal)) with
      | .ok (place, .directory) =>
        let directory := if o.last? "LP" == some 'P' then encode place.path else goal
        let q := { p.succeed with
          files := { p.files with current := place }
          directory := directory
          bindings := (p.bindings.insert "OLDPWD" p.directory).insert "PWD" directory }
        if o.operands.head? == some "-" then q.writeTo 1 (directory ++ "\n") else q
      | _ => p.fail ("can't cd to " ++ path)

/-- Writes the directory that it is in. -/
def writeDirectory (p : Process) (arguments : List String) : Process :=
  p.withOptions "LP" "" arguments fun o =>
    let path := if o.last? "LP" == some 'P' then encode p.files.current.path else p.directory
    p.succeed.writeTo 1 (path ++ "\n")

/-- Waits for commands that go by their numbers, or for all. -/
def wait (p : Process) (arguments : List String) : Process :=
  let p := p.settle
  if arguments.isEmpty then { p.succeed with jobs := p.jobs }
  else arguments.foldl (fun p text =>
    if p.flow != .onward then p
    else
      match p.target? text with
      | none => p.fail ("Illegal number: " ++ text)
      | some n =>
        match if number < n then p.jobs[n - number - 1]? else none with
        | some (.done status) =>
          let message := if 128 < status && status < 128 + 32 then deathMessage (status - 128)
            else ""
          { p.writeTo 2 message with status := status }
        | _ => { p with status := 127 }) p

end Process

/-- The utilities that work on the script itself, by their names. -/
def control? (name : String) : Option (Process → List String → Process) :=
  match name with
  | "exit" => some Process.leave
  | "return" => some Process.giveBack
  | "break" => some fun p arguments => p.leaveLoops arguments .breaking
  | "continue" => some fun p arguments => p.leaveLoops arguments .continuing
  | "shift" => some Process.shift
  | "set" => some Process.setAll
  | "export" => some Process.makeExported
  | "readonly" => some Process.makeFixed
  | "local" => some Process.makeOwn
  | "unset" => some Process.unset
  | "trap" => some Process.trap
  | "read" => some Process.readLine
  | "cd" | "chdir" => some Process.changeDirectory
  | "pwd" => some Process.writeDirectory
  | "kill" => some Process.kill
  | "wait" => some Process.wait
  | "getopts" => some Process.takeOption
  | "jobs" => some fun p _ => p.succeed
  | "fg" | "bg" => some fun p _ => p.fail "No current job"
  | _ => none

/-- The utilities whose assignments stay, and which end the script when they fail. -/
def specialUtilities : List String :=
  [":", ".", "break", "continue", "eval", "exec", "exit", "export", "local", "readonly", "return",
    "set", "shift", "times", "trap", "unset"]

end ProofScript.Shell
