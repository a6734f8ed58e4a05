import ProofScript.Shell.Lookup
import ProofScript.Shell.Naming
import ProofScript.Shell.Requests
import ProofScript.Shell.Stream
import ProofScript.Shell.System
import ProofScript.Verifier

/-!
# Running shell scripts

An evaluator of shell scripts, so that a script can stand in for a verifier. It runs for a bounded
number of nested steps, and each loop for a bounded number of rounds.
-/

namespace ProofScript.Shell

/-! ## Words of commands -/

/-- The utilities whose arguments can be assignments. -/
def declaringUtilities : List String := ["export", "readonly", "local"]

/-- Whether the words of a command so far say that the next ones can be assignments. -/
def Process.isDeclaring (p : Process) (words : List String) : Bool :=
  match words.dropWhile (· == "command") with
  | name :: _ => declaringUtilities.contains name && !p.functions.contains name
  | [] => false

/-- Expands a word, which stays one text when it is an assignment behind a utility for them. -/
def expandOperand (run : Substitute) (done : List String) (w : Word) (p : Process) :
    List String × Process :=
  match if p.isDeclaring done then assignment? w else none with
  | some (name, value) =>
    let (text, p) := expandText run (Word.atHomes p value) p
    ([name ++ "=" ++ text], p)
  | none => expandWord run w p

/-- Expands the words of a command. -/
def expandCommand (run : Substitute) : List Word → (done : List String) → Process →
    List String × Process
  | [], done, p => (done, p)
  | w :: ws, done, p =>
    let (texts, p) := expandOperand run done w p
    if p.flow != .onward then (done, p) else expandCommand run ws (done ++ texts) p

/-- Gives values to variables, as a command in front of which they stand needs them. -/
def assignAll (run : Substitute) (exports : Bool) : List (String × Word) → Process →
    List String × Process
  | [], p => ([], p)
  | (name, w) :: rest, p =>
    let (value, p) := expandText run (Word.atHomes p w) p
    if p.flow != .onward then ([], p)
    else
      let p := p.assign name value
      if p.flow != .onward then ([], p)
      else
        let p := if exports then { p with exported := p.exported.add name } else p
        let (lines, p) := assignAll run exports rest p
        ((name ++ "=" ++ value) :: lines, p)

/-- Whether any word of a command holds the output of a script. -/
def holdOutput (assignments : List (String × Word)) (words : List Word)
    (redirects : List Redirect) : Bool :=
  (assignments.map Prod.snd ++ words ++ redirects.map Redirect.target).any Word.holdsOutput

/-- The command of the first pattern that a text matches. -/
def chosen? (run : Substitute) (text : String) :
    List (List Word × Cmd) → Process → Option Cmd × Process
  | [], p => (none, p)
  | (patterns, body) :: arms, p =>
    let (hit, p) := patterns.foldl (fun (hit, p) w =>
      if hit || p.flow != .onward then (hit, p)
      else
        let (cs, p) := expandField run w p
        ((wordPattern (cs.length + 1) cs).matchesAll text.toList, p)) (false, p)
    if p.flow != .onward then (none, p)
    else if hit then (some body, p)
    else chosen? run text arms p

/-! ## Loops -/

/-- The number of rounds after which a loop is given up. -/
def maxRounds : Nat := 200000

/-- Runs a command for each of some values. -/
def forEach (body : Process → Process) (name : String) : List String → Process → Process
  | [], p => p
  | value :: values, p =>
    let (p, goesOn) := (body (p.assign name value)).afterRound
    if goesOn then forEach body name values p else p

/-- Runs a command as long as another one succeeds, or fails with `untilSuccess`. The status of the
loop is that of the last round. -/
def repeatedly (condition body : Process → Process) (untilSuccess : Bool) :
    (rounds : Nat) → (last : Nat) → Process → Process
  | 0, _, p => p.giveUp
  | rounds + 1, last, p =>
    let q := condition p
    if q.flow = .continuing 0 then
      repeatedly condition body untilSuccess rounds last { q with flow := .onward }
    else if q.flow != .onward then
      if q.flow = .returning then q else { q.afterRound.1 with status := last }
    else if (q.status == 0) == untilSuccess then { q with status := last }
    else
      let (q, goesOn) := (body q).afterRound
      if goesOn then repeatedly condition body untilSuccess rounds q.status q else q

/-! ## States -/

/-- Whether nothing is done by a command. -/
def Cmd.isNothing : Cmd → Bool
  | .nothing => true
  | .line _ a => a.isNothing
  | .sequence a b => a.isNothing && b.isNothing
  | _ => false

namespace Process

/-- Ends the script behind a command that has failed, when that is asked for. -/
def checked (p : Process) (tested : Bool) : Process :=
  if p.isSet 'e' && !tested && p.status != 0 && p.flow = .onward then { p with flow := .ending }
  else p

/-- Goes on behind an error. -/
def forgiven (p : Process) : Process := if p.flow = .failing then { p with flow := .onward } else p

/-- Tells a command before it is run, when that is asked for. -/
def trace (p : Process) (stream : Option Nat) (words : List String) : Process :=
  if p.isSet 'x' && !words.isEmpty then
    match stream.bind fun n => p.toMachine.write n (p.text "PS4" ++ " ".intercalate words ++ "\n")
    with
    | some m => p.withMachine m
    | none => p
  else p

/-- Lets streams lead again where they led before. -/
def streamsBack (p before : Process) (redirects : List Redirect) : Process :=
  redirects.foldl (fun p r =>
    match before.streamChannel? r.stream with
    | some n => p.send r.stream n
    | none => p.closeStream r.stream) p

/-- Whether a text can be written to a stream. -/
def isWritable (p : Process) (stream : Nat) : Bool :=
  ((p.streamChannel? stream).bind fun n => p.toMachine.write n "").isSome

/-- Adds what a utility does, and complains when its output has nowhere to go. -/
def applyFully (p : Process) (e : Effect) (complaint : String) : Process :=
  let q := p.apply e
  if e.chunks.any (fun c => !c.isError && !c.text.isEmpty) && !p.isWritable 1 then
    { q.writeTo 2 complaint with status := 1 }
  else q

/-- The state behind a program that ran, which tells by which signal it was ended. -/
def afterChild (p inner : Process) : Process :=
  match inner.flow with
  | .killed signal => (p.back inner).writeTo 2 (deathMessage signal)
  | _ => p.back inner

/-- Reads all of its input. -/
def takeInput (p : Process) : String × Process :=
  ((p.scene "").inputText,
    match p.streamChannel? 0 with
    | some n => p.withMachine (p.toMachine.leave n "")
    | none => p)

/-- Takes other variables. -/
def withEnvironment (p : Process) (environment : List (String × String)) : Process :=
  { p with
    bindings := environment.foldl (fun b (n, v) => b.insert n v) NameMap.empty
    exported := NameSet.ofList (environment.map Prod.fst) }

/-- A message of a program about a command that it cannot run. -/
def cannotRun (p : Process) (called message : String) (fault : FileFault) : Process :=
  { p.writeTo 2 (called ++ ": " ++ message ++ ": " ++ faultText fault ++ "\n") with
    status := launchStatus fault }

/-- The file of a name that a script reads in: one with a slash is a path, and any other name is
looked for where programs are. -/
def sourcePath (p : Process) (name : String) : Except String String :=
  if name.toList.contains '/' then .ok name
  else
    match (p.pathsOf name).find? fun path => p.files.isFile (decode path) with
    | some path => .ok path
    | none => .error (name ++ ": not found")

end Process

/-- The state of a walk through files. -/
structure Lookup where
  /-- The process that it changes. -/
  process : Process
  /-- Commands that are run at the end, each with one of its paths. -/
  collected : List (List String × String)
  /-- Whether anything has failed. -/
  failed : Bool

/-- The commands that are run at the end, with all of their paths. -/
def Lookup.commands (state : Lookup) : List (List String) :=
  (state.collected.map Prod.fst).eraseDups.map fun words =>
    words ++ (state.collected.filter fun c => c.1 == words).map Prod.snd

/-! ## Commands -/

mutual

/-- Runs a text in the script itself, with so many lines in front of it. -/
def runText (fuel : Nat) (tested : Bool) (base : Nat) (source : String) (p : Process) : Process :=
  match fuel with
  | 0 => p.giveUp
  | fuel + 1 =>
    let a := Cmd.ofText source
    let q := run fuel tested a { p with base := base }
    { (if a.isNothing then q.succeed else q) with base := p.base, line := p.line }

/-- The output of a script, without the line feeds at its end. -/
def substituted (fuel : Nat) (source : String) (line : Option Nat) (p : Process) :
    String × Process :=
  match fuel with
  | 0 => ("", p.giveUp)
  | fuel + 1 =>
    let (n, m) := p.toMachine.add (.sink [])
    let base := line.elim 0 fun n => p.base + (if n = 0 then p.line else n) - 1
    let inner := finish fuel (runText fuel false base source ((p.withMachine m).inside.send 1 n))
    let text := (inner.toMachine.written n).toList.filter (· != '\x00')
    (String.ofList (text.reverse.dropWhile (· == '\n')).reverse, p.afterChild inner)

/-- Runs what is to be run at the end of a script. -/
def finish (fuel : Nat) (p : Process) : Process :=
  let p := p.settle
  match fuel, if p.flow matches .killed _ then none else p.action? 0 with
  | 0, _ | _, none => p
  | fuel + 1, some action =>
    let q := runText fuel false 0 action
      { p with flow := .onward, traps := p.traps.erase (signalName 0), ownStatus := some p.status }
    if q.flow = .ending then q.settle else { q.settle with status := p.status }

/-- Does what is to be done on the signals that the script has got. -/
def heed (fuel : Nat) (p : Process) : Process :=
  match fuel, p.signals with
  | 0, _ | _, [] => p
  | fuel + 1, signal :: signals =>
    if p.isInner || p.flow != .onward then p
    else
      let p := { p with signals := signals }
      match if signal == 9 then none else p.action? signal with
      | none =>
        if harmlessSignals.contains signal then heed fuel p else { p with flow := .killed signal }
      | some action =>
        if action.isEmpty then heed fuel p
        else
          let q := runText fuel false 0 action { p with ownStatus := some p.status }
          let q := { q with
            ownStatus := p.ownStatus
            status := if q.flow = .onward then p.status else q.status }
          heed fuel q

/-- Runs a script in a process of its own. -/
def launch (fuel : Nat) (options : List Char) (name : String) (arguments : List String)
    (source : String) (p : Process) : Process :=
  match fuel with
  | 0 => p.giveUp
  | fuel + 1 =>
    let start := Process.start p.toMachine p.streams p.environment name arguments
    finish fuel (runText fuel false 0 source { start with options := options })

/-- Runs a shell with words. -/
def shell (fuel : Nat) (words : List String) (p : Process) : Process :=
  match fuel with
  | 0 => p.giveUp
  | fuel + 1 =>
    let called := words.headD ""
    let refused (message : String) : Process :=
      { p.writeTo 2 (called ++ ": 0: " ++ message ++ "\n") with status := 2 }
    match Setup.ofArguments true [] words.tail with
    | .error message => refused message
    | .ok s =>
      match s.isCommand, s.rest with
      | true, [] => refused "-c requires an argument"
      | true, source :: rest => launch fuel s.options (rest.headD called) rest.tail source p
      | false, rest =>
        match if s.options.contains 's' then [] else rest with
        | [] =>
          let (source, p) := p.takeInput
          launch fuel (s.set true 's').options called rest source p
        | path :: rest =>
          match (p.scene called).read path with
          | .ok source => launch fuel s.options path rest source p
          | .error fault => refused (openFault "open" path "No such file" fault)

/-- Runs a command by the program that it is found to be, or tells why that is impossible. -/
def program (fuel : Nat) (l : Launch) (p : Process) : Process :=
  match fuel with
  | 0 => p.giveUp
  | fuel + 1 =>
    let called := l.words.headD ""
    let arguments := l.words.tail
    let s := p.scene called
    let following (failure : String → String) (words : List String) (p : Process) : Process :=
      match p.launchOf words with
      | .ok l => program fuel l p
      | .error fault => p.cannotRun called (failure (words.headD "")) fault
    match l.program, wrapper? l.program with
    | _, some k =>
      match k.words s arguments with
      | .ok words => following k.failure words p
      | .error e => p.apply e
    | "env", _ =>
      match EnvRequest.ofArguments s arguments with
      | .error e => p.apply e
      | .ok r =>
        let p := p.withEnvironment r.environment
        if r.words.isEmpty then p.apply (printenv (p.scene called) [])
        else following (fun name => "'" ++ name ++ "'") r.words p
    | "xargs", _ =>
      match XargsRequest.ofArguments s arguments with
      | .error e => p.apply e
      | .ok r =>
        let p := p.takeInput.2.openChannel 0 .null
        let (status, p) := r.commands.foldl (fun (status, q) words =>
          if 123 < status then (status, q)
          else
            let q := if r.told then q.writeTo 2 (" ".intercalate words ++ "\n") else q
            let name := words.headD ""
            match q.launchOf words with
            | .error fault => ((launchStatus fault), q.cannotRun called name fault)
            | .ok l =>
              let q := program fuel l q
              match q.lastStatus with
              | 0 => (status, q)
              | 255 => (124, q.writeTo 2
                  (called ++ ": " ++ name ++ ": exited with status 255; aborting\n"))
              | n => (if 125 < n then n else 123, q)) (0, p)
        { p with status := status }
    | "find", _ =>
      match LookupRequest.ofArguments arguments with
      | .error message => p.apply (.blame s 1 message)
      | .ok r =>
        let quoted (name : String) : String := "'" ++ name ++ "'"
        let act (a : LookupAction) : Lookup → Bool × Lookup := fun state =>
          match a with
          | .write text => (true, { state with process := state.process.writeTo 1 text })
          | .run words =>
            let q := following quoted words state.process
            (q.lastStatus == 0, { state with process := q })
          | .collect words path => (true, { state with
              collected := state.collected ++ [(words, path)] })
          | .remove path =>
            let q := state.process.apply (rm (state.process.scene called) ["-d", path])
            (q.status == 0, { state with process := q, failed := state.failed || q.status != 0 })
        let complain (message : String) (state : Lookup) : Lookup := { state with
          process := state.process.writeTo 2 (called ++ ": " ++ message ++ "\n")
          failed := true }
        let state := r.walk s act complain ⟨p, [], false⟩
        let (p, failed) := state.commands.foldl (fun (p, failed) words =>
          let q := following quoted words p
          (q, failed || q.lastStatus != 0)) (state.process, state.failed)
        { p with status := if failed then 1 else 0 }
    | name, _ =>
      if shellNames.contains name then shell fuel l.words p
      else
        match program? name with
        | some u => p.applyFully (u s arguments) (called ++ ": write error: Bad file descriptor\n")
        | none => { p with status := 127 }

/-- Runs a command that goes by a name, which can be that of a function with `asFunction`. -/
def call (fuel : Nat) (tested asFunction : Bool) (name : String) (arguments : List String)
    (p : Process) : Process :=
  match fuel with
  | 0 => p.giveUp
  | fuel + 1 =>
    let asCaller (f : Process → Process) : Process :=
      { f { p with caller := name } with caller := p.caller }
    match if asFunction then p.functions.get? name else none with
    | some f =>
      let q := run fuel tested f.body { p with
        arguments := arguments, loops := 0, base := f.base, frames := [] :: p.frames }
      let q := if q.flow = .onward || q.flow = .returning then q.afterReturn.leaveFrame else q
      { q with
        arguments := p.arguments, loops := p.loops, base := p.base, line := p.line }
    | none =>
      match name, arguments with
      | "eval", arguments =>
        asCaller fun p => runText fuel tested 0 (" ".intercalate arguments) p
      | ".", [] => p.succeed
      | ".", file :: _ =>
        asCaller fun p =>
          match p.sourcePath file with
          | .error message => p.fail message
          | .ok path =>
            match (p.scene path).read path with
            | .error fault => p.fail (openFault "open" path "No such file" fault)
            | .ok source => (runText fuel tested 0 source { p with caller := path }).afterReturn
      | "exec", [] => p.succeed
      | "exec", words =>
        let p := p.settle
        let q := match p.launchOf words with
          | .ok l => p.back (program fuel l p.inside)
          | .error fault =>
            { p with caller := name }.complain (launchStatus fault)
              (words.headD "" ++ ": " ++ launchFault fault)
        { q with flow := .ending, caller := p.caller, traps := NameMap.empty }
      | "type", names => asCaller fun p => p.describeAll names
      | "hash", names => asCaller fun p => p.lookUp (names.filter fun a => !a.startsWith "-")
      | "command", arguments =>
        let q := asCaller fun p => p.withOptions "pvV" "" arguments fun o =>
          match o.last? "vV", o.operands with
          | some 'v', name :: _ => p.describe true name
          | some _, names => p.describeAll (names.take 1)
          | none, [] => p.succeed
          | none, name :: rest => call fuel tested false name rest { p with caller := "" }
        q.forgiven
      | name, arguments =>
        match control? name, ownUtility? name with
        | some f, _ =>
          let q := asCaller fun p => f p arguments
          if specialUtilities.contains name then q else q.forgiven
        | none, some u =>
          p.applyFully (u (p.scene name) arguments)
            ({ p with caller := name }.teller ++ name ++ ": I/O error\n")
        | none, none =>
          let p := p.settle
          match p.launchOf (name :: arguments) with
          | .ok l => p.afterChild (program fuel l p.inside)
          | .error fault =>
            p.complain (if name.toList.contains '/' then launchStatus fault else 127)
              (name ++ ": " ++ launchFault fault)

/-- Runs a simple command. -/
def perform (fuel : Nat) (tested : Bool) (assignments : List (String × Word)) (words : List Word)
    (redirects : List Redirect) (p : Process) : Process :=
  match fuel with
  | 0 => p.giveUp
  | fuel + 1 =>
    let run := substituted fuel
    let (fields, p) := expandCommand run words [] p
    if p.flow != .onward then p
    else
      let (targets, p) := expandTargets run redirects p
      if p.flow != .onward then p
      else
        let isSpecial := fields.head?.any fun name =>
          specialUtilities.contains name && !p.functions.contains name
        let (q, opened) := p.redirectAll targets
        if !opened then
          let q := q.streamsBack p redirects
          if isSpecial then { q with flow := .failing } else q
        else
          let stays := fields.isEmpty || isSpecial
          let old := if stays then [] else assignments.map fun a => p.saved a.1
          let (lines, q) := assignAll run (!stays || fields.head? == some "exec") assignments q
          if q.flow != .onward then q.streamsBack p redirects
          else
            let q := q.trace (p.streamChannel? 2) (lines ++ fields)
            let q := match fields with
              | [] => if holdOutput assignments words redirects then q else q.succeed
              | name :: arguments => call fuel tested true name arguments q
            let q := if fields == ["exec"] then q else q.streamsBack p redirects
            old.foldr (fun s q => q.restore s) q

/-- Runs a command. With `tested`, its status is looked at, so that a failure ends nothing. -/
def run (fuel : Nat) (tested : Bool) (a : Cmd) (p : Process) : Process :=
  match fuel with
  | 0 => p.giveUp
  | fuel + 1 =>
    if p.flow != .onward || p.isSet 'n' then p
    else
      match a with
      | .nothing => p
      | .broken message => p.fail message
      | .line n a => run fuel tested a { p with line := n }
      | .simple assignments words redirects =>
        heed fuel ((perform fuel tested assignments words redirects p).checked tested)
      | .pipe a b =>
        let (n, m) := p.settle.toMachine.add (.sink [])
        let p := p.settle.withMachine m
        let left := finish fuel (run fuel tested a (p.inside.send 1 n))
        let p := p.back left
        let start := p.inside.openChannel 0 (.source (p.toMachine.written n))
        let right := finish fuel (run fuel tested b start)
        heed fuel ((p.back right).checked tested)
      | .negated a =>
        let p := run fuel true a p
        if p.flow != .onward then p else { p with status := if p.status = 0 then 1 else 0 }
      | .both a b =>
        let p := run fuel true a p
        if p.status = 0 then run fuel tested b p else p
      | .either a b =>
        let p := run fuel true a p
        if p.status = 0 then p else run fuel tested b p
      | .sequence a b => run fuel tested b (run fuel tested a p)
      | .background a =>
        let start := p.inside
        let go (m : Machine) : Nat × Machine :=
          let files := { m.files with current := start.files.current }
          let start := (start.withMachine { m with files := files }).openChannel 0 .null
          let q := finish fuel (run fuel false a start)
          (q.lastStatus, q.toMachine)
        { p.succeed with jobs := p.jobs ++ [.waiting go] }
      | .choice condition a b =>
        let p := run fuel true condition p
        if p.flow != .onward then p
        else if p.status = 0 then run fuel tested a p
        else run fuel tested b p.succeed
      | .loop untilSuccess condition body =>
        let q := repeatedly (run fuel true condition) (run fuel tested body) untilSuccess maxRounds
          0 { p with loops := p.loops + 1 }
        { q with loops := p.loops }
      | .each name words body =>
        let (fields, q) := expandAll (substituted fuel) words p
        if q.flow != .onward then q
        else
          let q := forEach (run fuel tested body) name fields
            { q.succeed with loops := p.loops + 1 }
          { q with loops := p.loops }
      | .select word arms =>
        let (text, p) := expandText (substituted fuel) word p
        if p.flow != .onward then p
        else
          match chosen? (substituted fuel) text arms p with
          | (some body, p) => if body.isNothing then p.succeed else run fuel tested body p
          | (none, p) => if p.flow != .onward then p else p.succeed
      | .redirected a redirects =>
        let (targets, p) := expandTargets (substituted fuel) redirects p
        if p.flow != .onward then p
        else
          let (q, opened) := p.redirectAll targets
          if !opened then (q.streamsBack p redirects).checked tested
          else ((run fuel tested a q).streamsBack p redirects).checked tested
      | .nested a =>
        let p := p.settle
        heed fuel ((p.back (finish fuel (run fuel tested a p.inside))).checked tested)
      | .define name body =>
        { p.succeed with functions := p.functions.insert name ⟨body, p.base⟩ }

end

/-! ## Programs as verifiers -/

/-- The number of nested steps after which a script is given up. -/
def maxSteps : Nat := 20000

/-- The first line of a shell script. -/
def firstLine : String := "#!/bin/sh\n"

/-- Runs the file of a path as a program, without any input. -/
def runner : Runner := fun path arguments => do
  let w ← get
  let words := (path :: arguments).map encode
  let l ← Launch.ofPath w maxInterpreters (encode path) words
  let m : Machine := ⟨w, #[.null, .sink [], .sink []]⟩
  let start := Process.start m [(0, 0), (1, 1), (2, 2)] systemVariables "" []
  let p := program maxSteps l start
  set { p.files with current := w.current }
  return {
    accepted := p.lastStatus = 0
    out := decode (p.toMachine.written 1)
    err := decode (p.toMachine.written 2) }

end ProofScript.Shell
