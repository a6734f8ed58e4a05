import ProofScript.Session

/-!
# Command lines

Reading the arguments of the command line. The options of a level come in any order, before or
behind its arguments; a short option can be joined to others and to its value, and a long one to its
value by an equals sign. Behind two dashes every argument stands for itself. Some options belong to
both levels, and then the one given with the command counts.
-/

namespace ProofScript

namespace CommandLine

/-- An option. -/
inductive Mark where
  /-- Log more. -/
  | debug
  /-- Use this manifest. -/
  | config
  /-- Keep the program. -/
  | keepFile
  /-- Print the program. -/
  | verbose
  /-- Use this backend. -/
  | backend
  /-- Look for verifiers in this directory. -/
  | path
  /-- Expect this result. -/
  | expect
  /-- Start from this seed. -/
  | context
  /-- Print the help text. -/
  | help
  /-- Print the version. -/
  | version
  deriving DecidableEq, Repr

namespace Mark

/-- The long name of an option. -/
def long : Mark → String
  | debug => "debug"
  | config => "config"
  | keepFile => "keep-file"
  | verbose => "verbose"
  | backend => "backend"
  | path => "path"
  | expect => "expect"
  | context => "context"
  | help => "help"
  | version => "version"

/-- The short name of an option, if it has one. -/
def short? : Mark → Option Char
  | debug | config | path => none
  | keepFile => some 'k'
  | verbose => some 'v'
  | backend => some 'b'
  | expect => some 'e'
  | context => some 'c'
  | help => some 'h'
  | version => some 'V'

/-- Whether an option has a value. -/
def hasValue : Mark → Bool
  | config | backend | path | expect | context => true
  | debug | keepFile | verbose | help | version => false

/-- Whether an option may be given more than once. -/
def isRepeatable (m : Mark) : Bool := m == path

/-- Whether an option takes a value. Paths are not empty, and a backend goes by its name. -/
def accepts (m : Mark) (value : String) : Bool :=
  match m with
  | config | path => !value.isEmpty
  | backend => Backend.all.any fun b => b.name == value
  | _ => true

end Mark

/-! ## Levels -/

/-- A level of the command line: the program or one of its commands. -/
inductive Level where
  /-- The program. -/
  | program
  /-- The command that proves. -/
  | prove
  /-- The command that runs. -/
  | run
  deriving DecidableEq, Repr

/-- The options of a level. -/
def Level.marks : Level → List Mark
  | program => [.debug, .config, .help, .version]
  | prove => [.debug, .config, .keepFile, .verbose, .backend, .path, .help]
  | run => [.debug, .config, .keepFile, .verbose, .backend, .path, .expect, .context, .help]

/-- What ends the reading of a command line early. -/
inductive Stop where
  /-- The arguments are wrong. -/
  | usage
  /-- A text is asked for instead. -/
  | text (s : String)
  deriving DecidableEq, Repr

/-! ## Texts -/

/-- The version of the program. -/
def versionText : String := "sable 0.1.0\n"

/-- Joins lines. -/
def paragraph (lines : List String) : String := "\n".intercalate lines ++ "\n"

/-- The help text of the program. -/
def programHelp : String := paragraph [
  "Compile proof scripts to Dafny or Rosette and check them",
  "",
  "Usage: sable [OPTIONS] <COMMAND>",
  "",
  "Commands:",
  "  prove  Prove every assertion and equivalence in a script",
  "  run    Evaluate a script and print each top-level result",
  "  help   Print this message or the help of the given subcommand(s)",
  "",
  "Options:",
  "      --debug            Log at debug level unless `SABLE_LOG` says otherwise",
  "      --config <CONFIG>  Use this manifest instead of searching for `sable.toml`",
  "  -h, --help             Print help",
  "  -V, --version          Print version"]

/-- The lines of a help text on the options that both commands have. -/
def sharedHelp : List String := [
  "Arguments:",
  "  <PROGRAM>  A script file, a literal script, or `-` to read stdin",
  "",
  "Options:",
  "      --debug              Log at debug level unless `SABLE_LOG` says otherwise",
  "  -k, --keep-file          Keep the generated backend program",
  "      --config <CONFIG>    Use this manifest instead of searching for `sable.toml`",
  "  -v, --verbose            Print the generated backend program",
  "  -b, --backend <BACKEND>  Logical backend (defaults to `verifier.backend` in sable.toml, "
    ++ "then dafny) [possible values: dafny, rosette]",
  "      --path <PATH>        Additional directory to search for `dafny`/`racket` (repeatable)"]

/-- The line of a help text on the help option of a command. -/
def helpHelp : String := "  -h, --help               Print help"

/-- The help text of a level. -/
def Level.help : Level → String
  | program => programHelp
  | prove => paragraph ([
      "Prove every assertion and equivalence in a script",
      "",
      "Usage: sable prove [OPTIONS] <PROGRAM>",
      ""] ++ sharedHelp ++ [helpHelp])
  | run => paragraph ([
      "Evaluate a script and print each top-level result",
      "",
      "Usage: sable run [OPTIONS] <PROGRAM>",
      ""] ++ sharedHelp ++ [
      "  -e, --expect <EXPECT>    Expected final result: an integer or a value kind "
        ++ "such as `Error`",
      "  -c, --context <CONTEXT>  Seed the initial context with `name=value`",
      helpHelp])

/-- The help text of the command that prints help texts. -/
def helpCommandHelp : String := paragraph [
  "Print this message or the help of the given subcommand(s)",
  "",
  "Usage: sable help [COMMAND]...",
  "",
  "Arguments:",
  "  [COMMAND]...  Print help for the subcommand(s)"]

/-- The answer to a request for help on commands. -/
def helpOn : List String → Stop
  | [] => .text programHelp
  | ["prove"] => .text (Level.help .prove)
  | ["run"] => .text (Level.help .run)
  | ["help"] => .text helpCommandHelp
  | _ => .usage

/-! ## Options -/

/-- The options given at a level, last one first, with the values of those that have one. -/
abbrev Given := List (Mark × String)

namespace Given

/-- Whether an option is given. -/
def has (g : Given) (m : Mark) : Bool := g.any fun e => e.1 == m

/-- The value of an option that is not repeatable. -/
def value? (g : Given) (m : Mark) : Option String :=
  (g.find? fun e => e.1 == m).map Prod.snd

/-- The values of an option, in order. -/
def values (g : Given) (m : Mark) : List String :=
  (g.reverse.filter fun e => e.1 == m).map Prod.snd

/-- Adds an option. -/
def add (l : Level) (g : Given) (m : Mark) (value : String) : Except Stop Given :=
  match m with
  | .help => .error (.text l.help)
  | .version => .error (.text versionText)
  | _ =>
    if !m.accepts value || (g.has m && !m.isRepeatable) then .error .usage
    else .ok ((m, value) :: g)

end Given

/-- What an argument amounts to. -/
inductive Reading where
  /-- It is complete. -/
  | done (g : Given)
  /-- The next argument is the value of its option. -/
  | pending (g : Given) (m : Mark)

/-- Drops an equals sign at the start of a text. -/
def dropEquals : List Char → List Char
  | '=' :: cs => cs
  | cs => cs

/-- Reads short options that are joined. -/
def readShort (l : Level) (g : Given) : List Char → Except Stop Reading
  | [] => .ok (.done g)
  | c :: cs =>
    match l.marks.find? fun m => m.short? == some c with
    | none => .error .usage
    | some m =>
      if m.hasValue then
        if cs.isEmpty then .ok (.pending g m)
        else (g.add l m (String.ofList (dropEquals cs))).map .done
      else
        match g.add l m "" with
        | .ok g => readShort l g cs
        | .error stop => .error stop

/-- Reads a long option, without its dashes. -/
def readLong (l : Level) (g : Given) (cs : List Char) : Except Stop Reading :=
  let name := String.ofList (cs.takeWhile (· != '='))
  match l.marks.find? fun m => m.long == name with
  | none => .error .usage
  | some m =>
    match m.hasValue, cs.dropWhile (· != '=') with
    | true, [] => .ok (.pending g m)
    | true, _ :: value => (g.add l m (String.ofList value)).map .done
    | false, [] => (g.add l m "").map .done
    | false, _ => .error .usage

/-- Whether an argument is no option. A single dash is none. -/
def isPlain (argument : String) : Bool :=
  argument.toList.head? != some '-' || argument == "-"

/-- Reads options up to the first argument that is none, or up to two dashes. -/
def readOptions (l : Level) (g : Given) : List String → Except Stop (Given × List String)
  | [] => .ok (g, [])
  | argument :: rest =>
    if isPlain argument || argument == "--" then .ok (g, argument :: rest)
    else
      let reading := match argument.toList with
        | '-' :: '-' :: cs => readLong l g cs
        | cs => readShort l g (cs.drop 1)
      match reading, rest with
      | .error stop, _ => .error stop
      | .ok (.done g), rest => readOptions l g rest
      | .ok (.pending _ _), [] => .error .usage
      | .ok (.pending g m), value :: rest =>
        if isPlain value then
          match g.add l m value with
          | .ok g => readOptions l g rest
          | .error stop => .error stop
        else .error .usage

/-! ## Commands -/

/-- Reads the arguments of a command: its options and the argument that names the script. -/
def readCommand (l : Level) (arguments : List String) : Except Stop (Given × String) := do
  let (g, rest) ← readOptions l [] arguments
  match rest with
  | ["--", script] => return (g, script)
  | [] | "--" :: _ => throw .usage
  | script :: rest =>
    let (g, rest) ← readOptions l g rest
    if rest.isEmpty || rest == ["--"] then return (g, script) else throw .usage

/-- The options of both commands. -/
def options (g : Given) (script : String) : Options :=
  { script := script
    keep := g.has .keepFile
    showProgram := g.has .verbose
    backend := (g.value? .backend).bind Backend.ofName?
    searchPaths := g.values .path }

/-- Reads the arguments of a command line. -/
def read (arguments : List String) : Except Stop Request := do
  let (outer, rest) ← readOptions .program [] arguments
  let request (g : Given) (script : String) (command : Command) : Request :=
    { command := command
      options := options g script
      manifest := g.value? .config <|> outer.value? .config }
  match rest with
  | "prove" :: arguments =>
    let (g, script) ← readCommand .prove arguments
    return request g script .prove
  | "run" :: arguments =>
    let (g, script) ← readCommand .run arguments
    return request g script (.run (g.value? .expect) (g.value? .context))
  | "help" :: arguments => throw (helpOn arguments)
  | _ => throw .usage

/-! ## Running -/

/-- What a command line leaves behind. -/
structure Result where
  /-- The exit status. -/
  status : Nat
  /-- What it printed. -/
  printed : String
  /-- The files. -/
  workspace : Workspace

/-- Carries out a command line. The exit status is zero for the result that was hoped for, one for
another result or an error, and two for wrong arguments. -/
def run (runner : Runner) (arguments : List String) (stdin : String) (w : Workspace) : Result :=
  match read arguments with
  | .error (.text text) => { status := 0, printed := text, workspace := w }
  | .error .usage => { status := 2, printed := "", workspace := w }
  | .ok request =>
    let (r, s) := (Session.perform runner request stdin).run { workspace := w, printed := "" }
    let status := match r with
      | .ok true => 0
      | .ok false | .error _ => 1
    { status := status, printed := s.printed, workspace := s.workspace }

end CommandLine

end ProofScript
