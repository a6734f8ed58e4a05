import ProofScript.Shell.Process

/-!
# Launching programs

Which program a file is run by. A file of text names its interpreter in its first line, behind the
signs `#!`; the interpreter is given the path of the file in front of the other arguments.
-/

namespace ProofScript.Shell

/-- A program of the system and the words that it is called by. -/
structure Launch where
  /-- The name of the program. -/
  program : String
  /-- The words; the first one is the name that it is called by. -/
  words : List String

/-- The largest number of bytes of the first line of a file that count. -/
def maxFirstLine : Nat := 256

/-- Whether a character is a blank in a line. -/
def isLineBlank (c : Char) : Bool := c == ' ' || c == '\t'

/-- The interpreter that the first line of a file names, and the argument behind it. -/
def interpreter? (text : String) : Option (String × Option String) :=
  match text.toList.take maxFirstLine with
  | '#' :: '!' :: cs =>
    let line := (cs.takeWhile (· != '\n')).dropWhile isLineBlank
    let line := (line.reverse.dropWhile isLineBlank).reverse
    let path := line.takeWhile fun c => !isLineBlank c && c != '\x00'
    let isCut := !cs.contains '\n' && path.length == line.length
      && maxFirstLine < text.length
    let argument := ((line.drop path.length).dropWhile isLineBlank).takeWhile (· != '\x00')
    if path.isEmpty || isCut then none
    else some (String.ofList path,
      if argument.isEmpty then none else some (String.ofList argument))
  | _ => none

/-- The largest number of interpreters, each of which is named by the next one. -/
def maxInterpreters : Nat := 5

/-- The program that the file of a path is run by, when at most so many interpreters follow. -/
def Launch.ofPath (w : Workspace) :
    (interpreters : Nat) → (path : String) → (words : List String) → Except FileFault Launch
  | interpreters, path, words =>
    match w.find (decode path) with
    | .error fault => .error fault
    | .ok (_, .program name) => .ok ⟨name, words⟩
    | .ok (_, .link _) => .error .loop
    | .ok (_, .file bytes true) =>
      match interpreter? (ofBytes bytes), interpreters with
      | none, _ => .error .notProgram
      | some _, 0 => .error .loop
      | some (interpreter, argument), interpreters + 1 =>
        ofPath w interpreters interpreter
          ([interpreter] ++ argument.toList ++ path :: words.tail)
    | .ok _ => .error .denied

/-- The first of some attempts that does not fail, or else what is wrong with the first one that
found something. -/
def firstSuccess (attempt : String → Except FileFault Launch) (fault : FileFault) :
    List String → Except FileFault Launch
  | [] => .error fault
  | path :: paths =>
    match attempt path with
    | .ok launch => .ok launch
    | .error .missing | .error .notDirectory => firstSuccess attempt fault paths
    | .error other => firstSuccess attempt other paths

/-- The paths at which a program of a name may be. -/
def Process.pathsOf (p : Process) (name : String) : List String :=
  if name.toList.contains '/' then [name]
  else (((p.bindings.get? "PATH").getD defaultPath).splitOn ":").map fun dir =>
    if dir.isEmpty then name else below dir name
where
  /-- A path in a directory. -/
  below (dir name : String) : String := if dir.endsWith "/" then dir ++ name else dir ++ "/" ++ name

/-- The program that runs a command. A file of text that names no interpreter is run by a shell. -/
def Process.launchOf (p : Process) (words : List String) : Except FileFault Launch :=
  let name := words.headD ""
  let attempt (path : String) : Except FileFault Launch :=
    match Launch.ofPath p.files maxInterpreters path words with
    | .error .notProgram => .ok ⟨"sh", "/bin/sh" :: path :: words.tail⟩
    | r => r
  if name.toList.contains '/' then attempt name
  else firstSuccess attempt .missing (p.pathsOf name)

/-- The status for a program that cannot be run. -/
def launchStatus (fault : FileFault) : Nat :=
  match fault with
  | .missing | .notDirectory | .loop | .tooLong => 127
  | _ => 126

/-- The wording of a fault in a message about a program that cannot be run. -/
def launchFault (fault : FileFault) : String :=
  match fault with
  | .missing | .notDirectory => "not found"
  | fault => faultText fault

end ProofScript.Shell
