import ProofScript.Shell.Bytes
import ProofScript.Text.Split
import ProofScript.Workspace

/-!
# Effects of utilities

What a utility of a shell starts from, and what it does. What it writes is kept in order, since both
of its streams can be sent to one place. All texts are texts of bytes.
-/

namespace ProofScript.Shell

/-- Something written: the text, and whether it goes to the standard error. -/
structure Chunk where
  /-- Whether the text goes to the standard error rather than to the standard output. -/
  isError : Bool
  /-- The text. -/
  text : String
  deriving DecidableEq, Repr

/-- What a utility starts from. -/
structure Scene where
  /-- The name that the utility was called by. -/
  called : String
  /-- The files. -/
  files : Workspace
  /-- What is left of its input, or why it cannot be read. -/
  input : Except FileFault String
  /-- Whether its input is a file, so that what is not used can be given back. -/
  seekable : Bool
  /-- How a message of the shell itself starts. -/
  teller : String
  /-- The variables that it is given. -/
  environment : List (String × String)

/-- What a utility does. -/
structure Effect where
  /-- What it writes, in order. -/
  chunks : List Chunk
  /-- Its status; zero means success. -/
  status : Nat
  /-- What it leaves of its input; nothing here when it does not read it. -/
  left : Option String
  /-- The files as it leaves them. -/
  files : Workspace

/-- A utility that leaves the state of the shell alone. -/
abbrev Utility := Scene → List String → Effect

namespace Effect

/-- Nothing but a status. -/
def silent (s : Scene) (status : Nat) : Effect := ⟨[], status, none, s.files⟩

/-- A text on the standard output, and success. -/
def print (s : Scene) (text : String) : Effect := ⟨[⟨false, text⟩], 0, none, s.files⟩

/-- A line on the standard output, and success. -/
def printLine (s : Scene) (line : String) : Effect := print s (line ++ "\n")

/-- A line on the standard error, and a status. -/
def complain (s : Scene) (status : Nat) (line : String) : Effect :=
  ⟨[⟨true, line ++ "\n"⟩], status, none, s.files⟩

/-- A message of the utility itself, behind its name. -/
def blame (s : Scene) (status : Nat) (message : String) : Effect :=
  complain s status (s.called ++ ": " ++ message)

/-- A message of the shell itself. -/
def refuse (s : Scene) (status : Nat) (message : String) : Effect :=
  complain s status (s.teller ++ message)

/-- The effect of a utility that has used its whole input. -/
def drained (e : Effect) : Effect := { e with left := some "" }

end Effect

/-- The wording of a fault in a message of a utility, which leaves out its number. -/
def faultText (fault : FileFault) : String :=
  match Text.cut? " (os error".toList fault.message.toList with
  | some (before, _) => String.ofList before
  | none => fault.message

/-! ## Files -/

namespace Scene

/-- What is found at a path, and its place. -/
def find (s : Scene) (path : String) : Except FileFault (Workspace.Place × Entry) :=
  s.files.find (decode path)

/-- The text of a file. -/
def read (s : Scene) (path : String) : Except FileFault String :=
  if path == "/dev/stdin" then s.input else (s.files.readBytes (decode path)).map ofBytes

/-- The text of the whole input. -/
def inputText (s : Scene) : String := s.input.toOption.getD ""

end Scene

/-! ## Lines -/

/-- Splits a text into lines, each with the line feed that ends it. -/
def linesOf : List Char → List (List Char)
  | [] => []
  | c :: cs =>
    if c == '\n' then [c] :: linesOf cs
    else
      match linesOf cs with
      | [] => [[c]]
      | line :: lines => (c :: line) :: lines

/-- A line without the line feed that ends it. -/
def bare (line : List Char) : List Char :=
  if line.getLast? == some '\n' then line.dropLast else line

/-- A line with another text and the same end. -/
def withText (line text : List Char) : List Char :=
  if line.getLast? == some '\n' then text ++ ['\n'] else text

/-- The line with a line feed at its end. -/
def ended (line : List Char) : List Char :=
  if line.getLast? == some '\n' then line else line ++ ['\n']

/-! ## Contents of files -/

/-- A source of a filter: its name, and its text or what is wrong with it. -/
structure Source where
  /-- The name. -/
  name : String
  /-- The text. -/
  text : Except FileFault String

/-- The sources of some names. A dash is the input, which can be read once. -/
def sourcesOf (s : Scene) : List String → List Source
  | [] => []
  | "-" :: rest => ⟨"-", s.input⟩ :: sourcesOf { s with input := .ok "" } rest
  | path :: rest => ⟨path, s.read path⟩ :: sourcesOf s rest

/-- The sources of a filter: the files that are named, or else its input. -/
def sources (s : Scene) (names : List String) : List Source :=
  sourcesOf s (if names.isEmpty then ["-"] else names)

/-- Whether a filter uses its input. -/
def usesInput (all : List Source) : Bool := all.any fun x => x.name == "-"

/-- Filters each source. A source that cannot be read is complained about as `describe` says. -/
def filtering (s : Scene) (describe : (name fault : String) → String) (all : List Source)
    (f : Source → String → String) : Effect :=
  let chunks := all.map fun source =>
    match source.text with
    | .ok text => Chunk.mk false (f source text)
    | .error fault =>
      ⟨true, s.called ++ ": " ++ describe source.name (faultText fault) ++ "\n"⟩
  ⟨chunks, if chunks.any Chunk.isError then 1 else 0,
    if usesInput all then some "" else none, s.files⟩

/-- The usual wording of what is wrong with a file. -/
def namedFault (name fault : String) : String := name ++ ": " ++ fault

/-- Filters all sources together, as if they were one. -/
def joining (s : Scene) (describe : (name fault : String) → String) (names : List String)
    (f : String → String) : Effect :=
  let all := sources s names
  let readable := String.join (all.map fun source => (source.text.toOption).getD "")
  let failed := filtering s describe all fun _ _ => ""
  { failed with chunks := failed.chunks.filter Chunk.isError ++ [⟨false, f readable⟩] }

end ProofScript.Shell
