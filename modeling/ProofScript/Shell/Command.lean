/-!
# Commands of a shell

What a shell script consists of. Words are kept in parts, since a part that is quoted is not split
again when its value is known.
-/

namespace ProofScript.Shell

/-! ## Words -/

/-- What a parameter stands for, given its value. -/
inductive ParamUse where
  /-- Its value. -/
  | value
  /-- The number of characters of its value. -/
  | length
  /-- Its value, or else another text. With `whenEmpty`, an empty value does not count; with
  `assigns`, the parameter is given the other text. -/
  | orElse (whenEmpty assigns : Bool) (other : String)
  /-- Another text, if it has a value. With `whenEmpty`, an empty value does not count. -/
  | instead (whenEmpty : Bool) (other : String)
  /-- Its value; without one the script ends with a message. With `whenEmpty`, an empty value does
  not count. -/
  | required (whenEmpty : Bool) (message : String)
  /-- Its value without the shortest or the longest part at one end that a pattern matches. -/
  | without (atEnd longest : Bool) (pattern : String)
  /-- Nothing that is known. -/
  | unknown
  deriving DecidableEq, Repr

/-- A part of a word. -/
inductive Part where
  /-- Characters that stand for themselves, outside or inside quotes. -/
  | text (s : String) (quoted : Bool)
  /-- What a parameter stands for. -/
  | param (name : String) (use : ParamUse) (quoted : Bool)
  /-- The output of a script. Its lines are counted from one, or else from the line of this number
  in the text around it, where zero stands for the line of the command. -/
  | output (source : String) (line : Option Nat) (quoted : Bool)
  /-- The value of an arithmetic expression. -/
  | number (source : String) (quoted : Bool)
  deriving DecidableEq, Repr

/-- A word. -/
abbrev Word := List Part

/-- A word in which the line of each script is changed. -/
def Word.withLines (f : Nat → Nat) (w : Word) : Word :=
  w.map fun part => match part with
    | .output source line quoted => .output source (line.map f) quoted
    | part => part

/-- Whether a word holds the output of a script. -/
def Word.holdsOutput (w : Word) : Bool :=
  w.any fun part => match part with
    | .output _ _ _ => true
    | _ => false

/-- The parameter that stands for all arguments, each as a field of its own. -/
def allArguments : Word := [.param "@" .value true]

/-! ## Redirections -/

/-- How a file is used by a command. -/
inductive RedirectKind where
  /-- It is read. -/
  | read
  /-- It is written anew. -/
  | write
  /-- It is written anew even if it must not be lost. -/
  | overwrite
  /-- It is written at its end. -/
  | append
  /-- It is read and written where it is. -/
  | both
  /-- It is another stream, which goes by its number. -/
  | duplicate
  /-- There is none; the text itself is read. -/
  | here
  deriving DecidableEq, Repr

/-- A stream of a command that goes elsewhere. -/
structure Redirect where
  /-- The number of the stream. -/
  stream : Nat
  /-- How the target is used. -/
  kind : RedirectKind
  /-- The target. -/
  target : Word
  deriving DecidableEq, Repr

/-! ## Commands -/

/-- A command. -/
inductive Cmd where
  /-- Nothing at all. -/
  | nothing
  /-- Assignments, the name and arguments of a utility, and redirections. -/
  | simple (assignments : List (String × Word)) (words : List Word) (redirects : List Redirect)
  /-- A command that starts in the line of this number. -/
  | line (number : Nat) (a : Cmd)
  /-- The second command reads what the first one writes. -/
  | pipe (a b : Cmd)
  /-- The status of a command, negated. -/
  | negated (a : Cmd)
  /-- The second command, if the first one succeeds. -/
  | both (a b : Cmd)
  /-- The second command, if the first one fails. -/
  | either (a b : Cmd)
  /-- One command after the other. -/
  | sequence (a b : Cmd)
  /-- A command that is not waited for. -/
  | background (a : Cmd)
  /-- A command that depends on the success of another one. -/
  | choice (condition a b : Cmd)
  /-- A command that is repeated as long as another one succeeds, or fails. -/
  | loop (untilSuccess : Bool) (condition body : Cmd)
  /-- A command for each of some words. -/
  | each (name : String) (words : List Word) (body : Cmd)
  /-- The command of the first pattern that a word matches. -/
  | select (word : Word) (arms : List (List Word × Cmd))
  /-- A command whose streams go elsewhere. -/
  | redirected (a : Cmd) (redirects : List Redirect)
  /-- A command that leaves variables as they are. -/
  | nested (a : Cmd)
  /-- A name for a command. -/
  | define (name : String) (body : Cmd)
  /-- A line that does not follow the grammar. -/
  | broken (message : String)

/-- A command with redirections, if there are any. -/
def Cmd.redirect (a : Cmd) (rs : List Redirect) : Cmd :=
  if rs.isEmpty then a else .redirected a rs

end ProofScript.Shell
