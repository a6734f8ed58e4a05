import ProofScript.Shell.Control
import ProofScript.Shell.Launch
import ProofScript.Shell.Script
import ProofScript.Shell.Utility

/-!
# What names of commands mean

Whether a name is a reserved word, a function, a utility of the shell or a program.
-/

namespace ProofScript.Shell

/-- What a name means where a command starts. -/
inductive Meaning where
  /-- It is a reserved word. -/
  | reserved
  /-- It is a utility of the shell whose assignments stay. -/
  | special
  /-- It is a function. -/
  | function
  /-- It is another utility of the shell. -/
  | own
  /-- It is the program at this path. -/
  | program (path : String)
  deriving DecidableEq, Repr

/-- The utilities of the shell that run commands. -/
def runningUtilities : List String := ["eval", ".", "exec", "command", "type", "hash"]

namespace Process

/-- The path of the program of a name. -/
def programPath? (p : Process) (name : String) : Option String :=
  (p.pathsOf name).find? fun path =>
    match p.files.find (decode path) with
    | .ok (_, .program _) | .ok (_, .file _ true) => true
    | _ => false

/-- What a name means. -/
def meaning? (p : Process) (name : String) : Option Meaning :=
  if reservedWords.contains name then some .reserved
  else if p.functions.contains name then some .function
  else if specialUtilities.contains name then some .special
  else if (control? name).isSome || (ownUtility? name).isSome || runningUtilities.contains name then
    some .own
  else (p.programPath? name).map .program

/-- Tells what a name means, in a sentence or with `short` by a command that does the same. -/
def describe (p : Process) (short : Bool) (name : String) : Process :=
  let line (words path : String) : Process :=
    p.succeed.writeTo 1 ((if short then path else name ++ " is " ++ words) ++ "\n")
  match p.meaning? name with
  | some .reserved => line "a shell keyword" name
  | some .function => line "a shell function" name
  | some .special => line "a special shell builtin" name
  | some .own => line "a shell builtin" name
  | some (.program path) => line path path
  | none => { (if short then p else p.writeTo 1 (name ++ ": not found\n")) with status := 127 }

/-- Tells what some names mean. -/
def describeAll (p : Process) (names : List String) : Process :=
  names.foldl (fun q name =>
    let r := q.describe false name
    { r with status := max q.status r.status }) p.succeed

/-- Looks for some programs. -/
def lookUp (p : Process) (names : List String) : Process :=
  names.foldl (fun q name =>
    if (q.meaning? name).isSome then q else q.complain 1 (name ++ ": not found")) p.succeed

end Process

end ProofScript.Shell
