import ProofScript.Shell.Characters
import ProofScript.Shell.Compare
import ProofScript.Shell.Condition
import ProofScript.Shell.Copies
import ProofScript.Shell.Digits
import ProofScript.Shell.Editing
import ProofScript.Shell.Expression
import ProofScript.Shell.Listing
import ProofScript.Shell.Order
import ProofScript.Shell.Search
import ProofScript.Shell.Supplies
import ProofScript.Shell.Surroundings

/-!
# Utilities

All utilities that leave the state of a script alone, by their names: those that are a part of the
shell, and those that are programs of their own.
-/

namespace ProofScript.Shell

/-- Nothing but a status. -/
def saying (status : Nat) : Utility := fun s _ => .silent s status

/-- Tells the permissions that new files lack, or changes them, which no file shows. -/
def umask : Utility := fun s arguments =>
  match arguments with
  | [] => .printLine s "0022"
  | ["-S"] => .printLine s "u=rwx,g=rx,o=rx"
  | mode :: _ =>
    if (modeChange? mode).isSome then .silent s 0 else .refuse s 2 ("Illegal mode: " ++ mode)

/-- Tells the limits of a process, of which there are none. -/
def ulimit : Utility := fun s arguments =>
  if arguments.all fun a => a.startsWith "-" then .printLine s "unlimited" else .silent s 0

/-- Tells how long a script has taken, which is no time at all. -/
def times : Utility := fun s _ =>
  .print s "0m0.000000s 0m0.000000s\n0m0.000000s 0m0.000000s\n"

/-- Removes other names for commands, or tells them, where there are none. -/
def aliases (complain : Scene → String → Chunk) : Utility := fun s arguments =>
  let wrong := arguments.filter fun a => !(a.startsWith "-" || a.toList.contains '=')
  ⟨wrong.map (complain s), if wrong.isEmpty then 0 else 1, none, s.files⟩

/-- The utilities that are a part of the shell and leave the state of a script alone. -/
def ownUtility? (name : String) : Option Utility :=
  match name with
  | ":" | "true" => some (saying 0)
  | "false" => some (saying 1)
  | "echo" => some echo
  | "printf" => some printf
  | "test" => some evaluate
  | "[" => some bracket
  | "umask" => some umask
  | "ulimit" => some ulimit
  | "times" => some times
  | "alias" => some (aliases fun _ a => ⟨false, "alias: " ++ a ++ " not found\n"⟩)
  | "unalias" => some (aliases fun _ a => ⟨true, "unalias: " ++ a ++ " not found\n"⟩)
  | _ => none

/-- Writes the directory without links on the way to it. -/
def pwd : Utility := fun s _ => .printLine s (encode s.files.current.path)

/-- The programs that leave the state of a script alone, by their names. -/
def programs : List (String × Utility) :=
  [("[", bracket), ("arch", telling [] "x86_64"), ("base64", base64), ("basename", basename),
    ("cat", cat), ("chmod", chmod), ("chown", saying 0), ("cmp", cmp), ("comm", comm), ("cp", cp),
    ("cut", cut), ("date", date), ("diff", diff), ("dirname", dirname), ("echo", echoProgram),
    ("egrep", grepWith "-E"), ("expand", expand), ("expr", expr),
    ("false", saying 1), ("fgrep", grepWith "-F"), ("fold", fold),
    ("grep", grep), ("head", head), ("hostname", telling [] "localhost"), ("id", identity),
    ("ln", ln), ("ls", ls), ("mkdir", mkdir), ("mktemp", mktemp), ("mv", mv), ("nl", nl),
    ("nproc", telling [] "1"), ("od", od), ("paste", paste), ("printenv", printenv),
    ("printf", printf), ("pwd", pwd), ("readlink", readlink), ("realpath", realpath), ("rev", rev),
    ("rm", rm), ("rmdir", rmdir), ("sed", sed), ("seq", seq), ("sha256sum", sha256sum),
    ("sleep", sleep), ("sort", sort), ("stat", stat), ("sync", saying 0), ("tac", tac),
    ("tail", tail), ("tee", tee), ("test", evaluate), ("touch", touch), ("tr", tr),
    ("true", saying 0), ("truncate", truncate), ("tty", tty), ("uname", uname), ("uniq", uniq),
    ("unlink", unlink), ("wc", wc), ("which", which), ("whoami", whoami), ("yes", yes)]

/-- The program of a name that leaves the state of a script alone. -/
def program? (name : String) : Option Utility := programs.lookup name

end ProofScript.Shell
