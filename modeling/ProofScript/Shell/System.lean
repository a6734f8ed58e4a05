import ProofScript.Shell.Process
import ProofScript.Shell.Utility

/-!
# The system around a script

The directories and programs that scripts find outside of their own workspace.
-/

namespace ProofScript.Shell

/-- The names of the shell. -/
def shellNames : List String := ["sh", "dash", "bash"]

/-- The programs that run other commands. -/
def runningPrograms : List String :=
  ["env", "find", "nice", "nohup", "setsid", "stdbuf", "timeout", "xargs"]

/-- The names of all programs. -/
def programNames : List String := programs.map Prod.fst ++ shellNames ++ runningPrograms

/-- The directories that exist at first, last part first. -/
def systemDirectories : List Workspace.Place :=
  [["dev"], ["etc"], ["home"], ["proc"], ["root"], ["tmp"], ["bin", "usr"], ["sbin", "usr"],
    ["bin", "local", "usr"], ["sbin", "local", "usr"], ["lib", "usr"], ["tmp", "var"]]

/-- The links that exist at first. -/
def systemLinks : List (Workspace.Place × String) :=
  [(["bin"], "usr/bin"), (["sbin"], "usr/sbin"), (["lib"], "usr/lib")]

/-- A workspace with the programs of the system, in whose directories commands are looked for. -/
def systemWorkspace : Workspace :=
  let w := systemDirectories.foldl (fun w p => w.install p .directory) Workspace.empty
  let w := systemLinks.foldl (fun w (p, target) => w.install p (.link target)) w
  let w := programNames.foldl (fun w name => w.install [name, "bin", "usr"] (.program name)) w
  let w := w.install ["null", "dev"] .null
  { w with
    commandDirs := ["/usr/local/sbin", "/usr/local/bin", "/usr/sbin", "/usr/bin", "/sbin", "/bin"] }

/-- The variables that scripts are given at first. -/
def systemVariables : List (String × String) := [("HOME", "/root"), ("PATH", Process.defaultPath)]

end ProofScript.Shell
