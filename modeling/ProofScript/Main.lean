import ProofScript.CommandLine
import ProofScript.Session.Files
import ProofScript.Shell.Run

/-!
# The program

The command line on real files. The files that a session looks at are read first, the session runs
on what was read, and what it has written is written back.
-/

namespace ProofScript

/-- The place of a path. -/
def placeFrom (current : Workspace.Place) (path : String) : Workspace.Place :=
  let names := (Path.parts path).filter fun part => !part.isEmpty && part != "."
  let base := if Path.isAbsolute path then [] else current
  names.foldl (fun p name => if name == ".." then p.tail else name :: p) base

/-- Adds a file to a workspace, if it can be read. -/
def addFile (w : Workspace) (path : String) : IO Workspace := do
  try
    let bytes := (← IO.FS.readBinFile path).toList
    let executable := (Text.toBytes Shell.firstLine).isPrefixOf bytes
    return w.install (placeFrom w.current path) (.file bytes executable)
  catch _ => return w

/-- Adds the files that a request looks at. -/
def addFiles (r : Request) (w : Workspace) : IO Workspace := (r.files w).foldlM addFile w

/-- Reads a stream to its end. -/
partial def readAll (input : IO.FS.Stream) (text : String) : IO String := do
  let line ← input.getLine
  if line.isEmpty then return text else readAll input (text ++ line)

/-- Writes the files that a session has changed. -/
def writeBack (before after : Workspace) : IO Unit := do
  for (path, entry) in after.entries.entries do
    match entry with
    | .file bytes _ =>
      if before.entries.get? path != some entry then
        IO.FS.createDirAll ((Path.parent? path).getD "/")
        IO.FS.writeBinFile path bytes.toByteArray
    | _ => pure ()

/-- The workspace before any file has been read. -/
def startWorkspace : IO Workspace := do
  let current := placeFrom [] (← IO.currentDir).toString
  let commands := (← IO.getEnv "PATH").getD ""
  let w := { Shell.systemWorkspace with commandDirs := commands.splitOn ":", current := current }
  return w.install current .directory

end ProofScript

open ProofScript in
/-- Carries out a command line. -/
def main (arguments : List String) : IO UInt32 := do
  let start ← startWorkspace
  let w ← match CommandLine.read arguments with
    | .ok request => do
      let w ← addFiles request start
      let w ← addFiles request w
      addFiles request w
    | .error _ => pure start
  let stdin ← if arguments.contains "-" then readAll (← IO.getStdin) "" else pure ""
  let r := CommandLine.run Shell.runner arguments stdin w
  IO.print r.printed
  writeBack w r.workspace
  return r.status.toUInt32
