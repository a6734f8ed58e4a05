import ProofScript.Shell.Effect

/-!
# Trees of files

What lies at a path and below it, each directory in front of what is in it.
-/

namespace ProofScript.Shell

/-- Something that is found at a path. -/
structure Found where
  /-- The path. -/
  path : String
  /-- The number of directories between it and the start. -/
  depth : Nat
  /-- Its place. -/
  place : Workspace.Place
  /-- What it is. -/
  entry : Entry

/-- A path with the name of something in its directory. -/
def below (path name : String) : String :=
  if path.toList.getLast? == some '/' then path ++ name else path ++ "/" ++ name

/-- What is found and all that lies below it. Links are not followed. -/
def Found.all (w : Workspace) (fuel : Nat) (f : Found) : List Found :=
  match fuel with
  | 0 => []
  | fuel + 1 =>
    f :: if f.entry = .directory then
      (w.names f.place).flatMap fun name =>
        match w.at? (name :: f.place) with
        | some e => all w fuel ⟨below f.path (encode name), f.depth + 1, name :: f.place, e⟩
        | none => []
    else []

/-- The greatest number of directories, one inside of the other, that are looked at. -/
def maxDepth : Nat := 200

/-- What lies at a path and below it; a link at the path itself is followed with `follows`. -/
def allBelow (s : Scene) (follows : Bool) (path : String) : Except FileFault (List Found) := do
  let (p, e) ← if follows then s.find path else s.files.findLink (decode path)
  return Found.all s.files maxDepth ⟨path, 0, p, e⟩

/-- The paths of the files below a path, which is kept when nothing is there. -/
def filesBelow (s : Scene) (path : String) : List String :=
  match allBelow s true path with
  | .error _ => [path]
  | .ok all => (all.filter fun f => match f.entry with
    | .file _ _ => true
    | _ => false).map fun f =>
      if path == "." then String.ofList (f.path.toList.drop 2) else f.path

end ProofScript.Shell
