import ProofScript.Shell.Files

/-!
# Copies and links

Utilities that copy and move files and directories, and that make links.
-/

namespace ProofScript.Shell

/-- The options for copying, moving and linking. -/
def copyTable : OptionTable :=
  { flags := "rRafinvTdpPLHuxslb\x01", valued := "tS", status := 1, anywhere := true, usage := ""
    names := [("recursive", 'r'), ("archive", 'a'), ("force", 'f'), ("no-clobber", 'n'),
      ("verbose", 'v'), ("no-target-directory", 'T'), ("target-directory", 't'),
      ("symbolic", 's'), ("no-dereference", 'P'), ("preserve", 'p'), ("relative", '\x01')] }

/-- What is copied and where to: the sources, the target, and whether the target is a directory that
they go into. -/
structure CopyRequest where
  /-- The sources. -/
  paths : List String
  /-- The target. -/
  target : String
  /-- Whether the sources go into the target. -/
  into : Bool

/-- Reads the operands of a utility that copies, or gives the message about them. -/
def CopyRequest.ofOptions (s : Scene) (o : Options) (keepsLink : Bool) :
    Except (Bool × String) CopyRequest :=
  let isTarget (path : String) : Bool :=
    s.files.isDirectory (decode path) &&
      !(keepsLink && match s.files.findLink (decode path) with
        | .ok (_, .link _) => true
        | _ => false)
  match o.value? 't', o.operands.getLast? with
  | some dir, some _ =>
    if s.files.isDirectory (decode dir) then .ok ⟨o.operands, dir, true⟩
    else .error (false, "target directory '" ++ dir ++ "': " ++ match s.find dir with
      | .ok _ => "Not a directory"
      | .error fault => faultText fault)
  | _, none => .error (true, "missing file operand")
  | none, some target =>
    match o.operands.dropLast with
    | [] => .error (true, "missing destination file operand after '" ++ target ++ "'")
    | [path] => .ok ⟨[path], target, !o.has 'T' && isTarget target⟩
    | paths =>
      if s.files.isDirectory (decode target) then .ok ⟨paths, target, true⟩
      else .error (false, "target '" ++ target ++ "': " ++ match s.find target with
        | .ok _ => "Not a directory"
        | .error fault => faultText fault)

/-- The path that a source gets. -/
def CopyRequest.goal (r : CopyRequest) (path : String) : String :=
  if r.into then below r.target (lastPart path) else r.target

/-- A utility that copies. -/
def copying (keepsLink : Options → Bool)
    (step : Options → (goal : String) → Scene → String → Except String (Workspace × String)) :
    Utility :=
  copyTable.utility fun s o =>
    match CopyRequest.ofOptions s o (keepsLink o) with
    | .error (true, message) => copyTable.refuse s message
    | .error (false, message) => .blame s 1 message
    | .ok r => eachPath s (fun s path => step o (r.goal path) s path) r.paths

/-- The two paths in a message. -/
def arrow (path goal : String) : String := "'" ++ path ++ "' -> '" ++ goal ++ "'"

/-- The place that a path leads to, if it leads anywhere. -/
def placeAt? (s : Scene) (path : String) : Option Workspace.Place :=
  (s.find path).toOption.map Prod.fst

/-! ## Copying -/

/-- Puts a copy of what is found at another place. -/
def putCopy (w : Workspace) (start goal : Workspace.Place) (f : Found) : Workspace :=
  w.put (f.place.take (f.place.length - start.length) ++ goal) f.entry

/-- Copies one file or directory. -/
def copyOne (o : Options) (goal : String) (s : Scene) (path : String) :
    Except String (Workspace × String) := do
  let recursive := o.has 'r' || o.has 'R' || o.has 'a'
  let keepsLinks := recursive || o.has 'd' || o.has 'P'
  let message := "cannot stat"
  let (p, e) ← if keepsLinks then foundLink s message path else found s message path
  let told := if o.has 'v' then arrow path goal ++ "\n" else ""
  let old ← match s.find goal with
    | .ok (q, e) => pure (some (q, e))
    | .error .missing => pure none
    | .error fault => throw (message ++ " '" ++ goal ++ "': " ++ faultText fault)
  if (old.map Prod.fst) == some p then
    throw ("'" ++ path ++ "' and '" ++ goal ++ "' are the same file")
  let isDirectory := (old.map Prod.snd) == some .directory
  match e with
  | .directory =>
    if !recursive then throw ("-r not specified; omitting directory '" ++ path ++ "'")
    if old.isSome && !isDirectory then
      throw ("cannot overwrite non-directory '" ++ goal ++ "' with directory '" ++ path ++ "'")
    let q ← (s.files.placeOf true (decode goal)).mapError fun fault =>
      "cannot create directory '" ++ goal ++ "': " ++ faultText fault
    if (p.reverse).isPrefixOf q.reverse then
      throw ("cannot copy a directory, '" ++ path ++ "', into itself, '" ++ goal ++ "'")
    if (s.files.at? q.tail) != some .directory then
      throw ("cannot create directory '" ++ goal ++ "': No such file or directory")
    let all := Found.all s.files maxDepth ⟨path, 0, p, e⟩
    return (all.foldl (fun w f => putCopy w p q f) s.files, told)
  | _ =>
    if isDirectory then
      throw ("cannot overwrite directory '" ++ goal ++ "' with non-directory")
    if old.isSome && o.has 'n' then return (s.files, "")
    if goal.toList.getLast? == some '/' then
      throw ("cannot create regular file '" ++ goal ++ "': Not a directory")
    let failed (fault : FileFault) : String :=
      "cannot create regular file '" ++ goal ++ "': " ++ faultText fault
    match e, old with
    | .file bytes _, some (q, .file _ executable) =>
      return (s.files.put q (.file bytes executable), told)
    | .program name, _ =>
      let q ← (s.files.place (decode goal)).mapError failed
      return (s.files.put q (.program name), told)
    | .null, _ =>
      let w ← (s.files.writeBytes (decode goal) []).mapError failed
      return (w, told)
    | e, _ =>
      let q ← (s.files.place (decode goal)).mapError failed
      return (s.files.put q e, told)

/-- Copies files. -/
def cp : Utility := copying (fun _ => false) copyOne

/-! ## Moving -/

/-- Moves one file or directory. -/
def moveOne (o : Options) (goal : String) (s : Scene) (path : String) :
    Except String (Workspace × String) := do
  let (p, e) ← foundLink s "cannot stat" path
  let told := if o.has 'v' then "renamed " ++ arrow path goal ++ "\n" else ""
  let failed (fault : FileFault) : String :=
    "cannot move '" ++ path ++ "' to '" ++ goal ++ "': " ++ faultText fault
  let q ← (s.files.follow false Workspace.maxLinks (Workspace.namedParts (decode goal))
    (s.files.base (decode goal))).mapError failed
  let old := s.files.at? q
  if q = p then throw ("'" ++ path ++ "' and '" ++ goal ++ "' are the same file")
  if old.isSome && o.has 'n' then
    throw ("not replacing '" ++ goal ++ "'")
  if e = .directory then
    if (p.reverse).isPrefixOf q.reverse then
      throw ("cannot move '" ++ path ++ "' to a subdirectory of itself, '" ++ goal ++ "'")
    if old.isSome && old != some .directory then
      throw ("cannot overwrite non-directory '" ++ goal ++ "' with directory '" ++ path ++ "'")
    if old.isSome && !(s.files.names q).isEmpty then
      throw ("cannot overwrite '" ++ goal ++ "': Directory not empty")
  else if old == some .directory then
    throw ("cannot overwrite directory '" ++ goal ++ "' with non-directory")
  let all := Found.all s.files maxDepth ⟨path, 0, p, e⟩
  let w := all.foldl (fun w f => putCopy w p q f) (removeFound s.files all)
  return (w, told)

/-- Moves files. -/
def mv : Utility := copying (fun _ => false) moveOne

/-! ## Links -/

/-- Makes one link, of which the target is a text of its own, or else a second name of a file. -/
def linkOne (o : Options) (goal : String) (s : Scene) (path : String) :
    Except String (Workspace × String) := do
  let kind := if o.has 's' then "symbolic" else "hard"
  let failed (fault : FileFault) : String :=
    "failed to create " ++ kind ++ " link '" ++ goal ++ "'"
      ++ (if fault = .taken then "" else if o.has 's' then ""
        else " => '" ++ path ++ "'") ++ ": " ++ faultText fault
  let told := if o.has 'v' then
      "'" ++ goal ++ "' " ++ (if o.has 's' then "->" else "=>") ++ " '" ++ path ++ "'\n"
    else ""
  let q ← (s.files.placeOf false (decode goal)).mapError failed
  let e ← if o.has 's' then
      if path.isEmpty then
        throw ("failed to create symbolic link '" ++ goal ++ "' -> '': No such file or directory")
      pure (Entry.link (decode path))
    else do
      let (_, e) ← foundLink s "failed to access" path
      if e = .directory then throw (path ++ ": hard link not allowed for directory")
      pure e
  match s.files.at? q with
  | none => return (s.files.put q e, told)
  | some old =>
    if !o.has 'f' then throw (failed .taken)
    if (placeAt? s path) == some q then
      throw ("'" ++ path ++ "' and '" ++ goal ++ "' are the same file")
    if old = .directory then throw (goal ++ ": cannot overwrite directory")
    return (s.files.put q e, told)

/-- Makes links. A single operand is linked to in the working directory. -/
def ln : Utility := fun s arguments =>
  let table := { copyTable with flags := "sfnvrTiLPb", valued := "tS" }
  table.utility (fun s o =>
    let o := if o.operands.length = 1 && !o.has 't' then
      { o with operands := o.operands ++ ["."] } else o
    if o.operands.isEmpty then table.refuse s "missing file operand"
    else
      match CopyRequest.ofOptions s o (o.has 'n') with
      | .error (true, message) => table.refuse s message
      | .error (false, message) => .blame s 1 message
      | .ok r => eachPath s (fun s path => linkOne o (r.goal path) s path) r.paths) s arguments

end ProofScript.Shell
