import ProofScript.Shell.Options
import ProofScript.Shell.Tree
import ProofScript.Text.Decimal

/-!
# Utilities for files

Utilities that make and remove files and directories, and say whether files can be executed.
-/

namespace ProofScript.Shell

/-- The last part of a path. -/
def lastPart (path : String) : String :=
  match (Path.parts path).reverse.dropWhile String.isEmpty with
  | part :: _ => part
  | [] => if path.isEmpty then "" else "/"

/-! ## Doing one thing to each file -/

/-- Does one thing to each of some paths, which can change the files and write a text, and complains
about those for which it fails. -/
def eachPath (s : Scene) (f : Scene → String → Except String (Workspace × String))
    (paths : List String) : Effect :=
  let (w, chunks) := paths.foldl (fun (w, chunks) path =>
    match f { s with files := w } path with
    | .ok (w, text) => (w, if text.isEmpty then chunks else ⟨false, text⟩ :: chunks)
    | .error message => (w, Chunk.mk true (s.called ++ ": " ++ message ++ "\n") :: chunks))
    (s.files, ([] : List Chunk))
  ⟨chunks.reverse, if chunks.any Chunk.isError then 1 else 0, none, w⟩

/-- What is found at a path, or a message that starts with the given text. -/
def found (s : Scene) (message path : String) : Except String (Workspace.Place × Entry) :=
  (s.find path).mapError fun fault => message ++ " '" ++ path ++ "': " ++ faultText fault

/-- What is found at a path that may lead to a link, or a message. -/
def foundLink (s : Scene) (message path : String) : Except String (Workspace.Place × Entry) :=
  (s.files.findLink (decode path)).mapError fun fault =>
    message ++ " '" ++ path ++ "': " ++ faultText fault

/-! ## Removing -/

/-- The options for removing. -/
def rmTable : OptionTable :=
  { flags := "rRfdviI", valued := "", status := 1, anywhere := true, usage := ""
    names := [("recursive", 'r'), ("force", 'f'), ("dir", 'd'), ("verbose", 'v')] }

/-- Removes what is found, the innermost first. -/
def removeFound (w : Workspace) (all : List Found) : Workspace :=
  all.foldr (fun f w => w.remove f.place) w

/-- Removes files, and with the options for it also directories. -/
def rm : Utility := rmTable.utility fun s o =>
  if o.operands.isEmpty && !o.has 'f' then rmTable.refuse s "missing operand"
  else eachPath s (fun s path =>
    let recursive := o.has 'r' || o.has 'R'
    let message := "cannot remove"
    let told (words : String) : String := if o.has 'v' then words ++ " '" ++ path ++ "'\n" else ""
    if recursive && (lastPart path == "." || lastPart path == "..") then
      .error ("refusing to remove '.' or '..' directory: skipping '" ++ path ++ "'")
    else
      match s.files.findLink (decode path) with
      | .error fault =>
        if o.has 'f' && (fault = .missing || fault = .notDirectory) then .ok (s.files, "")
        else .error (message ++ " '" ++ path ++ "': " ++ faultText fault)
      | .ok (p, .directory) =>
        if p.isEmpty && recursive then
          .error ("it is dangerous to operate recursively on '/'\n" ++ s.called
            ++ ": use --no-preserve-root to override this failsafe")
        else if recursive then
          let all := Found.all s.files maxDepth ⟨path, 0, p, .directory⟩
          let lines := all.reverse.map fun f =>
            (if f.entry = .directory then "removed directory '" else "removed '") ++ f.path ++ "'\n"
          .ok (removeFound s.files all, if o.has 'v' then String.join lines else "")
        else if !o.has 'd' then .error (message ++ " '" ++ path ++ "': Is a directory")
        else if !(s.files.names p).isEmpty then
          .error (message ++ " '" ++ path ++ "': Directory not empty")
        else .ok (s.files.remove p, told "removed directory")
      | .ok (p, _) => .ok (s.files.remove p, told "removed")) o.operands

/-- The options for removing directories. -/
def rmdirTable : OptionTable :=
  { flags := "pv\x01", valued := "", status := 1, anywhere := true, usage := ""
    names := [("parents", 'p'), ("verbose", 'v'), ("ignore-fail-on-non-empty", '\x01')] }

/-- Removes an empty directory. -/
def removeDirectory (o : Options) (s : Scene) (path : String) :
    Except String (Workspace × String) := do
  let message := "failed to remove"
  let told := if o.has 'v' then s.called ++ ": removing directory, '" ++ path ++ "'\n" else ""
  match ← foundLink s message path with
  | (p, .directory) =>
    if (s.files.names p).isEmpty then return (s.files.remove p, told)
    else if o.has '\x01' then return (s.files, told)
    else throw (message ++ " '" ++ path ++ "': Directory not empty")
  | _ => throw (message ++ " '" ++ path ++ "': Not a directory")

/-- Removes empty directories. -/
def rmdir : Utility := rmdirTable.needing fun s o =>
  let paths := o.operands.flatMap fun path =>
    if o.has 'p' then path :: (Path.parents path).filter fun d => !d.isEmpty && d != "/" else [path]
  eachPath s (removeDirectory o) paths

/-! ## Making -/

/-- The options for making directories. -/
def mkdirTable : OptionTable :=
  { flags := "pv", valued := "m", status := 1, anywhere := true, usage := ""
    names := [("parents", 'p'), ("verbose", 'v'), ("mode", 'm')] }

/-- Makes a directory, or says why that is impossible. -/
def makeOne (o : Options) (s : Scene) (path : String) : Except String (Workspace × String) :=
  match s.files.makeDirectory (decode path) with
  | .ok w => .ok (w, if o.has 'v' then s.called ++ ": created directory '" ++ path ++ "'\n" else "")
  | .error fault => .error ("cannot create directory '" ++ path ++ "': " ++ faultText fault)

/-- Makes a directory and those around it, the outermost first. -/
def makeAround (o : Options) (s : Scene) : List String → Except String (Workspace × String)
  | [] => .ok (s.files, "")
  | path :: rest =>
    if s.files.isDirectory (decode path) then makeAround o s rest
    else if (s.find path).toBool && !rest.isEmpty then
      .error ("cannot create directory '" ++ path ++ "': Not a directory")
    else do
      let (w, told) ← makeOne o s path
      let (w, more) ← makeAround o { s with files := w } rest
      return (w, told ++ more)

/-- Makes directories, and with the option for it also those around them. -/
def mkdir : Utility := mkdirTable.needing fun s o =>
  eachPath s (fun s path =>
    if o.has 'p' && !path.isEmpty then
      makeAround o s (((path :: Path.parents path).filter fun d => !d.isEmpty).reverse)
    else makeOne o s path) o.operands

/-- The options for making empty files. -/
def touchTable : OptionTable :=
  { flags := "acmfh", valued := "drt", status := 1, anywhere := true, usage := ""
    names := [("no-create", 'c'), ("date", 'd'), ("reference", 'r')] }

/-- Makes empty files where there is nothing. -/
def touch : Utility := touchTable.utility fun s o =>
  if o.operands.isEmpty then touchTable.refuse s "missing file operand"
  else eachPath s (fun s path =>
    if s.files.contains (decode path) || o.has 'c' then .ok (s.files, "")
    else
      match s.files.writeBytes (decode path) [] with
      | .ok w => .ok (w, "")
      | .error fault => .error ("cannot touch '" ++ path ++ "': " ++ faultText fault)) o.operands

/-! ## Permission to be executed -/

/-- What a mode says of the permission to be executed, given the one that there is; nothing when it
is no mode. -/
def modeChange? (mode : String) : Option (Bool → Bool) :=
  let cs := mode.toList
  if !cs.isEmpty && cs.length ≤ 4 && cs.all fun c => '0' ≤ c && c ≤ '7' then
    let digits := cs.drop (cs.length - 3)
    some fun _ => digits.any fun c => c.toNat % 2 == 1
  else
    (Text.pieces (· == ',') cs).foldlM (fun change clause =>
      let who := clause.takeWhile "ugoa".toList.contains
      match clause.drop who.length with
      | operator :: perms =>
        if !"+-=".toList.contains operator || !perms.all "rwxXst".toList.contains then none
        else
          let counts := who.isEmpty || who.contains 'u' || who.contains 'a'
          let hasX := perms.contains 'x'
          some fun old =>
            let old := change old
            if operator == '+' then old || hasX
            else if !counts then old
            else if operator == '-' then old && !hasX
            else hasX || (old && perms.contains 'X')
      | [] => none) id

/-- The mode of a file or a directory. -/
def modeOf (e : Entry) : String :=
  match e with
  | .file _ false => "0644"
  | .null => "0666"
  | .link _ => "0777"
  | _ => "0755"

/-- The letters of a mode. -/
def modeLetters (e : Entry) : String :=
  match e with
  | .file _ false => "rw-r--r--"
  | .null => "rw-rw-rw-"
  | .link _ => "rwxrwxrwx"
  | _ => "rwxr-xr-x"

/-- The options for permissions. -/
def chmodTable : OptionTable :=
  { flags := "Rfvc", valued := "", status := 1, anywhere := true, usage := ""
    names := [("recursive", 'R'), ("verbose", 'v'), ("silent", 'f'), ("quiet", 'f')] }

/-- Says whether files can be executed. -/
def changeModes (s : Scene) (o : Options) : Effect :=
  match o.operands with
  | [] => chmodTable.refuse s "missing operand"
  | [mode] => chmodTable.refuse s ("missing operand after '" ++ mode ++ "'")
  | mode :: paths =>
    match modeChange? mode with
    | none => chmodTable.refuse s ("invalid mode: '" ++ mode ++ "'")
    | some change =>
      let e := eachPath s (fun s path => do
        if (s.find path).toBool then
          let all ← if o.has 'R' then (allBelow s true path).mapError fun fault =>
              "cannot access '" ++ path ++ "': " ++ faultText fault
            else (found s "cannot access" path).map fun (p, e) => [⟨path, 0, p, e⟩]
          let w := all.foldl (fun (w : Workspace) f => match f.entry with
            | .file bytes old => w.put f.place (.file bytes (change old))
            | _ => w) s.files
          return (w, "")
        else if (s.files.findLink (decode path)).toBool then
          throw ("cannot operate on dangling symlink '" ++ path ++ "'")
        else
          let _ ← found s "cannot access" path
          return (s.files, "")) paths
      if o.has 'f' then { e with chunks := e.chunks.filter fun c => !c.isError } else e

/-- Says whether files can be executed. A mode that starts with a dash is no option. -/
def chmod : Utility := fun s arguments =>
  let isMode (a : String) : Bool := match a.toList with
    | '-' :: cs => !cs.isEmpty && cs.all "rwxXst".toList.contains
    | _ => false
  let before := arguments.takeWhile fun a => !isMode a
  let rest := arguments.drop before.length
  chmodTable.utility (fun s o => changeModes s { o with operands := o.operands.filter (· != "--") })
    s (if rest.isEmpty then arguments else before ++ "--" :: rest)

end ProofScript.Shell
