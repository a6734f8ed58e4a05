import ProofScript.NameMap
import ProofScript.Path
import ProofScript.Text.Bytes

/-!
# Workspaces

The files that a session sees: a tree of directories, files and links, the directory that relative
paths start from, and the directories that hold commands. A path is followed part by part, so a
parent directory is the parent of what the path has led to so far, and every part but the last one
must be an existing directory or a link to one.
-/

namespace ProofScript

/-- What is found at a place. -/
inductive Entry where
  /-- A directory. -/
  | directory
  /-- A file that holds `bytes`, and whether it can be executed. -/
  | file (bytes : List UInt8) (executable : Bool)
  /-- A link to the path `target`, which is taken relative to the directory of the link. -/
  | link (target : String)
  /-- A device that holds nothing and takes everything. -/
  | null
  /-- A program of the system that goes by a name. -/
  | program (name : String)
  deriving DecidableEq, Repr

/-- A file that holds a text. -/
def Entry.ofText (text : String) (executable : Bool) : Entry := .file (Text.toBytes text) executable

/-- Why a path cannot be used. -/
inductive FileFault where
  /-- There is nothing at the path. -/
  | missing
  /-- A part on the way is a file. -/
  | notDirectory
  /-- The path leads to a directory, and a file is needed. -/
  | isDirectory
  /-- There is something at the path already. -/
  | taken
  /-- The file must not be executed. -/
  | denied
  /-- The file is no program. -/
  | notProgram
  /-- The path or a part of it has too many bytes. -/
  | tooLong
  /-- Too many links have been followed. -/
  | loop
  /-- The file holds no text. -/
  | notText
  /-- The path holds a null character. -/
  | nullCharacter
  deriving DecidableEq, Repr

/-- The wording of a fault. -/
def FileFault.message : FileFault → String
  | missing => "No such file or directory (os error 2)"
  | notDirectory => "Not a directory (os error 20)"
  | isDirectory => "Is a directory (os error 21)"
  | taken => "File exists (os error 17)"
  | denied => "Permission denied (os error 13)"
  | notProgram => "Exec format error (os error 8)"
  | tooLong => "File name too long (os error 36)"
  | loop => "Too many levels of symbolic links (os error 40)"
  | notText => "stream did not contain valid UTF-8"
  | nullCharacter => "file name contained an unexpected NUL byte"

/-- A place in the tree: the names that lead to it from the root, last one first. -/
abbrev Workspace.Place := List String

/-- The absolute path of a place. -/
def Workspace.Place.path (p : Workspace.Place) : String := "/" ++ "/".intercalate p.reverse

/-- A tree of files, and how paths and commands are looked up in it. -/
structure Workspace where
  /-- Where relative paths start. -/
  current : Workspace.Place
  /-- The directories in which commands are looked for first. -/
  commandDirs : List String
  /-- What is found at the path of each place but the root. -/
  entries : NameMap Entry

namespace Workspace

/-- The workspace in which nothing but the root exists. -/
def empty : Workspace := { current := [], commandDirs := [], entries := NameMap.empty }

/-- What is found at a place. -/
def at? (w : Workspace) (p : Place) : Option Entry :=
  if p.isEmpty then some .directory else w.entries.get? p.path

/-- Puts an entry at a place. -/
def put (w : Workspace) (p : Place) (e : Entry) : Workspace :=
  { w with entries := w.entries.insert p.path e }

/-! ## Following paths -/

/-- The largest number of bytes in a part of a path. -/
def maxPartSize : Nat := 255

/-- The largest number of bytes in a path. -/
def maxPathSize : Nat := 4095

/-- The largest number of links that are followed on the way of a path. -/
def maxLinks : Nat := 40

/-- The place that parts lead to from a place, where `expand` follows the target of a link. A link
at the end is followed only with `followLast`. -/
def followParts (w : Workspace) (followLast : Bool)
    (expand : List String → Place → Except FileFault Place) :
    List String → Place → Except FileFault Place
  | [], p => .ok p
  | part :: parts, p =>
    match w.at? p with
    | none => .error .missing
    | some .directory =>
      if part.isEmpty || part == "." then followParts w followLast expand parts p
      else if part == ".." then followParts w followLast expand parts p.tail
      else if maxPartSize < part.utf8ByteSize then .error .tooLong
      else
        match w.at? (part :: p) with
        | some (.link target) =>
          if parts.isEmpty && !followLast then .ok (part :: p)
          else expand (Path.parts target ++ parts) (if Path.isAbsolute target then [] else p)
        | _ => followParts w followLast expand parts (part :: p)
    | some _ => .error .notDirectory

/-- The place that parts lead to from a place, when at most `links` links are on the way. -/
def follow (w : Workspace) (followLast : Bool) :
    (links : Nat) → List String → Place → Except FileFault Place
  | 0 => w.followParts followLast fun _ _ => .error .loop
  | links + 1 => w.followParts followLast (follow w followLast links)

/-- Where a path starts. -/
def base (w : Workspace) (path : String) : Place := if Path.isAbsolute path then [] else w.current

/-- The place that a path leads to. There may be nothing at that place. A link at the end is
followed only with `followLast`. -/
def placeOf (w : Workspace) (followLast : Bool) (path : String) : Except FileFault Place :=
  if path.isEmpty then .error .missing
  else if path.toList.contains '\x00' then .error .nullCharacter
  else if maxPathSize < path.utf8ByteSize then .error .tooLong
  else w.follow followLast maxLinks (Path.parts path) (w.base path)

/-- The place that a path leads to, with all links followed. There may be nothing at that place. -/
def place (w : Workspace) (path : String) : Except FileFault Place := w.placeOf true path

/-- What is found at a path, and its place. -/
def find (w : Workspace) (path : String) : Except FileFault (Place × Entry) := do
  let p ← w.place path
  match w.at? p with
  | some e => return (p, e)
  | none => throw .missing

/-- What is found at a path that may lead to a link, and its place. -/
def findLink (w : Workspace) (path : String) : Except FileFault (Place × Entry) := do
  let p ← w.placeOf false path
  match w.at? p with
  | some e => return (p, e)
  | none => throw .missing

/-- Whether there is a file at a path. -/
def isFile (w : Workspace) (path : String) : Bool :=
  match w.find path with
  | .ok (_, .file _ _) | .ok (_, .program _) => true
  | _ => false

/-- Whether there is a directory at a path. -/
def isDirectory (w : Workspace) (path : String) : Bool :=
  match w.find path with
  | .ok (_, .directory) => true
  | _ => false

/-- Whether there is anything at a path. -/
def contains (w : Workspace) (path : String) : Bool := (w.find path).toBool

/-- The absolute path without detours that leads to the same place as an existing path. -/
def canonical (w : Workspace) (path : String) : Except FileFault String :=
  (w.find path).map fun (p, _) => p.path

/-! ## Files -/

/-- The bytes of a file. -/
def readBytes (w : Workspace) (path : String) : Except FileFault (List UInt8) := do
  match ← w.find path with
  | (_, .file bytes _) => return bytes
  | (_, .directory) => throw .isDirectory
  | (_, .link _) => throw .loop
  | (_, .null) => return []
  | (_, .program name) => return Text.toBytes name

/-- The text of a file. -/
def read (w : Workspace) (path : String) : Except FileFault String := do
  match Text.ofBytes? (← w.readBytes path) with
  | some text => return text
  | none => throw .notText

/-- Writes the bytes of a file, which may be new. A file that was there can still be executed if it
could be before. -/
def writeBytes (w : Workspace) (path : String) (bytes : List UInt8) :
    Except FileFault Workspace := do
  let p ← w.place path
  match w.at? p with
  | none => return w.put p (.file bytes false)
  | some (.file _ executable) => return w.put p (.file bytes executable)
  | some .directory => throw .isDirectory
  | some (.link _) => throw .loop
  | some .null => return w
  | some (.program _) => throw .denied

/-- Writes the text of a file. -/
def write (w : Workspace) (path text : String) : Except FileFault Workspace :=
  w.writeBytes path (Text.toBytes text)

/-- Removes what is found at a place. -/
def remove (w : Workspace) (p : Place) : Workspace := { w with entries := w.entries.erase p.path }

/-! ## Directories -/

/-- The names in the directory at a place, in order. -/
def names (w : Workspace) (p : Place) : List String :=
  let start := (if p.isEmpty then "/" else p.path ++ "/").toList
  w.entries.names.filterMap fun path =>
    if start.isPrefixOf path.toList then
      let name := path.toList.drop start.length
      if name.isEmpty || name.contains '/' then none else some (String.ofList name)
    else none

/-- The parts of a path without empty ones at the end. -/
def namedParts (path : String) : List String :=
  ((Path.parts path).reverse.dropWhile String.isEmpty).reverse

/-- Makes a directory in a directory that is there. -/
def makeDirectory (w : Workspace) (path : String) : Except FileFault Workspace := do
  if path.isEmpty then throw .missing
  if path.toList.contains '\x00' then throw .nullCharacter
  if maxPathSize < path.utf8ByteSize then throw .tooLong
  let p ← w.follow false maxLinks (namedParts path) (w.base path)
  match w.at? p with
  | none => return w.put p .directory
  | some _ => throw .taken

/-- Makes the first of some directories, each of which lies in the next one, together with those
that are missing around it. A directory that is there already is left alone. -/
def makeDirectoryIn (w : Workspace) : List String → Except FileFault Workspace
  | [] => .error .missing
  | path :: around =>
    if path.isEmpty then .ok w
    else
      match w.makeDirectory path with
      | .ok w => .ok w
      | .error .missing => do
        let w ← makeDirectoryIn w around
        match w.makeDirectory path with
        | .ok w => return w
        | .error fault => if w.isDirectory path then return w else throw fault
      | .error fault => if w.isDirectory path then .ok w else .error fault

/-- Makes a directory together with those that are missing around it. -/
def makeDirectories (w : Workspace) (path : String) : Except FileFault Workspace :=
  w.makeDirectoryIn (path :: Path.parents path)

/-! ## Setting up -/

/-- Puts directories at all places on the way to a place. -/
def putAround (w : Workspace) : Place → Workspace
  | [] => w
  | name :: around =>
    let w := putAround w around
    if (w.at? (name :: around)).isSome then w else w.put (name :: around) .directory

/-- Puts an entry at a place, with all directories on the way to it. -/
def install (w : Workspace) (p : Place) (e : Entry) : Workspace := (w.putAround p.tail).put p e

end Workspace

end ProofScript
