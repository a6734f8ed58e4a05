import ProofScript.Shell.Files
import ProofScript.Shell.Portion

/-!
# Listings and paths

Utilities that list directories, and that tell parts of paths and what paths lead to.
-/

namespace ProofScript.Shell

/-! ## Listing -/

/-- The options for listing. -/
def lsTable : OptionTable :=
  { flags := "1aAdFplrRmQxCStULhinsogGNbBHqcufkv", valued := "I", status := 2, anywhere := true
    usage := ""
    names := [("all", 'a'), ("almost-all", 'A'), ("directory", 'd'), ("classify", 'F'),
      ("reverse", 'r'), ("recursive", 'R'), ("color", 'N')] }

/-- A name in a listing, and what it stands for. -/
structure Listed where
  /-- The name. -/
  name : String
  /-- The place. -/
  place : Workspace.Place
  /-- What it stands for. -/
  entry : Entry

namespace Listed

/-- The number of bytes of a file. -/
def size (l : Listed) : Nat :=
  match l.entry with
  | .file bytes _ => bytes.length
  | .directory => 4096
  | .link target => (encode target).length
  | _ => 0

/-- The letter of a kind of file. -/
def kind (l : Listed) : String :=
  match l.entry with
  | .directory => "d"
  | .link _ => "l"
  | .null => "c"
  | _ => "-"

/-- How a name is written. -/
def shown (o : Options) (width : Nat) (l : Listed) : String :=
  let name := if o.has 'Q' then "\"" ++ l.name ++ "\"" else l.name
  let mark := if !o.has 'F' && !(o.has 'p' && l.entry = .directory) then ""
    else match l.entry with
      | .directory => "/"
      | .link _ => if o.has 'l' then "" else "@"
      | .file _ true | .program _ => "*"
      | _ => ""
  let behind := match l.entry with
    | .link target => if o.has 'l' then " -> " ++ encode target else ""
    | _ => ""
  if o.has 'l' then
    l.kind ++ modeLetters l.entry ++ " 1 root root " ++ padLeft width l.size ++ " Jan  1 00:00 "
      ++ name ++ mark ++ behind
  else name ++ mark

end Listed

/-- The names of a listing in the order that options ask for. -/
def inOrder (o : Options) (all : List Listed) : List Listed :=
  let sorted := all.mergeSort fun a b => a.name ≤ b.name
  let sorted := if o.has 'S' then sorted.mergeSort fun a b => b.size ≤ a.size else sorted
  if o.has 'r' then sorted.reverse else sorted

/-- The text of a listing. -/
def listing (o : Options) (all : List Listed) : String :=
  let width := ((all.map fun l => l.size.repr.length).foldl max 0)
  let names := (inOrder o all).map (Listed.shown o width)
  match o.last? "1lmxC" with
  | some 'm' => if names.isEmpty then "" else ", ".intercalate names ++ "\n"
  | some 'x' | some 'C' => if names.isEmpty then "" else "  ".intercalate names ++ "\n"
  | _ => String.join (names.map (· ++ "\n"))

/-- What a directory is listed with. -/
def contents (o : Options) (w : Workspace) (p : Workspace.Place) : List Listed :=
  let own := (w.names p).filterMap fun name =>
    (w.at? (name :: p)).map fun e => Listed.mk (encode name) (name :: p) e
  let own := if o.has 'a' || o.has 'A' then own
    else own.filter fun l => !l.name.startsWith "."
  if o.has 'a' then
    ⟨".", p, .directory⟩ :: ⟨"..", p.tail, .directory⟩ :: own else own

/-- The listings of a directory, and with the option for it of those below it, each with its
path. -/
def directoryListings (o : Options) (w : Workspace) (fuel : Nat) (path : String)
    (p : Workspace.Place) : List (String × String) :=
  match fuel with
  | 0 => []
  | fuel + 1 =>
    let own := contents o w p
    let total := if o.has 'l' || o.has 's' then "total " ++ (4 * own.length).repr ++ "\n" else ""
    let inner := if o.has 'R' then
      (inOrder o own).flatMap fun l =>
        if l.entry = .directory && l.name != "." && l.name != ".." then
          directoryListings o w fuel (below path l.name) l.place
        else []
      else []
    (path, total ++ listing o own) :: inner

/-- Lists files, and then what is in directories. -/
def ls : Utility := lsTable.utility fun s o =>
  let paths := if o.operands.isEmpty then ["."] else o.operands
  let follows := !(o.has 'd' || o.has 'l' || o.has 'F') || o.has 'L' || o.has 'H'
  let look (path : String) : Except FileFault (Workspace.Place × Entry) :=
    match if follows then s.find path else s.files.findLink (decode path) with
    | .error .missing => if o.has 'L' then s.find path else s.files.findLink (decode path)
    | r => r
  let results := paths.map fun path => (path, look path)
  let complaints := results.filterMap fun (path, r) =>
    match r with
    | .error fault => some (Chunk.mk true
        (s.called ++ ": cannot access '" ++ path ++ "': " ++ faultText fault ++ "\n"))
    | .ok _ => none
  let known := results.filterMap fun (path, r) =>
    r.toOption.map fun (p, e) => Listed.mk path p e
  let plain := known.filter fun l => o.has 'd' || l.entry ≠ .directory
  let directories := known.filter fun l => !o.has 'd' && l.entry = .directory
  let listings := (inOrder o directories).flatMap fun l =>
    directoryListings o s.files maxDepth l.name l.place
  let named := 1 < paths.length || o.has 'R'
  let blocks := listings.map fun (path, text) => (if named then path ++ ":\n" else "") ++ text
  let blocks := if plain.isEmpty then blocks else listing o plain :: blocks
  ⟨complaints ++ [⟨false, "\n".intercalate blocks⟩],
    if complaints.isEmpty then 0 else 2, none, s.files⟩

/-! ## Parts of paths -/

/-- A text without a given ending. -/
def withoutEnding (text ending : String) : String :=
  if text != ending && ending.toList.isSuffixOf text.toList then
    String.ofList (text.toList.take (text.length - ending.length))
  else text

/-- The options for the last part of a path. -/
def basenameTable : OptionTable :=
  { flags := "az", valued := "s", status := 1, anywhere := false, usage := ""
    names := [("multiple", 'a'), ("suffix", 's')] }

/-- Writes the last part of a path, without an ending. -/
def basename : Utility := basenameTable.needing fun s o =>
  let ending := (o.value? 's').getD ""
  match o.operands with
  | path :: rest =>
    if o.has 'a' || o.has 's' then
      .print s (String.join (o.operands.map fun p => withoutEnding (lastPart p) ending ++ "\n"))
    else
      match rest with
      | [] => .printLine s (lastPart path)
      | [ending] => .printLine s (withoutEnding (lastPart path) ending)
      | _ :: extra :: _ => basenameTable.refuse s ("extra operand '" ++ extra ++ "'")
  | [] => .silent s 0

/-- The directory that a path names. -/
def directoryOf (path : String) : String :=
  let cs := (path.toList.reverse.dropWhile (· == '/')).dropWhile (· != '/')
  match (cs.dropWhile (· == '/')).reverse with
  | [] => if Path.isAbsolute path then "/" else "."
  | dir => String.ofList dir

/-- Writes the directories that paths name. -/
def dirname : Utility := (OptionTable.plain "z" "").needing fun s o =>
  .print s (String.join (o.operands.map fun p => directoryOf p ++ "\n"))

/-! ## What paths lead to -/

/-- How much of a path has to exist. -/
inductive Existing where
  /-- All of it. -/
  | all
  /-- All but the last part. -/
  | directory
  /-- Nothing. -/
  | nothing
  deriving DecidableEq, Repr

/-- The absolute path that a path leads to. -/
def resolved (s : Scene) (k : Existing) (path : String) : Except FileFault String :=
  match k with
  | .all => (s.find path).map fun (p, _) => encode p.path
  | .directory =>
    let parts := Workspace.namedParts (decode path)
    let w := s.files
    if path.isEmpty then .error .missing
    else (w.follow true Workspace.maxLinks parts (w.base (decode path))).map fun p => encode p.path
  | .nothing =>
    match s.files.place (decode path) with
    | .ok p => .ok (encode p.path)
    | .error _ =>
      let base := s.files.base (decode path)
      let p := (Path.parts (decode path)).foldl (fun (p : Workspace.Place) part =>
        if part.isEmpty || part == "." then p else if part == ".." then p.tail else part :: p) base
      .ok (encode p.path)

/-- The options for links. -/
def readlinkTable : OptionTable :=
  { flags := "femnqsvz", valued := "", status := 1, anywhere := true, usage := ""
    names := [("canonicalize", 'f'), ("canonicalize-existing", 'e'),
      ("canonicalize-missing", 'm'), ("no-newline", 'n')] }

/-- Writes the targets of links, or the paths that paths lead to. -/
def readlink : Utility := readlinkTable.needing fun s o =>
  let texts := o.operands.map fun path =>
    match o.last? "fem" with
    | some 'e' => (resolved s .all path).toOption
    | some 'm' => (resolved s .nothing path).toOption
    | some _ => (resolved s .directory path).toOption
    | none => match s.files.findLink (decode path) with
      | .ok (_, .link target) => some (encode target)
      | _ => none
  let closing := if o.has 'n' && texts.length = 1 then "" else "\n"
  { Effect.print s (String.join (texts.filterMap fun t => t.map (· ++ closing))) with
    status := if texts.all Option.isSome then 0 else 1 }

/-- The options for absolute paths. -/
def realpathTable : OptionTable :=
  { flags := "emLPqsz", valued := "\x01", status := 1, anywhere := true, usage := ""
    names := [("canonicalize-existing", 'e'), ("canonicalize-missing", 'm'), ("quiet", 'q'),
      ("no-symlinks", 's'), ("strip", 's'), ("relative-to", '\x01')] }

/-- A path as it is named from a directory. -/
def relativeTo (dir path : List String) : String :=
  match dir, path with
  | d :: ds, p :: ps =>
    if d == p then relativeTo ds ps
    else "/".intercalate ((d :: ds).map (fun _ => "..") ++ p :: ps)
  | ds, ps => if ds.isEmpty && ps.isEmpty then "."
    else "/".intercalate (ds.map (fun _ => "..") ++ ps)

/-- Writes the absolute paths that paths lead to. -/
def realpath : Utility := realpathTable.needing fun s o =>
  let k : Existing := match o.last? "em" with
    | some 'e' => .all
    | some _ => .nothing
    | none => .directory
  eachPath s (fun s path =>
    match resolved s (if o.has 's' then .nothing else k) path with
    | .error fault => .error (path ++ ": " ++ faultText fault)
    | .ok text =>
      match o.value? '\x01' with
      | none => .ok (s.files, text ++ "\n")
      | some dir =>
        let parts (t : String) := (Path.parts t).filter fun part => !part.isEmpty
        let base := ((resolved s .nothing dir).toOption).getD "/"
        .ok (s.files, relativeTo (parts base) (parts text) ++ "\n")) o.operands

/-! ## What is known of files -/

/-- The options for what is known of files. -/
def statTable : OptionTable :=
  { flags := "Lft", valued := "c\x01", status := 1, anywhere := true, usage := ""
    names := [("format", 'c'), ("printf", '\x01'), ("dereference", 'L')] }

/-- What is known of a file, as a format asks for it. -/
def described (l : Listed) : List Char → List Char
  | '%' :: c :: cs =>
    let mode := modeOf l.entry
    let text := match c with
      | 'n' => l.name
      | 's' => l.size.repr
      | 'a' => String.ofList (mode.toList.drop 1)
      | 'A' => l.kind ++ modeLetters l.entry
      | 'F' => match l.entry with
        | .directory => "directory"
        | .link _ => "symbolic link"
        | .null => "character special file"
        | _ => if l.size = 0 then "regular empty file" else "regular file"
      | 'U' | 'G' => "root"
      | 'h' => "1"
      | '%' => "%"
      | _ => "0"
    text.toList ++ described l cs
  | c :: cs => c :: described l cs
  | [] => []

/-- Tells what is known of files. -/
def stat : Utility := statTable.needing fun s o =>
  let format := match o.value? 'c', o.value? '\x01' with
    | some f, _ => f ++ "\n"
    | none, some f => f
    | none, none => "  File: %n\n  Size: %s\t%F\nAccess: (%a/%A)\n"
  eachPath s (fun s path => do
    let (p, e) ← if o.has 'L' then found s "cannot statx" path
      else foundLink s "cannot statx" path
    return (s.files, String.ofList (described ⟨path, p, e⟩ format.toList))) o.operands

end ProofScript.Shell
