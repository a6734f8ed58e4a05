import ProofScript.Backend
import ProofScript.Path
import ProofScript.Toml.Document

/-!
# Settings

Where the libraries of the backends live and how their verifiers are found. A manifest sets them;
what it leaves out has a default, and its relative paths are relative to the directory that it
stands in.
-/

namespace ProofScript

/-- The name of a manifest file. -/
def manifestName : String := "sable.toml"

/-- What a manifest and its directory settle. -/
structure Settings where
  /-- The path of the manifest, if there is one. -/
  manifest : Option String
  /-- The directory of the project. -/
  root : String
  /-- The backend to use when no other one is asked for. -/
  backend : Backend
  /-- The directories in which verifiers are looked for last. -/
  searchPaths : List String
  /-- The executable of Dafny. -/
  dafny : String
  /-- The executable of Rosette. -/
  racket : String
  /-- The directory of the library for Dafny. -/
  dafnyRoot : String
  /-- The directory of the library for Rosette. -/
  rosetteRoot : String
  /-- The directory in which programs are kept. -/
  keepDir : String
  deriving DecidableEq, Repr

namespace Settings

/-- The settings of a project without a manifest. -/
def defaults (root : String) : Settings :=
  { manifest := none
    root := root
    backend := .dafny
    searchPaths := []
    dafny := Backend.dafny.executable
    racket := Backend.rosette.executable
    dafnyRoot := Path.join (Path.join root "backend") "dafny"
    rosetteRoot := Path.join (Path.join root "backend") "rosette"
    keepDir := root }

/-- The executable of a backend. -/
def executable (s : Settings) : Backend → String
  | .dafny => s.dafny
  | .rosette => s.racket

/-- The library of a backend. -/
def libraryRoot (s : Settings) : Backend → String
  | .dafny => s.dafnyRoot
  | .rosette => s.rosetteRoot

end Settings

/-! ## Manifests -/

/-- What a manifest says. -/
structure Manifest where
  /-- The name of the backend. -/
  backend : Option String
  /-- The directories in which verifiers are looked for. -/
  paths : List String
  /-- The executable of Dafny. -/
  dafny : Option String
  /-- The executable of Rosette. -/
  racket : Option String
  /-- The directory of the library for Dafny. -/
  dafnyRoot : Option String
  /-- The directory of the library for Rosette. -/
  rosetteRoot : Option String
  /-- The directory in which programs are kept. -/
  keepDir : Option String

namespace Manifest

open Toml (Entries)

/-- The section of a name, as a table. A section can also be a list that gives its fields in order.
A missing section is empty, and a date or a time is a section without any of the fields; another
value is no section. -/
def section? (root : Entries) (name : String) (fields : List String) : Option Entries :=
  match Entries.get? root name with
  | none => some []
  | some (.table _ entries) => some entries
  | some (.list items) => some (fields.zip items)
  | some (.moment _) => some []
  | some _ => none

/-- The text of a field, which may be missing; nothing when it is another value. -/
def text? (fields : Entries) (name : String) : Option (Option String) :=
  match Entries.get? fields name with
  | none => some none
  | some (.text s) => some (some s)
  | some _ => none

/-- The text of a value. -/
def valueText? : Toml.Value → Option String
  | .text s => some s
  | _ => none

/-- The texts of a field, which may be missing; nothing when it is no list of texts. -/
def texts? (fields : Entries) (name : String) : Option (List String) :=
  match Entries.get? fields name with
  | none => some []
  | some (.list items) => items.mapM valueText?
  | some _ => none

/-- The names of the sections. -/
def sections : List String := ["verifier", "backend", "output"]

/-- Reads a document as a manifest. It must have no other sections, while a section may have other
fields. -/
def ofEntries? (root : Entries) : Option Manifest :=
  if root.any fun e => !sections.contains e.1 then none
  else do
    let verifier ← section? root "verifier" ["backend", "paths", "dafny", "racket"]
    let libraries ← section? root "backend" ["dafny_root", "rosette_root"]
    let output ← section? root "output" ["keep_dir"]
    return {
      backend := ← text? verifier "backend"
      paths := ← texts? verifier "paths"
      dafny := ← text? verifier "dafny"
      racket := ← text? verifier "racket"
      dafnyRoot := ← text? libraries "dafny_root"
      rosetteRoot := ← text? libraries "rosette_root"
      keepDir := ← text? output "keep_dir" }

/-- Reads a text as a manifest. -/
def ofText? (text : String) : Option Manifest := (Toml.ofText? text).bind ofEntries?

end Manifest

/-! ## Settings from a manifest -/

/-- Why a manifest gives no settings. -/
inductive ManifestFault where
  /-- The text is no manifest. -/
  | malformed
  /-- There is no backend of this name. -/
  | unknownBackend (name : String)
  deriving DecidableEq, Repr

/-- The wording of a fault. -/
def ManifestFault.message : ManifestFault → String
  | malformed => "failed to parse"
  | unknownBackend name =>
    "unknown backend `" ++ name ++ "` (expected `dafny` or `rosette`)"

/-- The settings that a manifest in the directory `dir` makes. -/
def Manifest.settings (m : Manifest) (dir : String) : Except ManifestFault Settings := do
  let base := Settings.defaults dir
  let backend ← match m.backend with
    | none => pure base.backend
    | some name =>
      match Backend.ofName? name with
      | some backend => pure backend
      | none => throw (.unknownBackend name)
  return { base with
    backend := backend
    searchPaths := m.paths.map (Path.join dir)
    dafny := m.dafny.getD base.dafny
    racket := m.racket.getD base.racket
    dafnyRoot := (m.dafnyRoot.map (Path.join dir)).getD base.dafnyRoot
    rosetteRoot := (m.rosetteRoot.map (Path.join dir)).getD base.rosetteRoot
    keepDir := (m.keepDir.map (Path.join dir)).getD base.keepDir }

/-- The settings that the text of a manifest in the directory `dir` makes. -/
def Settings.ofManifest (text dir : String) : Except ManifestFault Settings :=
  match Manifest.ofText? text with
  | some m => m.settings dir
  | none => .error .malformed

end ProofScript
