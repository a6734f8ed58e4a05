import ProofScript.Settings
import ProofScript.Workspace

/-!
# Loading settings

A manifest is looked for in a directory and in the directories around it; the nearest one counts.
-/

namespace ProofScript

/-- Why settings cannot be loaded. -/
inductive SettingsError where
  /-- The manifest gives no settings. -/
  | manifest (fault : ManifestFault)
  /-- The manifest file of this path gives no settings. -/
  | manifestFile (path : String) (fault : ManifestFault)
  /-- The manifest file of this path cannot be read. -/
  | unreadable (path : String) (fault : FileFault)
  deriving DecidableEq, Repr

/-- The wording of an error. -/
def SettingsError.message : SettingsError → String
  | manifest fault => "config error: " ++ fault.message
  | manifestFile path fault => "config error: " ++ path ++ ": " ++ fault.message
  | unreadable path fault => "config error: failed to read " ++ path ++ ": " ++ fault.message

namespace Workspace

/-- The directory to look into for the path of a file or a directory. -/
def directoryOf? (w : Workspace) (path : String) : Option String :=
  if w.isFile path then Path.parent? path else some path

/-- The nearest manifest in the directory of a path or around it. -/
def manifest? (w : Workspace) (start : String) : Option String :=
  (w.directoryOf? start).bind fun dir =>
    ((dir :: Path.parents dir).map fun d => Path.join d manifestName).find? w.isFile

/-- The settings of a manifest file. -/
def loadManifest (w : Workspace) (path : String) : Except SettingsError Settings := do
  let text ← (w.read path).mapError (.unreadable path)
  let dir := (Path.parent? path).getD "."
  let settings ← (Settings.ofManifest text dir).mapError (.manifestFile path)
  return { settings with manifest := some path }

/-- The settings for a start path: those of the nearest manifest, or else the defaults of the
directory of the path. -/
def loadSettings (w : Workspace) (start : String) : Except SettingsError Settings :=
  let dir := (w.directoryOf? start).getD "."
  match w.manifest? dir with
  | some path => w.loadManifest path
  | none => .ok (Settings.defaults dir)

end Workspace

end ProofScript
