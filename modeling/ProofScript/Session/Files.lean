import ProofScript.Session

/-!
# Files of a session

The files that a session looks at. What is known of them decides which others matter: the script
tells where the manifest is looked for, and the settings tell where the verifier is.
-/

namespace ProofScript

/-- The paths at which the manifest of a request is looked for. -/
def Request.manifests (r : Request) (w : Workspace) : List String :=
  match r.manifest with
  | some path => [path]
  | none =>
    match (ScriptSource.ofArgument w r.options.script).start w with
    | .ok start =>
      let dir := (w.directoryOf? start).getD "."
      (dir :: Path.parents dir).map fun d => Path.join d manifestName
    | .error _ => []

/-- The paths at which the executable of a request is looked for. -/
def Request.executables (r : Request) (w : Workspace) : List String :=
  match r.settings w with
  | .error _ => []
  | .ok s =>
    let name := s.executable (r.options.backend.getD s.backend)
    if 1 < Path.componentCount name then [name]
    else (w.commandDirs ++ r.options.searchPaths ++ s.searchPaths).map fun d => Path.join d name

/-- The paths that a session looks at, as far as the files are known. -/
def Request.files (r : Request) (w : Workspace) : List String :=
  r.options.script :: r.manifests w ++ r.executables w

end ProofScript
