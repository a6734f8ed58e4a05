import ProofScript.Proofs.Action
import ProofScript.Proofs.Path
import ProofScript.Session

/-!
# Where settings point

Every path of the settings that a manifest makes is the configured one, taken relative to the
directory of the manifest. So these paths are all absolute just when the path of the manifest is
(`Workspace.loadManifest_paths`), and they are when the manifest is found from an absolute path
(`Workspace.loadSettings_paths`).
-/

namespace ProofScript

variable {w : Workspace} {path start dir p q : String} {m : Manifest} {s : Settings}

/-! ## Files and their directories -/

namespace Workspace

variable {text : String} {e : Entry} {p : Place}

/-- Parts that stand for nothing lead nowhere from the root. -/
theorem followParts_root {parts : List String} {followLast : Bool}
    {expand : List String → Place → Except FileFault Place}
    (h : ∀ part ∈ parts, (part.isEmpty || part == ".") = true) :
    w.followParts followLast expand parts [] = .ok [] := by
  induction parts with
  | nil => rfl
  | cons part parts ih =>
    have hroot : w.at? [] = some .directory := rfl
    rw [followParts, hroot]
    dsimp only
    rw [if_pos (h part List.mem_cons_self)]
    exact ih fun part hpart => h part (List.mem_cons_of_mem _ hpart)

theorem follow_root {parts : List String} {followLast : Bool} {links : Nat}
    (h : ∀ part ∈ parts, (part.isEmpty || part == ".") = true) :
    w.follow followLast links parts [] = .ok [] := by
  cases links <;> exact followParts_root h

/-- A path that lies in no directory leads to the root, if it leads anywhere. -/
theorem place_of_parents_eq_nil (hparents : Path.parents path = []) (h : w.place path = .ok p) :
    p = [] := by
  unfold place placeOf at h
  rcases Path.parents_eq_nil hparents with rfl | ⟨habsolute, hparts⟩
  · cases h
  · rw [base, if_pos habsolute, follow_root hparts] at h
    split_ifs at h
    exact (Except.ok.inj h).symm

/-- What is no directory lies in a directory. -/
theorem exists_parent (h : w.find path = .ok (p, e)) (he : e ≠ .directory) :
    ∃ dir, Path.parent? path = some dir := by
  cases hparents : Path.parents path with
  | cons dir dirs => exact ⟨dir, by rw [Path.parent?, hparents]; rfl⟩
  | nil =>
    obtain ⟨q, hplace, hentry⟩ := ok_of_bind h
    obtain rfl := place_of_parents_eq_nil hparents hplace
    have hroot : w.at? [] = some .directory := rfl
    rw [hroot] at hentry
    cases hentry
    exact absurd rfl he

theorem exists_parent_of_read (h : w.read path = .ok text) :
    ∃ dir, Path.parent? path = some dir := by
  obtain ⟨bytes, hbytes, -⟩ := ok_of_bind h
  obtain ⟨⟨q, e⟩, hfind, hread⟩ := ok_of_bind hbytes
  refine exists_parent hfind ?_
  rintro rfl
  cases hread

theorem exists_parent_of_isFile (h : w.isFile path = true) :
    ∃ dir, Path.parent? path = some dir := by
  unfold isFile at h
  split at h
  · rename_i hfind
    exact exists_parent hfind Entry.noConfusion
  · rename_i hfind
    exact exists_parent hfind Entry.noConfusion
  · cases h

end Workspace

/-! ## Settings from a manifest -/

/-- A configured path, taken relative to a directory. -/
structure Path.Resolved (dir p q : String) : Prop where
  of_absolute : isAbsolute p = true → q = p
  of_relative : isAbsolute p = false → q = join dir p

theorem Path.resolved_join (dir p : String) : Resolved dir p (join dir p) :=
  ⟨fun h => join_of_isAbsolute h dir, fun _ => rfl⟩

theorem Path.Resolved.isAbsolute_eq (h : Resolved dir p q) :
    isAbsolute q = (isAbsolute p || isAbsolute dir) := by
  cases hp : isAbsolute p with
  | true => rw [h.of_absolute hp, hp, Bool.true_or]
  | false => rw [h.of_relative hp, isAbsolute_join, hp]

/-- The paths of settings. -/
def Settings.paths (s : Settings) : List String :=
  s.root :: s.dafnyRoot :: s.rosetteRoot :: s.keepDir :: s.searchPaths

/-- The settings have the paths that a manifest in a directory configures. The libraries that it
leaves out are those that lie in the directory, and programs are kept in the directory itself. -/
structure Manifest.Settles (m : Manifest) (dir : String) (s : Settings) : Prop where
  root : s.root = dir
  searchPaths : List.Forall₂ (Path.Resolved dir) m.paths s.searchPaths
  dafnyRoot : Path.Resolved dir (m.dafnyRoot.getD "backend/dafny") s.dafnyRoot
  rosetteRoot : Path.Resolved dir (m.rosetteRoot.getD "backend/rosette") s.rosetteRoot
  keepDir : m.keepDir.elim (s.keepDir = dir) fun p => Path.Resolved dir p s.keepDir

/-- A library is looked for in the directory `backend`, unless another place is configured. -/
theorem Path.resolved_library (dir name : String) (hname : isAbsolute name = false) :
    Resolved dir ("backend/" ++ name) (join (join dir "backend") name) := by
  rw [join_join dir (by decide) ⟨'d', by decide, by decide⟩ hname]
  exact resolved_join dir _

theorem Manifest.exists_of_settings (h : m.settings dir = .ok s) :
    ∃ backend, s = { Settings.defaults dir with
      backend := backend
      searchPaths := m.paths.map (Path.join dir)
      dafny := m.dafny.getD (Settings.defaults dir).dafny
      racket := m.racket.getD (Settings.defaults dir).racket
      dafnyRoot := (m.dafnyRoot.map (Path.join dir)).getD (Settings.defaults dir).dafnyRoot
      rosetteRoot := (m.rosetteRoot.map (Path.join dir)).getD (Settings.defaults dir).rosetteRoot
      keepDir := (m.keepDir.map (Path.join dir)).getD dir } := by
  unfold settings at h
  dsimp only at h
  split at h
  · exact ⟨_, (Except.ok.inj h).symm⟩
  · split at h
    · exact ⟨_, (Except.ok.inj h).symm⟩
    · cases h

theorem Manifest.settles_of_settings (h : m.settings dir = .ok s) : m.Settles dir s := by
  obtain ⟨backend, rfl⟩ := exists_of_settings h
  refine ⟨rfl, ?_, ?_, ?_, ?_⟩
  · exact List.forall₂_map_right_iff.2 (List.forall₂_same.2 fun p _ => Path.resolved_join dir p)
  · cases m.dafnyRoot with
    | none => exact Path.resolved_library dir "dafny" (by decide)
    | some p => exact Path.resolved_join dir p
  · cases m.rosetteRoot with
    | none => exact Path.resolved_library dir "rosette" (by decide)
    | some p => exact Path.resolved_join dir p
  · cases m.keepDir with
    | none => rfl
    | some p => exact Path.resolved_join dir p

/-- The paths that a manifest settles are all absolute just when its directory is. -/
theorem Manifest.Settles.absolute_iff (h : m.Settles dir s) :
    (∀ q ∈ s.paths, Path.isAbsolute q = true) ↔ Path.isAbsolute dir = true := by
  have hof {p q : String} (hdir : Path.isAbsolute dir = true) (hq : Path.Resolved dir p q) :
      Path.isAbsolute q = true := by rw [hq.isAbsolute_eq, hdir, Bool.or_true]
  refine ⟨fun hall => h.root ▸ hall s.root List.mem_cons_self, fun hdir q hq => ?_⟩
  simp only [Settings.paths, List.mem_cons] at hq
  rcases hq with rfl | rfl | rfl | rfl | hq
  · rw [h.root, hdir]
  · exact hof hdir h.dafnyRoot
  · exact hof hdir h.rosetteRoot
  · have hkeep := h.keepDir
    cases hm : m.keepDir with
    | none =>
      rw [hm] at hkeep
      exact (congrArg Path.isAbsolute hkeep).trans hdir
    | some p =>
      rw [hm] at hkeep
      exact hof hdir hkeep
  · have hpaths : List.Forall₂ (flip (Path.Resolved dir)) s.searchPaths m.paths :=
      h.searchPaths.flip
    have hboth := hpaths.imp fun q p hp => (⟨hof hdir hp, hp⟩ : Path.isAbsolute q = true ∧ _)
    exact ((List.forall₂_and_left _ _).1 hboth).1 q hq

/-! ## Loading -/

namespace Workspace

theorem exists_manifest_of_loadManifest (h : w.loadManifest path = .ok s) :
    ∃ text m dir, w.read path = .ok text ∧ Manifest.ofText? text = some m ∧
      Path.parent? path = some dir ∧ m.Settles dir s := by
  obtain ⟨text, htext, h⟩ := ok_of_bind h
  have hread := ok_of_mapError htext
  -- What has been read is a file, so its path is not the root and the dot is never needed.
  obtain ⟨dir, hdir⟩ := exists_parent_of_read hread
  obtain ⟨settled, hsettled, h⟩ := ok_of_bind h
  cases h
  have hmanifest := ok_of_mapError hsettled
  rw [hdir, Option.getD_some, Settings.ofManifest] at hmanifest
  cases hm : Manifest.ofText? text with
  | none =>
    rw [hm] at hmanifest
    cases hmanifest
  | some m =>
    rw [hm] at hmanifest
    have hsettles := Manifest.settles_of_settings hmanifest
    exact ⟨text, m, dir, hread, hm, hdir, hsettles.root, hsettles.searchPaths, hsettles.dafnyRoot,
      hsettles.rosetteRoot, hsettles.keepDir⟩

theorem isAbsolute_parent? (h : Path.parent? path = some dir) :
    Path.isAbsolute dir = Path.isAbsolute path :=
  Path.isAbsolute_of_mem_parents (List.mem_of_head? h)

theorem absolute_of_loadManifest (h : w.loadManifest path = .ok s)
    (hpath : Path.isAbsolute path = true) : ∀ q ∈ s.paths, Path.isAbsolute q = true := by
  obtain ⟨text, m, dir, -, -, hdir, hsettles⟩ := exists_manifest_of_loadManifest h
  rw [hsettles.absolute_iff, isAbsolute_parent? hdir, hpath]

/-- The settings of a manifest have the paths that it configures, relative to its directory. They
are all absolute just when the path of the manifest is. -/
theorem loadManifest_paths (h : w.loadManifest path = .ok s) :
    ∃ text m dir, w.read path = .ok text ∧ Manifest.ofText? text = some m ∧
      Path.parent? path = some dir ∧ m.Settles dir s ∧
      ((∀ q ∈ s.paths, Path.isAbsolute q = true) ↔ Path.isAbsolute path = true) := by
  obtain ⟨text, m, dir, hread, hm, hdir, hsettles⟩ := exists_manifest_of_loadManifest h
  refine ⟨text, m, dir, hread, hm, hdir, hsettles, ?_⟩
  rw [hsettles.absolute_iff, isAbsolute_parent? hdir]

/-- A manifest with an absolute path configures relative and absolute ones. -/
theorem loadManifest_paths_absolute :
    let text := "[verifier]\npaths = [\"bin\", \"/opt/dafny\"]\n\n[output]\nkeep_dir = \"out\"\n"
    let w := Workspace.empty.install ["sable.toml", "proj"] (.ofText text false)
    let s : Settings := { Settings.defaults "/proj" with
      manifest := some "/proj/sable.toml"
      searchPaths := ["/proj/bin", "/opt/dafny"]
      keepDir := "/proj/out" }
    w.loadManifest "/proj/sable.toml" = .ok s ∧
      ∃ m, Manifest.ofText? text = some m ∧ m.Settles "/proj" s ∧
        ∀ q ∈ s.paths, Path.isAbsolute q = true := by
  intro text w s
  have hload : w.loadManifest "/proj/sable.toml" = .ok s := by decide +kernel
  have hread : w.read "/proj/sable.toml" = .ok text := by decide +kernel
  obtain ⟨text', m, dir, hread', hm, hdir, hsettles, habsolute⟩ := loadManifest_paths hload
  obtain rfl : text = text' := Except.ok.inj (hread.symm.trans hread')
  obtain rfl : "/proj" = dir := Option.some.inj hdir
  exact ⟨hload, m, hm, hsettles, habsolute.2 (by decide)⟩

/-- A manifest with a relative path makes settings with relative paths. -/
theorem loadManifest_relative :
    let manifest := Entry.ofText "[verifier]\npaths = [\"bin\"]\n" false
    let place := ["sable.toml", "sub", "proj"]
    let w := { Workspace.empty with current := ["proj"] }.install place manifest
    w.loadManifest "sub/sable.toml" = .ok { Settings.defaults "sub" with
      manifest := some "sub/sable.toml", searchPaths := ["sub/bin"] } ∧
    (Settings.defaults "sub").dafnyRoot = "sub/backend/dafny" ∧
    Path.isAbsolute "sub/backend/dafny" = false := by
  intro manifest place w
  exact ⟨by decide +kernel, by decide +kernel, by decide⟩

/-! ### Manifests that are looked for -/

theorem absolute_of_directoryOf? (h : w.directoryOf? start = some dir) :
    Path.isAbsolute dir = Path.isAbsolute start := by
  unfold directoryOf? at h
  split_ifs at h
  · exact isAbsolute_parent? h
  · rw [Option.some.inj h]

theorem exists_directoryOf? (w : Workspace) (start : String) :
    ∃ dir, w.directoryOf? start = some dir := by
  unfold directoryOf?
  split_ifs with hfile
  · exact exists_parent_of_isFile hfile
  · exact ⟨start, rfl⟩

theorem absolute_of_manifest? (h : w.manifest? start = some path)
    (hstart : Path.isAbsolute start = true) : Path.isAbsolute path = true := by
  obtain ⟨dir, hdir, hfind⟩ := Option.bind_eq_some_iff.1 h
  obtain ⟨around, haround, rfl⟩ := List.mem_map.1 (List.mem_of_find?_eq_some hfind)
  have hnear : Path.isAbsolute dir = true := (absolute_of_directoryOf? hdir).trans hstart
  have hfar : Path.isAbsolute around = true := by
    rcases List.mem_cons.1 haround with rfl | haround
    · exact hnear
    · rw [Path.isAbsolute_of_mem_parents haround, hnear]
  rw [Path.isAbsolute_join, hfar, Bool.or_true]

theorem absolute_of_defaults (h : Path.isAbsolute dir = true) :
    ∀ q ∈ (Settings.defaults dir).paths, Path.isAbsolute q = true := by
  intro q hq
  simp only [Settings.paths, Settings.defaults, List.mem_cons, List.not_mem_nil, or_false] at hq
  rcases hq with rfl | rfl | rfl | rfl <;> simp only [Path.isAbsolute_join, h, Bool.or_true]

/-- Settings that are looked for from an absolute path have absolute paths. -/
theorem absolute_of_loadSettings (h : w.loadSettings start = .ok s)
    (hstart : Path.isAbsolute start = true) : ∀ q ∈ s.paths, Path.isAbsolute q = true := by
  obtain ⟨dir, hdir⟩ := exists_directoryOf? w start
  have habsolute : Path.isAbsolute dir = true := (absolute_of_directoryOf? hdir).trans hstart
  unfold loadSettings at h
  rw [hdir, Option.getD_some] at h
  dsimp only at h
  cases hmanifest : w.manifest? dir with
  | some path =>
    rw [hmanifest] at h
    exact absolute_of_loadManifest h (absolute_of_manifest? hmanifest habsolute)
  | none =>
    rw [hmanifest] at h
    cases h
    exact absolute_of_defaults habsolute

theorem isAbsolute_path (p : Place) : Path.isAbsolute p.path = true := by
  simp [Place.path, Path.isAbsolute]

end Workspace

theorem ScriptSource.isAbsolute_start {origin : ScriptSource} (h : origin.start w = .ok start) :
    Path.isAbsolute start = true := by
  cases origin with
  | file path =>
    obtain ⟨found, -, rfl⟩ := ok_of_map h
    exact Workspace.isAbsolute_path found.1
  | input =>
    cases h
    exact Workspace.isAbsolute_path _
  | literal text =>
    cases h
    exact Workspace.isAbsolute_path _

/-- The settings of a request have absolute paths, unless it names its manifest by a relative
path. -/
theorem Request.absolute_of_settings {r : Request} (h : r.settings w = .ok s)
    (hmanifest : ∀ path, r.manifest = some path → Path.isAbsolute path = true) :
    ∀ q ∈ s.paths, Path.isAbsolute q = true := by
  unfold settings at h
  cases hnamed : r.manifest with
  | some path =>
    rw [hnamed] at h
    exact Workspace.absolute_of_loadManifest (ok_of_mapError h) (hmanifest path hnamed)
  | none =>
    rw [hnamed] at h
    obtain ⟨start, hstart, h⟩ := ok_of_bind h
    exact Workspace.absolute_of_loadSettings (ok_of_mapError h)
      (ScriptSource.isAbsolute_start (ok_of_mapError hstart))

end ProofScript
