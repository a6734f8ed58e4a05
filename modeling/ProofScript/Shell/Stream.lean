import ProofScript.Shell.Expansion

/-!
# Streams

Where the streams of a command go. The targets of all redirections are expanded, and then they are
opened in order.
-/

namespace ProofScript.Shell

/-- The wording of a fault in a message about a file that the shell uses. -/
def openFault (verb path whenMissing : String) (fault : FileFault) : String :=
  "cannot " ++ verb ++ " " ++ path ++ ": " ++ match fault with
    | .missing | .notDirectory => whenMissing
    | fault => faultText fault

/-- The stream that goes by a path. -/
def streamOfPath? (path : String) : Option Nat :=
  match path with
  | "/dev/stdin" => some 0
  | "/dev/stdout" => some 1
  | "/dev/stderr" => some 2
  | path =>
    let start := "/dev/fd/".toList
    if start.isPrefixOf path.toList then Text.digits? (path.toList.drop start.length) else none

/-- Why a redirection is impossible. -/
inductive RedirectFault where
  /-- The target cannot be opened, as a message says. -/
  | message (text : String)
  /-- The target should be a stream and is none. -/
  | noStream
  deriving DecidableEq, Repr

namespace Process

/-- Lets a stream lead to a new channel. -/
def openChannel (p : Process) (stream : Nat) (c : Channel) : Process :=
  let (n, m) := p.toMachine.add c
  (p.withMachine m).send stream n

/-- Opens a file to be read. -/
def openReading (p : Process) (stream : Nat) (path : String) : Except FileFault Process := do
  match ← p.files.find (decode path) with
  | (_, .directory) => return p.openChannel stream .directory
  | (_, .null) => return p.openChannel stream .null
  | (place, .file _ _) => return p.openChannel stream (.file place 0 false false)
  | (_, .program name) => return p.openChannel stream (.source name)
  | (_, .link _) => throw .loop

/-- Opens a file to be written, which may be new. With `keeps`, its text stays; with `only`, it must
be new. -/
def openWriting (p : Process) (stream : Nat) (path : String) (keeps appends only : Bool) :
    Except FileFault Process := do
  let place ← p.files.place (decode path)
  let old := p.files.at? place
  match old with
  | some .null => return p.openChannel stream .null
  | some .directory => throw .isDirectory
  | some (.link _) => throw .loop
  | some (.program _) => throw .denied
  | some (.file bytes executable) =>
    if only then throw .taken
    let files := p.files.put place (.file (if keeps then bytes else []) executable)
    return { p with files := files }.openChannel stream (.file place 0 appends true)
  | none =>
    let files ← p.files.writeBytes (decode path) []
    return { p with files := files }.openChannel stream (.file place 0 appends true)

/-- Lets a stream lead where another one does. -/
def duplicate (p : Process) (stream : Nat) (other : Nat) : Except RedirectFault Process :=
  match p.streamChannel? other with
  | some n => .ok (p.send stream n)
  | none => .error (.message (other.repr ++ ": Bad file descriptor"))

/-- Opens the target of a redirection. -/
def redirect (p : Process) (r : Redirect) (target : String) : Except RedirectFault Process :=
  let creating (keeps appends only : Bool) : Except RedirectFault Process :=
    match streamOfPath? target with
    | some other => p.duplicate r.stream other
    | none => (p.openWriting r.stream target keeps appends only).mapError fun fault =>
        .message (openFault "create" target "Directory nonexistent" fault)
  match r.kind with
  | .here => .ok (p.openChannel r.stream (.source target))
  | .duplicate =>
    if target == "-" then .ok (p.closeStream r.stream)
    else
      match Text.digits? target.toList with
      | some other => p.duplicate r.stream other
      | none => .error .noStream
  | .read =>
    match streamOfPath? target with
    | some other => p.duplicate r.stream other
    | none => (p.openReading r.stream target).mapError fun fault =>
        .message (openFault "open" target "No such file" fault)
  | .write => creating false false (p.isSet 'C')
  | .overwrite => creating false false false
  | .append => creating true true false
  | .both => creating true false false

/-- Opens the targets of redirections, in order, and tells whether that is possible. The message
about one that cannot be opened goes to the streams that have been opened before it. A target that
is no stream ends the script, and counts as found behind the line. -/
def redirectAll (p : Process) : List (Redirect × String) → Process × Bool
  | [] => (p, true)
  | (r, target) :: rest =>
    match p.redirect r target with
    | .ok p => redirectAll p rest
    | .error (.message message) => (p.complain 2 message, false)
    | .error .noStream =>
      ({ ({ p with line := p.line + 1 }.fail "Syntax error: Bad fd number") with line := p.line },
        false)

end Process

/-- Expands the targets of redirections. -/
def expandTargets (run : Substitute) : List Redirect → Process →
    List (Redirect × String) × Process
  | [], p => ([], p)
  | r :: rs, p =>
    let (target, p) := expandText run r.target p
    if p.flow != .onward then ([], p)
    else
      let (rest, p) := expandTargets run rs p
      ((r, target) :: rest, p)

end ProofScript.Shell
