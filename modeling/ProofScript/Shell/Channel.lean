import ProofScript.Shell.Bytes
import ProofScript.Workspace

/-!
# Channels

What the streams of a script lead to. Several streams can lead to one channel, which then share its
position: what one of them has read or written is behind all of them.
-/

namespace ProofScript.Shell

/-- What a stream leads to. -/
inductive Channel where
  /-- A text that is still to be read. -/
  | source (rest : String)
  /-- Texts that have been written, last one first. -/
  | sink (written : List String)
  /-- A file and the position in it. With `appends`, all that is written goes to its end. -/
  | file (place : Workspace.Place) (offset : Nat) (appends writable : Bool)
  /-- A directory, of which nothing can be read. -/
  | directory
  /-- Nothing. -/
  | null
  deriving Repr

/-- Channels by their numbers, and the files. -/
structure Machine where
  /-- The files. -/
  files : Workspace
  /-- The channels. -/
  channels : Array Channel

namespace Machine

/-- The channel of a number. -/
def channel (m : Machine) (n : Nat) : Channel := m.channels.getD n .null

/-- Opens a channel; its number comes first. -/
def add (m : Machine) (c : Channel) : Nat × Machine :=
  (m.channels.size, { m with channels := m.channels.push c })

/-- Changes the channel of a number. -/
def setChannel (m : Machine) (n : Nat) (c : Channel) : Machine :=
  { m with channels := m.channels.setIfInBounds n c }

/-- The bytes of the file at a place. -/
def bytesAt (m : Machine) (p : Workspace.Place) : List UInt8 :=
  match m.files.at? p with
  | some (.file bytes _) => bytes
  | _ => []

/-- What is left to be read from a channel. -/
def rest (m : Machine) (n : Nat) : Except FileFault String :=
  match m.channel n with
  | .source text => .ok text
  | .file p offset _ _ => .ok (ofBytes ((m.bytesAt p).drop offset))
  | .directory => .error .isDirectory
  | .sink _ | .null => .ok ""

/-- Whether a position of a channel can be given back. -/
def isSeekable (m : Machine) (n : Nat) : Bool :=
  match m.channel n with
  | .file _ _ _ _ => true
  | _ => false

/-- Reads from a channel as much as leaves a text of the same end. -/
def leave (m : Machine) (n : Nat) (left : String) : Machine :=
  match m.channel n with
  | .source _ => m.setChannel n (.source left)
  | .file p _ appends writable =>
    m.setChannel n (.file p ((m.bytesAt p).length - left.length) appends writable)
  | _ => m

/-- Writes a text to a channel; nothing when that is impossible. -/
def write (m : Machine) (n : Nat) (text : String) : Option Machine :=
  match m.channel n with
  | .sink written => some (m.setChannel n (.sink (text :: written)))
  | .null => some m
  | .source _ | .directory => none
  | .file p offset appends writable =>
    if !writable then none
    else
      match m.files.at? p with
      | some (.file old executable) =>
        let start := if appends then old.length else offset
        let before := old.take start
        let gap := List.replicate (start - old.length) 0
        let new := toBytes text
        let bytes := before ++ gap ++ new ++ old.drop (start + new.length)
        some { m.setChannel n (.file p (start + new.length) appends writable) with
          files := m.files.put p (.file bytes executable) }
      | _ => some m

/-- All that has been written to a channel. -/
def written (m : Machine) (n : Nat) : String :=
  match m.channel n with
  | .sink texts => String.join texts.reverse
  | _ => ""

end Machine

end ProofScript.Shell
