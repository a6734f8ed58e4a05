import ProofScript.NameMap
import ProofScript.Shell.Edit
import ProofScript.Shell.Portion

/-!
# Editing lines

The utility that passes the lines of its files, or of its input, through a script. Each line passes
through all commands, and is printed at the end unless a command drops it.
-/

namespace ProofScript.Shell

/-- Something that is printed behind a line. -/
inductive Pending where
  /-- A text. -/
  | text (s : String)
  /-- A file. -/
  | file (path : String)
  deriving DecidableEq, Repr

/-- The state of a script that edits lines. -/
structure EditState where
  /-- The text. -/
  text : List Char
  /-- Whether it ends with a line feed. -/
  ended : Bool
  /-- The text that is held. -/
  held : List Char
  /-- The number of the line. -/
  number : Nat
  /-- The lines that are still to be read. -/
  rest : List (List Char)
  /-- What has been printed, last one first. -/
  out : List String
  /-- Whether a line feed is missing at the end of what has been printed. -/
  lacking : Bool
  /-- What is printed behind the line. -/
  pending : List Pending
  /-- Whether something was replaced in this line since the last jump. -/
  changed : Bool
  /-- For each command whether its range is open, and up to which line if that is known. -/
  ranges : Array (Option (Option Nat))
  /-- The expression that was used last. -/
  regex : Option Regex
  /-- What has been written to files. -/
  written : NameMap String
  /-- The number of the next command. -/
  place : Nat
  /-- The status, when the script has ended. -/
  quit : Option Nat

namespace EditState

/-- Prints a text, which ends with a line feed unless `lacking`. -/
def print (s : EditState) (text : List Char) (lacking : Bool) : EditState :=
  { s with
    out := ((if s.lacking then "\n" else "") ++ String.ofList text
      ++ (if lacking then "" else "\n")) :: s.out
    lacking := lacking }

/-- Prints the text of the line. -/
def printText (s : EditState) : EditState := s.print s.text (!s.ended)

/-- Prints what is to be printed behind the line. -/
def flush (files : Workspace) (s : EditState) : EditState :=
  let s := s.pending.foldl (fun s x => match x with
    | .text t => if t == "\x00" then s else s.print t.toList false
    | .file path =>
      match (files.readBytes (decode path)).toOption with
      | some bytes =>
        let text := ofBytes bytes
        if text.isEmpty then s
        else { s with out := text :: (if s.lacking then "\n" else "") :: s.out, lacking := false }
      | none => s) s
  { s with pending := [] }

/-- Writes a line to a file, which can be the standard output. -/
def writeLine (s : EditState) (path : String) : EditState :=
  if path == "/dev/stdout" then s.printText
  else
    let old := (s.written.get? path).getD ""
    { s with written := s.written.insert path (old ++ String.ofList s.text ++ "\n") }

/-- Takes the next line. -/
def take (s : EditState) (line : List Char) (lines : List (List Char)) : EditState :=
  { s with
    text := bare line, ended := line.getLast? == some '\n', number := s.number + 1, rest := lines }

/-- Whether the line is the last one. -/
def isLast (s : EditState) : Bool := s.rest.isEmpty

/-- Whether an address names the line, and the state in which its expression is the last one. -/
def isAt (s : EditState) (a : Address) : Bool × EditState :=
  match a with
  | .line n => (s.number == n, s)
  | .steps first step =>
    (if step = 0 then s.number == first else first ≤ s.number && (s.number - first) % step == 0, s)
  | .last => (s.isLast, s)
  | .holding r =>
    let r := r.or s.regex
    (r.any fun r => r.matchesIn s.text, { s with regex := r })

/-- Changes whether the range of the command is open. -/
def setRange (s : EditState) (r : Option (Option Nat)) : EditState :=
  { s with ranges := s.ranges.setIfInBounds s.place r }

/-- Whether the lines that a command is for hold the line. -/
def selects (s : EditState) (g : Guard) : Bool × EditState :=
  match g.first, g.last with
  | none, none => (true, s)
  | some a, none => s.isAt a
  | first, some last =>
    let start (s : EditState) : Bool × EditState :=
      match last with
      | .more n => (true, if n = 0 then s else s.setRange (some (some (s.number + n))))
      | .multiple n =>
        (true, if n = 0 || s.number % n = 0 then s
          else s.setRange (some (some (s.number + n - s.number % n))))
      | .address (.line n) => (true, if n ≤ s.number then s else s.setRange (some (some n)))
      | .address _ => (true, s.setRange (some none))
    let onward (s : EditState) : Bool × EditState :=
      match last with
      | .address a =>
        let (found, s) := s.isAt a
        (true, if found then s.setRange none else s)
      | _ => (true, s)
    match (s.ranges[s.place]?).getD none with
    | some (some n) => (s.number ≤ n, if n ≤ s.number then s.setRange none else s)
    | some none => onward s
    | none =>
      match first with
      | some a =>
        let (found, s) := s.isAt a
        if found then start s else (false, s)
      | none => if s.number = 1 then onward (s.setRange (some none)) else (false, s)

/-- The characters of a text with the special ones made visible. -/
def visibleText (cs : List Char) : List Char :=
  cs.flatMap fun c => match c with
    | '\\' => ['\\', '\\']
    | '\x07' => ['\\', 'a']
    | '\x08' => ['\\', 'b']
    | '\x0c' => ['\\', 'f']
    | '\n' => ['\\', 'n']
    | '\r' => ['\\', 'r']
    | '\t' => ['\\', 't']
    | '\x0b' => ['\\', 'v']
    | c =>
      if ' ' ≤ c && c ≤ '~' then [c]
      else
        let n := c.toNat
        ['\\', Char.ofNat (48 + n / 64), Char.ofNat (48 + n / 8 % 8), Char.ofNat (48 + n % 8)]

/-- Lines of at most so many characters, all but the last one with a backslash at the end. -/
def wrapped (width fuel : Nat) (cs : List Char) : List Char :=
  match fuel with
  | 0 => cs
  | fuel + 1 =>
    if cs.length < width then cs
    else cs.take (width - 1) ++ '\\' :: '\n' :: wrapped width fuel (cs.drop (width - 1))

/-- Replaces matches in the text. -/
def replace (s : EditState) (k : Substitution) : EditState :=
  match k.regex.or s.regex with
  | none => s
  | some r =>
    let s := { s with regex := some r }
    match r.replace? k.replacement k.everywhere k.first s.text with
    | none => s
    | some text =>
      let s := { s with text := text, changed := true }
      let s := if k.prints then s.printText else s
      match k.path with
      | some path => s.writeLine path
      | none => s

/-- The number of the command behind the last one. -/
def atEnd (s : EditState) : EditState := { s with place := s.ranges.size }

/-- Does what a command does to the text; the next command follows unless a place is set. With
`quiet`, the text is printed only when a command says so. -/
def apply (s : EditState) (files : Workspace) (quiet : Bool) (name : String) (e : Edit) :
    EditState :=
  let onward : EditState := { s with place := s.place + 1 }
  let firstLine := s.text.takeWhile (· != '\n')
  match e.action with
  | .block _ | .nothing => onward
  | .substitute k => onward.replace k
  | .exchange pairs => { onward with text := s.text.map fun c => (pairs.lookup c).getD c }
  | .print false => onward.printText
  | .print true => onward.print firstLine false
  | .visible =>
    let shown := visibleText s.text ++ ['$']
    onward.print (wrapped 70 shown.length shown) false
  | .number => onward.print s.number.repr.toList false
  | .fileName => onward.print name.toList false
  | .drop false => { s.atEnd with text := [], ended := true, place := s.ranges.size + 1 }
  | .drop true =>
    if s.text.contains '\n' then
      { s with text := s.text.drop (firstLine.length + 1), place := s.ranges.size + 2 }
    else { s with place := s.ranges.size + 1 }
  | .clear => { onward with text := [] }
  | .quit status silent =>
    let s := if quiet || silent then s else s.printText
    { s with quit := some status, place := s.ranges.size + 1 }
  | .append text => { onward with pending := s.pending ++ [.text text] }
  | .insert text => if text == "\x00" then onward else onward.print text.toList false
  | .change text =>
    let isOpen := ((s.ranges[s.place]?).getD none).isSome
    let isWithin := e.guard.last.isSome && !e.guard.negated && isOpen
    let s := if isWithin then s else s.print text.toList false
    { s with place := s.ranges.size + 1 }
  | .readFile path => { onward with pending := s.pending ++ [.file path] }
  | .writeFile path => onward.writeLine path
  | .hold false => { onward with held := s.text }
  | .hold true => { onward with held := s.held ++ '\n' :: s.text }
  | .fetch false => { onward with text := s.held }
  | .fetch true => { onward with text := s.text ++ '\n' :: s.held }
  | .swap => { onward with text := s.held, held := s.text }
  | .next adds =>
    match s.rest with
    | [] =>
      let s := if quiet then s else s.printText
      { s with quit := some 0, place := s.ranges.size + 1 }
    | line :: lines =>
      let t := if adds || quiet then onward else onward.printText
      let t := (t.flush files).take line lines
      if adds then { t with text := s.text ++ '\n' :: t.text } else t
  | .jump target k =>
    let made := match k with
      | .always => true
      | .changed => s.changed
      | .unchanged => !s.changed
    let s := if k = .always then s else { s with changed := false }
    { s with place := if made then target else s.place + 1 }

/-- Runs commands for at most so many steps. The place behind the commands is the end of a line; one
further, the line is not printed; two further, its rest starts over. -/
def run (program : Array Edit) (files : Workspace) (quiet : Bool) (name : String) (fuel : Nat)
    (s : EditState) : EditState :=
  match fuel with
  | 0 => s
  | fuel + 1 =>
    match program[s.place]? with
    | some e =>
      let (found, s) := s.selects e.guard
      if found != e.guard.negated then
        run program files quiet name fuel (s.apply files quiet name e)
      else
        let target := match e.action with
          | .block stop => stop
          | _ => s.place + 1
        run program files quiet name fuel { s with place := target }
    | none =>
      let printed := if quiet || s.place ≠ program.size then s else s.printText
      let flushed := printed.flush files
      if flushed.quit.isSome then flushed
      else if s.place = program.size + 2 then
        run program files quiet name fuel { flushed with place := 0, changed := false }
      else
        match flushed.rest with
        | [] => flushed
        | line :: lines => run program files quiet name fuel
            { flushed.take line lines with place := 0, changed := false }

end EditState

/-- The number of steps after which a script is given up. -/
def maxEditSteps : Nat := 2000000

/-- The state in which a script starts on some lines. -/
def EditState.start (program : Array Edit) (lines : List (List Char)) (written : NameMap String) :
    EditState :=
  { text := [], ended := true, held := [], number := 0, rest := lines, out := [], lacking := false
    pending := [], changed := false, ranges := program.map fun _ => none, regex := none
    written := written, place := program.size + 1, quit := none }

/-- The options of the utility. -/
def sedTable : OptionTable :=
  { flags := "nErsuzb", valued := "efl", status := 1, anywhere := true, usage := ""
    names := [("quiet", 'n'), ("silent", 'n'), ("expression", 'e'), ("file", 'f'),
      ("regexp-extended", 'E'), ("separate", 's'), ("unbuffered", 'u'), ("null-data", 'z'),
      ("posix", 'b')] }

/-- Whether an argument asks for files to be edited in place. -/
def inPlace? (a : String) : Option String :=
  match a.toList with
  | '-' :: 'i' :: ending => some (String.ofList ending)
  | cs =>
    match Text.cut? "--in-place".toList cs with
    | some ([], ending) => some (String.ofList (ending.drop 1))
    | _ => none

/-- The files that commands of a script write. -/
def writtenPaths (program : List Edit) : List String :=
  program.filterMap fun e => match e.action with
    | .writeFile path => some path
    | .substitute k => k.path
    | _ => none

/-- Writes to a file, if that is possible. -/
def putFile (w : Workspace) (path text : String) : Workspace :=
  ((w.writeBytes (decode path) (toBytes text)).toOption).getD w

/-- Edits the text of a source. -/
def editText (program : List Edit) (s : Scene) (o : Options) (name text : String)
    (written : NameMap String) : EditState :=
  let lines :=
    if o.has 'z' then linesOf (text.toList.map fun c =>
      if c == '\x00' then '\n' else if c == '\n' then '\x00' else c)
    else linesOf text.toList
  match lines with
  | [] => EditState.start program.toArray [] written
  | lines => EditState.run program.toArray s.files (o.has 'n') name maxEditSteps
      (EditState.start program.toArray lines written)

/-- The text that a script has printed. -/
def EditState.printed (s : EditState) (o : Options) : String :=
  let text := String.join s.out.reverse
  if o.has 'z' then String.ofList (text.toList.map fun c =>
    if c == '\x00' then '\n' else if c == '\n' then '\x00' else c)
  else text

/-- Edits files in place. -/
def editInPlace (program : List Edit) (s : Scene) (o : Options) (ending : String)
    (paths : List String) : Effect :=
  let (w, chunks) := paths.foldl (fun (w, chunks) path =>
    match (({ s with files := w } : Scene)).read path with
    | .error .isDirectory => (w, chunks ++ [Chunk.mk true
        (s.called ++ ": couldn't edit " ++ path ++ ": not a regular file\n")])
    | .error fault => (w, chunks ++ [Chunk.mk true
        (s.called ++ ": can't read " ++ path ++ ": " ++ faultText fault ++ "\n")])
    | .ok text =>
      let e := editText program { s with files := w } o path text NameMap.empty
      let w := if ending.isEmpty then w else putFile w (path ++ ending) text
      (putFile w path (e.printed o), chunks)) (s.files, ([] : List Chunk))
  ⟨chunks, if chunks.isEmpty then 0 else 4, none, w⟩

/-- Edits files one after the other as one text, or each on its own. -/
def editAll (program : List Edit) (s : Scene) (o : Options) (paths : List String) : Effect :=
  let all := sources s paths
  let complaints := all.filterMap fun source => match source.text with
    | .error .isDirectory => some (Chunk.mk true
        (s.called ++ ": read error on " ++ source.name ++ ": Is a directory\n"))
    | .error fault => some ⟨true,
        s.called ++ ": can't read " ++ source.name ++ ": " ++ faultText fault ++ "\n"⟩
    | .ok _ => none
  let texts := all.filterMap fun source => source.text.toOption.map fun t => (source.name, t)
  let joined := if o.has 's' then texts
    else [((texts.map Prod.fst).headD "-", texts.foldl (fun t x =>
      (if t.isEmpty || t.toList.getLast? == some '\n' then t else t ++ "\n") ++ x.2) "")]
  let clean := (writtenPaths program).foldl (fun (m : NameMap String) path => m.insert path "")
    NameMap.empty
  let start : NameMap String × List Chunk × Nat × Nat := (clean, [], 0, 0)
  let (written, chunks, status, left) := joined.foldl (fun (written, chunks, _, _) (name, text) =>
    let e := editText program s o (if name == "-" then "-" else name) text written
    (e.written, chunks ++ [⟨false, e.printed o⟩], e.quit.getD 0, (e.rest.flatten).length)) start
  let w := written.entries.foldl (fun w (path, text) =>
    if path == "/dev/stdout" then w else putFile w path text) s.files
  let isStopped := all.any fun source => match source.text with
    | .error .isDirectory => true
    | _ => false
  let status := if isStopped then 4
    else if status ≠ 0 then status
    else if complaints.isEmpty then 0 else 2
  let rest := if s.seekable then
    String.ofList (s.inputText.toList.drop (s.inputText.length - left)) else ""
  ⟨complaints ++ chunks, status, if usesInput all then some rest else none, w⟩

/-- The script that options give, and the files. -/
def scriptOf (s : Scene) (o : Options) : Except String (String × List String) := do
  let fragments ← (o.given.filter fun g => g.1 == 'e' || g.1 == 'f').mapM fun (c, v) =>
    if c == 'e' then .ok v
    else
      match s.read v with
      | .ok text => .ok (if text.toList.getLast? == some '\n' then
          String.ofList text.toList.dropLast else text)
      | .error fault => .error ("couldn't open file " ++ v ++ ": " ++ faultText fault)
  if fragments.isEmpty then return (o.operands.headD "", o.operands.tail)
  else return ("\n".intercalate fragments, o.operands)

/-- A script in which line breaks and null characters have changed places. -/
def exchangedBreaks : List Char → List Char
  | '\\' :: 'n' :: cs => '\\' :: 'x' :: '0' :: '0' :: exchangedBreaks cs
  | '\\' :: c :: cs => '\\' :: c :: exchangedBreaks cs
  | c :: cs => c :: exchangedBreaks cs
  | [] => []

/-- Edits its files, or its input. -/
def sed : Utility := fun s arguments =>
  let ending := arguments.findSome? inPlace?
  let arguments := arguments.filter fun a => (inPlace? a).isNone
  sedTable.utility (fun s o =>
    if o.operands.isEmpty && !o.has 'e' && !o.has 'f' then
      .complain s 1 ("Usage: " ++ s.called
        ++ " [OPTION]... \x7bscript-only-if-no-other-script\x7d [input-file]...")
    else
      match scriptOf s o with
      | .error message => .blame s 1 message
      | .ok (script, paths) =>
        let quiet := "#n\n".toList.isPrefixOf (script ++ "\n").toList
        let o := if quiet then { o with given := ('n', "") :: o.given } else o
        let script := if o.has 'z' then String.ofList (exchangedBreaks script.toList) else script
        match Edit.ofText (o.has 'E' || o.has 'r') script with
        | .error message => .blame s 1 message
        | .ok program =>
          match ending with
          | some ending => editInPlace program s o ending paths
          | none => editAll program s o paths) s arguments

end ProofScript.Shell
