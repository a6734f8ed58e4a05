import ProofScript.Shell.Files
import ProofScript.Shell.Fraction

/-!
# Supplies

Small utilities that scripts lean on: they wait, repeat a line, send their input to files and make
files of new names or other sizes.
-/

namespace ProofScript.Shell

/-! ## Time and repetition -/

/-- Whether a text is a span of time. -/
def isTimeSpan (text : String) : Bool :=
  match Fraction.read? text.toList with
  | some (f, rest) =>
    !f.negative && (rest.isEmpty || (rest.length == 1 && rest.all "smhd".toList.contains))
  | none => false

/-- Waits, for no time at all. -/
def sleep : Utility :=
  let t := OptionTable.plain "" ""
  t.needing fun s o =>
    match o.operands.filter fun a => !isTimeSpan a with
    | [] => .silent s 0
    | wrong =>
      let lines := wrong.map fun a => "invalid time interval '" ++ a ++ "'"
      t.refuse s (("\n" ++ s.called ++ ": ").intercalate lines)

/-- How often a line is repeated that should be repeated without end. -/
def manyTimes : Nat := 20000

/-- Repeats a line, as often as can be. -/
def yes : Utility := (OptionTable.plain "" "").utility fun s o =>
  let line := (if o.operands.isEmpty then "y" else " ".intercalate o.operands) ++ "\n"
  .print s (String.join (List.replicate manyTimes line))

/-! ## Files -/

/-- The options for copies of the input. -/
def teeTable : OptionTable :=
  { OptionTable.plain "aip" "" with names := [("append", 'a'), ("ignore-interrupts", 'i')] }

/-- Writes its input to files and to its output. -/
def tee : Utility := teeTable.utility fun s o =>
  let text := s.inputText
  let write (w : Workspace) (path : String) : Except FileFault Workspace := do
    let old ← if o.has 'a' then
        match w.readBytes (decode path) with
        | .ok bytes => pure bytes
        | .error .missing => pure []
        | .error fault => throw fault
      else pure []
    w.writeBytes (decode path) (old ++ toBytes text)
  let (w, chunks) := o.operands.foldl (fun (w, chunks) path =>
    if path == "/dev/stderr" then (w, chunks ++ [Chunk.mk true text])
    else if path == "/dev/stdout" then (w, chunks ++ [Chunk.mk false text])
    else
      match write w path with
      | .ok w => (w, chunks)
      | .error fault =>
        (w, ⟨true, s.called ++ ": " ++ namedFault path (faultText fault) ++ "\n"⟩ :: chunks))
    (s.files, ([] : List Chunk))
  let failed := chunks.any fun c => c.isError && c.text != text
  ⟨chunks ++ [⟨false, text⟩], if failed then 1 else 0, some "", w⟩

/-- The characters of new names. -/
def nameLetters : List Char := "abcdefghijklmnopqrstuvwxyz".toList

/-- A text of so many letters, which is another one for each number. -/
def letterText (length n : Nat) : String :=
  String.ofList ((List.range length).map fun i =>
    nameLetters.getD (n / Nat.pow nameLetters.length i % nameLetters.length) 'a')

/-- The parts of a template in front of its last signs for new letters and behind them, and the
number of these signs. -/
def templateParts (template : String) : String × String × Nat :=
  let back := template.toList.reverse
  let behind := back.takeWhile (· != 'X')
  let signs := (back.drop behind.length).takeWhile (· == 'X')
  (String.ofList (back.drop (behind.length + signs.length)).reverse,
    String.ofList behind.reverse, signs.length)

/-- The options for new names. -/
def mktempTable : OptionTable :=
  { OptionTable.plain "duqt" "p" with
    names := [("directory", 'd'), ("dry-run", 'u'), ("quiet", 'q'), ("tmpdir", 'p')] }

/-- Makes a file or a directory of a new name. -/
def mktemp : Utility := mktempTable.utility fun s o =>
  let template := o.operands.headD "tmp.XXXXXXXXXX"
  let (before, behind, count) := templateParts template
  let dir := match o.value? 'p' with
    | some dir => if dir.isEmpty then (s.environment.lookup "TMPDIR").getD "/tmp" else dir
    | none => if o.operands.isEmpty || o.has 't' then
        (s.environment.lookup "TMPDIR").getD "/tmp" else ""
  let kind := if o.has 'd' then "directory" else "file"
  let refused (message : String) : Effect :=
    if o.has 'q' then .silent s 1 else .blame s 1 message
  if count < 3 then refused ("too few X's in template '" ++ template ++ "'")
  else
    let path (n : Nat) : String := Path.join dir (before ++ letterText count n ++ behind)
    let n := ((List.range manyTimes).find? fun n =>
      !(s.files.findLink (decode (path n))).toBool).getD 0
    let made := if o.has 'u' then .ok s.files
      else if o.has 'd' then s.files.makeDirectory (decode (path n))
      else s.files.writeBytes (decode (path n)) []
    match made with
    | .ok w => { Effect.printLine s (path n) with files := w }
    | .error fault => refused ("failed to create " ++ kind ++ " via template '"
        ++ Path.join dir template ++ "': " ++ faultText fault)

/-- The number of bytes that a text tells, with a unit. -/
def byteCount? (text : String) : Option Nat :=
  let digits := text.toList.takeWhile Text.isDigit
  let unit := match String.ofList (text.toList.drop digits.length) with
    | "" | "c" => some 1
    | "K" | "k" => some 1024
    | "M" => some 1048576
    | "KB" => some 1000
    | _ => none
  (Text.digits? digits).bind fun n => unit.map fun u => n * u

/-- The options for sizes of files. -/
def truncateTable : OptionTable :=
  { OptionTable.plain "co" "sr" with names := [("size", 's'), ("no-create", 'c')] }

/-- Cuts files to a size, or fills them up to it. -/
def truncate : Utility := truncateTable.utility fun s o =>
  match o.value? 's' with
  | none => truncateTable.refuse s "you must specify either '--size' or '--reference'"
  | some size =>
    let (sign, digits) := match size.toList with
      | '+' :: cs => (some true, String.ofList cs)
      | '-' :: cs => (some false, String.ofList cs)
      | cs => (none, String.ofList cs)
    match byteCount? digits with
    | none => truncateTable.refuse s ("Invalid number: '" ++ size ++ "'")
    | some n =>
      if o.operands.isEmpty then truncateTable.refuse s "missing file operand"
      else eachPath s (fun s path =>
        let old := ((s.files.readBytes (decode path)).toOption).getD []
        let length := match sign with
          | some true => old.length + n
          | some false => old.length - n
          | none => n
        let bytes := old.take length ++ List.replicate (length - old.length) 0
        match s.files.writeBytes (decode path) bytes with
        | .ok w => .ok (w, "")
        | .error fault => .error ("cannot open '" ++ path ++ "' for writing: " ++ faultText fault))
        o.operands

/-- Removes one file. -/
def unlink : Utility := fun s arguments =>
  match arguments with
  | [path] => eachPath s (fun s path =>
      match s.files.findLink (decode path) with
      | .ok (_, .directory) => .error ("cannot unlink '" ++ path ++ "': Is a directory")
      | .ok (p, _) => .ok (s.files.remove p, "")
      | .error fault => .error ("cannot unlink '" ++ path ++ "': " ++ faultText fault)) [path]
  | _ => (OptionTable.plain "" "").refuse s "missing operand"

end ProofScript.Shell
