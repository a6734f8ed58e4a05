import ProofScript.Shell.Options
import ProofScript.Text.Decimal

/-!
# Portions

Utilities that write their files, or their input, as a whole or in part, and that count what is in
them.
-/

namespace ProofScript.Shell

/-- A number behind blanks that fill a width. -/
def padLeft (width : Nat) (n : Nat) : String :=
  String.ofList (List.replicate (width - n.repr.length) ' ') ++ n.repr

/-! ## Writing files -/

/-- The options for writing files. -/
def catTable : OptionTable :=
  { flags := "nbsETvAetu", valued := "", status := 1, anywhere := true, usage := ""
    names := [("number", 'n'), ("number-nonblank", 'b'), ("squeeze-blank", 's'),
      ("show-ends", 'E'), ("show-tabs", 'T'), ("show-nonprinting", 'v'), ("show-all", 'A')] }

/-- A character that can be seen. -/
def visible (tabs nonprinting : Bool) (c : Char) : List Char :=
  let own (n : Nat) : List Char :=
    if n < 32 then ['^', Char.ofNat (n + 64)] else if n = 127 then "^?".toList else [Char.ofNat n]
  if c == '\t' then if tabs then "^I".toList else [c]
  else if !nonprinting || c == '\n' then [c]
  else if c.toNat < 128 then own c.toNat
  else "M-".toList ++ own (c.toNat - 128)

/-- Writes lines as options say, where `n` is the number of the next one and `blank` tells whether
the last one was empty. -/
def decorate (o : Options) (n : Nat) (blank : Bool) : List (List Char) → List Char
  | [] => []
  | line :: lines =>
    let text := bare line
    if o.has 's' && text.isEmpty && blank then decorate o n true lines
    else
      let numbered := if o.has 'b' then !text.isEmpty else o.has 'n'
      let start := if numbered then (padLeft 6 n).toList ++ ['\t'] else []
      let shown := text.flatMap (visible (o.has 'T' || o.has 'A' || o.has 't')
        (o.has 'v' || o.has 'A' || o.has 'e' || o.has 't'))
      let closing := if o.has 'E' || o.has 'A' || o.has 'e' then ['$', '\n'] else ['\n']
      start ++ shown ++ (if line.getLast? == some '\n' then closing else [])
        ++ decorate o (if numbered then n + 1 else n) text.isEmpty lines

/-- Writes files. -/
def cat : Utility := catTable.utility fun s o =>
  if o.given.all fun g => g.1 == 'u' then
    filtering s namedFault (sources s o.operands) fun _ text => text
  else joining s namedFault o.operands fun text =>
    String.ofList (decorate o 1 false (linesOf text.toList))

/-- Writes lines in the opposite order. -/
def tac : Utility := (OptionTable.plain "" "").utility fun s o =>
  let describe (name fault : String) :=
    "failed to open '" ++ name ++ "' for reading: " ++ fault
  filtering s describe (sources s o.operands) fun _ text =>
    String.ofList (linesOf text.toList).reverse.flatten

/-- Turns lines around. -/
def rev : Utility := (OptionTable.plain "" "").utility fun s o =>
  let describe (name fault : String) := "cannot open " ++ name ++ ": " ++ fault
  filtering s describe (sources s o.operands) fun _ text =>
    String.ofList ((linesOf text.toList).flatMap fun line => withText line (bare line).reverse)

/-! ## Numbering lines -/

/-- The options for numbering lines. -/
def numberTable : OptionTable := .plain "p" "bfhinsvwdl"

/-- Writes lines with their numbers in front. -/
def numberLines (o : Options) (n step : Nat) : List (List Char) → List Char
  | [] => []
  | line :: lines =>
    let number (c : Char) (default : Nat) : Nat :=
      ((o.value? c).bind fun v => Text.digits? v.toList).getD default
    let width := number 'w' 6
    let separator := (o.value? 's').getD "\t"
    let text := bare line
    let style := (o.value? 'b').getD "t"
    let counted := style == "a" || (style != "n" && !text.isEmpty)
    let blank := List.replicate (width - n.repr.length) ' '
    let start := match o.value? 'n' with
      | some "ln" => n.repr.toList ++ blank
      | some "rz" => blank.map (fun _ => '0') ++ n.repr.toList
      | _ => blank ++ n.repr.toList
    let own := if counted then start ++ separator.toList ++ text
      else List.replicate (width + separator.length) ' ' ++ text
    own ++ '\n' :: numberLines o (if counted then n + step else n) step lines

/-- Numbers lines. -/
def nl : Utility := numberTable.utility fun s o =>
  let number (c : Char) : Nat := ((o.value? c).bind fun v => Text.digits? v.toList).getD 1
  joining s namedFault o.operands fun text =>
    String.ofList (numberLines o (number 'v') (number 'i') (linesOf text.toList))

/-! ## Taking a part -/

/-- How many lines, or bytes, are taken. -/
structure Portion where
  /-- Whether bytes are counted instead of lines. -/
  bytes : Bool
  /-- The sign in front of the number, if there is one. -/
  sign : Option Char
  /-- The number. -/
  number : Nat

namespace Portion

/-- The number that a letter behind another number multiplies it with. -/
def unit? (unit : List Char) : Option Nat :=
  match unit with
  | [] => some 1
  | ['b'] => some 512
  | ['k', 'B'] => some 1000
  | ['k'] | ['K'] => some 1024
  | ['M'] => some (1024 * 1024)
  | _ => none

/-- Reads a number with its sign. -/
def read? (bytes : Bool) (text : String) : Option Portion :=
  let (sign, cs) : Option Char × List Char := match text.toList with
    | '-' :: cs => (some '-', cs)
    | '+' :: cs => (some '+', cs)
    | cs => (none, cs)
  let ds := cs.takeWhile Text.isDigit
  if ds.isEmpty then none
  else (unit? (cs.drop ds.length)).map fun n => ⟨bytes, sign, Text.digitsValue ds * n⟩

/-- The portion that options ask for, or what is wrong with them. -/
def ofOptions (o : Options) : Except String Portion :=
  match o.last? "nc" with
  | none => .ok ⟨false, none, 10⟩
  | some c =>
    let text := (o.value? c).getD ""
    match read? (c == 'c') text with
    | some p => .ok p
    | none => .error ("invalid number of " ++ (if c == 'c' then "bytes" else "lines") ++ ": '"
        ++ text ++ "'")

/-- The pieces of a text that a portion counts. -/
def pieces (p : Portion) (text : String) : List (List Char) :=
  if p.bytes then text.toList.map fun c => [c] else linesOf text.toList

/-- The portion at the start of a text; with a minus sign, all but the end. -/
def first (p : Portion) (text : String) : String :=
  let pieces := p.pieces text
  let n := if p.sign == some '-' then pieces.length - p.number else p.number
  String.ofList (pieces.take n).flatten

/-- The portion at the end of a text; with a plus sign, all from a piece on. -/
def final (p : Portion) (text : String) : String :=
  let pieces := p.pieces text
  let n := if p.sign == some '+' then p.number - 1 else pieces.length - p.number
  String.ofList (pieces.drop n).flatten

/-- Writes a portion of each source, below its name when there are several. -/
def write (take : Portion → String → String) (p : Portion) (s : Scene) (o : Options) : Effect :=
  let all := sources s o.operands
  let named := match o.last? "qv" with
    | some c => c == 'v'
    | none => 1 < all.length
  let step (done : List Chunk × Bool) (source : Source) : List Chunk × Bool :=
    let (chunks, first) := done
    let name := if source.name == "-" then "standard input" else source.name
    let heading := if named then (if first then "" else "\n") ++ "==> " ++ name ++ " <==\n" else ""
    match source.text with
    | .ok text => (chunks ++ [⟨false, heading ++ take p text⟩], false)
    | .error .isDirectory =>
      (chunks ++ [⟨false, heading⟩, ⟨true, s.called ++ ": error reading '" ++ name
        ++ "': Is a directory\n"⟩], false)
    | .error fault =>
      (chunks ++ [⟨true, s.called ++ ": cannot open '" ++ name ++ "' for reading: "
        ++ faultText fault ++ "\n"⟩], first)
  let (chunks, _) := all.foldl step ([], true)
  ⟨chunks, if chunks.any Chunk.isError then 1 else 0, if usesInput all then some "" else none,
    s.files⟩

end Portion

/-- The options for taking a part. -/
def portionTable : OptionTable :=
  { flags := "qvzfF", valued := "nc", status := 1, anywhere := true, usage := ""
    names := [("lines", 'n'), ("bytes", 'c'), ("quiet", 'q'), ("silent", 'q'), ("verbose", 'v'),
      ("follow", 'f')] }

/-- Reads a number behind a dash, or behind one of some other signs, as a number of lines. -/
def countArgument (signs : List Char) (a : String) : String :=
  match a.toList with
  | sign :: c :: cs =>
    let ds := (c :: cs).takeWhile Text.isDigit
    let unit := if (c :: cs).drop ds.length == ['c'] then "-c" else "-n"
    if !ds.isEmpty && (sign == '-' || signs.contains sign) &&
        ((c :: cs).drop ds.length).all ("lc".toList.contains ·) then
      unit ++ (if sign == '+' then "+" else "") ++ String.ofList ds
    else a
  | _ => a

/-- Writes what is at the start of files. What it does not use of a file that is its input, it
leaves. -/
def head : Utility := fun s arguments =>
  let arguments := match arguments with
    | a :: rest => countArgument [] a :: rest
    | [] => []
  portionTable.utility (fun s o =>
    match Portion.ofOptions o with
    | .error message => .blame s 1 message
    | .ok p =>
      let e := Portion.write Portion.first p s o
      let used := (p.first s.inputText).length
      let rest := String.ofList (s.inputText.toList.drop used)
      if s.seekable && e.left.isSome then { e with left := some rest } else e) s arguments

/-- Writes what is at the end of files. -/
def tail : Utility := fun s arguments =>
  let arguments := match arguments with
    | a :: rest => countArgument ['+'] a :: rest
    | [] => []
  portionTable.utility (fun s o =>
    match Portion.ofOptions o with
    | .error message => .blame s 1 message
    | .ok p => Portion.write Portion.final p s o) s arguments

/-! ## Counting -/

/-- Whether a character is a blank between words. -/
def isSpace (c : Char) : Bool := c == ' ' || ('\t' ≤ c && c ≤ '\r')

/-- The number of words in a text. -/
def wordCount (cs : List Char) : Nat :=
  ((cs.zip (' ' :: cs)).filter fun (c, before) => !isSpace c && isSpace before).length

/-- The options for counting. -/
def countTable : OptionTable :=
  { flags := "lwcmL", valued := "", status := 1, anywhere := true, usage := ""
    names := [("lines", 'l'), ("words", 'w'), ("bytes", 'c'), ("chars", 'm'),
      ("max-line-length", 'L')] }

/-- The numbers that are asked for of a text. -/
def countsOf (asked : List Char) (text : String) : List (Char × Nat) :=
  let cs := text.toList
  let lengths := (linesOf cs).map fun line => (bare line).length
  ([('l', cs.count '\n'), ('w', wordCount cs), ('m', cs.length), ('c', cs.length),
    ('L', lengths.foldl max 0)] : List (Char × Nat)).filter fun n => asked.contains n.1

/-- Counts lines, words and bytes. -/
def wc : Utility := countTable.utility fun s o =>
  let asked := if o.given.isEmpty then "lwc".toList else o.given.map Prod.fst
  let all := sources s o.operands
  let kinds := (countsOf asked "").length
  let sized (source : Source) : Bool := source.name != "-" || s.seekable
  let size := (all.map fun source => ((source.text.toOption).getD "").length).foldl (· + ·) 0
  let plain := all.all fun source =>
    (sized source && source.text.toOption.isSome) || source.text.toOption.isNone
  let isDirectory := all.any fun source => match source.text with
    | .error .isDirectory => true
    | _ => false
  let width := if kinds = 1 && all.length = 1 then 1
    else if plain && !isDirectory then size.repr.length else 7
  let row (numbers : List (Char × Nat)) (name : String) : String :=
    " ".intercalate (numbers.map fun n => padLeft width n.2)
      ++ (if name.isEmpty then "" else " " ++ name) ++ "\n"
  let e := filtering s namedFault all fun source text =>
    row (countsOf asked text) (if o.operands.isEmpty then "" else source.name)
  let noted := (e.chunks.zip all).flatMap fun (chunk, source) =>
    match source.text with
    | .error .isDirectory => [chunk, ⟨false, row (countsOf asked "") source.name⟩]
    | _ => [chunk]
  let e := { e with chunks := noted }
  let add (sums own : List (Char × Nat)) : List (Char × Nat) :=
    (sums.zip own).map fun (a, b) => (a.1, if a.1 == 'L' then max a.2 b.2 else a.2 + b.2)
  let totals := all.foldl (fun sums source =>
    add sums (countsOf asked ((source.text.toOption).getD ""))) (countsOf asked "")
  if all.length ≤ 1 then e else { e with chunks := e.chunks ++ [⟨false, row totals "total"⟩] }

end ProofScript.Shell
