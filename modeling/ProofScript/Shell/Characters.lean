import ProofScript.Shell.Format
import ProofScript.Shell.Options
import ProofScript.Shell.Pattern

/-!
# Characters and columns

Utilities that exchange characters, and that cut parts out of lines or put lines side by side.
-/

namespace ProofScript.Shell

/-! ## Sets of characters -/

/-- An element of a set of characters. -/
inductive SetPart where
  /-- Characters in order. -/
  | chars (cs : List Char)
  /-- A character so many times, or as often as is needed. -/
  | filler (c : Char) (times : Option Nat)
  deriving DecidableEq, Repr

/-- The characters from one to another one. -/
def charRange (a b : Char) : List Char :=
  (List.range (b.toNat + 1 - a.toNat)).map fun i => Char.ofNat (a.toNat + i)

/-- Reads a character that can be written with an escape. -/
def readSetChar (cs : List Char) : Option (Char × List Char) :=
  match cs with
  | [] => none
  | '\\' :: c :: rest =>
    let octal := ((c :: rest).takeWhile isOctal).take 3
    if octal.isEmpty then some (if c == 'e' then c else (letterEscape? c).getD c, rest)
    else some (octalByte octal, (c :: rest).drop octal.length)
  | c :: rest => some (c, rest)

/-- Reads a set of characters with escapes, ranges, names of classes and repetitions. -/
def readSet (fuel : Nat) (cs : List Char) : Except String (List SetPart) :=
  match fuel, cs with
  | 0, _ => .ok []
  | _, [] => .ok []
  | fuel + 1, cs =>
    let one : Except String (List SetPart) := do
      match readSetChar cs with
      | none => return []
      | some (a, '-' :: rest) =>
        match readSetChar rest with
        | none => return .chars [a, '-'] :: (← readSet fuel rest)
        | some (b, rest) =>
          if b < a then
            throw ("range-endpoints of '" ++ String.ofList [a, '-', b]
              ++ "' are in reverse collating sequence order")
          return .chars (charRange a b) :: (← readSet fuel rest)
      | some (a, rest) => return .chars [a] :: (← readSet fuel rest)
    match cs with
    | '[' :: ':' :: rest =>
      match Text.cut? [':', ']'] rest with
      | some (name, rest) =>
        let ranges := namedRanges (String.ofList name)
        if ranges.isEmpty then
          .error ("invalid character class '" ++ String.ofList name ++ "'")
        else do
          return .chars (ranges.flatMap fun r => charRange r.1 r.2) :: (← readSet fuel rest)
      | none => one
    | '[' :: c :: '*' :: rest =>
      let digits := rest.takeWhile Text.isDigit
      match rest.drop digits.length with
      | ']' :: rest => do
        let times := if digits.head? == some '0' then (readDigits 8 digits).1
          else Text.digitsValue digits
        return .filler c (if times = 0 then none else some times) :: (← readSet fuel rest)
      | _ => one
    | _ => one

/-- The characters of a set, which are as many as `n` if one of them can fill it up. -/
def setChars (parts : List SetPart) (n : Nat) : List Char :=
  let fixed := (parts.map fun part => match part with
    | .chars cs => cs.length
    | .filler _ times => times.getD 0).foldl (· + ·) 0
  parts.flatMap fun part => match part with
    | .chars cs => cs
    | .filler c times => List.replicate (times.getD (n - fixed)) c

/-- Drops characters of a set that repeat the one before them. -/
def squeeze (set : Char → Bool) : List Char → List Char
  | a :: b :: cs =>
    if a == b && set a then squeeze set (b :: cs) else a :: squeeze set (b :: cs)
  | cs => cs

/-- The options for exchanging characters. -/
def trTable : OptionTable :=
  { flags := "cCdst", valued := "", status := 1, anywhere := false, usage := ""
    names := [("complement", 'c'), ("delete", 'd'), ("squeeze-repeats", 's'),
      ("truncate-set1", 't')] }

/-- What a text becomes when the characters of the first set are exchanged, dropped or squeezed. -/
def exchanged (o : Options) (first second : List Char) (two : Bool) (cs : List Char) : List Char :=
  let complement := o.has 'c' || o.has 'C'
  let member (c : Char) : Bool := first.contains c != complement
  let outside := (charRange '\x00' '\xff').filter member
  let from1 := if complement then outside else first
  let from1 := if o.has 't' then from1.take second.length else from1
  let image (c : Char) : Char :=
    if from1.contains c then
      -- Of a character that is named twice, the last one counts.
      let i := from1.length - 1 - from1.reverse.idxOf c
      (second[i]?).getD ((second.getLast?).getD c)
    else c
  let kept := if o.has 'd' then cs.filter fun c => !member c
    else if two then cs.map image else cs
  if o.has 's' then
    squeeze (fun c => if two then second.contains c else member c) kept
  else kept

/-- Exchanges, drops or squeezes characters of its input. -/
def tr : Utility := trTable.utility fun s o =>
  let joint := o.has 'd' != o.has 's'
  let most := if o.has 'd' && !o.has 's' then 1 else 2
  match o.operands with
  | [] => trTable.refuse s "missing operand"
  | [a] =>
    if !joint then
      let why := if o.has 'd' then "Two strings must be given when both deleting and squeezing "
          ++ "repeats." else "Two strings must be given when translating."
      trTable.refuse s ("missing operand after '" ++ a ++ "'\n" ++ why)
    else
      match readSet (a.length + 1) a.toList with
      | .error message => .blame s 1 message
      | .ok parts =>
        (Effect.print s (String.ofList (exchanged o (setChars parts 0) [] false
          s.inputText.toList))).drained
  | a :: b :: rest =>
    if most < o.operands.length then
      let extra := if most = 1 then b else rest.headD ""
      let why := if most = 1 && rest.isEmpty then
          "\nOnly one string may be given when deleting without squeezing repeats." else ""
      trTable.refuse s ("extra operand '" ++ extra ++ "'" ++ why)
    else
      match readSet (a.length + 1) a.toList, readSet (b.length + 1) b.toList with
      | .error message, _ | _, .error message => .blame s 1 message
      | .ok first, .ok second =>
        let first := setChars first 0
        let size := if o.has 'c' || o.has 'C' then 256 - first.length else first.length
        let second := setChars second size
        if second.isEmpty && !o.has 'd' && !o.has 't' then
          .blame s 1 "when not truncating set1, string2 must be non-empty"
        else (Effect.print s (String.ofList (exchanged o first second true
          s.inputText.toList))).drained

/-! ## Positions -/

/-- A range of positions, counted from one. -/
abbrev Positions := List (Nat × Option Nat)

/-- Reads a list of ranges of fields, or of bytes. -/
def readPositions (fields : Bool) (list : String) : Except String Positions :=
  let zero := (if fields then "fields" else "byte/character positions") ++ " are numbered from 1"
  let number (cs : List Char) : Except String Nat :=
    match Text.digits? cs with
    | some 0 => .error zero
    | some n => .ok n
    | none => .error ("invalid " ++ (if fields then "field value" else "byte/character position")
        ++ " '" ++ String.ofList cs ++ "'")
  (Text.pieces (fun c => c == ',' || c == ' ') list.toList).mapM fun part =>
    match Text.pieces (· == '-') part with
    | [a, b] => do
      if a.isEmpty && b.isEmpty then throw "invalid range with no endpoint: -"
      let low ← if a.isEmpty then pure 1 else number a
      let high ← if b.isEmpty then pure none else (number b).map some
      if high.any (· < low) then throw "invalid decreasing range"
      return (low, high)
    | _ => do
      let n ← number part
      return (n, some n)

/-- The elements at some positions, or at all others. -/
def select {α : Type} (complement : Bool) (positions : Positions) (xs : List α) : List α :=
  ((List.range xs.length).zip xs).filterMap fun (i, x) =>
    let chosen := positions.any fun r => r.1 ≤ i + 1 && r.2.all (i + 1 ≤ ·)
    if chosen != complement then some x else none

/-- The options for cutting lines. -/
def cutTable : OptionTable :=
  { flags := "snz\x01", valued := "bcfd\x02", status := 1, anywhere := true, usage := ""
    names := [("bytes", 'b'), ("characters", 'c'), ("fields", 'f'), ("delimiter", 'd'),
      ("only-delimited", 's'), ("complement", '\x01'), ("output-delimiter", '\x02')] }

/-- Cuts the fields or characters at some positions out of a line. -/
def keptOf (o : Options) (positions : Positions) (line : List Char) : List Char :=
  let text := bare line
  let complement := o.has '\x01'
  if o.has 'f' then
    let delimiter := ((o.value? 'd').getD "\t").toList
    let mark := delimiter.headD '\x00'
    let parts := Text.pieces (· == mark) text
    if parts.length ≤ 1 then if o.has 's' then [] else text ++ ['\n']
    else
      let joint := ((o.value? '\x02').map String.toList).getD [mark]
      joint.intercalate (select complement positions parts) ++ ['\n']
  else select complement positions text ++ ['\n']

/-- Cuts parts out of lines. -/
def cut : Utility := cutTable.utility fun s o =>
  match o.last? "bcf" with
  | none => cutTable.refuse s "you must specify a list of bytes, characters, or fields"
  | some c =>
    let delimiter := (o.value? 'd').getD "\t"
    if 1 < (o.given.filter fun g => "bcf".toList.contains g.1).length then
      cutTable.refuse s "only one list may be specified"
    else if 1 < delimiter.length then
      cutTable.refuse s "the delimiter must be a single character"
    else if o.has 'd' && c != 'f' then
      cutTable.refuse s "an input delimiter may be specified only when operating on fields"
    else
      match readPositions (c == 'f') ((o.value? c).getD "") with
      | .error message => cutTable.refuse s message
      | .ok positions =>
        filtering s namedFault (sources s o.operands) fun _ text =>
          String.ofList ((linesOf text.toList).flatMap (keptOf o positions))

/-! ## Lines side by side -/

/-- The options for putting lines side by side. -/
def pasteTable : OptionTable :=
  { flags := "sz", valued := "d", status := 1, anywhere := true, usage := ""
    names := [("delimiters", 'd'), ("serial", 's')] }

/-- Joins texts by delimiters, which are used one after the other. -/
def joinWith (delimiters : List String) (n : Nat) : List String → String
  | [] => ""
  | [x] => x
  | x :: xs => x ++ (delimiters[n % delimiters.length]?).getD "" ++ joinWith delimiters (n + 1) xs

/-- The delimiters that a text with escapes stands for. -/
def delimitersOf : List Char → List String
  | '\\' :: '0' :: cs => "" :: delimitersOf cs
  | '\\' :: c :: cs => String.singleton ((letterEscape? c).getD c) :: delimitersOf cs
  | c :: cs => String.singleton c :: delimitersOf cs
  | [] => []

/-- The sources of lines that are put side by side. Several dashes share the lines of the input. -/
def columnsOf (s : Scene) (names : List String) :
    Except (String × FileFault) (List (List String)) :=
  let linesIn (text : String) : List String :=
    (linesOf text.toList).map fun line => String.ofList (bare line)
  let dashes := (names.filter (· == "-")).length
  let input := linesIn s.inputText
  let rec go (seen : Nat) : List String → Except (String × FileFault) (List (List String))
    | [] => .ok []
    | "-" :: rest => do
      let own := ((List.range input.length).zip input).filterMap fun (i, line) =>
        if i % dashes = seen then some line else none
      return own :: (← go (seen + 1) rest)
    | name :: rest =>
      match s.read name with
      | .error fault => .error (name, fault)
      | .ok text => do return linesIn text :: (← go seen rest)
  go 0 names

/-- Puts lines side by side, or the lines of each file in one line. -/
def paste : Utility := pasteTable.utility fun s o =>
  let names := if o.operands.isEmpty then ["-"] else o.operands
  let delimiters := delimitersOf ((o.value? 'd').getD "\t").toList
  let delimiters := if delimiters.isEmpty then [""] else delimiters
  let e := match columnsOf s names with
    | .error (name, fault) => Effect.blame s 1 (namedFault name (faultText fault))
    | .ok columns =>
      let rows := if o.has 's' then columns
        else (List.range ((columns.map List.length).foldl max 0)).map fun i =>
          columns.map fun column => (column[i]?).getD ""
      .print s (String.join (rows.map fun row => joinWith delimiters 0 row ++ "\n"))
  if names.contains "-" then e.drained else e

/-- The pieces of a line that are not longer than a width. -/
def foldLine (width : Nat) (atBlanks : Bool) (fuel : Nat) (line : List Char) : List Char :=
  match fuel with
  | 0 => line
  | fuel + 1 =>
    if line.length ≤ width then line
    else
      let start := line.take width
      let kept := (start.reverse.dropWhile (· != ' ')).reverse
      let start := if atBlanks && !kept.isEmpty then kept else start
      start ++ '\n' :: foldLine width atBlanks fuel (line.drop start.length)

/-- Breaks lines that are too long. -/
def fold : Utility := (OptionTable.plain "bs" "w").utility fun s o =>
  let width := ((o.value? 'w').bind fun v => Text.digits? v.toList).getD 80
  filtering s namedFault (sources s o.operands) fun _ text =>
    String.ofList ((linesOf text.toList).flatMap fun line =>
      withText line (foldLine (max width 1) (o.has 's') line.length (bare line)))

/-- Puts blanks in the place of tabs. -/
def expandTabs (width : Nat) (column : Nat) : List Char → List Char
  | [] => []
  | c :: cs =>
    if c == '\t' then
      let n := width - column % width
      List.replicate n ' ' ++ expandTabs width (column + n) cs
    else c :: expandTabs width (if c == '\n' then 0 else column + 1) cs

/-- The utility that puts blanks in the place of tabs. -/
def expand : Utility := (OptionTable.plain "i" "t").utility fun s o =>
  let width := ((o.value? 't').bind fun v => Text.digits? v.toList).getD 8
  filtering s namedFault (sources s o.operands) fun _ text =>
    String.ofList (expandTabs (max width 1) 0 text.toList)

end ProofScript.Shell
