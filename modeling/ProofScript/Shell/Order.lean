import ProofScript.Shell.Format
import ProofScript.Shell.Portion

/-!
# Order

Utilities that sort lines, compare sorted files, keep one of lines that are the same, and write the
numbers of a range.
-/

namespace ProofScript.Shell

/-! ## Keys -/

/-- A part of a line that lines are sorted by. -/
structure SortKey where
  /-- The number of its first field. -/
  field : Nat
  /-- The number of its first character in that field. -/
  char : Nat
  /-- The number of its last field, and of its last character there; zero is the end of the
  field. -/
  last : Option (Nat × Nat)
  /-- The letters of the options for it. -/
  letters : List Char

/-- Whether a character separates fields. -/
def isFieldBlank (c : Char) : Bool := c == ' ' || c == '\t' || c == '\n'

namespace SortKey

/-- The key that is the whole line. -/
def whole (letters : List Char) : SortKey := ⟨1, 1, none, letters⟩

/-- Reads the number of a field and the one of a character, and what is behind them. -/
def readPosition (default : Nat) (cs : List Char) : Option (Nat × Nat × List Char) := do
  let field ← Text.digits? (cs.takeWhile Text.isDigit)
  match cs.dropWhile Text.isDigit with
  | '.' :: rest =>
    let char ← Text.digits? (rest.takeWhile Text.isDigit)
    return (field, char, rest.dropWhile Text.isDigit)
  | rest => return (field, default, rest)

/-- Reads a key, or tells what is wrong with it. -/
def read (text : String) : Except String SortKey := do
  let spelled := ": invalid field specification '" ++ text ++ "'"
  let letters (cs : List Char) : List Char := cs.takeWhile (· != ',')
  match readPosition 1 text.toList with
  | none => throw ("invalid number at field start: invalid count at start of '" ++ text ++ "'")
  | some (0, _, _) => throw ("field number is zero" ++ spelled)
  | some (field, char, rest) =>
    let own := letters rest
    match rest.drop own.length with
    | ',' :: rest =>
      match readPosition 0 rest with
      | none => throw ("invalid number after ',': invalid count at start of '"
          ++ String.ofList rest ++ "'")
      | some (0, _, _) => throw ("field number is zero" ++ spelled)
      | some (last, lastChar, rest) =>
        return ⟨field, char, some (last, lastChar), own ++ rest⟩
    | _ => return ⟨field, char, none, own⟩

/-- The rest of a line behind so many fields. Behind the last one, the mark between fields is
dropped with `dropping`. -/
def skip (mark : Option Char) (dropping : Bool) : Nat → List Char → List Char
  | 0, cs => cs
  | n + 1, cs =>
    match mark with
    | some m =>
      let rest := cs.dropWhile (· != m)
      skip mark dropping n (if n = 0 && !dropping then rest else rest.drop 1)
    | none => skip mark dropping n ((cs.dropWhile isFieldBlank).dropWhile fun c => !isFieldBlank c)

/-- The part of a line that a key names. -/
def part (k : SortKey) (mark : Option Char) (line : List Char) : List Char :=
  let loose (cs : List Char) : List Char :=
    if k.letters.contains 'b' then cs.dropWhile isFieldBlank else cs
  let start := (loose (skip mark true (k.field - 1) line)).drop (k.char - 1)
  match k.last with
  | none => start
  | some (field, 0) => start.take (start.length - (skip mark false field line).length)
  | some (field, char) =>
    let rest := (loose (skip mark true (field - 1) line)).drop char
    start.take (start.length - rest.length)

end SortKey

/-! ## Comparing -/

/-- The number at the start of a text, without an exponent. -/
def leadingNumber (cs : List Char) : Fraction :=
  let cs := cs.dropWhile isFieldBlank
  let (negative, ds) := match cs with
    | '-' :: ds => (true, ds)
    | ds => (false, ds)
  let whole := ds.takeWhile Text.isDigit
  let places := match ds.drop whole.length with
    | '.' :: ds => ds.takeWhile Text.isDigit
    | _ => []
  ⟨negative, Text.digitsValue (whole ++ places), Nat.pow 10 places.length⟩

/-- The order of numbers. -/
def compareFractions (a b : Fraction) : Ordering :=
  let value (x y : Fraction) : Int :=
    (if x.negative then -1 else 1) * ((x.num * y.den : Nat) : Int)
  compare (value a b) (value b a)

/-- The rank of the unit behind a number. -/
def unitRank (cs : List Char) : Nat :=
  let rest := (cs.dropWhile isFieldBlank).dropWhile fun c => Text.isDigit c || c == '-' || c == '.'
  match rest with
  | c :: _ => ("?KMGTPEZY".toList.idxOf c.toUpper) % 9
  | [] => 0

/-- The number of a month by the start of its name. -/
def monthRank (cs : List Char) : Nat :=
  let name := String.ofList (((cs.dropWhile isFieldBlank).take 3).map Char.toUpper)
  (["?", "JAN", "FEB", "MAR", "APR", "MAY", "JUN", "JUL", "AUG", "SEP", "OCT", "NOV",
    "DEC"].idxOf name) % 13

/-- The order of texts in which runs of digits count as numbers. -/
def compareVersions (fuel : Nat) (a b : List Char) : Ordering :=
  match fuel with
  | 0 => .eq
  | fuel + 1 =>
    let digits (cs : List Char) : List Char := cs.takeWhile Text.isDigit
    match a, b with
    | [], [] => .eq
    | [], _ => .lt
    | _, [] => .gt
    | c :: cs, d :: ds =>
      if Text.isDigit c && Text.isDigit d then
        (compare (Text.digitsValue (digits a)) (Text.digitsValue (digits b))).then
          (compareVersions fuel (a.drop (digits a).length) (b.drop (digits b).length))
      else (compare c d).then (compareVersions fuel cs ds)

/-- The order of texts by their bytes. -/
def compareTexts : List Char → List Char → Ordering
  | [], [] => .eq
  | [], _ => .lt
  | _, [] => .gt
  | a :: as, b :: bs => (compare a b).then (compareTexts as bs)

/-- The order of two parts of lines, as letters say. -/
def compareParts (letters : List Char) (a b : List Char) : Ordering :=
  let shown (cs : List Char) : List Char :=
    let cs := if letters.contains 'd' then
      cs.filter fun c => c.isAlphanum || c == ' ' || c == '\t' else cs
    let cs := if letters.contains 'i' then cs.filter fun c => ' ' ≤ c && c ≤ '~' else cs
    if letters.contains 'f' then cs.map Char.toUpper else cs
  let order :=
    if letters.contains 'n' then compareFractions (leadingNumber a) (leadingNumber b)
    else if letters.contains 'g' then
      let value (cs : List Char) : Fraction :=
        ((Fraction.read? (cs.dropWhile isFieldBlank)).map Prod.fst).getD (.ofInt 0)
      compareFractions (value a) (value b)
    else if letters.contains 'h' then
      (compare (unitRank a) (unitRank b)).then
        (compareFractions (leadingNumber a) (leadingNumber b))
    else if letters.contains 'M' then compare (monthRank a) (monthRank b)
    else if letters.contains 'V' then compareVersions (a.length + b.length + 1) a b
    else compareTexts (shown a) (shown b)
  if letters.contains 'r' then order.swap else order

/-- How lines are sorted. -/
structure SortRequest where
  /-- The keys, the most important one first. -/
  keys : List SortKey
  /-- The mark between fields. -/
  mark : Option Char
  /-- Whether the order is turned around. -/
  reversed : Bool
  /-- Whether lines with the same keys keep their order. -/
  stable : Bool

namespace SortRequest

/-- The order of two lines by their keys. -/
def byKeys (r : SortRequest) (a b : List Char) : Ordering :=
  r.keys.foldl (fun order k => order.then
    (compareParts k.letters (k.part r.mark a) (k.part r.mark b))) .eq

/-- The order of two lines. -/
def compare (r : SortRequest) (a b : List Char) : Ordering :=
  (r.byKeys a b).then
    (if r.stable then .eq
    else if r.reversed then (compareTexts a b).swap else compareTexts a b)

/-- The request of some options, or what is wrong with them. -/
def ofOptions (o : Options) : Except String SortRequest := do
  let letters := (o.given.map Prod.fst).filter "bdfghiMnrV".toList.contains
  let keys ← (o.values 'k').mapM SortKey.read
  let keys := keys.map fun k => if k.letters.isEmpty then { k with letters := letters } else k
  let mark ← match o.value? 't' with
    | none => pure none
    | some t =>
      match t.toList with
      | [c] => pure (some c)
      | ['\\', '0'] => pure (some '\x00')
      | [] => throw "empty tab"
      | _ => throw ("multi-character tab '" ++ t ++ "'")
  let plain := letters.filter (· != 'r')
  let keys := if keys.isEmpty && !plain.isEmpty then [SortKey.whole letters] else keys
  return ⟨keys, mark, letters.contains 'r', o.has 's' || o.has 'u'⟩

end SortRequest

/-! ## Sorting lines -/

/-- Groups neighbours that are the same. -/
def groups {α : Type} (same : α → α → Bool) : List α → List (List α)
  | [] => []
  | x :: xs =>
    match groups same xs with
    | (y :: ys) :: rest => if same x y then (x :: y :: ys) :: rest else [x] :: (y :: ys) :: rest
    | rest => [x] :: rest

/-- The first line that is not in order, with its number. -/
def firstDisorder (inOrder : List Char → List Char → Bool) (n : Nat) :
    List (List Char) → Option (Nat × List Char)
  | a :: b :: rest =>
    if inOrder a b then firstDisorder inOrder (n + 1) (b :: rest) else some (n + 1, b)
  | _ => none

/-- The options for sorting. -/
def sortTable : OptionTable :=
  { flags := "bdfghiMnRrVcCmsuz", valued := "koSTt", status := 2, anywhere := true, usage := ""
    names := [("reverse", 'r'), ("numeric-sort", 'n'), ("unique", 'u'), ("key", 'k'),
      ("field-separator", 't'), ("output", 'o'), ("stable", 's'), ("ignore-case", 'f'),
      ("ignore-leading-blanks", 'b'), ("dictionary-order", 'd'), ("general-numeric-sort", 'g'),
      ("human-numeric-sort", 'h'), ("version-sort", 'V'), ("month-sort", 'M'), ("check", 'c'),
      ("merge", 'm')] }

/-- Sorts lines. -/
def sort : Utility := sortTable.utility fun s o =>
  match SortRequest.ofOptions o with
  | .error message => .blame s 2 message
  | .ok r =>
    let all := sources s o.operands
    let faulty : Option (String × FileFault) := all.findSome? fun source =>
      match source.text with
      | .error fault => some (source.name, fault)
      | .ok _ => none
    match faulty with
    | some (name, .isDirectory) => .blame s 2 ("read failed: " ++ name ++ ": Is a directory")
    | some (name, fault) => .blame s 2 ("cannot read: " ++ name ++ ": " ++ faultText fault)
    | none =>
      let lines := all.flatMap fun source =>
        (linesOf ((source.text.toOption).getD "").toList).map bare
      let e : Effect :=
        if o.has 'c' || o.has 'C' then
          let inOrder (a b : List Char) : Bool :=
            let order := r.compare a b
            order == .lt || (order == .eq && !o.has 'u')
          match firstDisorder inOrder 1 lines with
          | none => .silent s 0
          | some (n, line) =>
            if o.has 'C' then .silent s 1
            else .blame s 1 (((all.head?).elim "-" Source.name) ++ ":" ++ n.repr ++ ": disorder: "
              ++ String.ofList line)
        else
          let sorted := lines.mergeSort fun a b => r.compare a b != .gt
          let kept := if o.has 'u' then
            (groups (fun a b => r.byKeys a b == .eq && (!r.keys.isEmpty || a == b))
              sorted).map (·.headD []) else sorted
          let text := String.ofList (kept.flatMap (· ++ ['\n']))
          match o.value? 'o' with
          | none => .print s text
          | some path =>
            match s.files.writeBytes (decode path) (toBytes text) with
            | .ok files => { Effect.silent s 0 with files := files }
            | .error fault => .blame s 2 ("open failed: " ++ path ++ ": " ++ faultText fault)
      if usesInput all then e.drained else e

/-! ## Lines that are the same -/

/-- The options for lines that are the same. -/
def uniqTable : OptionTable :=
  { flags := "cdDiuz", valued := "fsw", status := 1, anywhere := true, usage := ""
    names := [("count", 'c'), ("repeated", 'd'), ("unique", 'u'), ("ignore-case", 'i'),
      ("skip-fields", 'f'), ("skip-chars", 's'), ("check-chars", 'w')] }

/-- The part of a line that is compared. -/
def comparedPart (o : Options) (line : List Char) : List Char :=
  let number (c : Char) : Nat := ((o.value? c).bind fun v => Text.digits? v.toList).getD 0
  let cs := (SortKey.skip none true (number 'f') line).drop (number 's')
  let cs := if o.has 'w' then cs.take (number 'w') else cs
  if o.has 'i' then cs.map Char.toLower else cs

/-- Keeps one of neighbouring lines that are the same. -/
def uniq : Utility := uniqTable.utility fun s o =>
  match o.operands with
  | _ :: _ :: extra :: _ => uniqTable.refuse s ("extra operand '" ++ extra ++ "'")
  | names =>
    let e := joining s namedFault (names.take 1) fun text =>
      let lines := (linesOf text.toList).map bare
      let found := groups (fun a b => comparedPart o a == comparedPart o b) lines
      let kept := found.filter fun g =>
        (1 < g.length || !(o.has 'd' || o.has 'D')) && (g.length = 1 || !o.has 'u')
      String.ofList (kept.flatMap fun g =>
        if o.has 'D' then g.flatMap (· ++ ['\n'])
        else (if o.has 'c' then (padLeft 7 g.length).toList ++ [' '] else [])
          ++ g.headD [] ++ ['\n'])
    match names.drop 1 with
    | [] => e
    | path :: _ =>
      let text := String.join ((e.chunks.filter fun c => !c.isError).map Chunk.text)
      match s.files.writeBytes (decode path) (toBytes text) with
      | .ok files => { e with files := files, chunks := e.chunks.filter Chunk.isError }
      | .error fault => .blame s 1 (namedFault path (faultText fault))

/-- The lines of two sorted files, each with the column that it is written in. -/
def mergeColumns (fuel : Nat) (xs ys : List (List Char)) : List (Nat × List Char) :=
  match fuel, xs, ys with
  | 0, _, _ => []
  | _, [], ys => ys.map fun y => (1, y)
  | _, xs, [] => xs.map fun x => (0, x)
  | fuel + 1, x :: xs, y :: ys =>
    match compareTexts x y with
    | .lt => (0, x) :: mergeColumns fuel xs (y :: ys)
    | .gt => (1, y) :: mergeColumns fuel (x :: xs) ys
    | .eq => (2, x) :: mergeColumns fuel xs ys

/-- Compares two sorted files line by line. -/
def comm : Utility := fun s arguments =>
  let table := OptionTable.plain "123iz" ""
  table.utility (fun s o =>
    match sources s o.operands with
    | [a, b] =>
      match a.text, b.text with
      | .error fault, _ => .blame s 1 (namedFault a.name (faultText fault))
      | _, .error fault => .blame s 1 (namedFault b.name (faultText fault))
      | .ok x, .ok y =>
        let linesIn (text : String) := (linesOf text.toList).map bare
        let (xs, ys) := (linesIn x, linesIn y)
        let hidden (column : Nat) : Bool := o.has (Char.ofNat (49 + column))
        let rows := (mergeColumns (xs.length + ys.length + 1) xs ys).filter fun r => !hidden r.1
        let indent (column : Nat) : List Char :=
          ((List.range column).filter fun c => !hidden c).map fun _ => '\t'
        let e := Effect.print s
          (String.ofList (rows.flatMap fun r => indent r.1 ++ r.2 ++ ['\n']))
        if usesInput [a, b] then e.drained else e
    | [a] => if o.operands.isEmpty then table.refuse s "missing operand"
      else table.refuse s ("missing operand after '" ++ a.name ++ "'")
    | all =>
      table.refuse s ("extra operand '" ++ ((all[2]?).elim "" Source.name) ++ "'")) s arguments

/-! ## Numbers of a range -/

/-- The number of places that a number is spelled with. -/
def spelledPlaces (text : String) : Nat :=
  if text.toList.any fun c => c == 'e' || c == 'E' then 0
  else (text.toList.dropWhile (· != '.')).length - 1

/-- The numbers from one to another one by steps, as multiples of a common fraction. -/
def rangeOf (first step last : Fraction) : List Fraction :=
  let den := first.den * step.den * last.den
  let value (f : Fraction) : Int :=
    (if f.negative then -1 else 1) * ((f.num * (den / f.den) : Nat) : Int)
  let (a, d, z) := (value first, value step, value last)
  let count := if d = 0 then 0 else ((z - a).fdiv d + 1).toNat
  (List.range count).map fun (i : Nat) =>
    let n := a + d * (i : Int)
    ⟨n < 0, n.natAbs, den⟩

/-- The options for the numbers of a range. -/
def seqTable : OptionTable :=
  { flags := "w", valued := "sf", status := 1, anywhere := false, usage := ""
    names := [("separator", 's'), ("equal-width", 'w'), ("format", 'f')] }

/-- Writes the numbers of a range that its arguments tell. -/
def seqNumbers (s : Scene) (o : Options) (first step last : String) : Effect :=
  let number (text : String) : Except String Fraction :=
    match Fraction.read? text.toList with
    | some (f, []) => .ok f
    | _ => .error ("invalid floating point argument: '" ++ text ++ "'")
  match number first, number step, number last with
  | .error message, _, _ | _, .error message, _ | _, _, .error message => seqTable.refuse s message
  | .ok a, .ok d, .ok z =>
    if d.num = 0 then seqTable.refuse s ("invalid Zero increment value: '" ++ step ++ "'")
    else
      let places := max (spelledPlaces first) (spelledPlaces step)
      let plain (f : Fraction) : String := (if f.negative then "-" else "") ++ f.fixed places
      let width := max (plain a).length (plain z).length
      let shown (f : Fraction) : String :=
        match o.value? 'f' with
        | some format =>
          let before := format.toList.takeWhile (· != '%')
          let (l, _, _, rest) := Layout.read ((format.toList.drop before.length).drop 1) []
          String.ofList before ++ l.real (rest.headD 'g') f ++ String.ofList (rest.drop 1)
        | none =>
          if o.has 'w' then
            let sign := if f.negative then "-" else ""
            let digits := f.fixed places
            sign ++ String.ofList (List.replicate (width - sign.length - digits.length) '0')
              ++ digits
          else plain f
      let numbers := (rangeOf a d z).map shown
      .print s (if numbers.isEmpty then ""
        else ((o.value? 's').getD "\n").intercalate numbers ++ "\n")

/-- Writes the numbers of a range. A negative number is no option. -/
def seq : Utility := fun s arguments =>
  let isNumber (a : String) : Bool := match a.toList with
    | '-' :: c :: _ => Text.isDigit c || c == '.'
    | _ => false
  let before := arguments.takeWhile fun a => !isNumber a
  let rest := arguments.drop before.length
  let arguments := if rest.isEmpty then arguments else before ++ "--" :: rest
  seqTable.utility (fun s o =>
    match o.operands.filter (· != "--") with
    | [] => seqTable.refuse s "missing operand"
    | [last] => seqNumbers s o "1" "1" last
    | [first, last] => seqNumbers s o first "1" last
    | [first, step, last] => seqNumbers s o first step last
    | _ :: _ :: _ :: extra :: _ =>
      seqTable.refuse s ("extra operand '" ++ extra ++ "'")) s arguments

end ProofScript.Shell
