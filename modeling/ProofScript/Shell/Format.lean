import ProofScript.Shell.Arithmetic
import ProofScript.Shell.Effect
import ProofScript.Shell.Fraction

/-!
# Formats

Writing texts with escapes, and values in the format that describes them.
-/

namespace ProofScript.Shell

/-! ## Escapes -/

/-- Whether `c` is an octal digit. -/
def isOctal (c : Char) : Bool := '0' ≤ c && c ≤ '7'

/-- The byte that up to three octal digits denote. -/
def octalByte (ds : List Char) : Char :=
  Char.ofNat ((ds.foldl (fun n d => 8 * n + Text.digitValue d) 0) % 256)

/-- The character that a letter behind a backslash stands for. -/
def letterEscape? (c : Char) : Option Char :=
  match c with
  | 'a' => some '\x07'
  | 'b' => some '\x08'
  | 'e' => some '\x1b'
  | 'f' => some '\x0c'
  | 'n' => some '\n'
  | 'r' => some '\r'
  | 't' => some '\t'
  | 'v' => some '\x0b'
  | '\\' => some '\\'
  | _ => none

/-- How escapes are read. -/
structure EscapeStyle where
  /-- Whether a zero in front of octal digits does not count, and has to be there. -/
  zero : Bool
  /-- Whether octal digits can also stand without that zero. -/
  bare : Bool
  /-- Whether hexadecimal digits can stand behind an `x`. -/
  hexadecimal : Bool
  /-- Whether a letter can end the output. -/
  ends : Bool

/-- The characters that a text with escapes stands for, and whether output goes on behind it. -/
def unescape (k : EscapeStyle) (fuel : Nat) (cs : List Char) : List Char × Bool :=
  match fuel, cs with
  | 0, _ => ([], true)
  | _, [] => ([], true)
  | fuel + 1, c :: cs =>
    let andThen (text rest : List Char) :=
      let (more, goesOn) := unescape k fuel rest
      (text ++ more, goesOn)
    if c != '\\' then andThen [c] cs
    else
      match cs with
      | [] => ([c], true)
      | d :: rest =>
        let digits := if k.zero && d == '0' then rest else d :: rest
        let octal := (digits.takeWhile isOctal).take 3
        let hex := (rest.takeWhile fun c => (baseDigit? 16 c).isSome).take 2
        if k.ends && d == 'c' then ([], false)
        else if (k.zero && d == '0') || (k.bare && !octal.isEmpty) then
          andThen [octalByte octal] (digits.drop octal.length)
        else if k.hexadecimal && d == 'x' && !hex.isEmpty then
          andThen [Char.ofNat (readDigits 16 hex).1] (rest.drop hex.length)
        else
          match letterEscape? d with
          | some e => andThen [e] rest
          | none => andThen [c, d] rest

/-- A text with escapes, as a style reads it. -/
def unescaped (k : EscapeStyle) (s : String) : String × Bool :=
  let (cs, goesOn) := unescape k (s.length + 1) s.toList
  (String.ofList cs, goesOn)

/-- The escapes of a text that is written. -/
def echoStyle : EscapeStyle := ⟨true, true, false, true⟩

/-- The escapes of a format. -/
def formatStyle : EscapeStyle := ⟨false, true, false, false⟩

/-- Writes its arguments with blanks between them. -/
def echo : Utility := fun s arguments =>
  let (newline, arguments) := match arguments with
    | "-n" :: rest => (false, rest)
    | all => (true, all)
  let (text, goesOn) := unescaped echoStyle (" ".intercalate arguments)
  .print s (if newline && goesOn then text ++ "\n" else text)

/-- The options of the program that writes its arguments: whether a line feed follows, and whether
escapes are read. -/
def echoOptions (newline escapes : Bool) : List String → Bool × Bool × List String
  | [] => (newline, escapes, [])
  | a :: rest =>
    match a.toList with
    | '-' :: c :: cs =>
      if (c :: cs).all "neE".toList.contains then
        let last := (c :: cs).reverse.find? fun c => c != 'n'
        echoOptions (newline && !(c :: cs).contains 'n') (last.elim escapes (· == 'e')) rest
      else (newline, escapes, a :: rest)
    | _ => (newline, escapes, a :: rest)

/-- The program that writes its arguments with blanks between them. -/
def echoProgram : Utility := fun s arguments =>
  let (newline, escapes, words) := echoOptions true false arguments
  let text := " ".intercalate words
  let (text, goesOn) := if escapes then unescaped ⟨true, false, true, true⟩ text else (text, true)
  .print s (if newline && goesOn then text ++ "\n" else text)

/-! ## Layouts -/

/-- How a value is laid out. -/
structure Layout where
  /-- The flags. -/
  flags : List Char
  /-- The number of bytes that are filled at least. -/
  width : Nat
  /-- The number of digits of a number at least, or of bytes of a text at most. -/
  precision : Option Nat
  deriving DecidableEq, Repr

namespace Layout

/-- Fills a text up to the width. -/
def fill (l : Layout) (s : String) : String :=
  let blanks := String.ofList (List.replicate (l.width - s.length) ' ')
  if l.flags.contains '-' then s ++ blanks else blanks ++ s

/-- Lays a text out. -/
def text (l : Layout) (s : String) : String :=
  l.fill (match l.precision with
    | some n => String.ofList (s.toList.take n)
    | none => s)

/-- Lays a number out, given what stands in front of it, its digits, and whether zeros can fill the
width. -/
def number (l : Layout) (sign digits : String) (zeros : Bool) : String :=
  let missing :=
    if zeros && l.flags.contains '0' && !l.flags.contains '-' then
      l.width - sign.length - digits.length
    else 0
  l.fill (sign ++ String.ofList (List.replicate missing '0') ++ digits)

/-- The sign of a number. -/
def sign (l : Layout) (negative : Bool) : String :=
  if negative then "-" else if l.flags.contains '+' then "+"
  else if l.flags.contains ' ' then " " else ""

/-- Lays an integer out as a directive says. -/
def integer (l : Layout) (directive : Char) (n : Int) : String :=
  let unsigned := (n % 18446744073709551616).toNat
  let inBase (base n : Nat) : String := String.ofList (Nat.toDigits base n)
  let alternative := l.flags.contains '#'
  let (sign, digits) := match directive with
    | 'o' => ("", (if alternative && unsigned ≠ 0 then "0" else "") ++ inBase 8 unsigned)
    | 'x' => (if alternative && unsigned ≠ 0 then "0x" else "", inBase 16 unsigned)
    | 'X' => (if alternative && unsigned ≠ 0 then "0X" else "", (inBase 16 unsigned).toUpper)
    | 'u' => ("", unsigned.repr)
    | _ => (l.sign (n < 0), n.natAbs.repr)
  let atLeast := l.precision.getD 1
  let digits := if atLeast = 0 && n = 0 then "" else digits
  l.number sign (String.ofList (List.replicate (atLeast - digits.length) '0') ++ digits)
    l.precision.isNone

/-- Lays a number with a fractional part out as a directive says. -/
def real (l : Layout) (directive : Char) (f : Fraction) : String :=
  let digits := match directive.toLower with
    | 'e' => f.scientific (l.precision.getD 6)
    | 'g' => f.general (l.precision.getD 6) (l.flags.contains '#')
    | _ => f.fixed (l.precision.getD 6)
  let digits := if directive.isUpper then digits.toUpper else digits
  l.number (l.sign f.negative) digits true

end Layout

/-! ## Values -/

/-- What is wrong with the text of a number; nothing when it is complete. -/
def numberFault? (text : String) (found : Bool) (rest : List Char) : Option String :=
  if text.isEmpty || (found && rest.isEmpty) then none
  else some (text ++ if found then ": not completely converted" else ": expected numeric value")

/-- The integer that a text spells, at its start at least, and what is wrong with the text. -/
def integerValue (unsigned : Bool) (text : String) : Int × Option String :=
  match text.toList with
  | '"' :: c :: _ | '\'' :: c :: _ => (c.toNat, none)
  | cs =>
    let cs := cs.dropWhile isBlank
    let (negative, ds) := match cs with
      | '-' :: ds => (true, ds)
      | '+' :: ds => (false, ds)
      | ds => (false, ds)
    let found := (ds.head?).any Text.isDigit
    let (n, rest) := if found then readNumber ds else (0, cs)
    let n : Int := if negative then -n else n
    let most : Int := if unsigned then 18446744073709551615 else Text.maxInt64
    let least : Int := if unsigned then -18446744073709551615 else -Text.maxInt64 - 1
    if most < n || n < least then
      (if n < 0 && !unsigned then least else most, some (text ++ ": Numerical result out of range"))
    else (n, numberFault? text found rest)

/-- The number that a text spells, at its start at least, and what is wrong with the text. -/
def realValue (text : String) : Fraction × Option String :=
  match text.toList with
  | '"' :: c :: _ | '\'' :: c :: _ => (.ofInt c.toNat, none)
  | cs =>
    match Fraction.read? (cs.dropWhile isBlank) with
    | some (f, rest) => (f.rounded, numberFault? text true rest)
    | none => (.ofInt 0, numberFault? text false [])

/-! ## Formats -/

/-- What is written in a format. -/
structure Formatted where
  /-- The text. -/
  text : String
  /-- The values that are left. -/
  rest : List String
  /-- Whether a value was asked for. -/
  used : Bool
  /-- What is wrong with the values. -/
  wrong : List String
  /-- What is wrong with the format. -/
  fault : Option String
  /-- Whether output goes on. -/
  goesOn : Bool

namespace Formatted

/-- The end of a format. -/
def finish (values : List String) : Formatted := ⟨"", values, false, [], none, true⟩

/-- The place in a format that is wrong. -/
def broken (fault : String) : Formatted := ⟨"", [], false, [], some fault, false⟩

/-- Puts a text in front. -/
def behind (text : String) (f : Formatted) : Formatted := { f with text := text ++ f.text }

/-- Puts what is wrong with a value in front. -/
def blaming (fault : Option String) (f : Formatted) : Formatted :=
  { f with wrong := fault.toList ++ f.wrong }

end Formatted

/-- A number in a layout: its value, what is spelled of it, the values left and the rest. A star
stands for the next value. -/
def readMeasure (cs : List Char) (values : List String) :
    Option Int × List Char × List String × List Char :=
  match cs with
  | '*' :: rest => (some (integerValue false (values.headD "")).1, ['*'], values.tail, rest)
  | cs =>
    let digits := cs.takeWhile Text.isDigit
    (if digits.isEmpty then none else some (Text.digitsValue digits), digits, values,
      cs.drop digits.length)

/-- Reads a layout behind a percent sign: the layout, what is spelled of it, the values left and
the rest. -/
def Layout.read (cs : List Char) (values : List String) :
    Layout × List Char × List String × List Char :=
  let flags := cs.takeWhile ("-+ 0#".toList.contains ·)
  let (width, spelled, values, cs) := readMeasure (cs.drop flags.length) values
  let width := width.getD 0
  let l : Layout := ⟨if width < 0 then '-' :: flags else flags, width.natAbs, none⟩
  match cs with
  | '.' :: cs =>
    let (precision, places, values, cs) := readMeasure cs values
    let precision := precision.getD 0
    ({ l with precision := if precision < 0 then none else some precision.toNat },
      flags ++ spelled ++ '.' :: places, values, cs)
  | cs => (l, flags ++ spelled, values, cs)

/-- One pass over a format. -/
def formatOnce (fuel : Nat) (cs : List Char) (values : List String) : Formatted :=
  match fuel, cs with
  | 0, _ => .finish values
  | _, [] => .finish values
  | fuel + 1, '%' :: '%' :: cs => (formatOnce fuel cs values).behind "%"
  | fuel + 1, '%' :: cs =>
    let (l, spelled, values, cs) := Layout.read cs values
    let value := values.headD ""
    let next (text : String) (rest : List Char) : Formatted :=
      { (formatOnce fuel rest values.tail).behind text with used := true }
    match cs with
    | [] => .broken "missing format character"
    | 's' :: cs => next (l.text value) cs
    | 'c' :: cs => next (l.fill (String.singleton (value.toList.headD '\x00'))) cs
    | 'b' :: cs =>
      let (text, goesOn) := unescaped echoStyle value
      if goesOn then next (l.text text) cs else ⟨l.text text, [], true, [], none, false⟩
    | directive :: cs =>
      if "diouxX".toList.contains directive then
        let (n, fault) := integerValue ("ouxX".toList.contains directive) value
        (next (l.integer directive n) cs).blaming fault
      else if "eEfFgG".toList.contains directive then
        let (f, fault) := realValue value
        (next (l.real directive f) cs).blaming fault
      else .broken (String.ofList ('%' :: spelled ++ [directive]) ++ ": invalid directive")
  | fuel + 1, c :: cs =>
    let literal := (c :: cs).takeWhile (· != '%')
    let (text, _) := unescaped formatStyle (String.ofList literal)
    (formatOnce fuel ((c :: cs).drop literal.length) values).behind text

/-- Writes values in a format, which is used again until none is left. -/
def formatAll (fuel : Nat) (format : List Char) (values : List String) : Formatted :=
  let f := formatOnce (format.length + 1) format values
  match fuel with
  | 0 => f
  | fuel + 1 =>
    if f.goesOn && f.used && !f.rest.isEmpty then
      let more := formatAll fuel format f.rest
      { more.behind f.text with wrong := f.wrong ++ more.wrong }
    else f

/-- Writes values in a format. What is wrong with them is told first. -/
def printFormat (s : Scene) (format : String) (values : List String) : Effect :=
  let f := formatAll values.length format.toList values
  let messages := (f.wrong ++ f.fault.toList).map fun m => Chunk.mk true (s.teller ++ m ++ "\n")
  ⟨messages ++ [⟨false, f.text⟩], if f.fault.isSome then 2 else if f.wrong.isEmpty then 0 else 1,
    none, s.files⟩

/-- Writes its arguments in the format that is the first one. -/
def printf : Utility := fun s arguments =>
  let usage := "usage: printf format [arg ...]"
  match arguments with
  | [] | ["--"] => .refuse s 2 usage
  | "--" :: format :: values => printFormat s format values
  | format :: values =>
    match format.toList with
    | '-' :: c :: _ => .refuse s 2 ("Illegal option -" ++ String.singleton c)
    | _ => printFormat s format values

end ProofScript.Shell
