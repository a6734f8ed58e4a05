import ProofScript.Toml.Value

/-!
# Texts and keys

A text stands between quotes or apostrophes. Between quotes, a backslash starts an escape; between
apostrophes, every character stands for itself. Three of either open a text that can hold line
breaks. A key is a bare word or a text on one line, and dots join keys to a path.
-/

namespace ProofScript.Toml

/-- Whether `c` separates parts of a line. -/
def isSpace (c : Char) : Bool := c == ' ' || c == '\t'

/-- Drops the spaces at the start of a text. -/
def dropSpace (cs : List Char) : List Char := cs.dropWhile isSpace

/-- Whether `c` may occur in a line: anything but a control character, and the tab. -/
def isPlain (c : Char) : Bool := c == '\t' || (0x20 ≤ c.toNat && c.toNat != 0x7f)

/-- Drops the carriage returns in front of line feeds. -/
def dropReturns : List Char → List Char
  | '\r' :: '\n' :: cs => '\n' :: dropReturns cs
  | c :: cs => c :: dropReturns cs
  | [] => []

/-! ## Escapes -/

/-- The value of a hexadecimal digit. -/
def hexValue? (c : Char) : Option Nat :=
  if '0' ≤ c && c ≤ '9' then some (c.toNat - '0'.toNat)
  else if 'a' ≤ c && c ≤ 'f' then some (c.toNat - 'a'.toNat + 10)
  else if 'A' ≤ c && c ≤ 'F' then some (c.toNat - 'A'.toNat + 10)
  else none

/-- The number that hexadecimal digits denote. -/
def hexNumber? (ds : List Char) : Option Nat :=
  ds.foldlM (fun n d => (hexValue? d).map (16 * n + ·)) 0

/-- The character whose code point has the hexadecimal digits `ds`. -/
def codePoint? (ds : List Char) : Option Char :=
  (hexNumber? ds).bind fun n =>
    if n < 0xd800 || (0xdfff < n && n < 0x110000) then some (Char.ofNat n) else none

/-- The character that an escape of one letter stands for. -/
def shortEscape? (c : Char) : Option Char :=
  match c with
  | 'b' => some '\x08'
  | 't' => some '\t'
  | 'n' => some '\n'
  | 'f' => some '\x0c'
  | 'r' => some '\r'
  | '"' => some '"'
  | '\\' => some '\\'
  | _ => none

/-- Whether only spaces are left in the line. -/
def endsLine (cs : List Char) : Bool := (dropSpace cs).head? == some '\n'

/-- The characters that the inside of a quoted text stands for, where `multi` tells whether line
breaks are allowed. A backslash at the end of a line drops all spaces and line breaks that follow,
which is going on when `trimming` holds. -/
def unescape (multi trimming : Bool) : List Char → Option (List Char)
  | [] => some []
  | c :: cs =>
    if c == '\\' then
      match cs with
      | 'u' :: p :: q :: r :: s :: rest => do
        return (← codePoint? [p, q, r, s]) :: (← unescape multi false rest)
      | 'U' :: p :: q :: r :: s :: t :: u :: v :: w :: rest => do
        return (← codePoint? [p, q, r, s, t, u, v, w]) :: (← unescape multi false rest)
      | e :: rest =>
        match shortEscape? e with
        | some d => (unescape multi false rest).map (d :: ·)
        | none => if multi && endsLine (e :: rest) then unescape multi true (e :: rest) else none
      | [] => none
    else if trimming && (isSpace c || c == '\n') then unescape multi true cs
    else if isPlain c || (multi && c == '\n') then (unescape multi false cs).map (c :: ·)
    else none

/-- The inside of a text between apostrophes, if it holds no character that must not occur. -/
def verbatim? (multi : Bool) (cs : List Char) : Option (List Char) :=
  if cs.all fun c => isPlain c || (multi && c == '\n') then some cs else none

/-! ## Texts -/

/-- Reads up to the closing mark `mark`. When `escapes` holds, a character behind a backslash does
not close the text. -/
def inside (mark : Char) (escapes : Bool) : Reader (List Char)
  | [] => none
  | c :: cs =>
    if c == mark then some ([], cs)
    else if escapes && c == '\\' then
      match cs with
      | [] => none
      | d :: rest => (inside mark escapes rest).map fun (b, rest) => (c :: d :: b, rest)
    else (inside mark escapes cs).map fun (b, rest) => (c :: b, rest)

/-- Reads up to the three closing marks. Of more than three marks in a row, up to two at the start
of the run belong to the text. -/
def insideMulti (mark : Char) (escapes : Bool) : Reader (List Char)
  | a :: b :: c :: cs =>
    if a == mark && b == mark && c == mark then
      let extra := (cs.takeWhile (· == mark)).take 2
      some (extra, cs.drop extra.length)
    else if escapes && a == '\\' then
      (insideMulti mark escapes (c :: cs)).map fun (t, rest) => (a :: b :: t, rest)
    else (insideMulti mark escapes (b :: c :: cs)).map fun (t, rest) => (a :: t, rest)
  | _ => none

/-- Drops the line break just behind the opening marks of a text that can hold line breaks. -/
def dropFirstBreak : List Char → List Char
  | '\n' :: cs => cs
  | cs => cs

/-- Reads a text on one line, behind its opening mark. -/
def lineText (mark : Char) : Reader String := fun cs => do
  let (body, rest) ← inside mark (mark == '"') cs
  let body ← if mark == '"' then unescape false false body else verbatim? false body
  return (String.ofList body, rest)

/-- Reads a text that can hold line breaks, behind its opening marks. -/
def multiText (mark : Char) : Reader String := fun cs => do
  let (body, rest) ← insideMulti mark (mark == '"') cs
  let body := dropFirstBreak (dropReturns body)
  let body ← if mark == '"' then unescape true false body else verbatim? true body
  return (String.ofList body, rest)

/-- Reads a text. -/
def readText : Reader String
  | '"' :: '"' :: '"' :: cs => multiText '"' cs
  | '\'' :: '\'' :: '\'' :: cs => multiText '\'' cs
  | '"' :: cs => lineText '"' cs
  | '\'' :: cs => lineText '\'' cs
  | _ => none

/-! ## Keys -/

/-- Whether `c` may occur in a bare key. -/
def isBare (c : Char) : Bool :=
  ('a' ≤ c && c ≤ 'z') || ('A' ≤ c && c ≤ 'Z') || ('0' ≤ c && c ≤ '9') || c == '_' || c == '-'

/-- Reads a key. -/
def readKey : Reader String
  | '"' :: cs => lineText '"' cs
  | '\'' :: cs => lineText '\'' cs
  | cs =>
    match cs.takeWhile isBare with
    | [] => none
    | key => some (String.ofList key, cs.dropWhile isBare)

/-- Reads keys joined by dots, with spaces around each. -/
def readKeys (cs : List Char) : Option (List String × List Char) :=
  match readKey (dropSpace cs) with
  | none => none
  | some (key, rest) =>
    match dropSpace rest with
    | '.' :: more =>
      if _h : more.length < cs.length then
        (readKeys more).map fun (keys, rest) => (key :: keys, rest)
      else none
    | rest => some ([key], rest)
termination_by cs.length

/-- The largest number of keys in a path. -/
def maxKeys : Nat := 79

/-- Reads a path of keys: the keys before the last one, and the last one. -/
def readPath : Reader (List String × String) := fun cs => do
  let (keys, rest) ← readKeys cs
  let key ← keys.getLast?
  if keys.length ≤ maxKeys then return ((keys.dropLast, key), rest) else none

end ProofScript.Toml
