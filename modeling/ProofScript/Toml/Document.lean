import ProofScript.Toml.Moment
import ProofScript.Toml.Number
import ProofScript.Toml.Table

/-!
# Documents

Reading a document. A document is a sequence of lines: blank lines, comments, headers, and keys with
their values. A value can be a list, which may go on for several lines, or a table between braces,
which may not; both nest only to a fixed depth.
-/

namespace ProofScript.Toml

/-! ## Ends of lines -/

/-- Drops a line break at the start of a text; nothing when there is none. -/
def dropBreak? : List Char → Option (List Char)
  | '\n' :: cs => some cs
  | '\r' :: '\n' :: cs => some cs
  | _ => none

/-- Drops a comment at the start of a text. -/
def dropComment : List Char → List Char
  | '#' :: cs => cs.dropWhile isPlain
  | cs => cs

/-- Drops the rest of a line, which holds nothing but spaces and a comment. -/
def endLine? (cs : List Char) : Option (List Char) :=
  match dropComment (dropSpace cs) with
  | [] => some []
  | cs => dropBreak? cs

/-- Drops spaces, line breaks and comments. -/
def dropBlank (cs : List Char) : List Char :=
  match dropBreak? (dropComment (dropSpace cs)) with
  | some rest => if rest.length < cs.length then dropBlank rest else rest
  | none => dropSpace cs
termination_by cs.length

/-! ## Values on one line -/

/-- Whether `c` may occur in a number, a moment or a truth value. -/
def isWordChar (c : Char) : Bool := isBare c || c == '+' || c == '.' || c == ':'

/-- The value that a word spells. -/
def wordValue? (word : List Char) : Option Value :=
  if word == ['t', 'r', 'u', 'e'] then some (.boolean true)
  else if word == ['f', 'a', 'l', 's', 'e'] then some (.boolean false)
  else if isMoment word then some (.moment (String.ofList word))
  else if isFloat word then some (.float (String.ofList word))
  else (integer? word).map .integer

/-- The time of day that follows a date and one space, if there is one, and the rest. -/
def timeBehind? : Reader (List Char)
  | ' ' :: cs =>
    let word := cs.takeWhile isWordChar
    if isZonedTime word then some (word, cs.dropWhile isWordChar) else none
  | _ => none

/-- Reads a value that is neither a list nor a table. -/
def readSimple : Reader Value := fun cs =>
  match cs with
  | '"' :: _ | '\'' :: _ => (readText cs).map fun (s, rest) => (.text s, rest)
  | _ =>
    let word := cs.takeWhile isWordChar
    let rest := cs.dropWhile isWordChar
    match dropDate? word, timeBehind? rest with
    | some [], some (time, rest) => some (.moment (String.ofList (word ++ ' ' :: time)), rest)
    | _, _ => (wordValue? word).map fun v => (v, rest)

/-! ## Lists and tables between braces -/

/-- Reads the items of a list up to the closing bracket. The last one may be followed by a comma. -/
def readItems (item : Reader Value) (cs : List Char) : Option (List Value × List Char) :=
  match dropBlank cs with
  | ']' :: rest => some ([], rest)
  | start =>
    match item start with
    | none => none
    | some (v, rest) =>
      match dropBlank rest with
      | ']' :: rest => some ([v], rest)
      | ',' :: rest =>
        if _h : rest.length < cs.length then
          (readItems item rest).map fun (vs, rest) => (v :: vs, rest)
        else none
      | _ => none
termination_by cs.length

/-- Reads a key, an equals sign and a value. -/
def readPair (value : Reader Value) : Reader ((List String × String) × Value) := fun cs => do
  let (path, rest) ← readPath cs
  match rest with
  | '=' :: rest =>
    let (v, rest) ← value (dropSpace rest)
    return ((path, v), rest)
  | _ => none

/-- Reads keys and values up to the closing brace. There is at least one. -/
def readPairs (value : Reader Value) (cs : List Char) :
    Option (List ((List String × String) × Value) × List Char) :=
  match readPair value cs with
  | none => none
  | some (pair, rest) =>
    match dropSpace rest with
    | '\x7d' :: rest => some ([pair], rest)
    | ',' :: rest =>
      if _h : rest.length < cs.length then
        (readPairs value rest).map fun (pairs, rest) => (pair :: pairs, rest)
      else none
    | _ => none
termination_by cs.length

/-- Reads a value in which lists and tables between braces nest up to `depth` times. -/
def readValue : (depth : Nat) → Reader Value
  | 0 => readSimple
  | depth + 1 => fun cs =>
    match cs with
    | '[' :: rest => (readItems (readValue depth) rest).map fun (vs, rest) => (.list vs, rest)
    | '\x7b' :: rest =>
      match dropSpace rest with
      | '\x7d' :: rest => some (.table .closed [], rest)
      | start => do
        let (pairs, rest) ← readPairs (readValue depth) start
        return (.table .closed (← Entries.ofPairs pairs), rest)
    | _ => readSimple cs

/-- The largest depth to which lists and tables between braces nest. -/
def maxDepth : Nat := 79

/-! ## Lines -/

/-- A line of a document that is neither blank nor a comment. -/
inductive Line where
  /-- The header of a table. -/
  | header (path : List String × String)
  /-- The header of a table in a list of tables. -/
  | row (path : List String × String)
  /-- A key and its value. -/
  | pair (path : List String × String) (v : Value)

/-- Reads a line without its end. -/
def readLine : Reader Line
  | '[' :: '[' :: cs => do
    let (path, rest) ← readPath cs
    match rest with
    | ']' :: ']' :: rest => return (.row path, rest)
    | _ => none
  | '[' :: cs => do
    let (path, rest) ← readPath cs
    match rest with
    | ']' :: rest => return (.header path, rest)
    | _ => none
  | cs => (readPair (readValue maxDepth) cs).map fun ((path, v), rest) => (.pair path v, rest)

/-- The lines of a document. -/
def readLines (cs : List Char) : Option (List Line) :=
  match dropBlank cs with
  | [] => some []
  | '#' :: rest => if rest.all isPlain then some [] else none
  | start =>
    match (readLine start).bind fun (line, rest) => (endLine? rest).map (line, ·) with
    | none => none
    | some (line, rest) =>
      if _h : rest.length < cs.length then (readLines rest).map (line :: ·) else none
termination_by cs.length

/-! ## Documents -/

/-- A document up to some line. -/
structure Progress where
  /-- The path of the header that was read last. -/
  header : List String
  /-- The document so far. -/
  root : Entries

/-- Adds a line to a document. -/
def Progress.add (p : Progress) : Line → Option Progress
  | .header path =>
    (p.root.addHeader path).map fun root => { header := path.1 ++ [path.2], root := root }
  | .row path => (p.root.addRow path).map fun root => { header := path.1 ++ [path.2], root := root }
  | .pair path v => (p.root.addBelow p.header path v).map fun root => { p with root := root }

/-- Drops a byte order mark at the start of a text. -/
def dropMark : List Char → List Char
  | '\ufeff' :: cs => cs
  | cs => cs

/-- The table that a document holds; nothing when the text is no document. -/
def ofText? (text : String) : Option Entries := do
  let lines ← readLines (dropMark text.toList)
  return (← lines.foldlM Progress.add { header := [], root := [] }).root

end ProofScript.Toml
