import ProofScript.Shell.Format
import ProofScript.Shell.Options
import ProofScript.Shell.Pattern

/-!
# Scripts that edit lines

The commands of scripts that edit a text line by line. A command can be guarded by the lines that it
is for. Commands in braces and jumps are kept by the numbers of the commands that they lead to.
-/

namespace ProofScript.Shell

/-! ## Commands -/

/-- A way to name lines. -/
inductive Address where
  /-- The line of this number. -/
  | line (n : Nat)
  /-- The lines from a number on by steps. -/
  | steps (first step : Nat)
  /-- The last line. -/
  | last
  /-- The lines that hold a match; without an expression, of the one that was used last. -/
  | holding (r : Option Regex)
  deriving DecidableEq, Repr

/-- The end of a range of lines. -/
inductive RangeEnd where
  /-- An address. -/
  | address (a : Address)
  /-- So many lines more. -/
  | more (n : Nat)
  /-- The next line whose number is a multiple. -/
  | multiple (n : Nat)
  deriving DecidableEq, Repr

/-- The lines that a command is for: all lines, the lines of an address, or the lines from one
address up to another one. -/
structure Guard where
  /-- The first line; nothing in a range stands for the place in front of all lines. -/
  first : Option Address
  /-- The end of the range, if it is one. -/
  last : Option RangeEnd
  /-- Whether it is all other lines instead. -/
  negated : Bool
  deriving DecidableEq, Repr

/-- When a jump is made. -/
inductive JumpWhen where
  /-- Always. -/
  | always
  /-- When something was replaced in this line since the last jump. -/
  | changed
  /-- When nothing was. -/
  | unchanged
  deriving DecidableEq, Repr

/-- How a text is replaced. -/
structure Substitution where
  /-- What is looked for; nothing stands for the expression that was used last. -/
  regex : Option Regex
  /-- What it is replaced by. -/
  replacement : List Regex.Filling
  /-- Whether all matches are replaced, from the first one on. -/
  everywhere : Bool
  /-- The number of the first match that is replaced. -/
  first : Nat
  /-- Whether a line that has changed is printed. -/
  prints : Bool
  /-- The file that a line is written to that has changed. -/
  path : Option String
  deriving DecidableEq, Repr

/-- What a command does. -/
inductive EditAction where
  /-- Goes to the command of this number, unless the line is one that it is for. -/
  | block (stop : Nat)
  /-- Replaces matches. -/
  | substitute (s : Substitution)
  /-- Replaces characters by others. -/
  | exchange (pairs : List (Char × Char))
  /-- Prints the text, or its first line. -/
  | print (firstLine : Bool)
  /-- Prints the text with its special characters made visible. -/
  | visible
  /-- Prints the number of the line. -/
  | number
  /-- Prints the name of the file. -/
  | fileName
  /-- Drops the text, or its first line, and starts over. -/
  | drop (firstLine : Bool)
  /-- Makes the text empty. -/
  | clear
  /-- Ends the script with a status, without printing the text if it is silent. -/
  | quit (status : Nat) (silent : Bool)
  /-- Prints a text behind the line. -/
  | append (text : String)
  /-- Prints a text in front of the line. -/
  | insert (text : String)
  /-- Prints a text in place of the line. -/
  | change (text : String)
  /-- Prints a file behind the line. -/
  | readFile (path : String)
  /-- Writes the text to a file. -/
  | writeFile (path : String)
  /-- Puts the text, or adds it, to the text that is held. -/
  | hold (adds : Bool)
  /-- Takes the text that is held, or adds it to the text. -/
  | fetch (adds : Bool)
  /-- Exchanges the text with the one that is held. -/
  | swap
  /-- Goes on with the next line, or adds it to the text. -/
  | next (adds : Bool)
  /-- Goes to the command of this number. -/
  | jump (target : Nat) (condition : JumpWhen)
  /-- Does nothing. -/
  | nothing
  deriving DecidableEq, Repr

/-- A command with the lines that it is for. -/
structure Edit where
  /-- The lines. -/
  guard : Guard
  /-- What it does. -/
  action : EditAction
  deriving DecidableEq, Repr

/-! ## Reading scripts -/

/-- What is wrong with a script, and how much of it is behind that place; nothing when the place is
not told. -/
structure EditFault where
  /-- The wording. -/
  message : String
  /-- The number of characters behind it. -/
  behind : Option Nat
  deriving DecidableEq, Repr

/-- A fault in front of some characters. -/
def faultAt {α : Type} (cs : List Char) (message : String) : Except EditFault α :=
  .error ⟨message, some cs.length⟩

/-- The text up to a mark, and what follows the mark. Behind a backslash the mark stands for itself,
and any other character keeps its backslash. With `classes`, a mark between brackets does not
count. -/
def upToMark (mark : Char) : List Char → Option (List Char × List Char)
  | [] => none
  | c :: cs =>
    if c == mark then some ([], cs)
    else if c == '\\' then
      match cs with
      | [] => none
      | d :: rest => (upToMark mark rest).map fun (t, rest) =>
        (if d == mark then d :: t else c :: d :: t, rest)
    else (upToMark mark cs).map fun (t, rest) => (c :: t, rest)

/-- The character that an escape of a script stands for, and the rest. -/
def scriptEscape? (cs : List Char) : Option (Char × List Char) :=
  match cs with
  | 'n' :: rest => some ('\n', rest)
  | 't' :: rest => some ('\t', rest)
  | 'a' :: rest => some ('\x07', rest)
  | 'f' :: rest => some ('\x0c', rest)
  | 'r' :: rest => some ('\r', rest)
  | 'v' :: rest => some ('\x0b', rest)
  | 'x' :: a :: b :: rest =>
    match baseDigit? 16 a, baseDigit? 16 b with
    | some m, some n => some (Char.ofNat (16 * m + n), rest)
    | _, _ => none
  | _ => none

/-- A pattern of a script with its escapes for single characters replaced. -/
def unescapePattern (fuel : Nat) (cs : List Char) : List Char :=
  match fuel, cs with
  | 0, _ => cs
  | _, [] => []
  | fuel + 1, '\\' :: cs =>
    match scriptEscape? cs, cs with
    | some (c, rest), _ =>
      (if "*.[]^$/\\".toList.contains c then ['\\', c] else [c]) ++ unescapePattern fuel rest
    | none, c :: rest => '\\' :: c :: unescapePattern fuel rest
    | none, [] => ['\\']
  | fuel + 1, c :: cs => c :: unescapePattern fuel cs

/-- Reads a pattern; an empty one stands for the one that was used last. -/
def readRegex (extended caseless : Bool) (pattern rest : List Char) :
    Except EditFault (Option Regex) :=
  if pattern.isEmpty then .ok none
  else
    let text := String.ofList (unescapePattern (pattern.length + 1) pattern)
    match patternFault? extended text with
    | some message => faultAt rest message
    | none =>
      let r := Regex.ofText extended text
      .ok (some (if caseless then r.ignoringCase else r))

/-- Whether a character is a blank between the parts of a command. -/
def isGap (c : Char) : Bool := c == ' ' || c == '\t'

/-- Reads an address, if there is one. -/
def readAddress (extended : Bool) (cs : List Char) :
    Except EditFault (Option Address × List Char) :=
  let holding (mark : Char) (rest : List Char) : Except EditFault (Option Address × List Char) :=
    match upToMark mark rest with
    | none => faultAt [] "unterminated address regex"
    | some (pattern, rest) => do
      let flags := rest.takeWhile fun c => c == 'I' || c == 'M'
      let rest := rest.drop flags.length
      let r ← readRegex extended (flags.contains 'I') pattern rest
      return (some (.holding r), rest)
  match cs with
  | '$' :: rest => .ok (some .last, rest)
  | '/' :: rest => holding '/' rest
  | '\\' :: mark :: rest => holding mark rest
  | cs =>
    let digits := cs.takeWhile Text.isDigit
    if digits.isEmpty then .ok (none, cs)
    else
      let n := Text.digitsValue digits
      match cs.drop digits.length with
      | '~' :: rest =>
        let step := rest.takeWhile Text.isDigit
        .ok (some (.steps n (Text.digitsValue step)), rest.drop step.length)
      | rest => .ok (some (.line n), rest)

/-- Reads the end of a range behind its comma. -/
def readRangeEnd (extended : Bool) (cs : List Char) : Except EditFault (RangeEnd × List Char) :=
  let counted (f : Nat → RangeEnd) (rest : List Char) : Except EditFault (RangeEnd × List Char) :=
    let digits := rest.takeWhile Text.isDigit
    .ok (f (Text.digitsValue digits), rest.drop digits.length)
  match cs.dropWhile isGap with
  | '+' :: rest => counted .more rest
  | '~' :: rest => counted .multiple rest
  | rest => do
    match ← readAddress extended rest with
    | (some a, rest) => return (.address a, rest)
    | (none, rest) => faultAt rest "unexpected `,'"

/-- Reads the lines that a command is for. -/
def readGuard (extended : Bool) (cs : List Char) : Except EditFault (Guard × List Char) := do
  let (first, rest) ← readAddress extended cs
  let negation (g : Guard) (rest : List Char) : Except EditFault (Guard × List Char) :=
    match rest.dropWhile isGap with
    | '!' :: rest =>
      match rest.dropWhile isGap with
      | '!' :: rest => faultAt rest "multiple `!'s"
      | rest => .ok ({ g with negated := true }, rest)
    | rest => .ok (g, rest)
  match first, rest.dropWhile isGap with
  | some a, ',' :: rest => do
    let (last, rest) ← readRangeEnd extended rest
    if a = .line 0 then
      match last with
      | .address (.holding _) => negation ⟨none, some last, false⟩ rest
      | _ => faultAt rest "invalid usage of line address 0"
    else negation ⟨some a, some last, false⟩ rest
  | some (.line 0), rest => faultAt (rest.drop 1) "invalid usage of line address 0"
  | first, rest => negation ⟨first, none, false⟩ rest

/-- Whether a character ends a command. -/
def endsEdit (c : Char) : Bool := c == ';' || c == '\n'

/-- The text up to the end of its line that has no backslash in front; a backslash does not
count. -/
def readEditText (fuel : Nat) (cs : List Char) : List Char × List Char :=
  match fuel, cs with
  | 0, _ => ([], cs)
  | _, [] => ([], [])
  | _, '\n' :: rest => ([], rest)
  | fuel + 1, '\\' :: c :: rest =>
    let (c, rest) := (if c == 'n' then none else scriptEscape? (c :: rest)).getD (c, rest)
    let (text, rest) := readEditText fuel rest
    (c :: text, rest)
  | fuel + 1, c :: rest =>
    let (text, rest) := readEditText fuel (if c == '\\' then [] else rest)
    (if c == '\\' then text else c :: text, rest)

/-- Reads the text that a command prints. It starts in the next line behind a backslash, or behind
the blanks in the same line. -/
def readPrinted (cs : List Char) : Except EditFault (String × List Char) :=
  let text (cs : List Char) : Except EditFault (String × List Char) :=
    let (text, rest) := readEditText (cs.length + 1) cs
    .ok (String.ofList text, rest)
  match cs.dropWhile isGap with
  | [] => faultAt [] "expected \\ after `a', `c' or `i'"
  | '\\' :: rest =>
    match rest.dropWhile isGap with
    | '\n' :: rest => text rest
    | [] => .ok ("\x00", [])
    | _ => text rest
  | rest => text rest

/-- Reads what matches are replaced by. -/
def readFillings (fuel : Nat) (cs : List Char) : List Regex.Filling :=
  match fuel, cs with
  | 0, _ => []
  | _, [] => []
  | fuel + 1, '&' :: cs => .group 0 :: readFillings fuel cs
  | fuel + 1, '\\' :: c :: cs =>
    match c with
    | 'U' => .change .upper :: readFillings fuel cs
    | 'L' => .change .lower :: readFillings fuel cs
    | 'E' => .change .asIs :: readFillings fuel cs
    | 'u' => .changeOne .upper :: readFillings fuel cs
    | 'l' => .changeOne .lower :: readFillings fuel cs
    | c =>
      if Text.isDigit c then .group (Text.digitValue c) :: readFillings fuel cs
      else
        match scriptEscape? (c :: cs) with
        | some (d, rest) => .literal d :: readFillings fuel rest
        | none => .literal c :: readFillings fuel cs
  | fuel + 1, c :: cs => .literal c :: readFillings fuel cs

/-- The number of groups in a pattern. -/
def groupCount (extended : Bool) : List Char → Nat
  | '\\' :: c :: cs => groupCount extended cs + if c == '(' && !extended then 1 else 0
  | c :: cs => groupCount extended cs + if c == '(' && extended then 1 else 0
  | [] => 0

/-- The options behind a substitution. -/
structure SubstitutionFlags where
  /-- The letters. -/
  letters : List Char
  /-- The number. -/
  number : Option Nat
  /-- The file that is written. -/
  path : Option String

/-- Reads the options behind a substitution. -/
def readFlags (fuel : Nat) (k : SubstitutionFlags) (cs : List Char) :
    Except EditFault (SubstitutionFlags × List Char) :=
  match fuel, cs with
  | 0, _ => .ok (k, cs)
  | _, [] => .ok (k, [])
  | fuel + 1, c :: rest =>
    if c == 'g' || c == 'p' then
      if k.letters.contains c then
        faultAt rest ("multiple `" ++ String.singleton c ++ "' options to `s' command")
      else readFlags fuel { k with letters := c :: k.letters } rest
    else if c == 'i' || c == 'I' then readFlags fuel { k with letters := 'i' :: k.letters } rest
    else if c == 'm' || c == 'M' || c == 'e' then readFlags fuel k rest
    else if c == 'w' then
      let name := (rest.dropWhile isGap).takeWhile (· != '\n')
      .ok ({ k with path := some (String.ofList name) }, rest.dropWhile (· != '\n'))
    else if Text.isDigit c then
      let digits := cs.takeWhile Text.isDigit
      let n := Text.digitsValue digits
      let rest := cs.drop digits.length
      if n = 0 then faultAt rest "number option to `s' command may not be zero"
      else if k.number.isSome then faultAt rest "multiple number options to `s' command"
      else readFlags fuel { k with number := some n } rest
    else if endsEdit c || c == '\x7d' || c == '#' || isGap c then .ok (k, cs)
    else faultAt rest "unknown option to `s'"

/-- Reads a substitution behind its letter. -/
def readSubstitution (extended : Bool) (cs : List Char) :
    Except EditFault (EditAction × List Char) :=
  let unterminated : Except EditFault (EditAction × List Char) :=
    faultAt [] "unterminated `s' command"
  match cs with
  | [] => unterminated
  | mark :: cs =>
    match upToMark mark cs with
    | none => unterminated
    | some (pattern, cs) =>
      match upToMark mark cs with
      | none => unterminated
      | some (replacement, cs) => do
        let (k, rest) ← readFlags (cs.length + 1) ⟨[], none, none⟩ cs
        let r ← readRegex extended (k.letters.contains 'i') pattern rest
        let fillings := readFillings (replacement.length + 1) replacement
        let most := groupCount extended pattern
        match fillings.findSome? fun f => match f with
          | .group n => if most < n && !pattern.isEmpty then some n else none
          | _ => none with
        | some n => faultAt rest ("invalid reference \\" ++ n.repr ++ " on `s' command's RHS")
        | none => return (.substitute ⟨r, fillings, k.letters.contains 'g', k.number.getD 1,
            k.letters.contains 'p', k.path⟩, rest)

/-- The characters of a text between marks, where a backslash is followed by a character that has a
meaning of its own. -/
def plainChars (fuel : Nat) (cs : List Char) : List Char :=
  match fuel, cs with
  | 0, _ => []
  | _, [] => []
  | fuel + 1, '\\' :: cs =>
    match scriptEscape? cs, cs with
    | some (c, rest), _ => c :: plainChars fuel rest
    | none, '\\' :: rest => '\\' :: plainChars fuel rest
    | none, rest => '\\' :: plainChars fuel rest
  | fuel + 1, c :: cs => c :: plainChars fuel cs

/-- Reads pairs of characters behind their letter. -/
def readExchange (cs : List Char) : Except EditFault (EditAction × List Char) :=
  let unterminated : Except EditFault (EditAction × List Char) :=
    faultAt [] "unterminated `y' command"
  match cs with
  | [] => unterminated
  | mark :: cs =>
    match upToMark mark cs with
    | none => unterminated
    | some (old, cs) =>
      match upToMark mark cs with
      | none => unterminated
      | some (new, cs) =>
        let chars (t : List Char) := plainChars (t.length + 1) t
        if (chars old).length ≠ (chars new).length then
          faultAt cs "strings for `y' command are different lengths"
        else .ok (.exchange ((chars old).zip (chars new)), cs)

/-- A command as it is read: jumps name their labels, and braces are commands of their own. -/
inductive RawEdit where
  /-- A command. -/
  | edit (e : Edit)
  /-- A jump to a label; the empty one stands for the end. -/
  | jump (g : Guard) (label : String) (condition : JumpWhen)
  /-- A label. -/
  | label (name : String)
  /-- An opening brace. -/
  | opening (g : Guard)
  /-- A closing brace. -/
  | closing

/-- Reads the word behind a command up to the end of the command. -/
def readLabel (cs : List Char) : String × List Char :=
  let cs := cs.dropWhile isGap
  let name := cs.takeWhile fun c => !endsEdit c && !isGap c
  (String.ofList name, cs.drop name.length)

/-- Reads what a command does behind its letter. -/
def readAction (extended : Bool) (letter : Char) (cs : List Char) :
    Except EditFault (EditAction × List Char) :=
  let file (f : String → EditAction) : Except EditFault (EditAction × List Char) :=
    let name := (cs.dropWhile isGap).takeWhile (· != '\n')
    if name.isEmpty then faultAt cs "missing filename in r/R/w/W commands"
    else .ok (f (String.ofList name), cs.dropWhile (· != '\n'))
  let status (silent : Bool) : Except EditFault (EditAction × List Char) :=
    let rest := cs.dropWhile isGap
    let digits := rest.takeWhile Text.isDigit
    .ok (.quit (Text.digitsValue digits % 256) silent, rest.drop digits.length)
  let printed (f : String → EditAction) : Except EditFault (EditAction × List Char) := do
    let (text, rest) ← readPrinted cs
    return (f text, '\n' :: rest)
  match letter with
  | 's' => readSubstitution extended cs
  | 'y' => readExchange cs
  | 'p' => .ok (.print false, cs)
  | 'P' => .ok (.print true, cs)
  | 'l' => .ok (.visible, (cs.dropWhile isGap).dropWhile Text.isDigit)
  | '=' => .ok (.number, cs)
  | 'F' => .ok (.fileName, cs)
  | 'd' => .ok (.drop false, cs)
  | 'D' => .ok (.drop true, cs)
  | 'z' => .ok (.clear, cs)
  | 'q' => status false
  | 'Q' => status true
  | 'a' => printed .append
  | 'i' => printed .insert
  | 'c' => printed .change
  | 'r' => file .readFile
  | 'w' => file .writeFile
  | 'h' => .ok (.hold false, cs)
  | 'H' => .ok (.hold true, cs)
  | 'g' => .ok (.fetch false, cs)
  | 'G' => .ok (.fetch true, cs)
  | 'x' => .ok (.swap, cs)
  | 'n' => .ok (.next false, cs)
  | 'N' => .ok (.next true, cs)
  | 'v' => .ok (.nothing, cs.dropWhile fun c => !endsEdit c)
  | c => faultAt cs ("unknown command: `" ++ String.singleton c ++ "'")

/-- Reads the commands of a script, inside of so many braces. -/
def readEdits (extended : Bool) (fuel depth : Nat) (cs : List Char) :
    Except EditFault (List RawEdit) :=
  match fuel, cs.dropWhile fun c => isGap c || endsEdit c with
  | 0, _ => .ok []
  | _, [] => if depth = 0 then .ok [] else .error ⟨"unmatched `\x7b'", none⟩
  | fuel + 1, cs => do
    let (g, rest) ← readGuard extended cs
    match rest.dropWhile isGap with
    | [] => faultAt [] "missing command"
    | letter :: rest =>
      let ended (rest : List Char) : Except EditFault (List RawEdit) :=
        match rest.dropWhile isGap with
        | [] => readEdits extended fuel depth []
        | c :: after =>
          if endsEdit c || c == '\x7d' || c == '#' then readEdits extended fuel depth (c :: after)
          else faultAt after "extra characters after command"
      let jump (k : JumpWhen) : Except EditFault (List RawEdit) := do
        let (name, rest) := readLabel rest
        return .jump g name k :: (← ended rest)
      let guarded := g.first.isSome || g.last.isSome
      match letter with
      | '\x7b' => return .opening g :: (← readEdits extended fuel (depth + 1) rest)
      | '\x7d' =>
        if depth = 0 then faultAt rest "unexpected `\x7d'"
        else if guarded then faultAt rest "unexpected `,'"
        else
          let rest := match rest.dropWhile isGap with
            | ';' :: rest => rest
            | rest => rest
          return .closing :: (← readEdits extended fuel (depth - 1) rest)
      | '#' =>
        if guarded then faultAt rest "comments don't accept any addresses"
        else readEdits extended fuel depth (rest.dropWhile (· != '\n'))
      | ':' =>
        let name := (rest.dropWhile isGap).takeWhile fun c => !endsEdit c
        if guarded then faultAt rest ": doesn't want any addresses"
        else if name.isEmpty then faultAt rest "\":\" lacks a label"
        else
          return .label (String.ofList name) ::
            (← readEdits extended fuel depth (rest.dropWhile fun c => !endsEdit c))
      | 'b' => jump .always
      | 't' => jump .changed
      | 'T' => jump .unchanged
      | letter => do
        let (action, behind) ← readAction extended letter rest
        let single := match action with
          | .quit _ _ => true
          | _ => false
        if single && g.last.isSome then faultAt behind "command only uses one address"
        return .edit ⟨g, action⟩ :: (← ended behind)

/-- The number of the command behind the closing brace that belongs to the one that is open. -/
def blockEnd (depth n : Nat) : List RawEdit → Nat
  | [] => n
  | .closing :: rest => if depth = 0 then n + 1 else blockEnd (depth - 1) (n + 1) rest
  | .opening _ :: rest => blockEnd (depth + 1) (n + 1) rest
  | _ :: rest => blockEnd depth (n + 1) rest

/-- The number of the command behind a label. -/
def labelPlace? (name : String) (n : Nat) : List RawEdit → Option Nat
  | [] => none
  | .label other :: rest => if other == name then some (n + 1) else labelPlace? name (n + 1) rest
  | _ :: rest => labelPlace? name (n + 1) rest

/-- The commands with the numbers that they lead to, from the one of number `n` on. -/
def resolveEdits (all : List RawEdit) (n : Nat) : List RawEdit → Except String (List Edit)
  | [] => .ok []
  | raw :: rest => do
    let always : Guard := ⟨none, none, false⟩
    let e ← match raw with
      | .edit e => pure e
      | .label _ | .closing => pure ⟨always, .nothing⟩
      | .opening g => pure ⟨g, .block (blockEnd 0 (n + 1) rest)⟩
      | .jump g name k =>
        if name.isEmpty then pure ⟨g, .jump all.length k⟩
        else
          match labelPlace? name 0 all with
          | some target => pure ⟨g, .jump target k⟩
          | none => throw ("can't find label for jump to `" ++ name ++ "'")
    return e :: (← resolveEdits all (n + 1) rest)

/-- Reads a script, or tells what is wrong with it. -/
def Edit.ofText (extended : Bool) (script : String) : Except String (List Edit) :=
  match readEdits extended (script.length + 2) 0 script.toList with
  | .error fault =>
    let place := (fault.behind.map fun n => script.length - n).getD 0
    .error ("-e expression #1, char " ++ place.repr ++ ": " ++ fault.message)
  | .ok raw => resolveEdits raw 0 raw

end ProofScript.Shell
