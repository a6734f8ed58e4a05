import ProofScript.Shell.Command
import ProofScript.Text.Decimal
import ProofScript.Text.Name

/-!
# Words and operators of shell scripts

Cutting a shell script into words and operators. What is substituted into a word is kept as text and
read when the word is expanded. The text of a here-document is taken out of the lines behind its
operator.
-/

namespace ProofScript.Shell

/-- What a token is. -/
inductive LexemeKind where
  /-- A word. -/
  | word (w : Word)
  /-- A separator or an operator. -/
  | operator (s : String)
  /-- The start of a redirection; its target is the next word. -/
  | redirect (stream : Nat) (kind : RedirectKind)
  /-- No token, and why. -/
  | bad (message : String)
  /-- The end of the script. -/
  | finish
  deriving DecidableEq, Repr

/-- A token, and the number of the line that it ends in. -/
structure Lexeme where
  /-- What it is. -/
  kind : LexemeKind
  /-- The number of the line. -/
  line : Nat
  deriving DecidableEq, Repr

/-- Adds a character to a word whose parts are held last one first. -/
def pushChar (w : Word) (c : Char) (quoted : Bool) : Word :=
  match w with
  | .text s q :: rest => if q == quoted then .text (s.push c) q :: rest
    else .text (String.singleton c) quoted :: w
  | w => .text (String.singleton c) quoted :: w

/-! ## The extent of a substitution -/

/-- The text up to a closing quote, and what follows the quote. -/
def scanSingle : List Char → Option (List Char × List Char)
  | [] => none
  | c :: cs =>
    if c == '\'' then some ([], cs) else (scanSingle cs).map fun (t, rest) => (c :: t, rest)

/-- The text up to a backquote that has no backslash in front, and what follows it. -/
def scanBackquoted : List Char → Option (List Char × List Char)
  | [] => none
  | '\\' :: c :: cs => (scanBackquoted cs).map fun (t, rest) => ('\\' :: c :: t, rest)
  | c :: cs =>
    if c == '`' then some ([], cs) else (scanBackquoted cs).map fun (t, rest) => (c :: t, rest)

/-- The words behind which a command starts. -/
def leadingWords : List String :=
  ["then", "do", "else", "elif", "if", "while", "until", "!", "\x7b"]

/-- What is known of a script that is being skipped. -/
structure Skipping where
  /-- The number of parentheses that are open. -/
  depth : Nat
  /-- The depths at which selections have been opened, the innermost first. -/
  selections : List Nat
  /-- Whether a command can start here. -/
  starts : Bool
  /-- Whether a word can start here. -/
  fresh : Bool

/-- What is known behind a word. -/
def Skipping.behindWord (k : Skipping) (word : String) : Skipping :=
  if !k.starts then { k with fresh := false }
  else if word == "case" then
    { k with selections := k.depth :: k.selections, starts := false, fresh := false }
  else if word == "esac" then
    { k with selections := k.selections.tail, starts := false, fresh := false }
  else { k with starts := leadingWords.contains word, fresh := false }

/-- What is known behind a separator. -/
def Skipping.behindSeparator (k : Skipping) : Skipping := { k with starts := true, fresh := true }

mutual

/-- The text up to the parenthesis that closes a substitution, and what follows it. -/
def scanScript (fuel : Nat) (k : Skipping) (cs : List Char) : Option (List Char × List Char) :=
  match fuel, cs with
  | 0, _ => none
  | _, [] => none
  | fuel + 1, c :: cs =>
    let onward (k : Skipping) (inside rest : List Char) :=
      (scanScript fuel k rest).map fun (t, rest) => (inside ++ t, rest)
    let within (opening : List Char) (closer : Char) (found : Option (List Char × List Char)) :=
      found.bind fun (inside, rest) =>
        onward { k with starts := false, fresh := false } (opening ++ inside ++ [closer]) rest
    match c, cs with
    | '\\', d :: cs => onward { k with starts := false, fresh := false } [c, d] cs
    | '\'', cs => within [c] '\'' (scanSingle cs)
    | '"', cs => within [c] '"' (scanDouble fuel cs)
    | '$', '(' :: cs => within [c, '('] ')' (scanScript fuel ⟨0, [], true, true⟩ cs)
    | '$', '\x7b' :: cs => within [c, '\x7b'] '\x7d' (scanBraces fuel cs)
    | '(', cs => onward { k.behindSeparator with depth := k.depth + 1 } [c] cs
    | ')', cs =>
      if k.selections.head? == some k.depth then onward k.behindSeparator [c] cs
      else if k.depth = 0 then some ([], cs)
      else onward { k.behindSeparator with depth := k.depth - 1, starts := false } [c] cs
    | '#', cs =>
      if k.fresh then
        let comment := cs.takeWhile (· != '\n')
        onward k (c :: comment) (cs.drop comment.length)
      else onward k [c] cs
    | c, cs =>
      if c == '`' then within [c] '`' (scanBackquoted cs)
      else if c == ' ' || c == '\t' then onward { k with fresh := true } [c] cs
      else if c == ';' || c == '&' || c == '|' || c == '\n' then onward k.behindSeparator [c] cs
      else
        let isWord (d : Char) : Bool := Text.isNameStart d || d == '!' || d == '\x7b'
        if k.fresh && isWord c then
          let word := c :: cs.takeWhile fun d => Text.isNameStart d || Text.isDigit d
          onward (k.behindWord (String.ofList word)) word (cs.drop (word.length - 1))
        else onward { k with starts := false, fresh := false } [c] cs

/-- The text up to the closing double quote, and what follows it. -/
def scanDouble (fuel : Nat) (cs : List Char) : Option (List Char × List Char) :=
  match fuel, cs with
  | 0, _ => none
  | _, [] => none
  | fuel + 1, c :: cs =>
    let onward (inside rest : List Char) :=
      (scanDouble fuel rest).map fun (t, rest) => (inside ++ t, rest)
    let within (opening : List Char) (closer : Char) (found : Option (List Char × List Char)) :=
      found.bind fun (inside, rest) => onward (opening ++ inside ++ [closer]) rest
    match c, cs with
    | '"', cs => some ([], cs)
    | '\\', d :: cs => onward [c, d] cs
    | '$', '(' :: cs => within [c, '('] ')' (scanScript fuel ⟨0, [], true, true⟩ cs)
    | '$', '\x7b' :: cs => within [c, '\x7b'] '\x7d' (scanBraces fuel cs)
    | c, cs => if c == '`' then within [c] '`' (scanBackquoted cs) else onward [c] cs

/-- The text up to the closing brace, and what follows it. -/
def scanBraces (fuel : Nat) (cs : List Char) : Option (List Char × List Char) :=
  match fuel, cs with
  | 0, _ => none
  | _, [] => none
  | fuel + 1, c :: cs =>
    let onward (inside rest : List Char) :=
      (scanBraces fuel rest).map fun (t, rest) => (inside ++ t, rest)
    let within (opening : List Char) (closer : Char) (found : Option (List Char × List Char)) :=
      found.bind fun (inside, rest) => onward (opening ++ inside ++ [closer]) rest
    match c, cs with
    | '\x7d', cs => some ([], cs)
    | '\\', d :: cs => onward [c, d] cs
    | '\'', cs => within [c] '\'' (scanSingle cs)
    | '"', cs => within [c] '"' (scanDouble fuel cs)
    | '$', '(' :: cs => within [c, '('] ')' (scanScript fuel ⟨0, [], true, true⟩ cs)
    | '$', '\x7b' :: cs => within [c, '\x7b'] '\x7d' (scanBraces fuel cs)
    | c, cs => if c == '`' then within [c] '`' (scanBackquoted cs) else onward [c] cs

end

/-- The text of a substitution behind its opening parenthesis, and what follows it. -/
def scanSubstitution (cs : List Char) : Option (List Char × List Char) :=
  scanScript (cs.length + 1) ⟨0, [], true, true⟩ cs

/-- The text of an arithmetic expression behind its opening parentheses, and what follows it. -/
def scanArithmetic (fuel depth : Nat) (cs : List Char) : Option (List Char × List Char) :=
  match fuel, cs with
  | 0, _ => none
  | _, [] => none
  | fuel + 1, c :: cs =>
    let onward (depth : Nat) (inside rest : List Char) :=
      (scanArithmetic fuel depth rest).map fun (t, rest) => (inside ++ t, rest)
    match c, cs with
    | '$', '(' :: cs => (scanSubstitution cs).bind fun (inside, rest) =>
        onward depth ('$' :: '(' :: inside ++ [')']) rest
    | '(', cs => onward (depth + 1) [c] cs
    | ')', cs =>
      if 0 < depth then onward (depth - 1) [c] cs
      else
        match cs with
        | ')' :: rest => some ([], rest)
        | _ => none
    | c, cs => onward depth [c] cs

/-! ## Parameters and substitutions -/

/-- Whether a character is a parameter by itself. -/
def isSpecial (c : Char) : Bool := "@*#?$!-".toList.contains c || Text.isDigit c

/-- The name of the parameter at the start of the inside of braces. -/
def paramName (cs : List Char) : List Char :=
  match cs with
  | c :: rest =>
    if Text.isDigit c then c :: rest.takeWhile Text.isDigit
    else if isSpecial c then [c]
    else Text.takeName cs
  | [] => []

/-- What stands behind the name of a parameter between braces. -/
def ParamUse.ofText : List Char → ParamUse
  | [] => .value
  | ':' :: '-' :: other => .orElse true false (String.ofList other)
  | '-' :: other => .orElse false false (String.ofList other)
  | ':' :: '=' :: other => .orElse true true (String.ofList other)
  | '=' :: other => .orElse false true (String.ofList other)
  | ':' :: '+' :: other => .instead true (String.ofList other)
  | '+' :: other => .instead false (String.ofList other)
  | ':' :: '?' :: message => .required true (String.ofList message)
  | '?' :: message => .required false (String.ofList message)
  | '#' :: '#' :: pattern => .without false true (String.ofList pattern)
  | '#' :: pattern => .without false false (String.ofList pattern)
  | '%' :: '%' :: pattern => .without true true (String.ofList pattern)
  | '%' :: pattern => .without true false (String.ofList pattern)
  | _ => .unknown

/-- The parameter between braces. -/
def readParam (quoted : Bool) (inner : List Char) : Part :=
  let plain (inner : List Char) : Part :=
    match paramName inner with
    | [] => .param "" .unknown quoted
    | name => .param (String.ofList name) (ParamUse.ofText (inner.drop name.length)) quoted
  match inner with
  | '#' :: c :: cs =>
    let name := paramName (c :: cs)
    if !name.isEmpty && name.length = cs.length + 1 then
      .param (String.ofList name) .length quoted
    else plain inner
  | inner => plain inner

/-- What is found behind a dollar sign: a part and the rest, nothing of its own, or an error. -/
abbrev DollarResult := Except String (Option (Part × List Char))

/-- Reads a part behind a dollar sign, if there is one. The line of a script is told by the number
of line breaks from its start on. -/
def readDollar (quoted : Bool) (cs : List Char) : DollarResult :=
  match cs with
  | '(' :: '(' :: inner =>
    match scanArithmetic (inner.length + 1) 0 inner with
    | some (t, rest) => .ok (some (.number (String.ofList t) quoted, rest))
    | none => .error "Missing '))'"
  | '(' :: inner =>
    match scanSubstitution inner with
    | some (t, rest) =>
      .ok (some (.output (String.ofList t) (some (inner.count '\n')) quoted, rest))
    | none => .error "end of file unexpected (expecting \")\")"
  | '\x7b' :: inner =>
    match scanBraces (inner.length + 1) inner with
    | some (t, rest) => .ok (some (readParam quoted t, rest))
    | none => .error "Missing '\x7d'"
  | c :: cs =>
    if isSpecial c then .ok (some (.param (String.singleton c) .value quoted, cs))
    else
      match Text.takeName (c :: cs) with
      | [] => .ok none
      | name => .ok (some (.param (String.ofList name) .value quoted, Text.dropName (c :: cs)))
  | [] => .ok none

/-- The script between backquotes. A backslash in front of a backquote, a dollar sign or a backslash
does not count, and with `quoted` in front of a double quote. -/
def unquoteScript (quoted : Bool) : List Char → List Char
  | [] => []
  | '\\' :: c :: cs =>
    if "$`\\".toList.contains c || (quoted && c == '"') then c :: unquoteScript quoted cs
    else '\\' :: c :: unquoteScript quoted cs
  | c :: cs => c :: unquoteScript quoted cs

/-- Reads a script between backquotes, behind the first one. -/
def readBackquoted (quoted : Bool) (cs : List Char) : Except String (Part × List Char) :=
  match scanBackquoted cs with
  | some (t, rest) => .ok (.output (String.ofList (unquoteScript quoted t)) none quoted, rest)
  | none => .error "EOF in backquote substitution"

/-! ## Quoted text -/

/-- Where a quoted text ends, and what double quotes mean in it. -/
inductive QuoteKind where
  /-- It ends with a double quote. -/
  | double
  /-- It is a whole text, in which double quotes stand for themselves. -/
  | here
  /-- It is a whole text, in which double quotes do not count. -/
  | other
  deriving DecidableEq, Repr

/-- Reads a quoted text into a word. -/
def readQuoted (kind : QuoteKind) (fuel : Nat) (w : Word) (cs : List Char) :
    Except String (Word × List Char) :=
  let unterminated := "Unterminated quoted string"
  match fuel, cs with
  | 0, _ => .error unterminated
  | _, [] => if kind = .double then .error unterminated else .ok (w, [])
  | fuel + 1, c :: cs =>
    if c == '"' && kind = .double then .ok (w, cs)
    else if c == '"' && kind = .other then readQuoted kind fuel w cs
    else if c == '\\' then
      match cs with
      | '\n' :: cs => readQuoted kind fuel w cs
      | d :: rest =>
        if "$`\\".toList.contains d || (d == '"' && kind ≠ .here) ||
            (d == '\x7d' && kind = .other) then
          readQuoted kind fuel (pushChar w d true) rest
        else readQuoted kind fuel (pushChar w c true) cs
      | [] => readQuoted kind fuel (pushChar w c true) []
    else if c == '$' then do
      match ← readDollar true cs with
      | some (p, rest) => readQuoted kind fuel (p :: w) rest
      | none => readQuoted kind fuel (pushChar w c true) cs
    else if c == '`' then do
      let (p, rest) ← readBackquoted (kind ≠ .here) cs
      readQuoted kind fuel (p :: w) rest
    else readQuoted kind fuel (pushChar w c true) cs

/-- Reads a whole text outside of quotes into a word, such as the pattern of a parameter. Blanks and
operators stand for themselves. -/
def readUnquoted (fuel : Nat) (w : Word) (cs : List Char) : Except String Word :=
  match fuel, cs with
  | 0, _ => .ok w
  | _, [] => .ok w
  | fuel + 1, c :: cs =>
    match c, cs with
    | '\\', '\n' :: cs => readUnquoted fuel w cs
    | '\\', d :: cs => readUnquoted fuel (pushChar w d true) cs
    | '\'', cs => do
      match scanSingle cs with
      | some (t, rest) => readUnquoted fuel (.text (String.ofList t) true :: w) rest
      | none => throw "Unterminated quoted string"
    | '"', cs => do
      let (w, rest) ← readQuoted .double (cs.length + 1) (.text "" true :: w) cs
      readUnquoted fuel w rest
    | '$', cs => do
      match ← readDollar false cs with
      | some (p, rest) => readUnquoted fuel (p :: w) rest
      | none => readUnquoted fuel (pushChar w '$' false) cs
    | c, cs =>
      if c == '`' then do
        let (p, rest) ← readBackquoted false cs
        readUnquoted fuel (p :: w) rest
      else readUnquoted fuel (pushChar w c false) cs

/-- The word of a text that is quoted as a whole. -/
def Word.ofQuoted (kind : QuoteKind) (text : String) : Except String Word :=
  (readQuoted kind (text.length + 1) [] text.toList).map fun (w, _) =>
    Word.withLines (fun _ => 0) w.reverse

/-- The word of a text outside of quotes. -/
def Word.ofText (text : String) : Except String Word :=
  (readUnquoted (text.length + 1) [] text.toList).map fun w =>
    Word.withLines (fun _ => 0) w.reverse

/-! ## Here-documents -/

/-- Splits a text behind its first line; the line break belongs to neither part. -/
def cutLine (cs : List Char) : List Char × List Char :=
  (cs.takeWhile (· != '\n'), (cs.dropWhile (· != '\n')).drop 1)

/-- The lines up to one that is `mark`, and what follows that line. With `tabs`, tabs at the start
of a line are dropped. -/
def linesUpTo (fuel : Nat) (tabs : Bool) (mark cs : List Char) : List Char × List Char :=
  match fuel, cs with
  | 0, _ => ([], cs)
  | _, [] => ([], [])
  | fuel + 1, cs =>
    let (line, rest) := cutLine cs
    let line := if tabs then line.dropWhile (· == '\t') else line
    if line == mark then ([], rest)
    else
      let (more, rest) := linesUpTo fuel tabs mark rest
      (line ++ '\n' :: more, rest)

/-- Whether a character ends the mark of a here-document. -/
def endsMark (c : Char) : Bool := " \t\n;&|<>()".toList.contains c

/-- Reads a here-document behind its operator: its text as a word, and the script without it. -/
def readHere (cs : List Char) : Except String (Word × List Char) := do
  let (tabs, cs) := match cs with
    | '-' :: cs => (true, cs)
    | cs => (false, cs)
  let cs := cs.dropWhile fun c => c == ' ' || c == '\t'
  let spelled := cs.takeWhile fun c => !endsMark c
  let isQuote (c : Char) : Bool := c == '\'' || c == '"' || c == '\\'
  let (line, below) := cutLine (cs.dropWhile fun c => !endsMark c)
  let (body, rest) := linesUpTo (below.length + 1) tabs (spelled.filter fun c => !isQuote c) below
  let word ← if spelled.any isQuote then pure [Part.text (String.ofList body) true]
    else Word.ofQuoted .here (String.ofList body)
  return (word, line ++ '\n' :: rest)

/-! ## Scripts -/

/-- The tokens of a word that is complete and ends in a line, in a script with `total` lines. -/
def finished (total line : Nat) (word : Option Word) : List Lexeme :=
  match word with
  | some w => [⟨.word (Word.withLines (fun below => total - below) w.reverse), line⟩]
  | none => []

/-- The stream whose number is a word. -/
def streamNumber? : Option Word → Option Nat
  | some [.text s false] => if s.length = 1 then Text.digits? s.toList else none
  | _ => none

/-- The tokens of the end of a script with `total` lines, where `word` is the word that is being
read. -/
def lexFrom (total : Nat) (fuel : Nat) (word : Option Word) (cs : List Char) : List Lexeme :=
  let line := total - cs.count '\n'
  let ended := finished total line word
  match fuel, cs with
  | 0, _ => [⟨.finish, total⟩]
  | _, [] => ended ++ [⟨.finish, total⟩]
  | fuel + 1, c :: cs =>
    let fail (message : String) : List Lexeme := [⟨.bad message, total⟩]
    let goOn (w : Word) (cs : List Char) := lexFrom total fuel (some w) cs
    let emit (s : String) (cs : List Char) :=
      ended ++ ⟨.operator s, total - cs.count '\n'⟩ :: lexFrom total fuel none cs
    let redirect (default : Nat) (kind : RedirectKind) (cs : List Char) :=
      match streamNumber? word with
      | some n => ⟨.redirect n kind, line⟩ :: lexFrom total fuel none cs
      | none => ended ++ ⟨.redirect default kind, line⟩ :: lexFrom total fuel none cs
    let w := word.getD []
    match c, cs with
    | ' ', cs | '\t', cs => ended ++ lexFrom total fuel none cs
    | '\n', cs => emit "\n" cs
    | ';', ';' :: cs => emit ";;" cs
    | ';', cs => emit ";" cs
    | '&', '&' :: cs => emit "&&" cs
    | '&', cs => emit "&" cs
    | '|', '|' :: cs => emit "||" cs
    | '|', cs => emit "|" cs
    | '(', cs => emit "(" cs
    | ')', cs => emit ")" cs
    | '>', '>' :: cs => redirect 1 .append cs
    | '>', '&' :: cs => redirect 1 .duplicate cs
    | '>', '|' :: cs => redirect 1 .overwrite cs
    | '>', cs => redirect 1 .write cs
    | '<', '<' :: cs =>
      match readHere cs with
      | .error message => ended ++ fail message
      | .ok (body, cs) =>
        match redirect 0 .here cs with
        | first :: rest => first :: ⟨.word body, line⟩ :: rest
        | [] => []
    | '<', '&' :: cs => redirect 0 .duplicate cs
    | '<', '>' :: cs => redirect 0 .both cs
    | '<', cs => redirect 0 .read cs
    | '\\', '\n' :: cs => lexFrom total fuel word cs
    | '\\', d :: cs => goOn (pushChar w d true) cs
    | '\'', cs =>
      match scanSingle cs with
      | some (inner, rest) => goOn (.text (String.ofList inner) true :: w) rest
      | none => fail "Unterminated quoted string"
    | '"', cs =>
      match readQuoted .double fuel (.text "" true :: w) cs with
      | .ok (w, rest) => goOn w rest
      | .error message => fail message
    | '$', cs =>
      match readDollar false cs with
      | .ok (some (p, rest)) => goOn (p :: w) rest
      | .ok none => goOn (pushChar w '$' false) cs
      | .error message => fail message
    | '#', cs =>
      if word.isNone then lexFrom total fuel none (cs.dropWhile (· != '\n'))
      else goOn (pushChar w '#' false) cs
    | c, cs =>
      if c == '`' then
        match readBackquoted false cs with
        | .ok (p, rest) => goOn (p :: w) rest
        | .error message => fail message
      else goOn (pushChar w c false) cs

/-- The tokens of a script. -/
def lex (source : String) : List Lexeme :=
  lexFrom (source.toList.count '\n' + 1) (source.length + 1) none source.toList

end ProofScript.Shell
