import ProofScript.Shell.Lexeme

/-!
# Commands of shell scripts

The commands of a shell script, read from its words and operators. A word has the meaning of a
reserved word only where a command starts, and only when it is written without quotes. A script is
read line by line, so that the lines in front of one that does not follow the grammar still count.
-/

namespace ProofScript.Shell

/-! ## Tokens -/

/-- The text of a word without quotes and parameters. -/
def bare? (t : Lexeme) : Option String :=
  match t.kind with
  | .word [.text s false] => some s
  | _ => none

/-- The words that are reserved where a command starts. -/
def reservedWords : List String :=
  ["!", "case", "do", "done", "elif", "else", "esac", "fi", "for", "if", "in", "then", "until",
    "while", "\x7b", "\x7d"]

/-- The reserved words that end a list of commands. -/
def closers : List String := ["then", "else", "elif", "fi", "do", "done", "esac", "\x7d"]

/-- The reserved word that a token is. -/
def reserved? (t : Lexeme) : Option String :=
  (bare? t).bind fun s => if reservedWords.contains s then some s else none

/-- Whether a token is the operator `s`. -/
def Lexeme.isOperator (t : Lexeme) (s : String) : Bool := t.kind == .operator s

/-- Whether a token is the reserved word `s`. -/
def Lexeme.isReserved (t : Lexeme) (s : String) : Bool := reserved? t == some s

/-- Whether a token ends a list of commands. -/
def Lexeme.endsList (t : Lexeme) : Bool :=
  match t.kind with
  | .operator s => s == ")" || s == ";;"
  | .finish | .bad _ => true
  | _ => (reserved? t).any closers.contains

/-- How a token is named in a message, where reserved words count with `reserving`. -/
def Lexeme.name (t : Lexeme) (reserving : Bool) : String :=
  match t.kind with
  | .finish => "end of file"
  | .operator "\n" => "newline"
  | .operator s => "\"" ++ s ++ "\""
  | .redirect _ _ => "redirection"
  | .bad message => message
  | .word _ =>
    match reserved? t with
    | some s => if reserving then "\"" ++ s ++ "\"" else "word"
    | none => "word"

/-- Why a line does not follow the grammar. -/
structure SyntaxFault where
  /-- The wording. -/
  message : String
  /-- The number of the line in which it shows. -/
  line : Nat
  deriving DecidableEq, Repr

/-- The token at the start; a list of tokens has its end as its last one. -/
def headOf : List Lexeme → Lexeme
  | [] => ⟨.finish, 0⟩
  | t :: _ => t

/-- The fault of a token that must not stand where it does. -/
def unexpected (ts : List Lexeme) (reserving : Bool) (expecting : String) : SyntaxFault :=
  let t := headOf ts
  let message := match t.kind with
    | .bad message => message
    | _ => t.name reserving ++ " unexpected"
      ++ if expecting.isEmpty then "" else " (expecting " ++ expecting ++ ")"
  ⟨message, t.line⟩

/-- Drops line breaks. -/
def dropBreaks (ts : List Lexeme) : List Lexeme := ts.dropWhile (·.isOperator "\n")

/-- Drops a reserved word that has to stand at the start. -/
def dropReserved (s : String) (ts : List Lexeme) : Except SyntaxFault (List Lexeme) :=
  if (headOf ts).isReserved s then .ok (ts.drop 1)
  else .error (unexpected ts true ("\"" ++ s ++ "\""))

/-- Drops an operator that has to stand at the start. -/
def dropOperator (s : String) (ts : List Lexeme) : Except SyntaxFault (List Lexeme) :=
  if (headOf ts).isOperator s then .ok (ts.drop 1)
  else .error (unexpected ts true ("\"" ++ s ++ "\""))

/-! ## Simple commands -/

/-- The assignment that a word is, if it is one. -/
def assignment? : Word → Option (String × Word)
  | .text s false :: parts =>
    let cs := s.toList
    let name := cs.takeWhile (· != '=')
    match cs.dropWhile (· != '=') with
    | _ :: value =>
      if Text.isName name then
        let parts := if value.isEmpty then parts else .text (String.ofList value) false :: parts
        some (String.ofList name, parts)
      else none
    | [] => none
  | _ => none

/-- Reads the target of a redirection. -/
def readTarget (stream : Nat) (kind : RedirectKind) (ts : List Lexeme) :
    Except SyntaxFault (Redirect × List Lexeme) :=
  match (headOf ts).kind with
  | .word target => .ok (⟨stream, kind, target⟩, ts.drop 1)
  | _ => .error (unexpected ts false "")

/-- Reads the redirections at the start of some tokens. -/
def readRedirects (fuel : Nat) (ts : List Lexeme) :
    Except SyntaxFault (List Redirect × List Lexeme) :=
  match fuel, (headOf ts).kind with
  | 0, _ => .ok ([], ts)
  | fuel + 1, .redirect stream kind => do
    let (r, ts) ← readTarget stream kind (ts.drop 1)
    let (rs, ts) ← readRedirects fuel ts
    return (r :: rs, ts)
  | _, _ => .ok ([], ts)

/-- What a simple command consists of. -/
structure SimpleParts where
  /-- The assignments. -/
  assignments : List (String × Word)
  /-- The words behind them. -/
  words : List Word
  /-- The redirections, which can stand anywhere. -/
  redirects : List Redirect

/-- Reads the parts of a simple command. Behind the first word that is none, no word is an
assignment. -/
def readParts (fuel : Nat) (named : Bool) (ts : List Lexeme) :
    Except SyntaxFault (SimpleParts × List Lexeme) :=
  match fuel, (headOf ts).kind with
  | 0, _ => .ok (⟨[], [], []⟩, ts)
  | fuel + 1, .redirect stream kind => do
    let (r, ts) ← readTarget stream kind (ts.drop 1)
    let (parts, ts) ← readParts fuel named ts
    return ({ parts with redirects := r :: parts.redirects }, ts)
  | fuel + 1, .word w =>
    match if named then none else assignment? w with
    | some a => do
      let (parts, ts) ← readParts fuel false (ts.drop 1)
      return ({ parts with assignments := a :: parts.assignments }, ts)
    | none => do
      let (parts, ts) ← readParts fuel true (ts.drop 1)
      return ({ parts with words := w :: parts.words }, ts)
  | _, .bad message => .error ⟨message, (headOf ts).line⟩
  | _, _ => .ok (⟨[], [], []⟩, ts)

/-- Reads the words of a loop up to a separator. -/
def readWords (fuel : Nat) (ts : List Lexeme) : Except SyntaxFault (List Word × List Lexeme) :=
  match fuel, (headOf ts).kind with
  | 0, _ => .ok ([], ts)
  | fuel + 1, .word w => do
    let (ws, ts) ← readWords fuel (ts.drop 1)
    return (w :: ws, ts)
  | _, .operator "\n" | _, .operator ";" => .ok ([], ts.drop 1)
  | _, _ => .error (unexpected ts false "")

/-- Reads the patterns of an arm up to the closing parenthesis. -/
def readPatterns (fuel : Nat) (ts : List Lexeme) : Except SyntaxFault (List Word × List Lexeme) :=
  match fuel, (headOf ts).kind with
  | 0, _ => .ok ([], ts)
  | fuel + 1, .word w =>
    let rest := ts.drop 1
    if (headOf rest).isOperator "|" then do
      let (ws, ts) ← readPatterns fuel (rest.drop 1)
      return (w :: ws, ts)
    else do
      let ts ← dropOperator ")" rest
      return ([w], ts)
  | _, _ => .error (unexpected (if (headOf ts).kind == .finish then ts else ts.drop 1) true "\")\"")

/-- The names of utilities that no function can have. -/
def protectedNames : List String :=
  [".", ":", "break", "continue", "eval", "exec", "exit", "export", "readonly", "return", "set",
    "shift", "times", "trap", "unset"]

/-! ## Commands -/

/-- Reads the separator behind a command, if there is one. -/
def readSeparator (a : Cmd) (ts : List Lexeme) : Cmd × List Lexeme × Bool :=
  if (headOf ts).isOperator "&" then (.background a, ts.drop 1, true)
  else if (headOf ts).isOperator ";" then (a, ts.drop 1, true)
  else (a, ts, false)

mutual

/-- Reads commands up to a token that ends a list. Unless `optional`, there has to be one. -/
def readList (fuel : Nat) (optional : Bool) (ts : List Lexeme) :
    Except SyntaxFault (Cmd × List Lexeme) :=
  match fuel with
  | 0 => .error (unexpected ts true "")
  | fuel + 1 =>
    let ts := dropBreaks ts
    let t := headOf ts
    if t.kind == .finish || (optional && t.endsList) then .ok (.nothing, ts)
    else do
      let (a, ts) ← readChain fuel ts
      let (a, ts, goesOn) := readSeparator a ts
      if goesOn || (headOf ts).isOperator "\n" then
        let (b, ts) ← readList fuel true ts
        return (.sequence a b, ts)
      else return (a, ts)

/-- Reads pipelines that are joined by `&&` and `||`. -/
def readChain (fuel : Nat) (ts : List Lexeme) : Except SyntaxFault (Cmd × List Lexeme) :=
  match fuel with
  | 0 => .error (unexpected ts true "")
  | fuel + 1 => do
    let (a, ts) ← readPipe fuel ts
    readMore fuel a ts

/-- Reads the pipelines that are joined to a command. -/
def readMore (fuel : Nat) (a : Cmd) (ts : List Lexeme) : Except SyntaxFault (Cmd × List Lexeme) :=
  match fuel with
  | 0 => .error (unexpected ts true "")
  | fuel + 1 =>
    if (headOf ts).isOperator "&&" then do
      let (b, ts) ← readPipe fuel (dropBreaks (ts.drop 1))
      readMore fuel (.both a b) ts
    else if (headOf ts).isOperator "||" then do
      let (b, ts) ← readPipe fuel (dropBreaks (ts.drop 1))
      readMore fuel (.either a b) ts
    else .ok (a, ts)

/-- Reads a pipeline, which can be negated. -/
def readPipe (fuel : Nat) (ts : List Lexeme) : Except SyntaxFault (Cmd × List Lexeme) :=
  match fuel with
  | 0 => .error (unexpected ts true "")
  | fuel + 1 =>
    if (headOf ts).isReserved "!" then do
      let (a, ts) ← readStages fuel (ts.drop 1)
      return (.negated a, ts)
    else readStages fuel ts

/-- Reads the commands of a pipeline. -/
def readStages (fuel : Nat) (ts : List Lexeme) : Except SyntaxFault (Cmd × List Lexeme) :=
  match fuel with
  | 0 => .error (unexpected ts true "")
  | fuel + 1 => do
    let (a, ts) ← readCommand fuel ts
    if (headOf ts).isOperator "|" then
      let (b, ts) ← readStages fuel (dropBreaks (ts.drop 1))
      return (.pipe a b, ts)
    else return (a, ts)

/-- Reads one command. -/
def readCommand (fuel : Nat) (ts : List Lexeme) : Except SyntaxFault (Cmd × List Lexeme) :=
  match fuel with
  | 0 => .error (unexpected ts true "")
  | fuel + 1 =>
    let t := headOf ts
    let rest := ts.drop 1
    let close (a : Cmd) (ts : List Lexeme) : Except SyntaxFault (Cmd × List Lexeme) := do
      let (rs, ts) ← readRedirects ts.length ts
      return (.line t.line (a.redirect rs), ts)
    match t.kind, reserved? t with
    | .operator "(", _ => do
      let (a, ts) ← readList fuel false rest
      close (.nested a) (← dropOperator ")" ts)
    | _, some "\x7b" => do
      let (a, ts) ← readList fuel false rest
      close a (← dropReserved "\x7d" ts)
    | _, some "if" => do
      let (a, ts) ← readChoice fuel rest
      close a ts
    | _, some "while" => do
      let (condition, ts) ← readList fuel false rest
      let (body, ts) ← readList fuel false (← dropReserved "do" ts)
      close (.loop false condition body) (← dropReserved "done" ts)
    | _, some "until" => do
      let (condition, ts) ← readList fuel false rest
      let (body, ts) ← readList fuel false (← dropReserved "do" ts)
      close (.loop true condition body) (← dropReserved "done" ts)
    | _, some "for" =>
      match bare? (headOf rest) with
      | some name =>
        if !Text.isName name.toList then .error ⟨"Bad for loop variable", (headOf rest).line⟩
        else do
          let behind := dropBreaks (rest.drop 1)
          let (words, ts) ←
            if (headOf behind).isReserved "in" then readWords ts.length (behind.drop 1)
            else
              let ts := rest.drop 1
              pure ([allArguments], if (headOf ts).isOperator ";" then ts.drop 1 else ts)
          let (body, ts) ← readList fuel false (← dropReserved "do" (dropBreaks ts))
          close (.each name words body) (← dropReserved "done" ts)
      | none => .error ⟨"Bad for loop variable", (headOf rest).line⟩
    | _, some "case" =>
      match (headOf rest).kind with
      | .word w => do
        let (arms, ts) ← readArms fuel (← dropReserved "in" (dropBreaks (rest.drop 1)))
        close (.select w arms) ts
      | _ => .error (unexpected rest true "word")
    | .word [.text name false], none =>
      if (headOf rest).isOperator "(" then do
        if !(headOf (rest.drop 1)).isOperator ")" then
          throw (unexpected (rest.drop 1) false "\")\"")
        if !Text.isName name.toList || protectedNames.contains name then
          throw ⟨"Bad function name", (headOf (rest.drop 1)).line⟩
        let (body, ts) ← readCommand fuel (dropBreaks (rest.drop 2))
        return (.define name body, ts)
      else readSimple ts
    | .word _, none => readSimple ts
    | .redirect _ _, _ => readSimple ts
    | _, _ => .error (unexpected ts true "")

/-- Reads a simple command. -/
def readSimple (ts : List Lexeme) : Except SyntaxFault (Cmd × List Lexeme) := do
  let (parts, rest) ← readParts ts.length false ts
  return (.line (headOf ts).line (.simple parts.assignments parts.words parts.redirects), rest)

/-- Reads a condition, the command that it guards and what follows otherwise. -/
def readChoice (fuel : Nat) (ts : List Lexeme) : Except SyntaxFault (Cmd × List Lexeme) :=
  match fuel with
  | 0 => .error (unexpected ts true "")
  | fuel + 1 => do
    let (condition, ts) ← readList fuel false ts
    let (a, ts) ← readList fuel false (← dropReserved "then" ts)
    if (headOf ts).isReserved "elif" then
      let (b, ts) ← readChoice fuel (ts.drop 1)
      return (.choice condition a b, ts)
    else if (headOf ts).isReserved "else" then
      let (b, ts) ← readList fuel false (ts.drop 1)
      return (.choice condition a b, ← dropReserved "fi" ts)
    else return (.choice condition a .nothing, ← dropReserved "fi" ts)

/-- Reads the arms of a selection. -/
def readArms (fuel : Nat) (ts : List Lexeme) :
    Except SyntaxFault (List (List Word × Cmd) × List Lexeme) :=
  match fuel with
  | 0 => .error (unexpected ts true "")
  | fuel + 1 =>
    let ts := dropBreaks ts
    if (headOf ts).isReserved "esac" then .ok ([], ts.drop 1)
    else do
      let ts := if (headOf ts).isOperator "(" then ts.drop 1 else ts
      let (patterns, ts) ← readPatterns ts.length ts
      let (body, ts) ← readList fuel true ts
      let ts := dropBreaks ts
      if (headOf ts).isReserved "esac" then return ([(patterns, body)], ts.drop 1)
      else
        let (arms, ts) ← readArms fuel (← dropOperator ";;" ts)
        return ((patterns, body) :: arms, ts)

end

/-! ## Lines -/

/-- Reads the commands of one line. -/
def readLine (fuel : Nat) (ts : List Lexeme) : Except SyntaxFault (Cmd × List Lexeme) :=
  match fuel with
  | 0 => .error (unexpected ts true "")
  | fuel + 1 =>
    let t := headOf ts
    if t.kind == .finish then .ok (.nothing, ts)
    else if t.isOperator "\n" then .ok (.nothing, ts.drop 1)
    else do
      let (a, ts) ← readChain (6 * ts.length + 6) ts
      let (a, ts, goesOn) := readSeparator a ts
      let next := headOf ts
      if goesOn || next.isOperator "\n" || next.kind == .finish then
        let (b, ts) ← readLine fuel ts
        return (.sequence a b, ts)
      else throw (unexpected ts true "")

/-- Reads the lines of a script up to one that does not follow the grammar. -/
def readLines (fuel : Nat) (ts : List Lexeme) : Cmd :=
  match fuel with
  | 0 => .nothing
  | fuel + 1 =>
    match readLine (ts.length + 1) ts with
    | .error fault => .line fault.line (.broken ("Syntax error: " ++ fault.message))
    | .ok (a, rest) =>
      if (headOf rest).kind == .finish then a else .sequence a (readLines fuel rest)

/-- Reads a script. -/
def Cmd.ofText (source : String) : Cmd :=
  let ts := lex source
  readLines (ts.length + 1) ts

end ProofScript.Shell
