import ProofScript.NameMap
import ProofScript.Text.Blank
import ProofScript.Text.Lines
import ProofScript.Text.Name

/-!
# Templates

A snippet is a text with placeholders. A placeholder is a dollar sign and a name, where the name may
stand in braces; two dollar signs stand for one. Substitution reads a snippet once from left to
right, so nothing that is inserted is looked at again.

A template file holds named snippets between `START` and `END` lines. Lines that start with the
comment delimiter are dropped, wherever they stand; other lines outside the snippets are ignored.
-/

namespace ProofScript

/-- Why a snippet cannot be filled in, or a template file cannot be read. -/
inductive TemplateFault where
  /-- A placeholder without a value. -/
  | noValue (key : String)
  /-- A placeholder in braces that are not closed. -/
  | unclosedBrace
  /-- A placeholder in braces that is no name. -/
  | badKey (key : String)
  /-- A dollar sign that starts no placeholder. -/
  | bareDollar
  /-- A delimiter line that is neither the start nor the end of a snippet. -/
  | badDelimiter (number : Nat) (line : String)
  /-- A snippet that starts inside another one. -/
  | nested (number : Nat) (name outer : String)
  /-- An end line that belongs to no open snippet. -/
  | strayEnd (number : Nat) (name : String)
  /-- A snippet without an end line. -/
  | unclosed (name : String)
  /-- A snippet that the file does not hold. -/
  | unknown (name : String)
  deriving DecidableEq, Repr

/-- The wording of a fault. -/
def TemplateFault.message : TemplateFault → String
  | noValue key => s!"template has no value for `${key}`"
  | unclosedBrace => "unterminated `$\x7b` placeholder in template"
  | badKey key => "invalid placeholder `$\x7b" ++ key ++ "\x7d` in template"
  | bareDollar => "`$` must be followed by a name or another `$`"
  | badDelimiter number line => s!"line {number.repr}: unrecognized template delimiter `{line}`"
  | nested number name outer => s!"line {number.repr}: snippet `{name}` starts inside `{outer}`"
  | strayEnd number name => s!"line {number.repr}: `END {name}` does not close an open snippet"
  | unclosed name => s!"snippet `{name}` is never closed"
  | unknown name => s!"unknown template snippet `{name}`"

/-! ## Snippets -/

/-- A text with placeholders. -/
structure Snippet where
  /-- The text. -/
  text : String
  deriving DecidableEq, Repr

/-- What a snippet is made of. -/
inductive Piece where
  /-- A character that is copied. -/
  | char (c : Char)
  /-- A placeholder. -/
  | key (name : String)
  /-- A dollar sign that starts no placeholder; nothing follows. -/
  | broken (fault : TemplateFault)
  deriving DecidableEq, Repr

namespace Snippet

/-- The snippet with the given lines. -/
def ofLines (lines : List String) : Snippet := { text := "\n".intercalate lines }

/-- The rest of a list behind its first element that fails `p` is shorter. -/
private theorem length_after_dropWhile {p : Char → Bool} {cs after : List Char} {c : Char}
    (h : cs.dropWhile p = c :: after) : after.length < cs.length := by
  have := (List.dropWhile_suffix (l := cs) p).length_le
  rw [h, List.length_cons] at this
  omega

/-- The pieces of a text. -/
def piecesOf (cs : List Char) : List Piece :=
  match cs with
  | [] => []
  | '$' :: '$' :: rest => .char '$' :: piecesOf rest
  | '$' :: '{' :: rest =>
    match h : rest.dropWhile (· != '}') with
    | [] => [.broken .unclosedBrace]
    | _ :: after =>
      have := length_after_dropWhile h
      let key := rest.takeWhile (· != '}')
      if Text.isName key then .key (String.ofList key) :: piecesOf after
      else [.broken (.badKey (String.ofList key))]
  | '$' :: c :: rest =>
    if Text.isNameStart c then
      have := (List.dropWhile_suffix (l := rest) Text.isNameChar).length_le
      .key (String.ofList (c :: rest.takeWhile Text.isNameChar))
        :: piecesOf (rest.dropWhile Text.isNameChar)
    else [.broken .bareDollar]
  | ['$'] => [.broken .bareDollar]
  | c :: rest => .char c :: piecesOf rest
termination_by cs.length
decreasing_by all_goals simp +arith <;> omega

/-- The pieces of a snippet. -/
def pieces (s : Snippet) : List Piece := piecesOf s.text.toList

/-- The text of a list of pieces, given the values of the placeholders. The first value that is
listed for a name counts. -/
def fill (values : List (String × String)) : List Piece → Except TemplateFault (List Char)
  | [] => .ok []
  | .char c :: rest => do return c :: (← fill values rest)
  | .key name :: rest =>
    match values.lookup name with
    | none => .error (.noValue name)
    | some value => do return value.toList ++ (← fill values rest)
  | .broken fault :: _ => .error fault

/-- Fills in the placeholders of a snippet. -/
def substitute (s : Snippet) (values : List (String × String)) : Except TemplateFault String := do
  return String.ofList (← fill values s.pieces)

end Snippet

/-! ## Template files -/

/-- How the lines of a template file are told apart. -/
structure Delimiters where
  /-- What a comment line starts with. -/
  comment : String
  /-- What the first and the last line of a snippet start with. -/
  snippet : String
  deriving DecidableEq, Repr

/-- The delimiters of files in which two slashes open a comment. -/
def Delimiters.slashes : Delimiters := { comment := "////", snippet := "///<" }

/-- Named snippets. -/
abbrev Templates := NameMap Snippet

namespace Templates

/-- What a line of a template file is. -/
inductive Line where
  /-- A comment. -/
  | comment
  /-- The start of a snippet. -/
  | start (name : String)
  /-- The end of a snippet. -/
  | stop (name : String)
  /-- A delimiter line of another form, or a name that is none. -/
  | bad
  /-- A line of text. -/
  | text
  deriving DecidableEq, Repr

/-- The characters behind a given beginning. -/
def behind? : List Char → List Char → Option (List Char)
  | [], cs => some cs
  | b :: bs, c :: cs => if b = c then behind? bs cs else none
  | _ :: _, [] => none

/-- What a delimiter line is, from the characters behind the delimiter. -/
def Line.ofMarker (cs : List Char) : Line :=
  match cs with
  | ' ' :: cs =>
    match cs.dropWhile (· != ' ') with
    | [] => .bad
    | _ :: name =>
      let marker := String.ofList (cs.takeWhile (· != ' '))
      let name := Text.trimEnd name
      if !Text.isName name then .bad
      else if marker = "START" then .start (String.ofList name)
      else if marker = "END" then .stop (String.ofList name)
      else .bad
  | _ => .bad

/-- What a line is. -/
def Line.classify (delims : Delimiters) (line : String) : Line :=
  let cs := line.toList
  if (behind? delims.comment.toList cs).isSome then .comment
  else
    match behind? delims.snippet.toList cs with
    | some rest => ofMarker rest
    | none => .text

/-- What has been read of a template file. -/
structure Reading where
  /-- The number of the next line. -/
  number : Nat
  /-- The snippets read so far. -/
  done : Templates
  /-- The name and the lines, last one first, of the snippet that is being read. -/
  current : Option (String × List String)

/-- Nothing read yet. -/
def Reading.start : Reading := { number := 1, done := NameMap.empty, current := none }

/-- Reads one line. -/
def Reading.step (delims : Delimiters) (r : Reading) (line : String) :
    Except TemplateFault Reading :=
  let next := { r with number := r.number + 1 }
  match Line.classify delims line, r.current with
  | .comment, _ => .ok next
  | .bad, _ => .error (.badDelimiter r.number line)
  | .start name, none => .ok { next with current := some (name, []) }
  | .start name, some (outer, _) => .error (.nested r.number name outer)
  | .stop name, some (open?, lines) =>
    if open? = name then
      .ok { next with
            done := r.done.insert name (Snippet.ofLines lines.reverse)
            current := none }
    else .error (.strayEnd r.number name)
  | .stop name, none => .error (.strayEnd r.number name)
  | .text, some (name, lines) => .ok { next with current := some (name, line :: lines) }
  | .text, none => .ok next

/-- The snippets of a template file. -/
def ofText (source : String) (delims : Delimiters) : Except TemplateFault Templates := do
  let r ← (Text.lines source).foldlM (Reading.step delims) Reading.start
  match r.current with
  | some (name, _) => throw (.unclosed name)
  | none => return r.done

/-- The snippet with a given name. -/
def find (t : Templates) (name : String) : Except TemplateFault Snippet :=
  match NameMap.get? t name with
  | some s => .ok s
  | none => .error (.unknown name)

end Templates

end ProofScript
