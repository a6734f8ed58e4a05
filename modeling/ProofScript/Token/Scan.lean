import ProofScript.Token
import ProofScript.Text.Name

/-!
# Reading tokens

`Token.scan` cuts a source text into tokens. Blanks and line comments separate tokens and are
otherwise skipped; a name, a number or a blank run extends as far as it can; a verbatim block runs
from three opening braces to the three closing braces that balance them.

One step of the reader is `lexeme?`. It splits the text in front of it into the characters of one
lexeme and the rest (`lexeme?_append`), and a lexeme is never empty, which is why scanning ends.
-/

namespace ProofScript

/-- Why a source text has no tokens. -/
inductive ScanFault where
  /-- A character that starts no token. -/
  | illegalCharacter (c : Char)
  /-- A number above the largest signed 64-bit integer. -/
  | numberOutOfRange
  /-- A verbatim block that is not closed, or is closed by other than three braces in a row. -/
  | unterminatedVerbatim
  deriving DecidableEq, Repr

/-- A fault found while reading tokens, and the text it concerns. -/
structure ScanError where
  /-- What is wrong. -/
  fault : ScanFault
  /-- Where it is wrong. -/
  span : Span
  deriving DecidableEq, Repr

/-- The wording of a fault. -/
def ScanFault.message : ScanFault → String
  | illegalCharacter c => s!"illegal character `{c}`"
  | numberOutOfRange => "integer literal out of range"
  | unterminatedVerbatim => "unterminated verbatim block; expected `\x7d\x7d\x7d`"

/-- The wording of an error, without its place. -/
def ScanError.message (e : ScanError) : String := "lex error: " ++ e.fault.message

namespace Token

/-! ## Classes of characters -/

/-- Whether `c` separates tokens. -/
def isSpace (c : Char) : Bool :=
  c == ' ' || c == '\t' || c == '\r' || c == '\n' || c == '\x0c'

/-- How many bytes a list of characters takes. -/
def width (cs : List Char) : Nat := cs.foldl (fun size c => size + c.utf8Size) 0

/-! ## Verbatim blocks -/

/-- Reads the body of a verbatim block up to the three closing braces that end it. `depth` counts
the braces that are open, the three opening ones included, and `body` holds the characters read so
far, last one first. The result is the body, and the text after the block. -/
def verbatimBody? (depth : Nat) (body : List Char) : List Char → Option (List Char × List Char)
  | [] => none
  | '{' :: cs => verbatimBody? (depth + 1) ('{' :: body) cs
  | '}' :: cs =>
    if depth ≤ 1 then
      match body with
      | '}' :: '}' :: inner => some (inner.reverse, cs)
      | _ => none
    else verbatimBody? (depth - 1) ('}' :: body) cs
  | c :: cs => verbatimBody? depth (c :: body) cs

/-- The three braces that open a verbatim block. -/
def verbatimOpen : List Char := ['{', '{', '{']

/-- The three braces that close a verbatim block. -/
def verbatimClose : List Char := ['}', '}', '}']

/-! ## One lexeme -/

/-- A lexeme at the start of a text. -/
structure Lexeme where
  /-- The token, or nothing for skipped text. -/
  kind : Option Kind
  /-- The characters of the lexeme. -/
  text : List Char
  /-- The characters after the lexeme. -/
  rest : List Char

/-- The name, keyword or nothing that a run of name characters spells. -/
def Kind.ofWord (word : String) : Kind :=
  match Keyword.ofSpelling? word with
  | some k => .keyword k
  | none => .name word

/-- The longest run of characters of one class that starts with `c`. -/
def run (inClass : Char → Bool) (kind : List Char → Option Kind) (c : Char) (cs : List Char) :
    Lexeme :=
  let text := c :: cs.takeWhile inClass
  { kind := kind text, text := text, rest := cs.dropWhile inClass }

/-- Reads the lexeme that starts with `c` and goes on in `cs`. -/
def lexeme? (c : Char) (cs : List Char) : Except ScanFault Lexeme :=
  if isSpace c then
    .ok (run isSpace (fun _ => none) c cs)
  else if Text.isNameStart c then
    .ok (run Text.isNameChar (fun text => some (Kind.ofWord (String.ofList text))) c cs)
  else if Text.isDigit c then
    let text := c :: cs.takeWhile Text.isDigit
    let value := Text.digitsValue text
    if value ≤ Text.maxInt64 then
      .ok { kind := some (.number (Int64.ofNat value)), text := text,
            rest := cs.dropWhile Text.isDigit }
    else .error .numberOutOfRange
  else
    match c, cs with
    | '/', '/' :: _ => .ok (run (· != '\n') (fun _ => none) c cs)
    | '{', '{' :: '{' :: inner =>
      match verbatimBody? 3 [] inner with
      | some (body, rest) =>
        .ok { kind := some (.verbatim (String.ofList body)),
              text := verbatimOpen ++ body ++ verbatimClose, rest := rest }
      | none => .error .unterminatedVerbatim
    | '=', '=' :: rest => .ok { kind := some (.symbol .equal), text := ['=', '='], rest := rest }
    | _, _ =>
      match Symbol.ofChar? c with
      | some s => .ok { kind := some (.symbol s), text := [c], rest := cs }
      | none => .error (.illegalCharacter c)

/-- A verbatim block is its body and the three closing braces. -/
theorem verbatimBody?_append {depth : Nat} {read cs body rest : List Char}
    (h : verbatimBody? depth read cs = some (body, rest)) :
    body ++ verbatimClose ++ rest = read.reverse ++ cs := by
  induction cs generalizing depth read with
  | nil => simp [verbatimBody?] at h
  | cons c cs ih =>
    unfold verbatimBody? at h
    split at h
    · contradiction
    · rename_i heq
      obtain ⟨rfl, rfl⟩ := List.cons.inj heq
      simpa using ih h
    · rename_i heq
      obtain ⟨rfl, rfl⟩ := List.cons.inj heq
      split at h
      · split at h
        · obtain ⟨rfl, rfl⟩ := by simpa using h
          simp [verbatimClose]
        · contradiction
      · simpa using ih h
    · rename_i heq
      obtain ⟨rfl, rfl⟩ := List.cons.inj heq
      simpa using ih h

/-- A lexeme and what follows it are the text that was read. -/
theorem lexeme?_append {c : Char} {cs : List Char} {l : Lexeme} (h : lexeme? c cs = .ok l) :
    l.text ++ l.rest = c :: cs := by
  unfold lexeme? at h
  split at h
  · cases h; simp [run]
  split at h
  · cases h; simp [run]
  split at h
  · dsimp only at h
    split at h
    · cases h; simp
    · contradiction
  split at h
  · cases h; simp [run]
  · split at h
    · rename_i hb
      cases h
      have := verbatimBody?_append hb
      simp only [List.reverse_nil, List.nil_append] at this
      simp [verbatimOpen, ← this]
    · contradiction
  · cases h; simp
  · split at h
    · cases h; simp
    · contradiction

/-- A lexeme holds at least one character. -/
theorem lexeme?_text_ne_nil {c : Char} {cs : List Char} {l : Lexeme}
    (h : lexeme? c cs = .ok l) : l.text ≠ [] := by
  unfold lexeme? at h
  split at h
  · cases h; simp [run]
  split at h
  · cases h; simp [run]
  split at h
  · dsimp only at h
    split at h
    · cases h; simp
    · contradiction
  split at h
  · cases h; simp [run]
  · split at h
    · cases h; simp [verbatimOpen]
    · contradiction
  · cases h; simp
  · split at h
    · cases h; simp
    · contradiction

/-- What follows a lexeme is shorter than the text that was read. -/
theorem lexeme?_rest_lt {c : Char} {cs : List Char} {l : Lexeme} (h : lexeme? c cs = .ok l) :
    l.rest.length < (c :: cs).length := by
  rw [← lexeme?_append h, List.length_append]
  have := List.length_pos_iff.2 (lexeme?_text_ne_nil h)
  omega

/-! ## A whole text -/

/-- The span that an error found at `offset`, in front of the characters `c :: cs`, concerns. -/
def ScanFault.span (offset : Nat) (c : Char) (cs : List Char) : ScanFault → Span
  | .illegalCharacter _ => ⟨offset, c.utf8Size⟩
  | .numberOutOfRange => ⟨offset, width (c :: cs.takeWhile Text.isDigit)⟩
  | .unterminatedVerbatim => ⟨offset, width (c :: cs)⟩

/-- The tokens of the characters from `offset` on, the last one of kind `eof`. -/
def scanFrom (offset : Nat) (cs : List Char) : Except ScanError (List Token) :=
  match cs with
  | [] => .ok [{ kind := .eof, span := ⟨offset, 0⟩ }]
  | c :: cs =>
    match h : lexeme? c cs with
    | .error fault => .error { fault := fault, span := ScanFault.span offset c cs fault }
    | .ok l =>
      have := lexeme?_rest_lt h
      let size := width l.text
      match scanFrom (offset + size) l.rest with
      | .error e => .error e
      | .ok tokens =>
        .ok <| match l.kind with
          | some kind => { kind := kind, span := ⟨offset, size⟩ } :: tokens
          | none => tokens
termination_by cs.length
decreasing_by assumption

/-- The tokens of a source text, the last one of kind `eof`. -/
def scan (source : String) : Except ScanError (List Token) := scanFrom 0 source.toList

end Token

end ProofScript
