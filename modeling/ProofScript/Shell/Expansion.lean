import ProofScript.Shell.Arithmetic
import ProofScript.Shell.Lexeme
import ProofScript.Shell.Pattern
import ProofScript.Shell.Process

/-!
# What words stand for

The fields that words stand for. What a parameter or a script yields outside of quotes is split into
fields, and a field with signs of a pattern stands for the paths that match it, if there are any.
-/

namespace ProofScript.Shell

/-- The characters of a field, and whether each was quoted. -/
abbrev Field := List (Char × Bool)

/-- The text of a field. -/
def Field.text (f : Field) : String := String.ofList (f.map Prod.fst)

/-- The fields of a word that is being put together. -/
structure Fields where
  /-- The fields that are complete, last one first. -/
  done : List Field
  /-- The field at the end, last character first, if it has been started. -/
  current : Option Field
  /-- Whether the last field was ended by blanks alone. -/
  loose : Bool
  /-- The characters that end fields. -/
  ends : List Char
  /-- Whether the word is one field. -/
  single : Bool

namespace Fields

/-- No field yet of a word that is split. -/
def start (ends : List Char) : Fields := ⟨[], none, false, ends, false⟩

/-- No field yet of a word that is one field. -/
def whole : Fields := ⟨[], none, false, [], true⟩

/-- Ends the field at the end. -/
def close (f : Fields) : Fields :=
  match f.current with
  | some cs => { f with done := cs.reverse :: f.done, current := none }
  | none => f

/-- Adds a text to the field at the end. -/
def add (f : Fields) (s : String) (quoted : Bool) : Fields :=
  { f with
    current := some (s.toList.foldl (fun cs c => (c, quoted) :: cs) (f.current.getD []))
    loose := false }

/-- Adds a character that may end a field. Blanks end a field together; any other character that
ends fields ends one each. -/
def addChar (f : Fields) (c : Char) : Fields :=
  if !f.ends.contains c then f.add (String.singleton c) false
  else if c == ' ' || c == '\t' || c == '\n' then
    if f.current.isSome then { f.close with loose := true } else f
  else if f.current.isSome then { f.close with loose := false }
  else if f.loose then { f with loose := false }
  else { f with done := [] :: f.done }

/-- Adds a value. -/
def put (f : Fields) (quoted : Bool) (s : String) : Fields :=
  if quoted then f.add s true else s.toList.foldl addChar f

/-- Adds several values, each a field of its own except where they touch the rest of the word. -/
def putAll (f : Fields) (quoted : Bool) : List String → Fields
  | [] => if f.current == some [] then { f with current := none } else f
  | [s] => f.put quoted s
  | s :: rest => putAll (f.put quoted s).close quoted rest

/-- All fields, in order. -/
def toList (f : Fields) : List Field := f.close.done.reverse

/-- All characters, when the word is one field. -/
def joined (f : Fields) : Field := f.toList.flatten

end Fields

/-! ## Parts of words -/

/-- How the script of a substitution is run that starts in a line. -/
abbrev Substitute := (source : String) → (line : Option Nat) → Process → String × Process

/-- Adds the value of a parameter. -/
def putParam (name : String) (quoted : Bool) (f : Fields) (p : Process) : Fields × Process :=
  let values := p.values name
  if p.isSet 'u' && values.isEmpty && name != "@" && name != "*" then
    (f, p.fail (name ++ ": parameter not set"))
  else if f.single then (f.put quoted (p.text name), p)
  else if name == "@" || (name == "*" && !quoted) then (f.putAll quoted values, p)
  else (f.put quoted (p.text name), p)

/-- The other text of a parameter as a word. -/
def otherWord (other : String) (quoted : Bool) : Except String Word :=
  if quoted then Word.ofQuoted .other other else Word.ofText other

/-- The message for a parameter that needs a value. -/
def requiredMessage (name : String) (whenEmpty : Bool) (message : String) : String :=
  name ++ ": " ++ if !message.isEmpty then message
    else if whenEmpty then "parameter not set or null" else "parameter not set"

/-- Gives a parameter a value in a word; only variables can get one. -/
def Process.assignParam (p : Process) (name value : String) : Process :=
  if Text.isName name.toList then p.assign name value else p.fail (name ++ ": bad variable name")

/-- The value of an arithmetic expression. The script ends when there is none. -/
def Process.number? (p : Process) (source : String) : String × Process :=
  match arithmetic p.bindings source with
  | .error fault => ("", p.fail (fault.message source))
  | .ok (n, bindings) =>
    match p.fixed.names.find? fun x => bindings.get? x != p.bindings.get? x with
    | some x => ("", p.fail (x ++ ": is read only"))
    | none => (Text.decimal n, { p with bindings := bindings })

/-- Adds the parts of a word to fields. With `inner`, the word stands in a parameter, so that also
its text is split. -/
def expandParts (run : Substitute) (fuel : Nat) (inner : Bool) (w : Word) (f : Fields)
    (p : Process) : Fields × Process :=
  match fuel, w with
  | 0, _ => (f, p)
  | _, [] => (f, p)
  | fuel + 1, part :: parts =>
    let other (w : Except String Word) (f : Fields) : Fields × Process :=
      match w with
      | .ok w => expandParts run fuel true w f p
      | .error message => (f, p.fail ("Syntax error: " ++ message))
    let (f, p) : Fields × Process := match part with
      | .text s quoted => (if quoted || !inner then f.add s quoted else f.put false s, p)
      | .output source line quoted =>
        let (s, p) := run source line p
        (f.put quoted s, p)
      | .number source quoted =>
        let (g, p) := other (Word.ofQuoted .other source) Fields.whole
        if p.flow != .onward then (f, p)
        else
          let (n, p) := p.number? g.joined.text
          (f.put quoted n, p)
      | .param name use quoted =>
        match use with
        | .value => putParam name quoted f p
        | .length =>
          if p.isSet 'u' && (p.values name).isEmpty then putParam name quoted f p
          else (f.put quoted (p.text name).length.repr, p)
        | .orElse whenEmpty assigns text =>
          if p.has whenEmpty name then putParam name quoted f p
          else if assigns then
            let (g, p) := other (otherWord text quoted) Fields.whole
            let value := g.joined.text
            if p.flow != .onward then (f, p) else (f.put quoted value, p.assignParam name value)
          else other (otherWord text quoted) f
        | .instead whenEmpty text =>
          if p.has whenEmpty name then other (otherWord text quoted) f else (f, p)
        | .required whenEmpty text =>
          if p.has whenEmpty name then putParam name quoted f p
          else
            let (g, p) := other (otherWord text quoted) Fields.whole
            if p.flow != .onward then (f, p)
            else (f, p.fail (requiredMessage name whenEmpty g.joined.text))
        | .without atEnd longest text =>
          if p.isSet 'u' && (p.values name).isEmpty then putParam name quoted f p
          else
            let (g, p) := other (Word.ofText text) Fields.whole
            let pattern := g.joined
            let r := wordPattern (pattern.length + 1) pattern
            (f.put quoted (String.ofList (withoutMatch atEnd longest r (p.text name).toList)), p)
        | .unknown => (f, p.fail "Bad substitution")
    if p.flow != .onward then (f, p) else expandParts run fuel inner parts f p

/-- The number of parts, one inside of the other, after which a word is given up. -/
def maxParts : Nat := 2000

/-- A word with the name of the home directory at its start. -/
def Word.atHome (p : Process) (w : Word) : Word :=
  match w, p.bindings.get? "HOME" with
  | .text s false :: parts, some home =>
    match s.toList with
    | '~' :: cs =>
      if cs.head? == some '/' || (cs.isEmpty && parts.isEmpty) then
        .text home true :: .text (String.ofList cs) false :: parts
      else w
    | _ => w
  | w, _ => w

/-- A text with the name of the home directory behind each colon. With `isLast`, nothing follows
it. -/
def withHomes (home : String) (isLast : Bool) (s : String) : String :=
  match s.splitOn ":" with
  | [] => s
  | first :: rest =>
    let own (i : Nat) (piece : String) : String :=
      let ends := i + 1 < rest.length || isLast
      if (piece == "~" && ends) || piece.startsWith "~/" then
        home ++ String.ofList (piece.toList.drop 1)
      else piece
    ":".intercalate (first :: rest.mapIdx own)

/-- The value of a variable with the name of the home directory at its start and behind colons. -/
def Word.atHomes (p : Process) (w : Word) : Word :=
  let count := w.length
  let parts := w.mapIdx fun i part =>
    match part, p.bindings.get? "HOME" with
    | .text s false, some home => Part.text (withHomes home (i + 1 == count) s) false
    | part, _ => part
  Word.atHome p parts

/-- The characters of the one field that a word stands for. -/
def expandField (run : Substitute) (w : Word) (p : Process) : Field × Process :=
  let (f, p) := expandParts run maxParts false (w.atHome p) Fields.whole p
  (f.joined, p)

/-- The one text that a word stands for. -/
def expandText (run : Substitute) (w : Word) (p : Process) : String × Process :=
  let (f, p) := expandField run w p
  (f.text, p)

/-! ## Paths -/

/-- Whether a field holds signs of a pattern. -/
def Field.isWild (f : Field) : Bool := f.any fun (c, quoted) => !quoted && "*?[".toList.contains c

/-- The names in a directory that a part of a path matches. A name that starts with a dot is matched
only by a dot. -/
def matchingNames (w : Workspace) (dir : String) (part : Field) : List String :=
  let own := ((w.find (if dir.isEmpty then "." else decode dir)).toOption).elim [] fun (p, e) =>
    if e = .directory then (w.names p).map encode else []
  let dotted := part.head?.any fun c => c.1 == '.'
  let r := wordPattern (part.length + 1) part
  ((if dotted then [".", ".."] else []) ++ own).filter fun name =>
    r.matchesAll name.toList && (!name.startsWith "." || dotted)

/-- The paths that start with `dir` and go on as parts say. -/
def matchingPaths (w : Workspace) : List Field → (dir : String) → List String
  | [], dir => if (w.findLink (decode dir)).toBool then [dir] else []
  | part :: parts, dir =>
    let names := if part.isWild then matchingNames w dir part else [part.text]
    names.flatMap fun name =>
      matchingPaths w parts (dir ++ if parts.isEmpty then name else name ++ "/")

/-- The texts that a field stands for. -/
def Field.texts (w : Workspace) (f : Field) : List String :=
  if f.isWild then
    match matchingPaths w (Text.pieces (fun c => c.1 == '/') f) "" with
    | [] => [f.text]
    | paths => paths.mergeSort fun a b => a ≤ b
  else [f.text]

/-- The texts that a word stands for. -/
def expandWord (run : Substitute) (w : Word) (p : Process) : List String × Process :=
  let (f, p) := expandParts run maxParts false (w.atHome p) (Fields.start p.fieldEnds.toList) p
  if p.isSet 'f' then (f.toList.map Field.text, p)
  else (f.toList.flatMap (Field.texts p.files), p)

/-- The texts that some words stand for. -/
def expandAll (run : Substitute) : List Word → Process → List String × Process
  | [], p => ([], p)
  | w :: ws, p =>
    let (texts, p) := expandWord run w p
    if p.flow != .onward then (texts, p)
    else
      let (rest, p) := expandAll run ws p
      (texts ++ rest, p)

end ProofScript.Shell
