import ProofScript.Shell.Copies
import ProofScript.Shell.Format
import ProofScript.Shell.Listing
import ProofScript.Shell.Pattern

/-!
# Looking for files

The utility that walks trees of files and does something with those for which an expression holds.
What is done can change any state, and tells whether it was successful.
-/

namespace ProofScript.Shell

/-- What is done with a file. -/
inductive LookupAction where
  /-- A text is written. -/
  | write (text : String)
  /-- A command is run. -/
  | run (words : List String)
  /-- A command is run at the end for all such paths together. -/
  | collect (words : List String) (path : String)
  /-- The file is removed. -/
  | remove (path : String)
  deriving DecidableEq, Repr

/-- An expression about files. -/
inductive LookupExpr where
  /-- It always holds, or never. -/
  | constant (holds : Bool)
  /-- The name, or with `whole` the path, matches a pattern. -/
  | named (whole caseless : Bool) (pattern : String)
  /-- It is a file of a kind, told by its letter. -/
  | kind (letters : List Char)
  /-- It is empty. -/
  | isEmpty
  /-- Its number of bytes is more than, less than or just this one, in units of some bytes. -/
  | size (order : Ordering) (n unit : Nat)
  /-- It can be executed. -/
  | executable
  /-- Something is done with it. -/
  | action (make : Found → LookupAction)
  /-- What is below it is left out. -/
  | prune
  /-- Nothing more is looked at. -/
  | quit
  /-- An expression does not hold. -/
  | negated (a : LookupExpr)
  /-- Both hold; the second one counts only if the first one holds. -/
  | both (a b : LookupExpr)
  /-- One holds; the second one counts only if the first one does not hold. -/
  | either (a b : LookupExpr)
  /-- The second one holds, whatever the first one does. -/
  | list (a b : LookupExpr)

/-- What an expression says of a file, and the state behind what it does. -/
structure LookupAnswer (σ : Type) where
  /-- Whether it holds. -/
  holds : Bool
  /-- Whether what is below is left out. -/
  pruned : Bool
  /-- Whether nothing more is looked at. -/
  quits : Bool
  /-- The state. -/
  state : σ

namespace LookupExpr

/-- Whether an expression does something with files. -/
def acts : LookupExpr → Bool
  | action _ | quit => true
  | negated a => a.acts
  | both a b | either a b | list a b => a.acts || b.acts
  | _ => false

/-- Whether a text matches a pattern of words. -/
def matchesText (caseless : Bool) (pattern text : String) : Bool :=
  let r := wordPattern (pattern.length + 1) (pattern.toList.map (·, false))
  (if caseless then r.ignoringCase else r).matchesAll text.toList

/-- The letter of a kind of file. -/
def kindOf (e : Entry) : Char :=
  match e with
  | .directory => 'd'
  | .link _ => 'l'
  | .null => 'c'
  | _ => 'f'

/-- Whether an expression that does nothing by itself holds of a file. -/
def holdsOf (s : Scene) (f : Found) : LookupExpr → Bool
  | constant b => b
  | named whole caseless pattern =>
    matchesText caseless pattern (if whole then f.path else lastPart f.path)
  | kind letters => letters.contains (kindOf f.entry)
  | isEmpty =>
    match f.entry with
    | .directory => (s.files.names f.place).isEmpty
    | .file bytes _ => bytes.isEmpty
    | _ => false
  | size order n unit =>
    compare ((Listed.size ⟨f.path, f.place, f.entry⟩ + unit - 1) / unit) n == order
  | executable =>
    match f.entry with
    | .file _ runs => runs
    | .null => false
    | _ => true
  | _ => true

/-- What an expression says of a file, where `act` does something and tells whether it was
successful. -/
def eval {σ : Type} (act : LookupAction → σ → Bool × σ) (s : Scene) (f : Found) :
    LookupExpr → σ → LookupAnswer σ
  | action make, state =>
    let (holds, state) := act (make f) state
    ⟨holds, false, false, state⟩
  | prune, state => ⟨true, true, false, state⟩
  | quit, state => ⟨true, false, true, state⟩
  | negated a, state => let r := a.eval act s f state; { r with holds := !r.holds }
  | both a b, state =>
    let x := a.eval act s f state
    if !x.holds || x.quits then x
    else let y := b.eval act s f x.state; { y with pruned := x.pruned || y.pruned }
  | either a b, state =>
    let x := a.eval act s f state
    if x.holds || x.quits then x
    else let y := b.eval act s f x.state; { y with pruned := x.pruned || y.pruned }
  | list a b, state =>
    let x := a.eval act s f state
    if x.quits then x
    else let y := b.eval act s f x.state; { y with pruned := x.pruned || y.pruned }
  | a, state => ⟨holdsOf s f a, false, false, state⟩

end LookupExpr

/-! ## Walking -/

/-- How trees are walked. -/
structure LookupRequest where
  /-- The paths where walks start. -/
  starts : List String
  /-- The expression. -/
  expr : LookupExpr
  /-- The number of directories below the start up to which files count. -/
  deepest : Option Nat
  /-- The number of directories below the start from which on files count. -/
  shallowest : Nat
  /-- Whether what is below a directory comes first. -/
  innermostFirst : Bool

/-- Walks what is found and what lies below it: whether the walk has ended, and the state behind
it. -/
def walkFound {σ : Type} (act : LookupAction → σ → Bool × σ) (s : Scene) (r : LookupRequest)
    (fuel : Nat) (f : Found) (state : σ) : Bool × σ :=
  match fuel with
  | 0 => (false, state)
  | fuel + 1 =>
    let own (state : σ) : LookupAnswer σ :=
      if r.shallowest ≤ f.depth then r.expr.eval act s f state else ⟨false, false, false, state⟩
    let goesDown := f.entry = .directory && r.deepest.all (f.depth < ·)
    let inner (state : σ) : Bool × σ :=
      if !goesDown then (false, state)
      else (s.files.names f.place).foldl (fun (ended, state) name =>
        match ended, s.files.at? (name :: f.place) with
        | false, some e =>
          walkFound act s r fuel
            ⟨below f.path (encode name), f.depth + 1, name :: f.place, e⟩ state
        | _, _ => (ended, state)) (false, state)
    if r.innermostFirst then
      let (ended, state) := inner state
      if ended then (true, state) else let x := own state; (x.quits, x.state)
    else
      let x := own state
      if x.quits then (true, x.state)
      else if x.pruned then (false, x.state)
      else inner x.state

/-! ## Reading expressions -/

/-- The text of a file in a format. -/
def lookupFormat (f : Found) : List Char → List Char
  | '%' :: c :: cs =>
    let text := match c with
      | 'p' => f.path
      | 'f' => lastPart f.path
      | 'h' => directoryOf f.path
      | 'd' => f.depth.repr
      | 's' => (Listed.size ⟨f.path, f.place, f.entry⟩).repr
      | 'y' => String.singleton (LookupExpr.kindOf f.entry)
      | 'm' => String.ofList ((modeOf f.entry).toList.drop 1)
      | 'l' => match f.entry with
        | .link target => encode target
        | _ => ""
      | '%' => "%"
      | c => String.ofList ['%', c]
    text.toList ++ lookupFormat f cs
  | c :: cs => c :: lookupFormat f cs
  | [] => []

/-- The words of a command up to the one that ends it. -/
def upToEnd : List String → Option (List String × Bool × List String)
  | [] => none
  | ";" :: rest => some ([], false, rest)
  | "\x7b\x7d" :: "+" :: rest => some (["\x7b\x7d"], true, rest)
  | w :: rest => (upToEnd rest).map fun (ws, together, rest) => (w :: ws, together, rest)

/-- The words of a command with a path in the place of a pair of braces. -/
def withPath (words : List String) (path : String) : List String :=
  words.map fun w => path.intercalate (pieces w.length w.toList)
where
  /-- The texts between pairs of braces. -/
  pieces (fuel : Nat) (cs : List Char) : List String :=
    match fuel, Text.cut? ['\x7b', '\x7d'] cs with
    | fuel + 1, some (before, rest) => String.ofList before :: pieces fuel rest
    | _, _ => [String.ofList cs]

/-- A number with a sign that tells how it is compared. -/
def readComparison (cs : List Char) : Ordering × Nat × List Char :=
  let (order, cs) : Ordering × List Char := match cs with
    | '+' :: cs => (.gt, cs)
    | '-' :: cs => (.lt, cs)
    | cs => (.eq, cs)
  (order, Text.digitsValue (cs.takeWhile Text.isDigit), cs.dropWhile Text.isDigit)

/-- Reads a test that has a value, given both. -/
def lookupTest? (name value : String) : Option LookupExpr :=
  match name with
  | "-name" => some (.named false false value)
  | "-iname" => some (.named false true value)
  | "-path" | "-wholename" => some (.named true false value)
  | "-ipath" => some (.named true true value)
  | "-type" => some (.kind (value.toList.filter (· != ',')))
  | "-size" =>
    let (order, n, unit) := readComparison value.toList
    some (.size order n (match unit with
      | ['c'] => 1
      | ['k'] => 1024
      | ['M'] => 1024 * 1024
      | _ => 512))
  | "-newer" | "-mtime" | "-mmin" | "-perm" | "-user" | "-group" => some (.constant true)
  | "-printf" => some (.action fun f =>
      .write (String.ofList (lookupFormat f (unescaped formatStyle value).1.toList)))
  | _ => none

mutual

/-- Reads expressions of which the last one counts, or one of which has to hold. -/
def readLookup (fuel : Nat) (words : List String) : Except String (LookupExpr × List String) :=
  match fuel with
  | 0 => .error "expression too deep"
  | fuel + 1 => do
    let (a, words) ← readLookupBoth fuel words
    match words with
    | "-o" :: rest | "-or" :: rest => do
      let (b, words) ← readLookup fuel rest
      return (.either a b, words)
    | "," :: rest => do
      let (b, words) ← readLookup fuel rest
      return (.list a b, words)
    | words => return (a, words)

/-- Reads expressions which all have to hold. -/
def readLookupBoth (fuel : Nat) (words : List String) :
    Except String (LookupExpr × List String) :=
  match fuel with
  | 0 => .error "expression too deep"
  | fuel + 1 => do
    let (a, words) ← readLookupOne fuel words
    let words := match words with
      | "-a" :: rest | "-and" :: rest => rest
      | words => words
    match words with
    | [] | ")" :: _ | "-o" :: _ | "-or" :: _ | "," :: _ => return (a, words)
    | words => do
      let (b, words) ← readLookupBoth fuel words
      return (.both a b, words)

/-- Reads an expression without operators between expressions. -/
def readLookupOne (fuel : Nat) (words : List String) :
    Except String (LookupExpr × List String) :=
  match fuel, words with
  | 0, _ => .error "expression too deep"
  | _, [] => .ok (.constant true, [])
  | fuel + 1, word :: rest =>
    let print (closing : String) : LookupExpr := .action fun f => .write (f.path ++ closing)
    match word with
    | "!" | "-not" => do
      let (a, words) ← readLookupOne fuel rest
      return (.negated a, words)
    | "(" => do
      let (a, words) ← readLookup fuel rest
      match words with
      | ")" :: rest => return (a, rest)
      | _ => throw ("invalid expression; I was expecting to find a ')' somewhere but did not "
          ++ "see one.")
    | "-print" => .ok (print "\n", rest)
    | "-print0" => .ok (print "\x00", rest)
    | "-delete" => .ok (.action fun f => .remove f.path, rest)
    | "-prune" => .ok (.prune, rest)
    | "-quit" => .ok (.quit, rest)
    | "-true" => .ok (.constant true, rest)
    | "-false" => .ok (.constant false, rest)
    | "-empty" => .ok (.isEmpty, rest)
    | "-executable" => .ok (.executable, rest)
    | "-readable" | "-writable" | "-depth" | "-xdev" | "-follow" => .ok (.constant true, rest)
    | "-maxdepth" | "-mindepth" => .ok (.constant true, rest.drop 1)
    | "-exec" | "-execdir" | "-ok" =>
      match upToEnd rest with
      | some (words, true, rest) =>
        .ok (.action fun f => .collect (words.dropLast) f.path, rest)
      | some (words, false, rest) => .ok (.action fun f => .run (withPath words f.path), rest)
      | none => .error ("missing argument to `" ++ word ++ "'")
    | word =>
      match rest with
      | value :: rest =>
        match lookupTest? word value with
        | some a => .ok (a, rest)
        | none => .error ("unknown predicate `" ++ word ++ "'")
      | [] =>
        if (lookupTest? word "").isSome then .error ("missing argument to `" ++ word ++ "'")
        else .error ("unknown predicate `" ++ word ++ "'")

end

/-- The value behind the last of some words. -/
def valueBehind (name : String) : List String → Option Nat
  | a :: b :: rest =>
    match valueBehind name (b :: rest) with
    | some n => some n
    | none => if a == name then Text.digits? b.toList else none
  | _ => none

/-- Reads the arguments of the utility. -/
def LookupRequest.ofArguments (arguments : List String) : Except String LookupRequest := do
  let arguments := arguments.dropWhile fun a => a == "-H" || a == "-L" || a == "-P"
  let starts := arguments.takeWhile fun a => !(a.startsWith "-" || a == "!" || a == "(")
  let words := arguments.drop starts.length
  let (expr, rest) ← readLookup (4 * words.length + 8) words
  if !rest.isEmpty then throw "invalid expression"
  let expr := if expr.acts then expr
    else .both expr (.action fun f => .write (f.path ++ "\n"))
  return {
    starts := if starts.isEmpty then ["."] else starts
    expr := expr
    deepest := valueBehind "-maxdepth" words
    shallowest := (valueBehind "-mindepth" words).getD 0
    innermostFirst := words.contains "-depth" || words.contains "-delete" }

/-- Does for all starts of walks what is to be done. `complain` is given the messages about those
that are missing. -/
def LookupRequest.walk {σ : Type} (r : LookupRequest) (s : Scene)
    (act : LookupAction → σ → Bool × σ) (complain : String → σ → σ) (state : σ) : σ :=
  (r.starts.foldl (fun (ended, state) path =>
    if ended then (true, state)
    else
      match s.files.findLink (decode path) with
      | .ok (p, e) => walkFound act s r maxDepth ⟨path, 0, p, e⟩ state
      | .error fault => (false, complain ("'" ++ path ++ "': " ++ faultText fault) state))
    (false, state)).2

end ProofScript.Shell
