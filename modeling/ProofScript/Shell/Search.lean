import ProofScript.Shell.Options
import ProofScript.Shell.Pattern
import ProofScript.Shell.Tree

/-!
# Finding lines

The utility that finds the lines of its files, or of its input, which hold a match of a pattern.
-/

namespace ProofScript.Shell

/-- The options for finding lines. -/
def searchTable : OptionTable :=
  { flags := "EFGPivwxclLqsnbohHrRaZzTUIy"
    valued := "efmABC\x01\x02"
    names := [("extended-regexp", 'E'), ("fixed-strings", 'F'), ("basic-regexp", 'G'),
      ("perl-regexp", 'P'), ("ignore-case", 'i'), ("invert-match", 'v'), ("word-regexp", 'w'),
      ("line-regexp", 'x'), ("count", 'c'), ("files-with-matches", 'l'),
      ("files-without-match", 'L'), ("quiet", 'q'), ("silent", 'q'), ("no-messages", 's'),
      ("line-number", 'n'), ("byte-offset", 'b'), ("only-matching", 'o'), ("no-filename", 'h'),
      ("with-filename", 'H'), ("recursive", 'r'), ("dereference-recursive", 'R'), ("text", 'a'),
      ("regexp", 'e'), ("file", 'f'), ("max-count", 'm'), ("after-context", 'A'),
      ("before-context", 'B'), ("context", 'C'), ("label", '\x01'), ("color", '\x02'),
      ("colour", '\x02')]
    status := 2
    anywhere := true
    usage := "Usage: grep [OPTION]... PATTERNS [FILE]...\n" }

/-- How lines are looked for. -/
structure Search.Request where
  /-- The options. -/
  options : Options
  /-- The patterns; a line is found when it holds a match of one of them. -/
  patterns : List Regex
  /-- Whether the name of the source stands in front of what is written. -/
  named : Bool

namespace Search.Request

/-- The expression of a pattern, which a part of a line has to match. -/
def regex (o : Options) (pattern : String) : Regex :=
  let own :=
    if o.last? "EFGP" == some 'F' then
      pattern.toList.foldr (fun c rest => .both (.one (.only c)) rest) Regex.empty
    else .ofText (o.last? "EFGP" == some 'E' || o.has 'P') pattern
  let own := if o.has 'i' || o.has 'y' then own.ignoringCase else own
  if o.has 'x' then .both (.edge .lineStart) (.both own (.edge .lineEnd))
  else if o.has 'w' then .both (.edge .wordEdge) (.both own (.edge .wordEdge))
  else own

/-- Whether a line is found. -/
def finds (r : Search.Request) (line : List Char) : Bool :=
  (r.patterns.any fun x => x.matchesIn line) != r.options.has 'v'

/-- The number that was given for an option. -/
def number? (r : Search.Request) (c : Char) : Option Nat :=
  (r.options.value? c).bind fun v => Text.digits? v.toList

/-- The lines in front of a line that is found, and behind it, that are written too. -/
def around (r : Search.Request) : Nat × Nat :=
  let both := (r.number? 'C').getD 0
  ((r.number? 'B').getD both, (r.number? 'A').getD both)

end Search.Request

/-- The parts of a line that match, from left to right. -/
def matchesOf (rs : List Regex) (fuel : Nat) (s : Spot) : List (List Char) :=
  match fuel, s.rest with
  | 0, _ => []
  | _, [] => []
  | fuel + 1, _ :: _ =>
    let lengths := rs.filterMap fun r => (r.matchAt? s).map fun m => m.spot.offset - s.offset
    match lengths.max? with
    | some (n + 1) => s.rest.take (n + 1) :: matchesOf rs fuel (s.advance (n + 1))
    | _ => matchesOf rs fuel (s.advance 1)

/-- A line of a source that is written. -/
structure Search.Hit where
  /-- The number of the line. -/
  number : Nat
  /-- The number of bytes in front of it. -/
  offset : Nat
  /-- Whether it was found itself. -/
  found : Bool
  /-- The line. -/
  line : List Char

/-- The lines with their numbers, the bytes in front of them and whether they are found. No line is
found behind so many of them. -/
def Search.Request.mark (r : Search.Request) (number offset : Nat) (most : Option Nat) :
    List (List Char) → List Search.Hit
  | [] => []
  | line :: lines =>
    let found := most != some 0 && r.finds (bare line)
    ⟨number, offset, found, line⟩ :: mark r (number + 1) (offset + line.length)
      (if found then most.map (· - 1) else most) lines

namespace Search

/-- The lines that are found or stand near enough to one that is. -/
def near (before after : Nat) (all : List Hit) : List Hit :=
  let numbers := (all.filter Hit.found).map Hit.number
  all.filter fun h => numbers.any fun n => h.number ≤ n + after && n ≤ h.number + before

/-- What stands in front of a line. -/
def heading (r : Request) (name : String) (h : Hit) : String :=
  let mark := if h.found then ":" else "-"
  (if r.named then name ++ mark else "")
    ++ (if r.options.has 'n' then h.number.repr ++ mark else "")
    ++ (if r.options.has 'b' then h.offset.repr ++ mark else "")

/-- Lines with their headings, where dashes stand between those that do not follow each other. -/
def blocks (r : Request) (name : String) (separated : Bool) : (last : Option Nat) → List Hit →
    List String
  | _, [] => []
  | last, h :: hs =>
    let gap := if separated && last.any (· + 1 < h.number) then ["--\n"] else []
    gap ++ (heading r name h ++ String.ofList (ended h.line)) ::
      blocks r name separated (some h.number) hs

/-- Whether the lines of a text are not shown. -/
def isBinary (o : Options) (text : String) : Bool :=
  text.toList.contains '\x00' && !o.has 'a' && !(o.last? "qlLc").isSome

/-- What is written for a source. -/
def report (r : Request) (name text : String) : String :=
  let o := r.options
  let all := r.mark 1 0 (r.number? 'm') (linesOf text.toList)
  let hits := all.filter Hit.found
  if o.has 'q' then ""
  else if o.has 'l' then if hits.isEmpty then "" else name ++ "\n"
  else if o.has 'L' then if hits.isEmpty then name ++ "\n" else ""
  else if o.has 'c' then (if r.named then name ++ ":" else "") ++ hits.length.repr ++ "\n"
  else if isBinary o text then ""
  else if o.has 'o' then
    if o.has 'v' then ""
    else String.join (hits.flatMap fun h =>
      let line := bare h.line
      (matchesOf r.patterns (line.length + 1) (Spot.start line)).map fun part =>
        heading r name h ++ String.ofList part ++ "\n")
  else
    let (before, after) := r.around
    String.join (blocks r name (0 < before + after) none (near before after all))

/-- The sources of the names: files, the input, and with the option for it what lies below
directories. -/
def sourcesBelow (s : Scene) (r : Request) (names : List String) : List Source :=
  let below := r.options.has 'r' || r.options.has 'R'
  let names := if names.isEmpty then [if below then "." else "-"] else names
  let names := if below then names.flatMap (filesBelow s) else names
  sourcesOf s names

/-- The patterns of a request, which stand in lines of their own, and the files. -/
def patternsOf (s : Scene) (o : Options) : Except String (List String × List String) := do
  let fromFiles ← (o.values 'f').mapM fun path =>
    match s.read path with
    | .ok text => .ok ((linesOf text.toList).map fun line => String.ofList (bare line))
    | .error fault => .error (path ++ ": " ++ faultText fault)
  let split (pattern : String) : List String :=
    (Text.pieces (· == '\n') pattern.toList).map String.ofList
  if o.has 'e' || o.has 'f' then
    return ((o.values 'e').flatMap split ++ fromFiles.flatten, o.operands)
  else return ((o.operands.take 1).flatMap split, o.operands.drop 1)

/-- Finds lines. -/
def run (s : Scene) (o : Options) : Effect :=
  if !o.has 'e' && !o.has 'f' && o.operands.isEmpty then
    .complain s 2 (searchTable.explain s)
  else
    match patternsOf s o with
    | .error message => .blame s 2 message
    | .ok (patterns, names) =>
      let faulty := if o.last? "EFGP" == some 'F' then none
        else patterns.findSome? fun x => patternFault? (o.last? "EFGP" == some 'E') x
      match faulty with
      | some message => .blame s 2 message
      | none =>
        let below := o.has 'r' || o.has 'R'
        let several := 1 < names.length || (below && names.length ≤ 1 &&
          (names.head?.all fun x => s.files.isDirectory (decode x)))
        let named := match o.last? "hH" with
          | some c => c == 'H'
          | none => several
        let r : Request := ⟨o, patterns.map (Request.regex o), named⟩
        let all := sourcesBelow s r names
        let label (source : Source) : String :=
          if source.name == "-" then (o.value? '\x01').getD "(standard input)" else source.name
        let hits (source : Source) : Bool := source.text.toOption.any fun text =>
          (r.mark 1 0 (r.number? 'm') (linesOf text.toList)).any Hit.found
        let found := all.any hits
        let binary := all.filter fun source =>
          hits source && source.text.toOption.any (isBinary o)
        let noted := binary.map fun source =>
          Chunk.mk true (s.called ++ ": " ++ label source ++ ": binary file matches\n")
        let e := filtering s namedFault all fun source text => report r (label source) text
        let failed := e.status != 0 && !(found && o.has 'q')
        { e with
          chunks := (if o.has 's' then e.chunks.filter fun c => !c.isError else e.chunks) ++ noted
          status := if failed then 2 else if found then 0 else 1 }

end Search

/-- Reads a number of lines behind a dash as the number of lines around a line. -/
def contextArgument (a : String) : String :=
  match a.toList with
  | '-' :: c :: cs => if (c :: cs).all Text.isDigit then "-C" ++ String.ofList (c :: cs) else a
  | _ => a

/-- The utility that finds lines. -/
def grep : Utility := fun s arguments =>
  searchTable.utility Search.run s (arguments.map contextArgument)

/-- The utility that finds lines, with an option in front. -/
def grepWith (option : String) : Utility := fun s arguments =>
  grep { s with called := "grep" } (option :: arguments)

end ProofScript.Shell
