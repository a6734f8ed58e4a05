import ProofScript.Text.Decimal
import ProofScript.Text.Split

/-!
# Patterns

Regular expressions, as they describe parts of lines, and the patterns of words, which are read as
regular expressions that a whole word has to match. Of the matches that start at one place the
longest counts; among equally long ones, a repetition takes as much as it can from left to right.
-/

namespace ProofScript.Shell

/-! ## Expressions -/

/-- A class of characters. -/
inductive CharClass where
  /-- Every character. -/
  | any
  /-- One character. -/
  | only (c : Char)
  /-- The characters in some ranges, both ends included, or all others. -/
  | within (negated : Bool) (ranges : List (Char × Char))
  /-- The characters of a class in either case. -/
  | caseless (k : CharClass)
  deriving DecidableEq, Repr

/-- Whether a class holds a character. -/
def CharClass.holds : CharClass → Char → Bool
  | any, _ => true
  | only d, c => c == d
  | within negated ranges, c => (ranges.any fun r => r.1 ≤ c && c ≤ r.2) != negated
  | caseless k, c => k.holds c.toLower || k.holds c.toUpper

/-- A place between two characters. -/
inductive Edge where
  /-- The start of a line. -/
  | lineStart
  /-- The end of a line. -/
  | lineEnd
  /-- The start of a word. -/
  | wordStart
  /-- The end of a word. -/
  | wordEnd
  /-- The start or the end of a word. -/
  | wordEdge
  /-- Neither the start nor the end of a word. -/
  | noEdge
  deriving DecidableEq, Repr

/-- A regular expression. -/
inductive Regex where
  /-- The empty text. -/
  | empty
  /-- One character. -/
  | one (k : CharClass)
  /-- One expression and then another. -/
  | both (a b : Regex)
  /-- One of two expressions. -/
  | either (a b : Regex)
  /-- An expression any number of times. -/
  | many (a : Regex)
  /-- An expression whose match is remembered under a number. -/
  | group (n : Nat) (a : Regex)
  /-- What the group of a number has matched. -/
  | again (n : Nat)
  /-- A place between two characters. -/
  | edge (e : Edge)
  deriving DecidableEq, Repr

/-- The characters that words consist of. -/
def wordRanges : List (Char × Char) := [('0', '9'), ('A', 'Z'), ('_', '_'), ('a', 'z')]

/-- A place in a line. -/
structure Spot where
  /-- How many characters stand before it. -/
  offset : Nat
  /-- The character before it. -/
  before : Option Char
  /-- What is left of the line. -/
  rest : List Char

namespace Spot

/-- The start of a line. -/
def start (line : List Char) : Spot := ⟨0, none, line⟩

/-- The place behind some characters. -/
def advance (s : Spot) (n : Nat) : Spot :=
  match n, s.rest with
  | 0, _ => s
  | _, [] => s
  | n + 1, c :: cs => advance ⟨s.offset + 1, some c, cs⟩ n

/-- Whether a place is of a kind. -/
def isAt (s : Spot) (e : Edge) : Bool :=
  let inWord (c : Option Char) : Bool := c.any (CharClass.within false wordRanges).holds
  let (left, right) := (inWord s.before, inWord s.rest.head?)
  match e with
  | .lineStart => s.offset = 0
  | .lineEnd => s.rest.isEmpty
  | .wordStart => !left && right
  | .wordEnd => left && !right
  | .wordEdge => left != right
  | .noEdge => left == right

/-- The places of two lists, each of them once. -/
def union (as bs : List Spot) : List Spot :=
  as ++ bs.filter fun b => !as.any fun a => a.offset == b.offset

end Spot

namespace Regex

/-- The number of nodes of an expression. -/
def size : Regex → Nat
  | empty | one _ | again _ | edge _ => 1
  | both a b | either a b => a.size + b.size + 1
  | many a | group _ a => a.size + 1

/-- Whether an expression refers to the match of a group. -/
def refers : Regex → Bool
  | again _ => true
  | empty | one _ | edge _ => false
  | both a b | either a b => a.refers || b.refers
  | many a | group _ a => a.refers

/-- The expression in which the case of letters does not count. -/
def ignoringCase : Regex → Regex
  | one k => one (.caseless k)
  | both a b => both a.ignoringCase b.ignoringCase
  | either a b => either a.ignoringCase b.ignoringCase
  | many a => many a.ignoringCase
  | group n a => group n a.ignoringCase
  | empty => empty
  | again n => again n
  | edge e => edge e

/-! ## Matching -/

/-- The places that are reached from some places by any number of steps. -/
def reached (step : List Spot → List Spot) (fuel : Nat) (found fresh : List Spot) : List Spot :=
  match fuel with
  | 0 => found
  | fuel + 1 =>
    let next := (step fresh).filter fun s => !found.any fun t => t.offset == s.offset
    if next.isEmpty then found else reached step fuel (Spot.union found next) next

/-- The places at which matches end that start at some places of a line with `length` characters. -/
def ends (length : Nat) : Regex → List Spot → List Spot
  | empty, ss => ss
  | one k, ss => ss.filterMap fun s =>
    match s.rest with
    | c :: cs => if k.holds c then some ⟨s.offset + 1, some c, cs⟩ else none
    | [] => none
  | both a b, ss => b.ends length (a.ends length ss)
  | either a b, ss => Spot.union (a.ends length ss) (b.ends length ss)
  | many a, ss => reached (a.ends length) (length + 1) ss ss
  | group _ a, ss => a.ends length ss
  | again _, _ => []
  | edge e, ss => ss.filter fun s => s.isAt e

/-- A match that is being looked for. -/
structure Search where
  /-- The place that it has come to. -/
  spot : Spot
  /-- What the groups have matched, the last match first. -/
  groups : List (Nat × List Char)

/-- The first match for which `next` finds an end. -/
def find (fuel : Nat) (r : Regex) (s : Search) (next : Search → Option Search) : Option Search :=
  match fuel with
  | 0 => none
  | fuel + 1 =>
    match r with
    | empty => next s
    | one k =>
      match s.spot.rest with
      | c :: cs =>
        if k.holds c then next { s with spot := ⟨s.spot.offset + 1, some c, cs⟩ } else none
      | [] => none
    | both a b => find fuel a s fun t => find fuel b t next
    | either a b => (find fuel a s next).or (find fuel b s next)
    | many a =>
      let longer := find fuel a s fun t =>
        if s.spot.offset < t.spot.offset then find fuel (many a) t next else none
      longer.or (next s)
    | group n a => find fuel a s fun t =>
      let text := s.spot.rest.take (t.spot.offset - s.spot.offset)
      next { t with groups := (n, text) :: t.groups }
    | again n =>
      match s.groups.lookup n with
      | some text =>
        if text.isPrefixOf s.spot.rest then
          next { s with spot := s.spot.advance text.length }
        else none
      | none => none
    | edge e => if s.spot.isAt e then next s else none

/-- The longest match that starts at a place, if there is one. -/
def matchAt? (r : Regex) (s : Spot) : Option Search :=
  let fuel := r.size + 2 * s.rest.length + 2
  if r.refers then find fuel r ⟨s, []⟩ some
  else
    match (r.ends s.rest.length [s]).map Spot.offset with
    | [] => none
    | n :: ns =>
      let longest := ns.foldl max n
      find fuel r ⟨s, []⟩ fun t => if t.spot.offset = longest then some t else none

/-- Whether the whole of a text matches. -/
def matchesAll (r : Regex) (cs : List Char) : Bool :=
  (r.ends cs.length [Spot.start cs]).any fun s => s.rest.isEmpty

/-- The first match at a place or behind it, and the place where it starts. -/
def firstFrom (r : Regex) (fuel : Nat) (s : Spot) : Option (Spot × Search) :=
  match r.matchAt? s with
  | some found => some (s, found)
  | none =>
    match fuel, s.rest with
    | fuel + 1, c :: cs => firstFrom r fuel ⟨s.offset + 1, some c, cs⟩
    | _, _ => none

/-- Whether a line holds a match. -/
def matchesIn (r : Regex) (line : List Char) : Bool :=
  (r.firstFrom line.length (Spot.start line)).isSome

/-! ## Replacing -/

/-- How the case of letters changes in a replacement. -/
inductive CaseChange where
  | asIs | upper | lower
  deriving DecidableEq, Repr

/-- A part of a replacement. -/
inductive Filling where
  /-- A character. -/
  | literal (c : Char)
  /-- The match of a group; group zero is the whole match. -/
  | group (n : Nat)
  /-- From here on the case of letters changes. -/
  | change (k : CaseChange)
  /-- The case of the next letter changes. -/
  | changeOne (k : CaseChange)
  deriving DecidableEq, Repr

/-- A character in another case. -/
def CaseChange.apply (k : CaseChange) (c : Char) : Char :=
  match k with
  | asIs => c
  | upper => c.toUpper
  | lower => c.toLower

/-- What a replacement stands for. -/
def filled (groups : List (Nat × List Char)) (all once : CaseChange) :
    List Filling → List Char
  | [] => []
  | .literal c :: rest =>
    (if once = .asIs then all else once).apply c :: filled groups all .asIs rest
  | .group n :: rest =>
    match (groups.lookup n).getD [] with
    | [] => filled groups all once rest
    | c :: cs =>
      (if once = .asIs then all else once).apply c :: cs.map all.apply
        ++ filled groups all .asIs rest
  | .change k :: rest => filled groups k once rest
  | .changeOne k :: rest => filled groups all k rest

/-- Replaces matches at a place and behind it: the match of number `first`, or with `everywhere`
all from there on. A match of nothing just behind a match does not count. The result tells whether
anything was replaced. -/
def replaceFrom (r : Regex) (replacement : List Filling) (everywhere : Bool) (fuel first : Nat)
    (behindMatch : Bool) (s : Spot) : List Char × Bool :=
  match fuel with
  | 0 => (s.rest, false)
  | fuel + 1 =>
    match r.firstFrom s.rest.length s with
    | none => (s.rest, false)
    | some (start, found) =>
      let skipped := s.rest.take (start.offset - s.offset)
      let text := start.rest.take (found.spot.offset - start.offset)
      let onward (out : List Char) (first : Nat) (done : Bool) : List Char × Bool :=
        if text.isEmpty then
          match start.rest with
          | [] => (skipped ++ out, done)
          | c :: cs =>
            let (more, also) := replaceFrom r replacement everywhere fuel first false
              ⟨start.offset + 1, some c, cs⟩
            (skipped ++ out ++ c :: more, done || also)
        else
          let (more, also) := replaceFrom r replacement everywhere fuel first true found.spot
          (skipped ++ out ++ more, done || also)
      if text.isEmpty && behindMatch && start.offset == s.offset then onward [] first false
      else if 1 < first then onward text (first - 1) false
      else
        let out := filled ((0, text) :: found.groups) .asIs .asIs replacement
        if everywhere then onward out first true else (skipped ++ out ++ found.spot.rest, true)

/-- Replaces the match of number `first` in a line, or with `everywhere` all from there on; nothing
when there is no such match. -/
def replace? (r : Regex) (replacement : List Filling) (everywhere : Bool) (first : Nat)
    (line : List Char) : Option (List Char) :=
  let fuel := 2 * line.length + 2
  match r.replaceFrom replacement everywhere fuel first false (Spot.start line) with
  | (text, true) => some text
  | (_, false) => none

end Regex

/-! ## Classes -/

/-- The ranges of a named class of characters. -/
def namedRanges (name : String) : List (Char × Char) :=
  match name with
  | "lower" => [('a', 'z')]
  | "upper" => [('A', 'Z')]
  | "alpha" => [('A', 'Z'), ('a', 'z')]
  | "digit" => [('0', '9')]
  | "alnum" => [('0', '9'), ('A', 'Z'), ('a', 'z')]
  | "space" => [('\t', '\r'), (' ', ' ')]
  | "blank" => [('\t', '\t'), (' ', ' ')]
  | "punct" => [('!', '/'), (':', '@'), ('[', '\x60'), ('\x7b', '~')]
  | "xdigit" => [('0', '9'), ('A', 'F'), ('a', 'f')]
  | "cntrl" => [('\x00', '\x1f'), ('\x7f', '\x7f')]
  | "print" => [(' ', '~')]
  | "graph" => [('!', '~')]
  | _ => []

/-- Reads the ranges between brackets, up to the closing one; nothing when there is none. -/
def readRanges (fuel : Nat) (cs : List Char) : Option (List (Char × Char) × List Char) :=
  let more (own : List (Char × Char)) (found : Option (List (Char × Char) × List Char)) :=
    found.map fun (ranges, rest) => (own ++ ranges, rest)
  match fuel, cs with
  | 0, _ => none
  | _, [] => none
  | _, ']' :: cs => some ([], cs)
  | fuel + 1, '[' :: ':' :: cs =>
    let name := cs.takeWhile (· != ':')
    match cs.drop name.length with
    | ':' :: ']' :: rest => more (namedRanges (String.ofList name)) (readRanges fuel rest)
    | _ => more [('[', '[')] (readRanges fuel (':' :: cs))
  | fuel + 1, '[' :: '=' :: c :: '=' :: ']' :: cs => more [(c, c)] (readRanges fuel cs)
  | fuel + 1, '[' :: '.' :: c :: '.' :: ']' :: cs => more [(c, c)] (readRanges fuel cs)
  | fuel + 1, a :: '-' :: b :: cs =>
    if b == ']' then some ([(a, a), ('-', '-')], cs) else more [(a, b)] (readRanges fuel cs)
  | fuel + 1, a :: cs => more [(a, a)] (readRanges fuel cs)

/-- Reads a class behind its opening bracket; nothing when it is not closed. A closing bracket at
its start belongs to it. -/
def readClass (negations : List Char) (cs : List Char) : Option (CharClass × List Char) :=
  let (negated, cs) := match cs with
    | c :: rest => if negations.contains c then (true, rest) else (false, cs)
    | [] => (false, [])
  let (own, cs) : List (Char × Char) × List Char := match cs with
    | ']' :: '-' :: b :: rest => if b == ']' then ([(']', ']')], cs.drop 1) else ([(']', b)], rest)
    | ']' :: rest => ([(']', ']')], rest)
    | cs => ([], cs)
  (readRanges (cs.length + 1) cs).map fun (ranges, rest) => (.within negated (own ++ ranges), rest)

/-! ## Patterns of words -/

/-- Reads a pattern for words, in which characters that are quoted stand for themselves. -/
def wordPattern (fuel : Nat) (cs : List (Char × Bool)) : Regex :=
  match fuel, cs with
  | 0, _ => .empty
  | _, [] => .empty
  | fuel + 1, (c, quoted) :: rest =>
    let next (k : CharClass) := Regex.both (.one k) (wordPattern fuel rest)
    if quoted then next (.only c)
    else if c == '*' then .both (.many (.one .any)) (wordPattern fuel rest)
    else if c == '?' then next .any
    else if c == '[' then
      match readClass ['!', '^'] (rest.map Prod.fst) with
      | some (k, behind) =>
        .both (.one k) (wordPattern fuel (rest.drop (rest.length - behind.length)))
      | none => next (.only c)
    else if c == '\\' then
      match rest with
      | (d, _) :: rest => .both (.one (.only d)) (wordPattern fuel rest)
      | [] => next (.only c)
    else next (.only c)

/-- A text without the shortest or the longest part at one end that a pattern matches. -/
def withoutMatch (atEnd longest : Bool) (r : Regex) (cs : List Char) : List Char :=
  let cuts := List.range (cs.length + 1)
  if atEnd then
    let hits := cuts.filter fun k => r.matchesAll (cs.drop k)
    match if longest then hits.head? else hits.getLast? with
    | some k => cs.take k
    | none => cs
  else
    let hits := cuts.filter fun k => r.matchesAll (cs.take k)
    match if longest then hits.getLast? else hits.head? with
    | some k => cs.drop k
    | none => cs

/-! ## Patterns of lines -/

/-- A sign of a pattern for lines. -/
inductive Sign where
  /-- An expression that needs nothing else. -/
  | plain (r : Regex)
  /-- The sign before it, any number of times; or a star where nothing can be repeated. -/
  | star
  /-- The sign before it, at least once. -/
  | plus
  /-- The sign before it, at most once. -/
  | option
  /-- The sign before it, so many times at least, and perhaps at most. -/
  | times (low : Nat) (high : Option Nat)
  /-- The end of an alternative. -/
  | bar
  /-- The start of a group. -/
  | openGroup
  /-- The end of a group. -/
  | closeGroup
  /-- The start of a line; or a caret where no line can start. -/
  | caret
  /-- The end of a line; or a dollar sign where no line can end. -/
  | dollar
  deriving DecidableEq, Repr

/-- The sign that an operator stands for, when it has its meaning. -/
def operatorSign? (c : Char) : Option Sign :=
  match c with
  | '+' => some .plus
  | '?' => some .option
  | '|' => some .bar
  | '(' => some .openGroup
  | ')' => some .closeGroup
  | _ => none

/-- The sign that a character behind a backslash stands for in every pattern. -/
def escapedSign? (c : Char) : Option Sign :=
  let blanks := namedRanges "space"
  match c with
  | 'w' => some (.plain (.one (.within false wordRanges)))
  | 'W' => some (.plain (.one (.within true wordRanges)))
  | 's' => some (.plain (.one (.within false blanks)))
  | 'S' => some (.plain (.one (.within true blanks)))
  | 'b' => some (.plain (.edge .wordEdge))
  | 'B' => some (.plain (.edge .noEdge))
  | '<' => some (.plain (.edge .wordStart))
  | '>' => some (.plain (.edge .wordEnd))
  | '\'' => some (.plain (.edge .lineEnd))
  | '\x60' => some (.plain (.edge .lineStart))
  | c => if '1' ≤ c && c ≤ '9' then some (.plain (.again (Text.digitValue c))) else none

/-- The sign of a character that stands for itself. -/
def Sign.literal (c : Char) : Sign := .plain (.one (.only c))

/-- Reads how often a sign is repeated behind an opening brace, up to `closer`. -/
def readTimes? (closer : List Char) (cs : List Char) : Option (Sign × List Char) := do
  let (inner, rest) ← Text.cut? closer cs
  let low := inner.takeWhile Text.isDigit
  match inner.drop low.length with
  | [] => return (.times (← Text.digits? low) (Text.digits? low), rest)
  | ',' :: high =>
    if high.all Text.isDigit then return (.times (Text.digitsValue low) (Text.digits? high), rest)
    else none
  | _ => none

/-- The signs of a pattern for lines. The operators have their meaning behind a backslash, or with
`extended` without one. -/
def signs (extended : Bool) (fuel : Nat) (cs : List Char) : List Sign :=
  match fuel, cs with
  | 0, _ => []
  | _, [] => []
  | fuel + 1, c :: cs =>
    match c, cs with
    | '\\', d :: rest =>
      let counted := if d == '\x7b' && !extended then readTimes? ['\\', '\x7d'] rest else none
      match counted, if extended then none else operatorSign? d with
      | some (sign, rest), _ => sign :: signs extended fuel rest
      | none, some sign => sign :: signs extended fuel rest
      | none, none => (escapedSign? d).getD (.literal d) :: signs extended fuel rest
    | '[', cs =>
      match readClass ['^'] cs with
      | some (k, rest) => .plain (.one k) :: signs extended fuel rest
      | none => .literal '[' :: signs extended fuel cs
    | '.', cs => .plain (.one .any) :: signs extended fuel cs
    | '*', cs => .star :: signs extended fuel cs
    | '^', cs => .caret :: signs extended fuel cs
    | '$', cs => .dollar :: signs extended fuel cs
    | c, cs =>
      match if extended && c == '\x7b' then readTimes? ['\x7d'] cs else none with
      | some (sign, rest) => sign :: signs extended fuel rest
      | none =>
        (if extended then operatorSign? c else none).getD (.literal c) :: signs extended fuel cs

/-- The character that a sign is where it has no meaning of its own. -/
def Sign.char : Sign → Char
  | star => '*'
  | plus => '+'
  | option => '?'
  | bar => '|'
  | openGroup => '('
  | closeGroup => ')'
  | caret => '^'
  | dollar => '$'
  | plain _ | times _ _ => '\x7b'

/-- Whether an alternative ends here. -/
def endsAlternative : List Sign → Bool
  | [] | .bar :: _ | .closeGroup :: _ => true
  | _ => false

/-- An expression so many times at least, and perhaps at most. -/
def Regex.counted (a : Regex) (low : Nat) (high : Option Nat) : Regex :=
  let tail := match high with
    | none => Regex.many a
    | some n => (List.range (n - low)).foldl (fun rest _ => .either (.both a rest) .empty) .empty
  (List.range low).foldl (fun rest _ => .both a rest) tail

/-- Repeats an expression as the signs behind it say. -/
def repeated (a : Regex) : List Sign → Regex × List Sign
  | .star :: rest => repeated (.many a) rest
  | .plus :: rest => repeated (.both a (.many a)) rest
  | .option :: rest => repeated (.either a .empty) rest
  | .times low high :: rest => repeated (a.counted low high) rest
  | rest => (a, rest)

mutual

/-- Reads alternatives, where `n` is the number of the next group. -/
def readAlternatives (extended : Bool) (fuel n : Nat) (ss : List Sign) :
    Regex × Nat × List Sign :=
  match fuel with
  | 0 => (.empty, n, [])
  | fuel + 1 =>
    let (a, n, rest) := readAlternative extended fuel n true ss
    match rest with
    | .bar :: rest =>
      let (b, n, rest) := readAlternatives extended fuel n rest
      (.either a b, n, rest)
    | rest => (a, n, rest)

/-- Reads one alternative. -/
def readAlternative (extended : Bool) (fuel n : Nat) (atStart : Bool) (ss : List Sign) :
    Regex × Nat × List Sign :=
  match fuel with
  | 0 => (.empty, n, [])
  | fuel + 1 =>
    if endsAlternative ss then (.empty, n, ss)
    else
      let (a, n, rest) : Regex × Nat × List Sign := match ss with
        | .openGroup :: rest =>
          let (a, m, rest) := readAlternatives extended fuel (n + 1) rest
          (.group n a, m, rest.drop 1)
        | .caret :: rest =>
          (if atStart || extended then .edge .lineStart else .one (.only '^'), n, rest)
        | .dollar :: rest =>
          (if endsAlternative rest || extended then .edge .lineEnd else .one (.only '$'), n, rest)
        | .plain r :: rest => (r, n, rest)
        | s :: rest => (.one (.only s.char), n, rest)
        | [] => (.empty, n, [])
      let isStart := a = .edge .lineStart
      let (a, rest) := if isStart && !extended then (a, rest) else repeated a rest
      let (b, n, rest) := readAlternative extended fuel n (atStart && isStart) rest
      (.both a b, n, rest)

end

/-- Reads a pattern for lines. -/
def Regex.ofText (extended : Bool) (text : String) : Regex :=
  let ss := signs extended text.length text.toList
  (readAlternatives extended (2 * ss.length + 3) 1 ss).1

/-! ## Faults -/

/-- What is wrong with a pattern for lines behind `depth` groups that are open. -/
def patternFaultFrom (extended : Bool) (fuel depth : Nat) (cs : List Char) : Option String :=
  match fuel, cs with
  | 0, _ => none
  | _, [] => if depth = 0 then none else some "Unmatched ( or \\("
  | _, ['\\'] => some "Trailing backslash"
  | fuel + 1, '\\' :: c :: cs =>
    if c == '(' && !extended then patternFaultFrom extended fuel (depth + 1) cs
    else if c == ')' && !extended then
      if depth = 0 then some "Unmatched ) or \\)"
      else patternFaultFrom extended fuel (depth - 1) cs
    else if c == '\x7b' && !extended && (Text.cut? ['\\', '\x7d'] cs).isNone then
      some "Unmatched \\\x7b"
    else patternFaultFrom extended fuel depth cs
  | fuel + 1, c :: cs =>
    if c == '[' then
      match readClass ['^'] cs with
      | some (_, rest) => patternFaultFrom extended fuel depth rest
      | none => some "Unmatched [, [^, [:, [., or [="
    else if c == '(' && extended then patternFaultFrom extended fuel (depth + 1) cs
    else if c == ')' && extended then patternFaultFrom extended fuel (depth - 1) cs
    else patternFaultFrom extended fuel depth cs

/-- What is wrong with a pattern for lines, if anything. -/
def patternFault? (extended : Bool) (text : String) : Option String :=
  patternFaultFrom extended (text.length + 1) 0 text.toList

end ProofScript.Shell
