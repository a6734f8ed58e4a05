import ProofScript.Grammar.Expr
import ProofScript.Token.Scan

/-!
# The grammar of scripts

A script is a list of items that may be separated by semicolons: assertions, assumptions, proof
chains and plain expressions. A proof chain is a list of terms with arrows between them; an arrow
may carry a hint in brackets, and behind it a verbatim block.
-/

namespace ProofScript

namespace Grammar

/-- Reads the hint and the verbatim text that may follow an arrow. -/
def annotation (c : Cursor) : Except ParseError (Parsed (c.size + 1) (Option Node × String)) :=
  if ho : c.kind? = some (.symbol .openBracket) then do
    let hint ← expr true c.advance
    let close ← hint.rest.symbol .closeBracket
    let text := Parsed.behind ho (hint.before (close.beforeOptional close.rest.verbatim))
    return (text.map fun text => (some hint.value, text)).optional
  else .ok (Parsed.nothing (none, "") c)

/-- A proof chain while it is read. The last term has no slots yet. -/
structure Chain where
  /-- The terms. -/
  terms : List Node
  /-- A hint for each arrow. -/
  hints : List (Option Node)
  /-- A verbatim text for each arrow. -/
  verbatims : List String
  /-- The place of the terms. -/
  span : Span

/-- Reads the arrows and terms that follow a chain. -/
def arrows (chain : Chain) (c : Cursor) : Except ParseError (Parsed (c.size + 1) Chain) :=
  if ht : c.kind? = some (.symbol .tilde) then
    have hl := Cursor.size_advance_lt ht
    match annotation c.advance with
    | .error e => .error e
    | .ok note =>
      have hn := note.shorter
      match expr true note.rest with
      | .error e => .error e
      | .ok term =>
        have hr := term.shorter
        match arrows { terms := chain.terms ++ [term.value],
                       hints := chain.hints ++ [note.value.1],
                       verbatims := chain.verbatims ++ [note.value.2],
                       span := chain.span.join term.value.span } term.rest with
        | .error e => .error e
        | .ok all =>
          have ha := all.shorter
          .ok ⟨all.value, all.rest, by omega⟩
  else .ok (Parsed.nothing chain c)
termination_by c.size

/-- Reads the proof chain that starts with the term `first`. -/
def chainFrom (first : Node) (c : Cursor) : Except ParseError (Parsed (c.size + 1) Node) := do
  let chain ← arrows { terms := [first], hints := [], verbatims := [], span := first.span } c
  return chain.build (Numbering.node chain.value.span
    (.proof chain.value.terms (chain.value.hints ++ [none]) (chain.value.verbatims ++ [""])))

/-- Reads an assertion, behind its keyword at `place`. -/
def assertion (place : Span) (c : Cursor) : Except ParseError (Parsed c.size Node) := do
  let condition ← expr true c
  return condition.build
    (Numbering.node (place.join condition.value.span) (.assert condition.value))

/-- The number of terms of a proof chain. -/
def termCount (n : Node) : Nat :=
  match n.shape with
  | .proof terms _ _ => terms.length
  | _ => 0

/-- Reads an assumption, behind its keyword at `place`. -/
def assumption (place : Span) (c : Cursor) : Except ParseError (Parsed c.size Node) := do
  let first ← expr true c
  if first.rest.at? .tilde then
    let chain ← chainFrom first.value first.rest
    let count := termCount chain.value
    if count = 2 then
      return (first.beforeOptional chain).build
        (Numbering.node (place.join chain.value.span) (.assume chain.value))
    else throw { fault := .assumedTerms count, span := chain.value.span }
  else throw (first.rest.unexpected .assumedArrow)

/-- Reads an expression, or the proof chain that starts with it. -/
def statementOrChain (c : Cursor) : Except ParseError (Parsed c.size Node) := do
  let first ← expr true c
  if first.rest.at? .tilde then
    let chain ← chainFrom first.value first.rest
    return first.beforeOptional chain
  else return first

/-- Reads an item of a script. -/
def item (c : Cursor) : Except ParseError (Parsed c.size Node) :=
  if ha : c.kind? = some (.keyword .assert) then do
    let all ← assertion c.span c.advance
    return all.behind ha
  else if ha : c.kind? = some (.keyword .assume) then do
    let all ← assumption c.span c.advance
    return all.behind ha
  else statementOrChain c

/-- Reads the items up to the end of the text. -/
def items (c : Cursor) : Except ParseError (List Node × Cursor) :=
  have := Cursor.size_skipSemicolons_le c
  match c.skipSemicolons.kind? with
  | none | some .eof => .ok ([], c.skipSemicolons)
  | some _ =>
    match item c.skipSemicolons with
    | .error e => .error e
    | .ok first =>
      have := first.shorter
      match items first.rest with
      | .error e => .error e
      | .ok (rest, c) => .ok (first.value :: rest, c)
termination_by c.size

/-- Reads a whole script from its tokens. -/
def script (tokens : List Token) : Except ParseError Node := do
  let start := Cursor.start tokens
  let (items, rest) ← items start
  let span := items.foldl (fun span item => span.join item.span) start.span
  return (rest.build (Numbering.node span (.script items))).1

/-- Reads a single expression up to the end of the text from its tokens. -/
def soleExpr (tokens : List Token) : Except ParseError Node := do
  let all ← expr true (Cursor.start tokens)
  if all.rest.kind? = some .eof then return all.value
  else throw (all.rest.unexpected .endOfInput)

end Grammar

/-- Why a source text is no script, or no expression. -/
inductive SyntaxError where
  /-- The text has no tokens. -/
  | scan (e : ScanError)
  /-- The tokens do not follow the grammar. -/
  | parse (e : ParseError)

namespace SyntaxError

/-- The wording of an error, without its place. -/
def message : SyntaxError → String
  | scan e => e.message
  | parse e => e.message

/-- The place that an error concerns. -/
def span : SyntaxError → Span
  | scan e => e.span
  | parse e => e.span

end SyntaxError

/-- Reads tokens, and then a tree from the tokens. -/
def Node.readWith (grammar : List Token → Except ParseError Node) (source : String) :
    Except SyntaxError Node :=
  match Token.scan source with
  | .error e => .error (.scan e)
  | .ok tokens =>
    match grammar tokens with
    | .error e => .error (.parse e)
    | .ok n => .ok n

/-- The tree of a whole script. -/
def Node.ofScript (source : String) : Except SyntaxError Node :=
  Node.readWith Grammar.script source

/-- The tree of a text that holds a single expression. -/
def Node.ofExpr (source : String) : Except SyntaxError Node :=
  Node.readWith Grammar.soleExpr source

end ProofScript
