import ProofScript.Token
import ProofScript.Node

/-!
# Reading a token list

A cursor is what is left of a token list, together with the number of the next node. A reader takes
a cursor and returns what it has read, and the cursor behind it. What it returns also carries the
fact that tokens were used up, in the form of a bound on the size of the new cursor; this is the
quantity by which the grammar is recursive.
-/

namespace ProofScript

/-! ## Errors -/

/-- What a reader looked for. -/
inductive Wanted where
  /-- An expression. -/
  | expression
  /-- The end of the text. -/
  | endOfInput
  /-- The arrow of an assumption. -/
  | assumedArrow
  /-- The type of a formal parameter. -/
  | type
  /-- A name. -/
  | name
  /-- A reserved word. -/
  | keyword (word : Keyword)
  /-- An operator or a bracket. -/
  | symbol (symbol : Symbol)
  deriving DecidableEq, Repr

/-- What a reader looked for, in words. -/
def Wanted.text : Wanted → String
  | expression => "an expression"
  | endOfInput => "end of input"
  | assumedArrow => "`~` in an assumption"
  | type => "a type (`*` or `<...>`)"
  | name => "identifier"
  | keyword k => (Token.Kind.keyword k).describe
  | symbol s => (Token.Kind.symbol s).describe

/-- Why a token list is no script. -/
inductive ParseFault where
  /-- A token other than the one that is needed. -/
  | unexpected (wanted : Wanted) (found : Token.Kind)
  /-- The tokens run out where a name is needed. -/
  | outOfTokens
  /-- An assumption with another number of terms than two. -/
  | assumedTerms (count : Nat)
  /-- An assignment to something else than a variable or a field. -/
  | assignTarget
  /-- An assignment as the right side of an assignment. -/
  | chainedAssignment
  /-- A comparison as an operand of a comparison. -/
  | chainedComparison
  /-- A method declaration with a formal parameter that is no name. -/
  | formal (method : String)
  /-- A value that is indexed a second time. -/
  | indexedTwice
  /-- An index on something else than a name or a field. -/
  | notIndexable
  /-- A call of an indexed value. -/
  | indexedCall
  deriving DecidableEq, Repr

/-- The wording of a fault. -/
def ParseFault.message : ParseFault → String
  | unexpected wanted found => "expected " ++ wanted.text ++ ", found " ++ found.describe
  | outOfTokens => "unexpected end of input"
  | assumedTerms count => s!"an assumption relates exactly two terms, found {count.repr}"
  | assignTarget => "left side of `=` must be a variable or a field"
  | chainedAssignment => "chained assignments are not supported"
  | chainedComparison => "chained comparisons are not supported; use parentheses"
  | formal method => s!"parameter of method `{method}` must be a plain name"
  | indexedTwice => "a value can only be indexed once"
  | notIndexable => "only names and fields can be indexed"
  | indexedCall => "cannot call an indexed value"

/-- A fault and the place that it concerns. -/
structure ParseError where
  /-- What is wrong. -/
  fault : ParseFault
  /-- Where it is wrong. -/
  span : Span
  deriving DecidableEq, Repr

/-- The wording of an error, without its place. -/
def ParseError.message (e : ParseError) : String := "parse error: " ++ e.fault.message

/-! ## Numbering nodes -/

/-- Building nodes, which are numbered in the order in which they are built. -/
abbrev Numbering := StateM Nat

/-- Builds a node with the next number. -/
def Numbering.node (span : Span) (shape : Shape Node) : Numbering Node := fun next =>
  (Node.mk (.numbered next) span shape, next + 1)

/-! ## Cursors -/

/-- A position in a token list. -/
structure Cursor where
  /-- The tokens that are left. -/
  tokens : List Token
  /-- The number of the next node. -/
  nextId : Nat
  /-- The place that is reported when the tokens run out. -/
  stop : Span

/-- The number of tokens that are left. -/
def Cursor.size (c : Cursor) : Nat := c.tokens.length

/-- What a reader returns: a value, and a cursor with fewer than `bound` tokens. -/
structure Parsed (bound : Nat) (α : Type) where
  /-- What was read. -/
  value : α
  /-- The position behind it. -/
  rest : Cursor
  /-- Tokens were used up. -/
  shorter : rest.size < bound

namespace Cursor

/-- The bound of a reading that may use up nothing. -/
theorem size_lt_succ (c : Cursor) : c.size < c.size + 1 := Nat.lt_succ_self _

/-- The start of a token list. -/
def start (tokens : List Token) : Cursor :=
  { tokens := tokens, nextId := 0, stop := (tokens.getLast?.map Token.span).getD Span.none }

/-- The kind of the next token. -/
def kind? (c : Cursor) : Option Token.Kind := c.tokens.head?.map Token.kind

/-- The place of the next token, or the end of the text. -/
def span (c : Cursor) : Span := (c.tokens.head?.map Token.span).getD c.stop

/-- Whether the next token is the symbol `s`. -/
def at? (c : Cursor) (s : Symbol) : Bool := c.kind? == some (.symbol s)

/-- The position behind the next token. -/
def advance (c : Cursor) : Cursor := { c with tokens := c.tokens.tail }

/-- Builds nodes at a position. -/
def build {α : Type} (c : Cursor) (m : Numbering α) : α × Cursor :=
  ((m.run c.nextId).1, { c with nextId := (m.run c.nextId).2 })

/-- Building nodes uses up no tokens. -/
@[simp] theorem size_build {α : Type} (c : Cursor) (m : Numbering α) :
    (c.build m).2.size = c.size := rfl

/-- Behind the next token there are no more tokens than in front of it. -/
theorem size_advance_le (c : Cursor) : c.advance.size ≤ c.size := by
  simp [advance, size]

/-- A known next token is used up by going behind it. -/
theorem size_advance_lt {c : Cursor} {k : Token.Kind} (h : c.kind? = some k) :
    c.advance.size < c.size := by
  unfold kind? at h
  cases ht : c.tokens with
  | nil => simp [ht] at h
  | cons t ts => simp [advance, size, ht]

/-- Behind a known next token there are fewer tokens than any bound on the position in front. -/
theorem size_advance_below {c : Cursor} {k : Token.Kind} {n : Nat} (hn : c.size ≤ n)
    (h : c.kind? = some k) : c.advance.size < n :=
  Nat.lt_of_lt_of_le (size_advance_lt h) hn

/-- Fails at the next token. -/
def unexpected (c : Cursor) (wanted : Wanted) : ParseError :=
  { fault := .unexpected wanted (c.kind?.getD .eof), span := c.span }

/-- Reads the symbol `s` and returns its place. -/
def symbol (c : Cursor) (s : Symbol) : Except ParseError (Parsed c.size Span) :=
  if h : c.kind? = some (.symbol s) then .ok ⟨c.span, c.advance, size_advance_lt h⟩
  else .error (c.unexpected (.symbol s))

/-- Reads the keyword `k` and returns its place. -/
def keyword (c : Cursor) (k : Keyword) : Except ParseError (Parsed c.size Span) :=
  if h : c.kind? = some (.keyword k) then .ok ⟨c.span, c.advance, size_advance_lt h⟩
  else .error (c.unexpected (.keyword k))

/-- Reads a name and returns it with its place. -/
def name (c : Cursor) : Except ParseError (Parsed c.size (String × Span)) :=
  match h : c.kind? with
  | some (.name text) => .ok ⟨(text, c.span), c.advance, size_advance_lt h⟩
  | some _ => .error (c.unexpected .name)
  | none => .error { fault := .outOfTokens, span := c.span }

/-- The text of the verbatim block that comes next; without one it is empty. -/
def verbatim (c : Cursor) : Parsed (c.size + 1) String :=
  match h : c.kind? with
  | some (.verbatim text) => ⟨text, c.advance, Nat.lt_succ_of_lt (size_advance_lt h)⟩
  | _ => ⟨"", c, c.size_lt_succ⟩

/-- The position behind the semicolons that come next. -/
def skipSemicolons (c : Cursor) : Cursor :=
  { c with tokens := c.tokens.dropWhile fun t => t.kind == .symbol .semicolon }

/-- Skipping semicolons adds no tokens. -/
theorem size_skipSemicolons_le (c : Cursor) : c.skipSemicolons.size ≤ c.size := by
  simp only [skipSemicolons, size]
  exact (List.dropWhile_suffix _).length_le

end Cursor

/-! ## Putting readings together -/

namespace Parsed

variable {α β : Type} {n : Nat}

/-- Changes the value. -/
def map (f : α → β) (p : Parsed n α) : Parsed n β := { p with value := f p.value }

/-- Builds a node behind what was read; it becomes the value. -/
def build (p : Parsed n α) (m : Numbering β) : Parsed n β :=
  { value := (p.rest.build m).1, rest := (p.rest.build m).2, shorter := p.shorter }

/-- A reading that starts where `p` ends, seen from the start of `p`. -/
def before (p : Parsed n α) (q : Parsed p.rest.size β) : Parsed n β :=
  { q with shorter := Nat.lt_trans q.shorter p.shorter }

/-- A reading that starts where `p` ends and may use up nothing, seen from the start of `p`. -/
def beforeOptional (p : Parsed n α) (q : Parsed (p.rest.size + 1) β) : Parsed n β :=
  { q with shorter := Nat.lt_of_le_of_lt (Nat.le_of_lt_succ q.shorter) p.shorter }

/-- A reading that starts behind a known token, seen from the token. -/
def behind {c : Cursor} {k : Token.Kind} (h : c.kind? = some k) (p : Parsed c.advance.size α) :
    Parsed c.size α :=
  { p with shorter := Nat.lt_trans p.shorter (Cursor.size_advance_lt h) }

/-- Reading a known token. -/
def token {c : Cursor} {k : Token.Kind} (h : c.kind? = some k) : Parsed c.size Token.Kind :=
  ⟨k, c.advance, Cursor.size_advance_lt h⟩

/-- A reading in the place of one that may use up nothing. -/
def optional (p : Parsed n α) : Parsed (n + 1) α :=
  { p with shorter := Nat.lt_succ_of_lt p.shorter }

/-- Reading nothing at all. -/
def nothing (value : α) (c : Cursor) : Parsed (c.size + 1) α := ⟨value, c, c.size_lt_succ⟩

end Parsed

end ProofScript
