import ProofScript.Span

/-!
# Tokens

The words of a proof script: keywords, punctuation, names, numbers and verbatim blocks. A token
list that comes from a source text ends with a token of kind `eof`.
-/

namespace ProofScript

/-- The reserved words of the script language. -/
inductive Keyword where
  /-- `new` opens an allocation. -/
  | new
  /-- `if` opens a conditional. -/
  | ifWord
  /-- `else` opens the second branch of a conditional. -/
  | elseWord
  /-- `assert` opens an assertion. -/
  | assert
  /-- `assume` opens an assumption. -/
  | assume
  deriving DecidableEq, Repr

namespace Keyword

/-- How a keyword is written. -/
def spelling : Keyword → String
  | new => "new"
  | ifWord => "if"
  | elseWord => "else"
  | assert => "assert"
  | assume => "assume"

/-- Every keyword. -/
def all : List Keyword := [new, ifWord, elseWord, assert, assume]

/-- The keyword with a given spelling. -/
def ofSpelling? (s : String) : Option Keyword := all.find? fun k => k.spelling == s

end Keyword

/-- The operators and brackets of the script language. -/
inductive Symbol where
  /-- `==` -/
  | equal
  /-- `=` -/
  | assign
  /-- `+` -/
  | plus
  /-- `-` -/
  | minus
  /-- `*` -/
  | star
  /-- `/` -/
  | slash
  /-- `<`, which also opens a tuple. -/
  | less
  /-- `>`, which also closes a tuple. -/
  | greater
  /-- `&` -/
  | amp
  /-- `|` -/
  | pipe
  /-- `!` -/
  | bang
  /-- `~`, the arrow of a proof chain. -/
  | tilde
  /-- `.` -/
  | dot
  /-- `,` -/
  | comma
  /-- `:` -/
  | colon
  /-- `;` -/
  | semicolon
  /-- `(` -/
  | openParen
  /-- `)` -/
  | closeParen
  /-- The opening brace. -/
  | openBrace
  /-- The closing brace. -/
  | closeBrace
  /-- `[` -/
  | openBracket
  /-- `]` -/
  | closeBracket
  deriving DecidableEq, Repr

namespace Symbol

/-- How a symbol is written. -/
def spelling : Symbol → String
  | equal => "=="
  | assign => "="
  | plus => "+"
  | minus => "-"
  | star => "*"
  | slash => "/"
  | less => "<"
  | greater => ">"
  | amp => "&"
  | pipe => "|"
  | bang => "!"
  | tilde => "~"
  | dot => "."
  | comma => ","
  | colon => ":"
  | semicolon => ";"
  | openParen => "("
  | closeParen => ")"
  | openBrace => "\x7b"
  | closeBrace => "\x7d"
  | openBracket => "["
  | closeBracket => "]"

/-- The symbol that is written as the single character `c`. -/
def ofChar? : Char → Option Symbol
  | '=' => some assign
  | '+' => some plus
  | '-' => some minus
  | '*' => some star
  | '/' => some slash
  | '<' => some less
  | '>' => some greater
  | '&' => some amp
  | '|' => some pipe
  | '!' => some bang
  | '~' => some tilde
  | '.' => some dot
  | ',' => some comma
  | ':' => some colon
  | ';' => some semicolon
  | '(' => some openParen
  | ')' => some closeParen
  | '{' => some openBrace
  | '}' => some closeBrace
  | '[' => some openBracket
  | ']' => some closeBracket
  | _ => none

end Symbol

/-- What a token is. -/
inductive Token.Kind where
  /-- A reserved word. -/
  | keyword (word : Keyword)
  /-- An operator or a bracket. -/
  | symbol (symbol : Symbol)
  /-- A name that is no reserved word. -/
  | name (text : String)
  /-- An unsigned decimal literal. -/
  | number (value : Int64)
  /-- The text between three opening braces and the three closing braces that match them. -/
  | verbatim (text : String)
  /-- The end of the source text. -/
  | eof
  deriving DecidableEq, Repr

/-- A token and where it stands. -/
structure Token where
  /-- What the token is. -/
  kind : Token.Kind
  /-- Where the token stands in the source text. -/
  span : Span
  deriving DecidableEq, Repr

namespace Token.Kind

/-- How a token is named in an error message. -/
def describe : Token.Kind → String
  | keyword k => s!"`{k.spelling}`"
  | symbol s => s!"`{s.spelling}`"
  | name text => s!"identifier `{text}`"
  | number n => s!"integer `{n.toInt.repr}`"
  | verbatim _ => "verbatim block"
  | eof => "end of input"

end Token.Kind

end ProofScript
