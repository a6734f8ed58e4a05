import ProofScript.Grammar.Script
import ProofScript.Proofs.Grammar.Derivation

/-!
# Printed expressions

Expressions as they are written, and how they are printed: with a blank between tokens, a semicolon
between statements, and as few parentheses as possible. An operand is put in parentheses when its
operator binds looser than the place requires. A method declaration is also put in parentheses where
declarations are not allowed, which is in the condition of an `if` outside brackets.
-/

namespace ProofScript

open Grammar (Level)
open Token (Kind)

/-- How tight a level binds. -/
def Grammar.Level.rank : Level → Nat
  | logic => 0
  | assignment => 1
  | comparison => 2
  | sum => 3
  | product => 4
  | signed => 5
  | postfixed => 6

/-! ## Expressions -/

inductive UnaryOp where
  | minus | plus | bang
  deriving DecidableEq, Repr

inductive BinaryOp where
  | amp | pipe | less | greater | equal | plus | minus | star | slash
  deriving DecidableEq, Repr

/-- A formal parameter. -/
structure Formal where
  name : String
  type : Option VarType

mutual

/-- An expression. There is one constructor for each form in which an expression is written. -/
inductive Expr where
  | int (n : Int64)
  | var (name : String)
  | tuple (first : Expr) (rest : List Expr)
  | field (object : Expr) (name : String)
  | element (object : Expr) (name : String) (index : Expr)
  | item (name : String) (index : Expr)
  | call (name : String) (args : List Expr)
  | invoke (object : Expr) (name : String) (args : List Expr)
  | unary (op : UnaryOp) (arg : Expr)
  | binary (op : BinaryOp) (left right : Expr)
  | assign (target value : Expr)
  | alloc (fields : List FieldInit) (body : Body)
  | method (name : String) (formals : List Formal) (body : Body)
  | ite (condition : Expr) (positive negative : Body)
  -- A conditional without a second branch.
  | guarded (condition : Expr) (body : Body)

/-- A field of an allocation, with or without an initial value. -/
inductive FieldInit where
  | plain (name : String)
  | value (name : String) (expr : Expr)

/-- What stands between braces: nothing, or statements in order. -/
inductive Body where
  | empty
  | statements (first : Expr) (rest : List Expr)

end

namespace UnaryOp

def symbol : UnaryOp → Symbol
  | minus => .minus
  | plus => .plus
  | bang => .bang

end UnaryOp

namespace BinaryOp

def symbol : BinaryOp → Symbol
  | amp => .amp
  | pipe => .pipe
  | less => .less
  | greater => .greater
  | equal => .equal
  | plus => .plus
  | minus => .minus
  | star => .star
  | slash => .slash

def level : BinaryOp → Level
  | amp | pipe => .logic
  | less | greater | equal => .comparison
  | plus | minus => .sum
  | star | slash => .product

/-- The level of the left operand. -/
def leftLevel (op : BinaryOp) : Level := if op.level.associates then op.level else op.level.operand

end BinaryOp

/-! ## The trees of expressions -/

/-- A tree without the identities and the places of its nodes. -/
def Node.bare (n : Node) : Node := fold (fun _ s => detached s) n

/-- Statements as a sequence that nests to the right. -/
def Node.sequence (first : Node) : List Node → Node
  | [] => first
  | next :: rest => seq first (sequence next rest)

def Formal.node (f : Formal) : Node := .detached (.var f.name f.type)

mutual

/-- The tree of an expression. -/
def Expr.node : Expr → Node
  | .int n => .detached (.const (.int n))
  | .var name => .var name
  | .tuple first rest => .detached (.tuple (first.node :: Expr.nodes rest))
  | .field object name => .field object.node name
  | .element object name index => .detached (.compound object.node name index.node)
  | .item name index => .detached (.compound .nil name index.node)
  | .call name args => .detached (.call .nil name (Expr.nodes args))
  | .invoke object name args => .detached (.call object.node name (Expr.nodes args))
  | .unary op arg => .detached (.call .nil op.symbol.spelling [arg.node])
  | .binary op left right => .detached (.call .nil op.symbol.spelling [left.node, right.node])
  | .assign target value => .detached (.assign target.node value.node)
  | .alloc fields body => .detached (.new (FieldInit.nodes fields) body.node)
  | .method name formals body => .detached (.method name (formals.map Formal.node) body.node)
  | .ite condition positive negative =>
    .detached (.ite condition.node positive.node negative.node)
  | .guarded condition body => .detached (.ite condition.node body.node .nop)

def Expr.nodes : List Expr → List Node
  | [] => []
  | e :: es => e.node :: Expr.nodes es

def FieldInit.node : FieldInit → Node
  | .plain name => .detached (.init name .nil false)
  | .value name e => .detached (.init name e.node false)

def FieldInit.nodes : List FieldInit → List Node
  | [] => []
  | f :: fs => f.node :: FieldInit.nodes fs

def Body.node : Body → Node
  | .empty => .nop
  | .statements first rest => Node.sequence first.node (Expr.nodes rest)

end

/-! ## Tokens -/

namespace Expr

/-- The level of an expression. A negative constant starts with its sign. -/
def level : Expr → Level
  | int n => if n < 0 then .signed else .postfixed
  | unary .. => .signed
  | binary op .. => op.level
  | assign .. => .assignment
  | _ => .postfixed

def isMethod : Expr → Bool
  | method .. => true
  | _ => false

/-- Whether an expression is put in parentheses at a place for expressions of the level `l`, where
declarations are allowed as `d` says. -/
def needsParens (e : Expr) (l : Level) (d : Bool) : Bool :=
  decide (e.level.rank < l.rank) || (e.isMethod && !d)

/-- The tokens of an expression at a place, given its tokens without parentheses. -/
def bracketed (e : Expr) (own : Bool → List Kind) (l : Level) (d : Bool) : List Kind :=
  if e.needsParens l d then .symbol .openParen :: own true ++ [.symbol .closeParen] else own d

end Expr

/-- The separator stands in front of every part but the first. -/
theorem separated_cons (separator : Kind) (part : List Kind) (parts : List (List Kind)) :
    [separator].intercalate (part :: parts) =
      part ++ parts.flatMap fun next => separator :: next := by
  induction parts generalizing part with
  | nil => simp
  | cons next parts ih =>
    rw [List.intercalate_cons_cons, ih, List.flatMap_cons, List.append_assoc]
    rfl

def commas (parts : List (List Kind)) : List Kind := [Kind.symbol .comma].intercalate parts

theorem commas_cons (part : List Kind) (parts : List (List Kind)) :
    commas (part :: parts) = part ++ parts.flatMap fun next => .symbol .comma :: next :=
  separated_cons _ part parts

def semicolons (parts : List (List Kind)) : List Kind := [Kind.symbol .semicolon].intercalate parts

theorem semicolons_cons (part : List Kind) (parts : List (List Kind)) :
    semicolons (part :: parts) = part ++ parts.flatMap fun next => .symbol .semicolon :: next :=
  separated_cons _ part parts

mutual

def VarType.tokens : VarType → List Kind
  | .value => [.symbol .star]
  | .tuple items => .symbol .less :: commas (VarType.parts items) ++ [.symbol .greater]

def VarType.parts : List VarType → List (List Kind)
  | [] => []
  | t :: ts => t.tokens :: VarType.parts ts

end

def Formal.tokens (f : Formal) : List Kind :=
  match f.type with
  | none => [.name f.name]
  | some type => .name f.name :: .symbol .colon :: type.tokens

mutual

/-- The tokens of an expression without parentheses around it, where declarations are allowed as `d`
says. Every kind of bracket but the angles of a tuple allows them again. -/
def Expr.own : Expr → Bool → List Kind
  | .int n, _ => if n < 0 then [.symbol .minus, .number (-n)] else [.number n]
  | .var name, _ => [.name name]
  | .tuple first rest, d =>
    .symbol .less :: commas (first.bracketed first.own .sum d :: Expr.parts .sum d rest)
      ++ [.symbol .greater]
  | .field object name, d => object.bracketed object.own .postfixed d ++ [.symbol .dot, .name name]
  | .element object name index, d =>
    object.bracketed object.own .postfixed d ++ [.symbol .dot, .name name, .symbol .openBracket]
      ++ index.bracketed index.own .logic true ++ [.symbol .closeBracket]
  | .item name index, _ =>
    [.name name, .symbol .openBracket] ++ index.bracketed index.own .logic true
      ++ [.symbol .closeBracket]
  | .call name args, _ =>
    [.name name, .symbol .openParen] ++ commas (Expr.parts .logic true args)
      ++ [.symbol .closeParen]
  | .invoke object name args, d =>
    object.bracketed object.own .postfixed d ++ [.symbol .dot, .name name, .symbol .openParen]
      ++ commas (Expr.parts .logic true args) ++ [.symbol .closeParen]
  | .unary op arg, d => .symbol op.symbol :: arg.bracketed arg.own .signed d
  | .binary op left right, d =>
    left.bracketed left.own op.leftLevel d ++ .symbol op.symbol
      :: right.bracketed right.own op.level.operand d
  | .assign target value, d =>
    target.bracketed target.own .comparison d ++ .symbol .assign
      :: value.bracketed value.own .comparison d
  | .alloc fields body, _ =>
    [.keyword .new, .symbol .openParen] ++ commas (FieldInit.parts fields)
      ++ .symbol .closeParen :: body.tokens
  | .method name formals body, _ =>
    [.name name, .symbol .openParen] ++ commas (formals.map Formal.tokens)
      ++ .symbol .closeParen :: body.tokens
  | .ite condition positive negative, _ =>
    .keyword .ifWord :: condition.bracketed condition.own .logic false ++ positive.tokens
      ++ .keyword .elseWord :: negative.tokens
  | .guarded condition body, _ =>
    .keyword .ifWord :: condition.bracketed condition.own .logic false ++ body.tokens

/-- The tokens of each of several expressions at places of the same level. -/
def Expr.parts (l : Level) (d : Bool) : List Expr → List (List Kind)
  | [] => []
  | e :: es => e.bracketed e.own l d :: Expr.parts l d es

def FieldInit.tokens : FieldInit → List Kind
  | .plain name => [.name name]
  | .value name e => .name name :: .symbol .assign :: e.bracketed e.own .logic true

def FieldInit.parts : List FieldInit → List (List Kind)
  | [] => []
  | f :: fs => f.tokens :: FieldInit.parts fs

def Body.tokens : Body → List Kind
  | .empty => [.symbol .openBrace, .symbol .closeBrace]
  | .statements first rest =>
    .symbol .openBrace :: semicolons (first.bracketed first.own .logic true ::
      Expr.parts .logic true rest) ++ [.symbol .closeBrace]

end

/-- The tokens of an expression at a place for expressions of the level `l`, where declarations are
allowed as `d` says. -/
def Expr.tokens (e : Expr) (l : Level) (d : Bool) : List Kind := e.bracketed e.own l d

/-- How a token is written. -/
def Token.Kind.spelling : Kind → String
  | keyword k => k.spelling
  | symbol s => s.spelling
  | name text => text
  | number n => Text.decimal n
  | verbatim text => text
  | eof => ""

/-- The text of an expression. -/
def Expr.text (e : Expr) : String :=
  " ".intercalate ((e.tokens .logic true).map Kind.spelling)

/-! ## Well-formed expressions -/

/-- Whether a text is a name that is no reserved word. -/
def isIdentifier (text : String) : Bool :=
  Text.isName text.toList && (Keyword.ofSpelling? text).isNone

mutual

/-- Tuple types have components. -/
def VarType.isValid : VarType → Bool
  | .value => true
  | .tuple items => !items.isEmpty && VarType.allValid items

def VarType.allValid : List VarType → Bool
  | [] => true
  | t :: ts => t.isValid && VarType.allValid ts

end

def Formal.isValid (f : Formal) : Bool := isIdentifier f.name && f.type.all VarType.isValid

/-- Whether an expression can be assigned. -/
def Expr.isPlace : Expr → Bool
  | .var _ | .field .. | .element .. | .item .. => true
  | _ => false

/-- Whether an operator can stand in front of an expression. A sign in front of an integer constant
would be part of the constant. -/
def UnaryOp.applies (op : UnaryOp) : Expr → Bool
  | .int _ => op == .bang
  | _ => true

mutual

/-- Names are identifiers, integer constants have an opposite, signs stand in front of what is no
constant, and only places are assigned. -/
def Expr.isValid : Expr → Bool
  | .int n => n != Int64.minValue
  | .var name => isIdentifier name
  | .tuple first rest => first.isValid && Expr.allValid rest
  | .field object name => object.isValid && isIdentifier name
  | .element object name index => object.isValid && isIdentifier name && index.isValid
  | .item name index => isIdentifier name && index.isValid
  | .call name args => isIdentifier name && Expr.allValid args
  | .invoke object name args => object.isValid && isIdentifier name && Expr.allValid args
  | .unary op arg => op.applies arg && arg.isValid
  | .binary _ left right => left.isValid && right.isValid
  | .assign target value => target.isPlace && target.isValid && value.isValid
  | .alloc fields body => FieldInit.allValid fields && body.isValid
  | .method name formals body => isIdentifier name && formals.all Formal.isValid && body.isValid
  | .ite condition positive negative =>
    condition.isValid && positive.isValid && negative.isValid
  | .guarded condition body => condition.isValid && body.isValid

def Expr.allValid : List Expr → Bool
  | [] => true
  | e :: es => e.isValid && Expr.allValid es

def FieldInit.isValid : FieldInit → Bool
  | .plain name => isIdentifier name
  | .value name e => isIdentifier name && e.isValid

def FieldInit.allValid : List FieldInit → Bool
  | [] => true
  | f :: fs => f.isValid && FieldInit.allValid fs

def Body.isValid : Body → Bool
  | .empty => true
  | .statements first rest => first.isValid && Expr.allValid rest

end

end ProofScript
