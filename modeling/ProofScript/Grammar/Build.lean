import ProofScript.Grammar.Cursor

/-!
# Nodes from what was read

How the constructs of a script become nodes. Operators become calls without a receiver that are
named by the operator; a sign in front of a literal is folded into the literal; an index or an
argument list turns the field access before it into an indexed access or a call, which keeps the
number of the access; a block becomes a sequence that nests to the right.
-/

namespace ProofScript.Numbering

/-- The nil constant, where the source has no receiver, no index or no initial value. -/
def nil (span : Span) : Numbering Node := node span (.const .nil)

/-- A call without a receiver. -/
def call (span : Span) (name : String) (args : List Node) : Numbering Node := do
  let receiver ← nil span
  node span (.call receiver name args)

/-- The application of a binary operator. -/
def binary (op : String) (lhs rhs : Node) : Numbering Node :=
  call (lhs.span.join rhs.span) op [lhs, rhs]

/-- The application of a unary operator that stands at `place`. The sign of an integer constant
becomes part of the constant; negation wraps around in 64 bits. -/
def unary (op : Symbol) (place : Span) (arg : Node) : Numbering Node :=
  let span := place.join arg.span
  match op, arg.shape with
  | .minus, .const (.int n) => pure (Node.mk arg.id span (.const (.int (-n))))
  | .plus, .const (.int _) => pure (Node.mk arg.id span arg.shape)
  | _, _ => call span op.spelling [arg]

/-- The field `name`, written at `place`, of `object`. -/
def field (object : Node) (name : String) (place : Span) : Numbering Node := do
  let span := object.span.join place
  let index ← nil span
  node span (.compound object name index)

/-- The index of a field or of a name, where `close` is the place of the closing bracket. -/
def index (base index : Node) (close : Span) : Except ParseError (Numbering Node) :=
  let span := base.span.join close
  match base.shape with
  | .compound object name old =>
    if old.isNil then .ok (pure (Node.mk base.id span (.compound object name index)))
    else .error { fault := .indexedTwice, span := span }
  | .var name _ => .ok do
    let object ← nil base.span
    return Node.mk base.id span (.compound object name index)
  | _ => .error { fault := .notIndexable, span := span }

/-- The call of a field access, where `close` is the place of the closing parenthesis. -/
def memberCall (target : Node) (args : List Node) (close : Span) : Except ParseError Node :=
  let span := target.span.join close
  match target.shape with
  | .compound receiver name index =>
    if index.isNil then .ok (Node.mk target.id span (.call receiver name args))
    else .error { fault := .indexedCall, span := span }
  | _ => .error { fault := .indexedCall, span := span }

/-- The sequence of the statements `first :: rest`, nested to the right. -/
def sequence (first : Node) : List Node → Numbering Node
  | [] => pure first
  | next :: rest => do
    let tail ← sequence next rest
    node (first.span.join tail.span) (.seq first tail)

/-- The body of a block that stands at `span`. -/
def block (span : Span) : List Node → Numbering Node
  | [] => node span .nop
  | first :: rest => sequence first rest

end ProofScript.Numbering
