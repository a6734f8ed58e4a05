import ProofScript.Grammar.Build
import ProofScript.Grammar.Type

/-!
# The grammar of expressions

From the loosest to the tightest: `&` and `|`, which associate to the left; assignment and
comparison, which do not associate; `+` and `-`, then `*` and `/`, which associate to the left; the
prefix operators; and the accessors that follow a primary expression. The components of a tuple bind
tighter than a comparison, so that `>` closes the tuple.

A name with arguments is a method declaration when a block follows. In the condition of an `if` the
block is the branch, so declarations are not allowed there; brackets of every kind allow them again.

Each level reads its operands with the level below. The levels that start anew between brackets
do so on a shorter token list, so they are given as a parameter, `Readers n`, and the grammar is
closed by recursion on the number of tokens (`readersBelow`).
-/

namespace ProofScript.Grammar

/-- A reader for cursors with fewer than `n` tokens. The flag allows method declarations. -/
abbrev Reader (n : Nat) (α : Type) :=
  Bool → (c : Cursor) → c.size < n → Except ParseError (Parsed c.size α)

/-- The levels of the grammar that start anew between brackets. -/
structure Readers (n : Nat) where
  /-- A whole expression. -/
  expr : Reader n Node
  /-- A component of a tuple. -/
  sum : Reader n Node

variable {n : Nat}

/-! ## Lists between brackets -/

/-- Reads an expression up to and including the symbol `close`, and returns the place of the symbol
with it. -/
def closedExpr (readers : Readers n) (close : Symbol) (c : Cursor) (h : c.size < n) :
    Except ParseError (Parsed c.size (Node × Span)) := do
  let inner ← readers.expr true c h
  let close ← inner.rest.symbol close
  return (inner.before close).map fun place => (inner.value, place)

/-- Whether a typed formal parameter comes next. -/
def atTypedFormal (c : Cursor) : Bool :=
  match c.kind? with
  | some (.name _) => c.advance.at? .colon
  | _ => false

/-- Reads a typed formal parameter. -/
def typedFormal (c : Cursor) : Except ParseError (Parsed c.size Node) := do
  let name ← c.name
  let colon ← name.rest.symbol .colon
  let type ← type colon.rest
  return (name.before (colon.before type)).build
    (Numbering.node name.value.2 (.var name.value.1 (some type.value)))

/-- Reads one argument, or one typed formal parameter. -/
def argument (readers : Readers n) (c : Cursor) (h : c.size < n) :
    Except ParseError (Parsed c.size Node) :=
  if atTypedFormal c then typedFormal c else readers.expr true c h

/-- Reads the arguments up to and including the closing parenthesis, after the arguments `args`. A
comma may follow the last argument. -/
def arguments (readers : Readers n) (args : List Node) (c : Cursor) (h : c.size < n) :
    Except ParseError (Parsed c.size (List Node × Span)) :=
  if hc : c.kind? = some (.symbol .closeParen) then
    .ok ⟨(args, c.span), c.advance, Cursor.size_advance_lt hc⟩
  else
    match argument readers c h with
    | .error e => .error e
    | .ok arg =>
      have ha := arg.shorter
      if hp : arg.rest.kind? = some (.symbol .closeParen) then
        have hr := Cursor.size_advance_lt hp
        .ok ⟨(args ++ [arg.value], arg.rest.span), arg.rest.advance, by omega⟩
      else
        match arg.rest.symbol .comma with
        | .error e => .error e
        | .ok comma =>
          have hm := comma.shorter
          match arguments readers (args ++ [arg.value]) comma.rest (by omega) with
          | .error e => .error e
          | .ok all => .ok (arg.before (comma.before all))
termination_by c.size

/-- Reads the statements of a block up to and including the closing brace, after the statements
`items`. Statements may be separated by semicolons. -/
def statements (readers : Readers n) (items : List Node) (c : Cursor) (h : c.size < n) :
    Except ParseError (Parsed c.size (List Node × Span)) :=
  have hk := Cursor.size_skipSemicolons_le c
  if hc : c.skipSemicolons.kind? = some (.symbol .closeBrace) then
    have hr := Cursor.size_advance_lt hc
    .ok ⟨(items, c.skipSemicolons.span), c.skipSemicolons.advance, by omega⟩
  else
    match readers.expr true c.skipSemicolons (by omega) with
    | .error e => .error e
    | .ok item =>
      have hi := item.shorter
      match statements readers (items ++ [item.value]) item.rest (by omega) with
      | .error e => .error e
      | .ok all =>
        have hs := all.shorter
        .ok ⟨all.value, all.rest, by omega⟩
termination_by c.size

/-- Reads a block. -/
def block (readers : Readers n) (c : Cursor) (h : c.size ≤ n) :
    Except ParseError (Parsed c.size Node) := do
  let brace ← c.symbol .openBrace
  have hb := brace.shorter
  let items ← statements readers [] brace.rest (by omega)
  return (brace.before items).build
    (Numbering.block (brace.value.join items.value.2) items.value.1)

/-! ## Primary expressions -/

/-- Reads the initial value of a field that stands at `place`, when there is one. A field without an
initial value starts as nil. -/
def initialValue (readers : Readers n) (c : Cursor) (h : c.size < n) (place : Span) :
    Except ParseError (Parsed (c.size + 1) Node) :=
  if ha : c.kind? = some (.symbol .assign) then do
    have hl := Cursor.size_advance_lt ha
    let value ← readers.expr true c.advance (by omega)
    return (value.behind ha).optional
  else .ok ((Parsed.nothing () c).build (Numbering.nil place))

/-- Reads the field initialisers of an allocation up to and including the closing parenthesis,
after the initialisers `fields`. -/
def initialisers (readers : Readers n) (fields : List Node) (c : Cursor) (h : c.size < n) :
    Except ParseError (Parsed c.size (List Node)) :=
  if hc : c.kind? = some (.symbol .closeParen) then
    .ok ⟨fields, c.advance, Cursor.size_advance_lt hc⟩
  else
    match c.name with
    | .error e => .error e
    | .ok name =>
      have hn := name.shorter
      let place := name.value.2
      match initialValue readers name.rest (by omega) place with
      | .error e => .error e
      | .ok value =>
        let field := (name.beforeOptional value).build
          (Numbering.node (place.join value.value.span) (.init name.value.1 value.value false))
        have hv := field.shorter
        if hp : field.rest.kind? = some (.symbol .closeParen) then
          have hr := Cursor.size_advance_lt hp
          .ok ⟨fields ++ [field.value], field.rest.advance, by omega⟩
        else
          match field.rest.symbol .comma with
          | .error e => .error e
          | .ok comma =>
            have hm := comma.shorter
            match initialisers readers (fields ++ [field.value]) comma.rest (by omega) with
            | .error e => .error e
            | .ok all => .ok (field.before (comma.before all))
termination_by c.size

/-- Reads an allocation. -/
def allocation (readers : Readers n) (c : Cursor) (h : c.size ≤ n) :
    Except ParseError (Parsed c.size Node) := do
  let word ← c.keyword .new
  have hw := word.shorter
  let paren ← word.rest.symbol .openParen
  have hp := paren.shorter
  let fields ← initialisers readers [] paren.rest (by omega)
  have hf := fields.shorter
  let body ← block readers fields.rest (by omega)
  return (word.before (paren.before (fields.before body))).build
    (Numbering.node (word.value.join body.value.span) (.new fields.value body.value))

/-- Reads the second branch of a conditional; without one it is the empty program, which stands
where the first branch does. -/
def otherwise (readers : Readers n) (positive : Node) (c : Cursor) (h : c.size < n) :
    Except ParseError (Parsed (c.size + 1) Node) :=
  if he : c.kind? = some (.keyword .elseWord) then do
    have hl := Cursor.size_advance_lt he
    let negative ← block readers c.advance (by omega)
    return (negative.behind he).optional
  else .ok ((Parsed.nothing () c).build (Numbering.node positive.span .nop))

/-- Reads a conditional. -/
def conditional (readers : Readers n) (c : Cursor) (h : c.size ≤ n) :
    Except ParseError (Parsed c.size Node) := do
  let word ← c.keyword .ifWord
  have hw := word.shorter
  let condition ← readers.expr false word.rest (by omega)
  have hc := condition.shorter
  let positive ← block readers condition.rest (by omega)
  have hp := positive.shorter
  let negative ← otherwise readers positive.value positive.rest (by omega)
  return (word.before (condition.before (positive.beforeOptional negative))).build
    (Numbering.node (word.value.join negative.value.span)
      (.ite condition.value positive.value negative.value))

/-- Reads the components of a tuple after the first, up to and including the closing bracket. -/
def components (readers : Readers n) (decls : Bool) (items : List Node) (c : Cursor)
    (h : c.size < n) : Except ParseError (Parsed c.size (List Node × Span)) :=
  if hm : c.kind? = some (.symbol .comma) then
    have hl := Cursor.size_advance_lt hm
    match readers.sum decls c.advance (by omega) with
    | .error e => .error e
    | .ok item =>
      have hi := item.shorter
      match components readers decls (items ++ [item.value]) item.rest (by omega) with
      | .error e => .error e
      | .ok all => .ok ((item.before all).behind hm)
  else do
    let close ← c.symbol .greater
    return close.map fun place => (items, place)
termination_by c.size

/-- Reads a tuple. -/
def tuple (readers : Readers n) (decls : Bool) (c : Cursor) (h : c.size ≤ n) :
    Except ParseError (Parsed c.size Node) := do
  let angle ← c.symbol .less
  have ha := angle.shorter
  let first ← readers.sum decls angle.rest (by omega)
  have hf := first.shorter
  let items ← components readers decls [first.value] first.rest (by omega)
  return (angle.before (first.before items)).build
    (Numbering.node (angle.value.join items.value.2) (.tuple items.value.1))

/-- Reads what follows a name in front of a parenthesis: the arguments of a call or, when
declarations are allowed and a block follows, the formals and the body of a method. -/
def callOrMethod (readers : Readers n) (decls : Bool) (name : String) (place : Span) (c : Cursor)
    (h : c.size < n) : Except ParseError (Parsed c.size Node) := do
  let paren ← c.symbol .openParen
  have hp := paren.shorter
  let args ← arguments readers [] paren.rest (by omega)
  have ha := args.shorter
  if decls && args.rest.at? .openBrace then
    match args.value.1.find? fun a => a.tag != .var with
    | some bad => throw { fault := .formal name, span := bad.span }
    | none =>
      let body ← block readers args.rest (by omega)
      return (paren.before (args.before body)).build
        (Numbering.node (place.join body.value.span) (.method name args.value.1 body.value))
  else
    return (paren.before args).build
      (Numbering.call (place.join args.value.2) name args.value.1)

/-- Reads an expression between parentheses. -/
def parenthesised (readers : Readers n) (c : Cursor) (h : c.size ≤ n) :
    Except ParseError (Parsed c.size Node) := do
  let paren ← c.symbol .openParen
  have hp := paren.shorter
  let inner ← closedExpr readers .closeParen paren.rest (by omega)
  return (paren.before inner).map Prod.fst

/-- Reads a primary expression. -/
def primary (readers : Readers n) (decls : Bool) (c : Cursor) (h : c.size ≤ n) :
    Except ParseError (Parsed c.size Node) :=
  match hk : c.kind? with
  | some (.number value) =>
    .ok ((Parsed.token hk).build (Numbering.node c.span (.const (.int value))))
  | some (.name text) => do
    if c.advance.at? .openParen then
      let call ← callOrMethod readers decls text c.span c.advance (Cursor.size_advance_below h hk)
      return call.behind hk
    else return (Parsed.token hk).build (Numbering.node c.span (.var text none))
  | some (.keyword .new) => allocation readers c h
  | some (.keyword .ifWord) => conditional readers c h
  | some (.symbol .openParen) => parenthesised readers c h
  | some (.symbol .less) => tuple readers decls c h
  -- The other tokens are listed, so that no case overlaps with that of a literal.
  | some (.keyword _) | some (.symbol _) | some (.verbatim _) | some .eof | none =>
    .error (c.unexpected .expression)

/-! ## Accessors and operators -/

/-- Reads the accessors that follow the expression `base`. Only a field access can be called. -/
def accessors (readers : Readers n) (base : Node) (c : Cursor) (h : c.size < n) :
    Except ParseError (Parsed (c.size + 1) Node) :=
  if hd : c.kind? = some (.symbol .dot) then
    have hl := Cursor.size_advance_lt hd
    match c.advance.name with
    | .error e => .error e
    | .ok name =>
      let field := name.build (Numbering.field base name.value.1 name.value.2)
      have hn := field.shorter
      match accessors readers field.value field.rest (by omega) with
      | .error e => .error e
      | .ok all => .ok ((field.beforeOptional all).behind hd).optional
  else if hb : c.kind? = some (.symbol .openBracket) then
    have hl := Cursor.size_advance_lt hb
    match closedExpr readers .closeBracket c.advance (by omega) with
    | .error e => .error e
    | .ok index =>
      match Numbering.index base index.value.1 index.value.2 with
      | .error e => .error e
      | .ok make =>
        let indexed := index.build make
        have hn := indexed.shorter
        match accessors readers indexed.value indexed.rest (by omega) with
        | .error e => .error e
        | .ok all => .ok ((indexed.beforeOptional all).behind hb).optional
  else if hp : c.kind? = some (.symbol .openParen) ∧ base.tag = .compound then
    have hl := Cursor.size_advance_lt hp.1
    match arguments readers [] c.advance (by omega) with
    | .error e => .error e
    | .ok args =>
      have hn := args.shorter
      match Numbering.memberCall base args.value.1 args.value.2 with
      | .error e => .error e
      | .ok call =>
        match accessors readers call args.rest (by omega) with
        | .error e => .error e
        | .ok all => .ok ((args.beforeOptional all).behind hp.1).optional
  else .ok (Parsed.nothing base c)
termination_by c.size
decreasing_by all_goals exact Nat.lt_trans hn hl

/-- Reads a primary expression and the accessors that follow it. -/
def postfixed (readers : Readers n) (decls : Bool) (c : Cursor) (h : c.size ≤ n) :
    Except ParseError (Parsed c.size Node) := do
  let base ← primary readers decls c h
  have hb := base.shorter
  let all ← accessors readers base.value base.rest (by omega)
  return base.beforeOptional all

/-- The prefix operator that a token is. -/
def prefixOperator? : Token.Kind → Option Symbol
  | .symbol .minus => some .minus
  | .symbol .plus => some .plus
  | .symbol .bang => some .bang
  | _ => none

/-- Reads a postfixed expression behind any number of prefix operators. -/
def signed (readers : Readers n) (decls : Bool) (c : Cursor) (h : c.size ≤ n) :
    Except ParseError (Parsed c.size Node) :=
  match hk : c.kind?.bind prefixOperator? with
  | none => postfixed readers decls c h
  | some op =>
    have hl : c.advance.size < c.size := by
      obtain ⟨k, hk, _⟩ := Option.bind_eq_some_iff.1 hk
      exact Cursor.size_advance_lt hk
    match signed readers decls c.advance (by omega) with
    | .error e => .error e
    | .ok arg =>
      let all := arg.build (Numbering.unary op c.span arg.value)
      have ha := all.shorter
      .ok ⟨all.value, all.rest, by omega⟩
termination_by c.size

/-- A level of the grammar, as a reader of operands. -/
abbrev Operand (n : Nat) := (c : Cursor) → c.size ≤ n → Except ParseError (Parsed c.size Node)

/-- Reads the operators and operands that follow the operand `left`, where the operators associate
to the left. -/
def operatorsAfter (op? : Token.Kind → Option Symbol) (operand : Operand n) (left : Node)
    (c : Cursor) (h : c.size < n) : Except ParseError (Parsed (c.size + 1) Node) :=
  match hk : c.kind?.bind op? with
  | none => .ok (Parsed.nothing left c)
  | some op =>
    have hl : c.advance.size < c.size := by
      obtain ⟨k, hk, _⟩ := Option.bind_eq_some_iff.1 hk
      exact Cursor.size_advance_lt hk
    match operand c.advance (by omega) with
    | .error e => .error e
    | .ok right =>
      let both := right.build (Numbering.binary op.spelling left right.value)
      have hr := both.shorter
      match operatorsAfter op? operand both.value both.rest (by omega) with
      | .error e => .error e
      | .ok all =>
        have ha := all.shorter
        .ok ⟨all.value, all.rest, by omega⟩
termination_by c.size
decreasing_by exact Nat.lt_trans hr hl

/-- Reads a level whose operators associate to the left. -/
def leftLevel (op? : Token.Kind → Option Symbol) (operand : Operand n) : Operand n := fun c h => do
  let left ← operand c h
  have hl := left.shorter
  let all ← operatorsAfter op? operand left.value left.rest (by omega)
  return left.beforeOptional all

/-- The multiplicative operator that a token is. -/
def productOperator? : Token.Kind → Option Symbol
  | .symbol .star => some .star
  | .symbol .slash => some .slash
  | _ => none

/-- The additive operator that a token is. -/
def sumOperator? : Token.Kind → Option Symbol
  | .symbol .plus => some .plus
  | .symbol .minus => some .minus
  | _ => none

/-- The comparison that a token is. -/
def comparison? : Token.Kind → Option Symbol
  | .symbol .less => some .less
  | .symbol .greater => some .greater
  | .symbol .equal => some .equal
  | _ => none

/-- The logical operator that a token is. -/
def logicOperator? : Token.Kind → Option Symbol
  | .symbol .amp => some .amp
  | .symbol .pipe => some .pipe
  | _ => none

/-- Reads products. -/
def product (readers : Readers n) (decls : Bool) : Operand n :=
  leftLevel productOperator? (signed readers decls)

/-- Reads sums. -/
def sum (readers : Readers n) (decls : Bool) : Operand n :=
  leftLevel sumOperator? (product readers decls)

/-- Reads at most one comparison. -/
def comparison (readers : Readers n) (decls : Bool) : Operand n := fun c h => do
  let left ← sum readers decls c h
  have hl := left.shorter
  match hk : left.rest.kind?.bind comparison? with
  | none => return left
  | some op =>
    have ha : left.rest.advance.size < left.rest.size := by
      obtain ⟨k, hk, _⟩ := Option.bind_eq_some_iff.1 hk
      exact Cursor.size_advance_lt hk
    let right ← sum readers decls left.rest.advance (by omega)
    if (right.rest.kind?.bind comparison?).isSome then
      throw { fault := .chainedComparison, span := right.rest.span }
    else
      let both := right.build (Numbering.binary op.spelling left.value right.value)
      have hb := both.shorter
      return ⟨both.value, both.rest, by omega⟩

/-- Whether a node can be assigned. -/
def isAssignable (n : Node) : Bool := n.tag == .var || n.tag == .compound

/-- Reads at most one assignment. -/
def assignment (readers : Readers n) (decls : Bool) : Operand n := fun c h => do
  let target ← comparison readers decls c h
  have ht := target.shorter
  if ha : target.rest.kind? = some (.symbol .assign) then
    have hl := Cursor.size_advance_lt ha
    if isAssignable target.value then
      let value ← comparison readers decls target.rest.advance (by omega)
      if value.rest.at? .assign then
        throw { fault := .chainedAssignment, span := value.rest.span }
      else
        return (target.before (value.behind ha)).build (Numbering.node
          (target.value.span.join value.value.span) (.assign target.value value.value))
    else throw { fault := .assignTarget, span := target.value.span }
  else return target

/-- Reads conjunctions and disjunctions, the loosest level. -/
def logic (readers : Readers n) (decls : Bool) : Operand n :=
  leftLevel logicOperator? (assignment readers decls)

/-! ## The whole grammar -/

/-- The readers for cursors with fewer than `n` tokens. -/
def readersBelow : (n : Nat) → Readers n
  | 0 => { expr := fun _ _ h => absurd h (Nat.not_lt_zero _)
           sum := fun _ _ h => absurd h (Nat.not_lt_zero _) }
  | n + 1 => { expr := fun decls c h => logic (readersBelow n) decls c (Nat.le_of_lt_succ h)
               sum := fun decls c h => sum (readersBelow n) decls c (Nat.le_of_lt_succ h) }

/-- Reads an expression in which method declarations are allowed as `decls` says. -/
def expr (decls : Bool) (c : Cursor) : Except ParseError (Parsed c.size Node) :=
  logic (readersBelow c.size) decls c (Nat.le_refl _)

end ProofScript.Grammar
