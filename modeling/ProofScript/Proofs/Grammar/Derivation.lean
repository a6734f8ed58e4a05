import ProofScript.Grammar.Expr

/-!
# Derivations of expressions

What the readers of expressions accept, as a relation. `Reads p c c'` says that the tokens between
the positions `c` and `c'` are the phrase `p`; a phrase names a rule of the grammar together with
the node that the rule builds. The rules follow the readers one by one, so an induction over a
derivation has one case for each rule, and none for how the readers recurse.

A rule that continues something which has been read already carries it along: the left operand of
the operators that follow, the base of the accessors that follow, the members of a list so far.
-/

namespace ProofScript.Grammar

/-! ## Levels -/

/-- The levels of the grammar, from the loosest to the tightest. -/
inductive Level where
  /-- `&` and `|`. -/
  | logic
  /-- `=`. -/
  | assignment
  /-- `<`, `>` and `==`. -/
  | comparison
  /-- `+` and `-`. -/
  | sum
  /-- `*` and `/`. -/
  | product
  /-- The prefix operators. -/
  | signed
  /-- A primary expression and its accessors. -/
  | postfixed
  deriving DecidableEq, Repr

namespace Level

/-- Whether the operators of a level associate to the left. -/
def associates : Level → Bool
  | logic | sum | product => true
  | assignment | comparison | signed | postfixed => false

/-- The level of the operands of a level. -/
def operand : Level → Level
  | logic => assignment
  | assignment => comparison
  | comparison => sum
  | sum => product
  | product => signed
  | signed | postfixed => postfixed

/-- The operator that associates to the left at a level and that a token is. -/
def operator? : Level → Token.Kind → Option Symbol
  | logic => logicOperator?
  | sum => sumOperator?
  | product => productOperator?
  | assignment | comparison | signed | postfixed => fun _ => none

end Level

/-! ## Phrases -/

/-- A rule of the grammar with what it builds. -/
inductive Phrase where
  /-- An expression of a level. -/
  | level (l : Level) (decls : Bool) (n : Node)
  /-- The operators and operands of a level that follow `left`. -/
  | operators (l : Level) (decls : Bool) (left n : Node)
  /-- The accessors that follow `base`. -/
  | accessors (base n : Node)
  /-- A primary expression. -/
  | primary (decls : Bool) (n : Node)
  /-- A block. -/
  | block (n : Node)
  /-- The statements of a block that follow `before`, and the closing brace. -/
  | statements (before all : List Node) (close : Span)
  /-- An argument, or a typed formal parameter. -/
  | argument (n : Node)
  /-- The arguments that follow `before`, and the closing parenthesis. -/
  | arguments (before all : List Node) (close : Span)
  /-- The components of a tuple that follow `before`, and the closing bracket. -/
  | components (decls : Bool) (before all : List Node) (close : Span)
  /-- The initial value of a field that stands at `place`. -/
  | initialValue (place : Span) (n : Node)
  /-- The field initialisers that follow `before`, and the closing parenthesis. -/
  | initialisers (before all : List Node)
  /-- The second branch of a conditional. -/
  | otherwise (positive n : Node)

/-! ## Derivations -/

/-- The tokens between two positions are a phrase. -/
inductive Reads : Phrase → Cursor → Cursor → Prop where
  -- Operators
  /-- The first operand of a level that associates to the left, and what follows it. -/
  | operands {l : Level} {d : Bool} {left n : Node} {c c₁ c₂ : Cursor} (hl : l.associates = true)
      (first : Reads (.level l.operand d left) c c₁)
      (rest : Reads (.operators l d left n) c₁ c₂) : Reads (.level l d n) c c₂
  /-- No operator of the level follows. -/
  | noOperator {l : Level} {d : Bool} {left : Node} {c : Cursor}
      (stop : c.kind?.bind l.operator? = none) : Reads (.operators l d left left) c c
  /-- An operator of the level, its right operand, and what follows. -/
  | operator {l : Level} {d : Bool} {left right n : Node} {op : Symbol} {c c₁ c₂ : Cursor}
      (here : c.kind?.bind l.operator? = some op)
      (operand : Reads (.level l.operand d right) c.advance c₁)
      (rest : Reads (.operators l d (c₁.build (Numbering.binary op.spelling left right)).1 n)
        (c₁.build (Numbering.binary op.spelling left right)).2 c₂) :
      Reads (.operators l d left n) c c₂
  /-- No assignment. -/
  | unassigned {d : Bool} {n : Node} {c c₁ : Cursor} (target : Reads (.level .comparison d n) c c₁)
      (stop : c₁.kind? ≠ some (.symbol .assign)) : Reads (.level .assignment d n) c c₁
  /-- An assignment. -/
  | assigned {d : Bool} {target value : Node} {c c₁ c₂ : Cursor}
      (left : Reads (.level .comparison d target) c c₁)
      (assign : c₁.kind? = some (.symbol .assign)) (assignable : isAssignable target = true)
      (right : Reads (.level .comparison d value) c₁.advance c₂)
      (single : c₂.kind? ≠ some (.symbol .assign)) :
      Reads (.level .assignment d
          (c₂.build (Numbering.node (target.span.join value.span) (.assign target value))).1) c
        (c₂.build (Numbering.node (target.span.join value.span) (.assign target value))).2
  /-- No comparison. -/
  | uncompared {d : Bool} {n : Node} {c c₁ : Cursor} (sum : Reads (.level .sum d n) c c₁)
      (stop : c₁.kind?.bind comparison? = none) : Reads (.level .comparison d n) c c₁
  /-- A comparison. -/
  | compared {d : Bool} {left right : Node} {op : Symbol} {c c₁ c₂ : Cursor}
      (first : Reads (.level .sum d left) c c₁) (here : c₁.kind?.bind comparison? = some op)
      (second : Reads (.level .sum d right) c₁.advance c₂)
      (single : c₂.kind?.bind comparison? = none) :
      Reads (.level .comparison d (c₂.build (Numbering.binary op.spelling left right)).1) c
        (c₂.build (Numbering.binary op.spelling left right)).2
  /-- No prefix operator. -/
  | unsigned {d : Bool} {n : Node} {c c₁ : Cursor} (stop : c.kind?.bind prefixOperator? = none)
      (postfixed : Reads (.level .postfixed d n) c c₁) : Reads (.level .signed d n) c c₁
  /-- A prefix operator and its operand. -/
  | signed {d : Bool} {arg : Node} {op : Symbol} {c c₁ : Cursor}
      (here : c.kind?.bind prefixOperator? = some op)
      (operand : Reads (.level .signed d arg) c.advance c₁) :
      Reads (.level .signed d (c₁.build (Numbering.unary op c.span arg)).1) c
        (c₁.build (Numbering.unary op c.span arg)).2
  -- Accessors
  /-- A primary expression and its accessors. -/
  | postfixed {d : Bool} {base n : Node} {c c₁ c₂ : Cursor} (primary : Reads (.primary d base) c c₁)
      (accessors : Reads (.accessors base n) c₁ c₂) : Reads (.level .postfixed d n) c c₂
  /-- No accessor follows. -/
  | noAccessor {base : Node} {c : Cursor} (dot : c.kind? ≠ some (.symbol .dot))
      (bracket : c.kind? ≠ some (.symbol .openBracket))
      (paren : ¬(c.kind? = some (.symbol .openParen) ∧ base.tag = .compound)) :
      Reads (.accessors base base) c c
  /-- A field access. -/
  | field {base n : Node} {text : String} {c c₂ : Cursor} (dot : c.kind? = some (.symbol .dot))
      (name : c.advance.kind? = some (.name text))
      (rest : Reads (.accessors
          (c.advance.advance.build (Numbering.field base text c.advance.span)).1 n)
        (c.advance.advance.build (Numbering.field base text c.advance.span)).2 c₂) :
      Reads (.accessors base n) c c₂
  /-- An index. -/
  | index {base i n : Node} {make : Numbering Node} {c c₁ c₂ : Cursor}
      (bracket : c.kind? = some (.symbol .openBracket))
      (inner : Reads (.level .logic true i) c.advance c₁)
      (close : c₁.kind? = some (.symbol .closeBracket))
      (allowed : Numbering.index base i c₁.span = .ok make)
      (rest : Reads (.accessors (c₁.advance.build make).1 n) (c₁.advance.build make).2 c₂) :
      Reads (.accessors base n) c c₂
  /-- The arguments of a method call. -/
  | memberCall {base call n : Node} {args : List Node} {close : Span} {c c₁ c₂ : Cursor}
      (paren : c.kind? = some (.symbol .openParen)) (compound : base.tag = .compound)
      (inner : Reads (.arguments [] args close) c.advance c₁)
      (allowed : Numbering.memberCall base args close = .ok call)
      (rest : Reads (.accessors call n) c₁ c₂) : Reads (.accessors base n) c c₂
  -- Primary expressions
  /-- A literal. -/
  | number {d : Bool} {value : Int64} {c : Cursor} (literal : c.kind? = some (.number value)) :
      Reads (.primary d (c.advance.build (Numbering.node c.span (.const (.int value)))).1) c
        (c.advance.build (Numbering.node c.span (.const (.int value)))).2
  /-- A name without arguments. -/
  | name {d : Bool} {text : String} {c : Cursor} (name : c.kind? = some (.name text))
      (paren : c.advance.kind? ≠ some (.symbol .openParen)) :
      Reads (.primary d (c.advance.build (Numbering.node c.span (.var text none))).1) c
        (c.advance.build (Numbering.node c.span (.var text none))).2
  /-- A call without a receiver. -/
  | call {d : Bool} {text : String} {args : List Node} {close : Span} {c c₁ : Cursor}
      (name : c.kind? = some (.name text))
      (paren : c.advance.kind? = some (.symbol .openParen))
      (inner : Reads (.arguments [] args close) c.advance.advance c₁)
      (brace : ¬(d = true ∧ c₁.kind? = some (.symbol .openBrace))) :
      Reads (.primary d (c₁.build (Numbering.call (c.span.join close) text args)).1) c
        (c₁.build (Numbering.call (c.span.join close) text args)).2
  /-- A method declaration. -/
  | method {text : String} {args : List Node} {close : Span} {body : Node} {c c₁ c₂ : Cursor}
      (name : c.kind? = some (.name text))
      (paren : c.advance.kind? = some (.symbol .openParen))
      (inner : Reads (.arguments [] args close) c.advance.advance c₁)
      (brace : c₁.kind? = some (.symbol .openBrace)) (formals : ∀ a ∈ args, a.tag = .var)
      (block : Reads (.block body) c₁ c₂) :
      Reads (.primary true
          (c₂.build (Numbering.node (c.span.join body.span) (.method text args body))).1) c
        (c₂.build (Numbering.node (c.span.join body.span) (.method text args body))).2
  /-- An allocation. -/
  | allocation {d : Bool} {fields : List Node} {body : Node} {c c₁ c₂ : Cursor}
      (new : c.kind? = some (.keyword .new))
      (paren : c.advance.kind? = some (.symbol .openParen))
      (inner : Reads (.initialisers [] fields) c.advance.advance c₁)
      (block : Reads (.block body) c₁ c₂) :
      Reads (.primary d (c₂.build (Numbering.node (c.span.join body.span) (.new fields body))).1) c
        (c₂.build (Numbering.node (c.span.join body.span) (.new fields body))).2
  /-- A conditional. -/
  | conditional {d : Bool} {condition positive negative : Node} {c c₁ c₂ c₃ : Cursor}
      (word : c.kind? = some (.keyword .ifWord))
      (test : Reads (.level .logic false condition) c.advance c₁)
      (first : Reads (.block positive) c₁ c₂)
      (second : Reads (.otherwise positive negative) c₂ c₃) :
      Reads (.primary d (c₃.build (Numbering.node (c.span.join negative.span)
          (.ite condition positive negative))).1) c
        (c₃.build (Numbering.node (c.span.join negative.span)
          (.ite condition positive negative))).2
  /-- An expression between parentheses. -/
  | parenthesised {d : Bool} {n : Node} {c c₁ : Cursor}
      (paren : c.kind? = some (.symbol .openParen))
      (inner : Reads (.level .logic true n) c.advance c₁)
      (close : c₁.kind? = some (.symbol .closeParen)) : Reads (.primary d n) c c₁.advance
  /-- A tuple. -/
  | tuple {d : Bool} {first : Node} {items : List Node} {close : Span} {c c₁ c₂ : Cursor}
      (angle : c.kind? = some (.symbol .less)) (inner : Reads (.level .sum d first) c.advance c₁)
      (rest : Reads (.components d [first] items close) c₁ c₂) :
      Reads (.primary d (c₂.build (Numbering.node (c.span.join close) (.tuple items))).1) c
        (c₂.build (Numbering.node (c.span.join close) (.tuple items))).2
  -- Lists between brackets
  /-- The end of a tuple. -/
  | endComponents {d : Bool} {before : List Node} {c : Cursor}
      (angle : c.kind? = some (.symbol .greater)) :
      Reads (.components d before before c.span) c c.advance
  /-- A further component of a tuple. -/
  | component {d : Bool} {before all : List Node} {item : Node} {close : Span} {c c₁ c₂ : Cursor}
      (comma : c.kind? = some (.symbol .comma)) (one : Reads (.level .sum d item) c.advance c₁)
      (rest : Reads (.components d (before ++ [item]) all close) c₁ c₂) :
      Reads (.components d before all close) c c₂
  /-- A typed formal parameter. -/
  | typedFormal {text : String} {c : Cursor} {t : Parsed c.advance.advance.size VarType}
      (name : c.kind? = some (.name text)) (colon : c.advance.kind? = some (.symbol .colon))
      (type : Grammar.type c.advance.advance = .ok t) :
      Reads (.argument (t.rest.build (Numbering.node c.span (.var text (some t.value)))).1) c
        (t.rest.build (Numbering.node c.span (.var text (some t.value)))).2
  /-- An argument. -/
  | argument {n : Node} {c c₁ : Cursor} (untyped : atTypedFormal c = false)
      (expr : Reads (.level .logic true n) c c₁) : Reads (.argument n) c c₁
  /-- The end of the arguments. -/
  | endArguments {before : List Node} {c : Cursor} (paren : c.kind? = some (.symbol .closeParen)) :
      Reads (.arguments before before c.span) c c.advance
  /-- The last argument. -/
  | lastArgument {before : List Node} {arg : Node} {c c₁ : Cursor}
      (open? : c.kind? ≠ some (.symbol .closeParen)) (one : Reads (.argument arg) c c₁)
      (paren : c₁.kind? = some (.symbol .closeParen)) :
      Reads (.arguments before (before ++ [arg]) c₁.span) c c₁.advance
  /-- An argument and a comma. -/
  | nextArgument {before all : List Node} {arg : Node} {close : Span} {c c₁ c₂ : Cursor}
      (open? : c.kind? ≠ some (.symbol .closeParen)) (one : Reads (.argument arg) c c₁)
      (comma : c₁.kind? = some (.symbol .comma))
      (rest : Reads (.arguments (before ++ [arg]) all close) c₁.advance c₂) :
      Reads (.arguments before all close) c c₂
  /-- The end of a block. -/
  | endStatements {before : List Node} {c : Cursor}
      (brace : c.skipSemicolons.kind? = some (.symbol .closeBrace)) :
      Reads (.statements before before c.skipSemicolons.span) c c.skipSemicolons.advance
  /-- A statement of a block. -/
  | statement {before all : List Node} {item : Node} {close : Span} {c c₁ c₂ : Cursor}
      (open? : c.skipSemicolons.kind? ≠ some (.symbol .closeBrace))
      (one : Reads (.level .logic true item) c.skipSemicolons c₁)
      (rest : Reads (.statements (before ++ [item]) all close) c₁ c₂) :
      Reads (.statements before all close) c c₂
  /-- A block. -/
  | block {items : List Node} {close : Span} {c c₁ : Cursor}
      (brace : c.kind? = some (.symbol .openBrace))
      (inner : Reads (.statements [] items close) c.advance c₁) :
      Reads (.block (c₁.build (Numbering.block (c.span.join close) items)).1) c
        (c₁.build (Numbering.block (c.span.join close) items)).2
  /-- A field that starts as nil. -/
  | noValue {place : Span} {c : Cursor} (stop : c.kind? ≠ some (.symbol .assign)) :
      Reads (.initialValue place (c.build (Numbering.nil place)).1) c
        (c.build (Numbering.nil place)).2
  /-- An initial value. -/
  | value {place : Span} {n : Node} {c c₁ : Cursor} (assign : c.kind? = some (.symbol .assign))
      (expr : Reads (.level .logic true n) c.advance c₁) : Reads (.initialValue place n) c c₁
  /-- The end of the field initialisers. -/
  | endInitialisers {before : List Node} {c : Cursor}
      (paren : c.kind? = some (.symbol .closeParen)) :
      Reads (.initialisers before before) c c.advance
  /-- The last field initialiser. -/
  | lastInitialiser {before : List Node} {text : String} {value : Node} {c c₁ : Cursor}
      (name : c.kind? = some (.name text))
      (initial : Reads (.initialValue c.span value) c.advance c₁)
      (paren : c₁.kind? = some (.symbol .closeParen)) :
      Reads (.initialisers before (before ++ [(c₁.build
          (Numbering.node (c.span.join value.span) (.init text value false))).1])) c
        (c₁.build (Numbering.node (c.span.join value.span) (.init text value false))).2.advance
  /-- A field initialiser and a comma. -/
  | nextInitialiser {before all : List Node} {text : String} {value : Node} {c c₁ c₂ : Cursor}
      (name : c.kind? = some (.name text))
      (initial : Reads (.initialValue c.span value) c.advance c₁)
      (comma : c₁.kind? = some (.symbol .comma))
      (rest : Reads (.initialisers (before ++ [(c₁.build
          (Numbering.node (c.span.join value.span) (.init text value false))).1]) all)
        (c₁.build (Numbering.node (c.span.join value.span) (.init text value false))).2.advance
        c₂) : Reads (.initialisers before all) c c₂
  /-- No second branch. -/
  | noOtherwise {positive : Node} {c : Cursor} (stop : c.kind? ≠ some (.keyword .elseWord)) :
      Reads (.otherwise positive (c.build (Numbering.node positive.span .nop)).1) c
        (c.build (Numbering.node positive.span .nop)).2
  /-- A second branch. -/
  | otherwise {positive n : Node} {c c₁ : Cursor} (word : c.kind? = some (.keyword .elseWord))
      (block : Reads (.block n) c.advance c₁) : Reads (.otherwise positive n) c c₁

end ProofScript.Grammar
