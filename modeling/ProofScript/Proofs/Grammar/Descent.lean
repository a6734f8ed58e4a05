import ProofScript.Grammar.Script
import ProofScript.Proofs.Grammar.Derivation

/-!
# Recursive descent

The grammar as procedures that move a position in a token list. They number the nodes that they
build, and they keep a flag that allows method declarations, which is set for a part of the work and
put back afterwards. One routine reads one construct, and a loop is a routine that calls itself with
what it has gathered so far.

Nothing in the text of a routine says that it ends. A procedure that ends has an evaluation, which
is finite, and a procedure that loops has none. The readers of the grammar recurse by the number of
the tokens that are left, and have neither a position nor a flag to put back.
-/

namespace ProofScript.Grammar.Descent

/-! ## States -/

/-- What a procedure reads and changes. -/
structure State where
  /-- The number of tokens that are used up. -/
  position : Nat
  /-- The number of the next node. -/
  nextId : Nat
  /-- Whether a name with arguments and a block is a method declaration. -/
  decls : Bool
  deriving DecidableEq, Repr

/-- The state at the start of a token list. -/
def State.start : State := { position := 0, nextId := 0, decls := true }

/-! ## Routines -/

/-- What a routine reads. The routines with an argument go on from what has been read already. -/
inductive Routine : Type → Type 1 where
  /-- A routine that runs with a flag of its own. -/
  | within {α : Type} (decls : Bool) (r : Routine α) : Routine α
  /-- Any number of semicolons. -/
  | semicolons : Routine Unit
  /-- A type. -/
  | type : Routine VarType
  /-- The types of a list that follow `items`. -/
  | types (items : List VarType) : Routine (List VarType)
  /-- An expression of a level. -/
  | level (l : Level) : Routine Node
  /-- The operators and operands of a level that follow `left`. -/
  | operators (l : Level) (left : Node) : Routine Node
  /-- The accessors that follow `base`. -/
  | accessors (base : Node) : Routine Node
  /-- A primary expression. -/
  | primary : Routine Node
  /-- A call without a receiver, or a method declaration, behind its name. -/
  | callOrMethod (name : String) (place : Span) : Routine Node
  /-- The arguments that follow `args`, up to the closing parenthesis. -/
  | arguments (args : List Node) : Routine (List Node)
  /-- An argument, or a typed formal parameter. -/
  | argument : Routine Node
  /-- An allocation. -/
  | allocation : Routine Node
  /-- The field initialisers that follow `fields`, up to the closing parenthesis. -/
  | initialisers (fields : List Node) : Routine (List Node)
  /-- The initial value of a field that stands at `place`. -/
  | initialValue (place : Span) : Routine Node
  /-- A conditional. -/
  | conditional : Routine Node
  /-- The second branch of a conditional. -/
  | otherwise (positive : Node) : Routine Node
  /-- A tuple. -/
  | tuple : Routine Node
  /-- The components of a tuple that follow `items`. -/
  | components (items : List Node) : Routine (List Node)
  /-- A block. -/
  | block : Routine Node
  /-- The statements of a block that follow `items`, up to the closing brace. -/
  | statements (items : List Node) : Routine (List Node)
  /-- The hint and the verbatim text behind an arrow. -/
  | hint : Routine (Option Node × String)
  /-- The arrows and terms that follow a chain. -/
  | arrows (chain : Chain) : Routine Chain
  /-- The proof chain that starts with `first`. -/
  | chain (first : Node) : Routine Node
  /-- An item of a script. -/
  | item : Routine Node
  /-- The items that follow `before`, up to the end of the text. -/
  | items (before : List Node) : Routine (List Node)
  /-- A whole script. -/
  | script : Routine Node
  /-- A single expression up to the end of the text. -/
  | soleExpr : Routine Node

/-! ## Procedures -/

/-- What a routine does. A step always ends. A routine is called by its name, and what follows gets
its value or its error. -/
inductive Procedure (α : Type) : Type 1 where
  /-- Ends with a value. -/
  | pure (a : α)
  /-- Ends with an error. -/
  | throw (e : ParseError)
  /-- Reads or changes the state and goes on. -/
  | step {β : Type} (f : State → β × State) (next : β → Procedure α)
  /-- Calls a routine and goes on. -/
  | call {β : Type} (r : Routine β) (next : Except ParseError β → Procedure α)

namespace Procedure

variable {α β : Type}

/-- What follows a procedure; an error ends both. -/
protected def bind : Procedure α → (α → Procedure β) → Procedure β
  | .pure a, f => f a
  | .throw e, _ => .throw e
  | .step g next, f => .step g fun b => (next b).bind f
  | .call r next, f => .call r fun out => (next out).bind f

instance : Monad Procedure where
  pure := .pure
  bind := .bind

instance : LawfulMonad Procedure := by
  refine LawfulMonad.mk' _ (fun m => ?_) (fun _ _ => rfl) (fun m f g => ?_)
  · induction m with
    | pure a => rfl
    | throw e => rfl
    | step f next ih => exact congrArg (Procedure.step f) (funext ih)
    | call r next ih => exact congrArg (Procedure.call r) (funext ih)
  · induction m with
    | pure a => rfl
    | throw e => rfl
    | step h next ih => exact congrArg (Procedure.step h) (funext ih)
    | call r next ih => exact congrArg (Procedure.call r) (funext ih)

/-- Carries on with a value, or fails. -/
def ofExcept : Except ParseError α → Procedure α
  | .ok a => .pure a
  | .error e => .throw e

end Procedure

/-- Runs a routine. -/
def run {α : Type} (r : Routine α) : Procedure α := .call r .ofExcept

/-- Runs a routine and goes on with its value or its error. -/
def attempt {α : Type} (r : Routine α) : Procedure (Except ParseError α) := .call r .pure

/-- The state. -/
def state : Procedure State := .step (fun s => (s, s)) .pure

/-- Changes the state. -/
def change (f : State → State) : Procedure Unit := .step (fun s => ((), f s)) .pure

/-! ### Steps -/

section Steps

variable (tokens : List Token)

/-- The next token. -/
def peek : Procedure (Option Token) := do
  return tokens[(← state).position]?

/-- The kind of the next token. -/
def kind? : Procedure (Option Token.Kind) := do
  return (← peek tokens).map Token.kind

/-- The place of the next token, or `otherwise` behind the last one. -/
def placeOr (otherwise : Span) : Procedure Span := do
  return ((← peek tokens).map Token.span).getD otherwise

/-- The kind of the token behind the next one. -/
def secondKind? : Procedure (Option Token.Kind) := do
  return tokens[(← state).position + 1]?.map Token.kind

/-- Whether a name and a colon come next. -/
def atTypedFormal? : Procedure Bool := do
  match ← kind? tokens with
  | some (.name _) => return (← secondKind? tokens) == some (.symbol .colon)
  | _ => return false

/-- Goes behind the next token, when there is one. -/
def next : Procedure (Option Token) := do
  match ← peek tokens with
  | none => return none
  | some token =>
    change fun s => { s with position := s.position + 1 }
    return some token

/-- The place that is reported when the tokens run out. -/
def stop : Span := (tokens.getLast?.map Token.span).getD Span.none

/-- Reads any token. -/
def anyToken : Procedure Token := do
  match ← next tokens with
  | some token => return token
  | none => .throw { fault := .outOfTokens, span := stop tokens }

/-- Fails at the next token. -/
def unexpected {α : Type} (wanted : Wanted) : Procedure α := do
  let found := (← kind? tokens).getD .eof
  .throw { fault := .unexpected wanted found, span := ← placeOr tokens (stop tokens) }

/-- Reads the symbol `s` and returns its place. -/
def symbol (s : Symbol) : Procedure Span := do
  if (← kind? tokens) = some (.symbol s) then return (← anyToken tokens).span
  else unexpected tokens (.symbol s)

/-- Reads the keyword `k` and returns its place. -/
def keyword (k : Keyword) : Procedure Span := do
  if (← kind? tokens) = some (.keyword k) then return (← anyToken tokens).span
  else unexpected tokens (.keyword k)

/-- Reads a name and returns it with its place. A token that is no name is used up as well. -/
def name : Procedure (String × Span) := do
  let token ← anyToken tokens
  match token.kind with
  | .name text => return (text, token.span)
  | other => .throw { fault := .unexpected .name other, span := token.span }

/-- Reads the verbatim block that comes next and returns its text; without one it is empty. -/
def verbatim : Procedure String := do
  match ← kind? tokens with
  | some (.verbatim text) =>
    let _ ← next tokens
    return text
  | _ => return ""

/-- Reads the comma behind a member of a list, which is not needed behind the last one. -/
def separator : Procedure Unit := do
  if (← kind? tokens) = some (.symbol .closeParen) then return ()
  else
    let _ ← symbol tokens .comma
    return ()

/-- Builds nodes. -/
def build {α : Type} (m : Numbering α) : Procedure α :=
  .step (fun s => ((m.run s.nextId).1, { s with nextId := (m.run s.nextId).2 })) .pure

end Steps

/-! ## What the routines do -/

/-- What a routine does in a token list. -/
def body (tokens : List Token) {α : Type} : Routine α → Procedure α
  | .within decls r => do
    let saved ← state
    change fun s => { s with decls := decls }
    let out ← attempt r
    change fun s => { s with decls := saved.decls }
    .ofExcept out
  | .semicolons => do
    if (← kind? tokens) = some (.symbol .semicolon) then
      let _ ← next tokens
      run .semicolons
    else return ()
  -- Types
  | .type => do
    if (← kind? tokens) = some (.symbol .star) then
      let _ ← next tokens
      return .value
    else if (← kind? tokens) = some (.symbol .less) then
      let _ ← next tokens
      let first ← run .type
      let items ← run (.types [first])
      let _ ← symbol tokens .greater
      return .tuple items
    else unexpected tokens .type
  | .types items => do
    if (← kind? tokens) = some (.symbol .comma) then
      let _ ← next tokens
      let item ← run .type
      run (.types (items ++ [item]))
    else return items
  -- Operators
  | .level .logic => do
    let left ← run (.level .assignment)
    run (.operators .logic left)
  | .level .assignment => do
    let target ← run (.level .comparison)
    if (← kind? tokens) = some (.symbol .assign) then
      if isAssignable target then
        let _ ← next tokens
        let value ← run (.level .comparison)
        if (← kind? tokens) = some (.symbol .assign) then
          .throw { fault := .chainedAssignment, span := ← placeOr tokens value.span }
        else build (Numbering.node (target.span.join value.span) (.assign target value))
      else .throw { fault := .assignTarget, span := target.span }
    else return target
  | .level .comparison => do
    let left ← run (.level .sum)
    match (← kind? tokens).bind comparison? with
    | none => return left
    | some op =>
      let _ ← next tokens
      let right ← run (.level .sum)
      let both ← build (Numbering.binary op.spelling left right)
      if ((← kind? tokens).bind comparison?).isSome then
        .throw { fault := .chainedComparison, span := ← placeOr tokens both.span }
      else return both
  | .level .sum => do
    let left ← run (.level .product)
    run (.operators .sum left)
  | .level .product => do
    let left ← run (.level .signed)
    run (.operators .product left)
  | .level .signed => do
    match (← kind? tokens).bind prefixOperator? with
    | none => run (.level .postfixed)
    | some op =>
      let token ← anyToken tokens
      let arg ← run (.level .signed)
      build (Numbering.unary op token.span arg)
  | .level .postfixed => do
    let base ← run .primary
    run (.accessors base)
  | .operators l left => do
    match (← kind? tokens).bind l.operator? with
    | none => return left
    | some op =>
      let _ ← next tokens
      let right ← run (.level l.operand)
      let both ← build (Numbering.binary op.spelling left right)
      run (.operators l both)
  -- Accessors and primary expressions
  | .accessors base => do
    if (← kind? tokens) = some (.symbol .dot) then
      let _ ← next tokens
      let (text, place) ← name tokens
      let field ← build (Numbering.field base text place)
      run (.accessors field)
    else if (← kind? tokens) = some (.symbol .openBracket) then
      let _ ← next tokens
      let index ← run (.within true (.level .logic))
      let close ← symbol tokens .closeBracket
      let make ← .ofExcept (Numbering.index base index close)
      let indexed ← build make
      run (.accessors indexed)
    else if (← kind? tokens) = some (.symbol .openParen) ∧ base.tag = .compound then
      let _ ← next tokens
      let args ← run (.within true (.arguments []))
      let close ← symbol tokens .closeParen
      let call ← .ofExcept (Numbering.memberCall base args close)
      run (.accessors call)
    else return base
  | .primary => do
    match ← peek tokens with
    | none => unexpected tokens .expression
    | some token =>
      match token.kind with
      | .number value =>
        let _ ← next tokens
        build (Numbering.node token.span (.const (.int value)))
      | .name text =>
        let _ ← next tokens
        if (← kind? tokens) = some (.symbol .openParen) then
          run (.callOrMethod text token.span)
        else build (Numbering.node token.span (.var text none))
      | .keyword .new => run .allocation
      | .keyword .ifWord => run .conditional
      | .symbol .openParen =>
        let _ ← next tokens
        let inner ← run (.within true (.level .logic))
        let _ ← symbol tokens .closeParen
        return inner
      | .symbol .less => run .tuple
      -- The other tokens are listed, so that no case overlaps with that of a literal.
      | .keyword _ | .symbol _ | .verbatim _ | .eof => unexpected tokens .expression
  | .callOrMethod name place => do
    let _ ← symbol tokens .openParen
    let args ← run (.within true (.arguments []))
    let close ← symbol tokens .closeParen
    if (← state).decls ∧ (← kind? tokens) = some (.symbol .openBrace) then
      match args.find? fun a => a.tag != .var with
      | some bad => .throw { fault := .formal name, span := bad.span }
      | none =>
        let body ← run .block
        build (Numbering.node (place.join body.span) (.method name args body))
    else build (Numbering.call (place.join close) name args)
  | .arguments args => do
    if (← kind? tokens) = some (.symbol .closeParen) then return args
    else
      let arg ← run .argument
      separator tokens
      run (.arguments (args ++ [arg]))
  | .argument => do
    if ← atTypedFormal? tokens then
      let (text, place) ← name tokens
      let _ ← symbol tokens .colon
      let type ← run .type
      build (Numbering.node place (.var text (some type)))
    else run (.level .logic)
  | .allocation => do
    let word ← keyword tokens .new
    let _ ← symbol tokens .openParen
    let fields ← run (.initialisers [])
    let _ ← symbol tokens .closeParen
    let body ← run .block
    build (Numbering.node (word.join body.span) (.new fields body))
  | .initialisers fields => do
    if (← kind? tokens) = some (.symbol .closeParen) then return fields
    else
      let (text, place) ← name tokens
      let value ← run (.initialValue place)
      let field ← build (Numbering.node (place.join value.span) (.init text value false))
      separator tokens
      run (.initialisers (fields ++ [field]))
  | .initialValue place => do
    if (← kind? tokens) = some (.symbol .assign) then
      let _ ← next tokens
      run (.within true (.level .logic))
    else build (Numbering.nil place)
  | .conditional => do
    let word ← keyword tokens .ifWord
    let condition ← run (.within false (.level .logic))
    let positive ← run .block
    let negative ← run (.otherwise positive)
    build (Numbering.node (word.join negative.span) (.ite condition positive negative))
  | .otherwise positive => do
    if (← kind? tokens) = some (.keyword .elseWord) then
      let _ ← next tokens
      run .block
    else build (Numbering.node positive.span .nop)
  | .tuple => do
    let angle ← symbol tokens .less
    let first ← run (.level .sum)
    let items ← run (.components [first])
    let close ← symbol tokens .greater
    build (Numbering.node (angle.join close) (.tuple items))
  | .components items => do
    if (← kind? tokens) = some (.symbol .comma) then
      let _ ← next tokens
      let item ← run (.level .sum)
      run (.components (items ++ [item]))
    else return items
  | .block => do
    let brace ← symbol tokens .openBrace
    let items ← run (.within true (.statements []))
    let close ← symbol tokens .closeBrace
    build (Numbering.block (brace.join close) items)
  | .statements items => do
    run .semicolons
    if (← kind? tokens) = some (.symbol .closeBrace) then return items
    else
      let item ← run (.level .logic)
      run (.statements (items ++ [item]))
  -- Scripts
  | .hint => do
    if (← kind? tokens) = some (.symbol .openBracket) then
      let _ ← next tokens
      let hint ← run (.within true (.level .logic))
      let _ ← symbol tokens .closeBracket
      let text ← verbatim tokens
      return (some hint, text)
    else return (none, "")
  | .arrows chain => do
    if (← kind? tokens) = some (.symbol .tilde) then
      let _ ← next tokens
      let note ← run .hint
      let term ← run (.level .logic)
      run (.arrows { terms := chain.terms ++ [term], hints := chain.hints ++ [note.1],
                     verbatims := chain.verbatims ++ [note.2], span := chain.span.join term.span })
    else return chain
  | .chain first => do
    let chain ← run
      (.arrows { terms := [first], hints := [], verbatims := [], span := first.span })
    build (Numbering.node chain.span
      (.proof chain.terms (chain.hints ++ [none]) (chain.verbatims ++ [""])))
  | .item => do
    if (← kind? tokens) = some (.keyword .assert) then
      let word ← anyToken tokens
      let condition ← run (.level .logic)
      build (Numbering.node (word.span.join condition.span) (.assert condition))
    else if (← kind? tokens) = some (.keyword .assume) then
      let word ← anyToken tokens
      let first ← run (.level .logic)
      if (← kind? tokens) = some (.symbol .tilde) then
        let chain ← run (.chain first)
        if termCount chain = 2 then
          build (Numbering.node (word.span.join chain.span) (.assume chain))
        else .throw { fault := .assumedTerms (termCount chain), span := chain.span }
      else unexpected tokens .assumedArrow
    else
      let first ← run (.level .logic)
      if (← kind? tokens) = some (.symbol .tilde) then run (.chain first)
      else return first
  | .items before => do
    run .semicolons
    match ← kind? tokens with
    | none | some .eof => return before
    | some _ =>
      let item ← run .item
      run (.items (before ++ [item]))
  | .script => do
    let start ← placeOr tokens Span.none
    let items ← run (.items [])
    build (Numbering.node (items.foldl (fun span item => span.join item.span) start)
      (.script items))
  | .soleExpr => do
    let n ← run (.level .logic)
    if (← kind? tokens) = some .eof then return n
    else unexpected tokens .endOfInput

/-! ## Evaluation -/

/-- From the state `s` a procedure ends in the state `s'` with a value or an error. On the way it
passes through the states `path`. -/
inductive Evaluates (tokens : List Token) : {α : Type} →
    Procedure α → State → List State → Except ParseError α → State → Prop where
  /-- A value. -/
  | pure {α : Type} (a : α) (s : State) : Evaluates tokens (.pure a) s [] (.ok a) s
  /-- An error. -/
  | throw {α : Type} (e : ParseError) (s : State) :
      Evaluates tokens (.throw e : Procedure α) s [] (.error e) s
  /-- A step, and what follows. -/
  | step {α β : Type} {f : State → β × State} {next : β → Procedure α} {s s' : State}
      {path : List State} {out : Except ParseError α}
      (rest : Evaluates tokens (next (f s).1) (f s).2 path out s') :
      Evaluates tokens (.step f next) s ((f s).2 :: path) out s'
  /-- A call, and what follows. -/
  | call {α β : Type} {r : Routine β} {next : Except ParseError β → Procedure α} {s s₁ s' : State}
      {path₁ path : List State} {out₁ : Except ParseError β} {out : Except ParseError α}
      (inner : Evaluates tokens (body tokens r) s path₁ out₁ s₁)
      (rest : Evaluates tokens (next out₁) s₁ path out s') :
      Evaluates tokens (.call r next) s (path₁ ++ path) out s'

/-- A procedure ends in one way. -/
theorem Evaluates.unique {tokens : List Token} {α : Type} {m : Procedure α} {s s₁ s₂ : State}
    {path₁ path₂ : List State} {out₁ out₂ : Except ParseError α}
    (h₁ : Evaluates tokens m s path₁ out₁ s₁) (h₂ : Evaluates tokens m s path₂ out₂ s₂) :
    path₁ = path₂ ∧ out₁ = out₂ ∧ s₁ = s₂ := by
  induction h₁ generalizing path₂ s₂ with
  | pure a s =>
    cases h₂
    exact ⟨rfl, rfl, rfl⟩
  | throw e s =>
    cases h₂
    exact ⟨rfl, rfl, rfl⟩
  | step _ ih =>
    cases h₂ with
    | step rest =>
      obtain ⟨rfl, rfl, rfl⟩ := ih rest
      exact ⟨rfl, rfl, rfl⟩
  | call _ _ ihinner ihrest =>
    cases h₂ with
    | call inner rest =>
      obtain ⟨rfl, rfl, rfl⟩ := ihinner inner
      obtain ⟨rfl, rfl, rfl⟩ := ihrest rest
      exact ⟨rfl, rfl, rfl⟩

end ProofScript.Grammar.Descent
