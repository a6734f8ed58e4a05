import ProofScript.Code.Fresh
import ProofScript.Code.Template
import ProofScript.Node.Walk

/-!
# Program builders

A builder collects the definitions of a generated program, the text between them, and the names that
the program runs. At most one definition is open at a time. Definitions and text keep the order in
which they were finished.
-/

namespace ProofScript

/-! ## Definitions -/

/-- What kind of definition something is. -/
inductive DefKind where
  /-- A method, which can be run. -/
  | method
  /-- A function. -/
  | function
  /-- A lemma. -/
  | lemmaDef
  deriving DecidableEq, Repr

/-- The word that opens a definition. -/
def DefKind.keyword : DefKind → String
  | method => "method"
  | function => "function"
  | lemmaDef => "lemma"

/-- A parameter of a definition. -/
structure Param where
  /-- The name. -/
  name : String
  /-- The type. -/
  type : String
  deriving DecidableEq, Repr

/-- A named definition whose body is a list of lines. -/
structure Definition where
  /-- What kind of definition it is. -/
  kind : DefKind
  /-- The name. -/
  name : String
  /-- The parameters. -/
  params : List Param
  /-- The type of the result, when there is one. -/
  returns : Option String
  /-- The lines of the body. -/
  lines : List String
  deriving DecidableEq, Repr

/-- The parameters of an invariant: both contexts and the addresses of both objects. -/
def invariantParams : List Param :=
  [⟨"ctx1", "Context"⟩, ⟨"ctx2", "Context"⟩, ⟨"addr1", "Addr"⟩, ⟨"addr2", "Addr"⟩]

/-! ## Errors -/

/-- Why no program can be generated. -/
inductive CodeFault where
  /-- A malformed tree. -/
  | tree (fault : TreeFault)
  /-- A template that is malformed or cannot be filled in. -/
  | template (fault : TemplateFault)
  /-- A definition that begins while another one is open. -/
  | alreadyOpen (kind : DefKind) (open? : String)
  /-- Lines outside a definition. -/
  | emitOutside
  /-- An end without a beginning. -/
  | endOutside
  /-- A definition with parameters that is to be run. -/
  | runWithParams (name : String)
  /-- A program that is assembled while a definition is open. -/
  | assembleOpen (open? : String)
  /-- A node that has no rendering as an expression. -/
  | notExpression (found : Node)
  /-- A formal parameter that is no name. -/
  | notFormal (found : Node)
  /-- An invariant over all arguments, where the backend has none. -/
  | universal

/-- The wording of a fault. -/
def CodeFault.message : CodeFault → String
  | tree fault => "malformed AST: " ++ fault.message
  | template fault => fault.message
  | alreadyOpen kind open? =>
    "cannot begin a new " ++ kind.keyword ++ " while `" ++ open? ++ "` is still open"
  | emitOutside => "emit called with no open definition"
  | endOutside => "end called with no open definition"
  | runWithParams name => "cannot run `" ++ name ++ "` at top level: it takes arguments"
  | assembleOpen open? => "cannot assemble while `" ++ open? ++ "` is still open"
  | notExpression found =>
    found.tag.name ++ " cannot appear inside an expression: " ++ found.text
  | notFormal found => "method parameter must be a name, got " ++ found.text
  | universal => "universal invariants are not supported by the dafny backend"

/-- The wording of a fault, with what it is a fault in. -/
def CodeFault.report (fault : CodeFault) : String := "codegen error: " ++ fault.message

/-! ## Builders -/

/-- Part of a program. -/
inductive Item where
  /-- A definition. -/
  | definition (d : Definition)
  /-- Text that is copied. -/
  | global (text : String)
  deriving DecidableEq, Repr

/-- A program while it is built. -/
structure Builder where
  /-- The names drawn so far. -/
  names : FreshNames
  /-- The finished parts, in order. -/
  items : List Item
  /-- The names that the program runs, in order. -/
  run : List String
  /-- The definition that is open. -/
  current : Option Definition

/-- Nothing built yet. -/
def Builder.start : Builder :=
  { names := FreshNames.start, items := [], run := [], current := none }

/-- Building a part of a program. What was built before an error stays. -/
abbrev Building := ExceptT CodeFault (StateM Builder)

namespace Building

/-- Draws a fresh name. -/
def fresh (stem : String) : Building String := do
  let b ← get
  let (name, names) := b.names.fresh stem
  set { b with names := names }
  return name

/-- Opens a definition whose name is drawn for `stem`, and returns the name. -/
def openDef (kind : DefKind) (stem : String) (params : List Param) (returns : Option String) :
    Building String := do
  match (← get).current with
  | some d => throw (.alreadyOpen kind d.name)
  | none =>
    let name ← fresh stem
    modify fun b => { b with current := some { kind, name, params, returns, lines := [] } }
    return name

/-- Adds lines to the open definition. -/
def emit (lines : List String) : Building Unit := do
  match (← get).current with
  | none => throw .emitOutside
  | some d => modify fun b => { b with current := some { d with lines := d.lines ++ lines } }

/-- Closes the open definition and returns its name; with `run`, the program runs it. A definition
with parameters cannot be run, and is dropped. -/
def close (run : Bool) : Building String := do
  match (← get).current with
  | none => throw .endOutside
  | some d =>
    modify fun b => { b with current := none }
    if run && !d.params.isEmpty then throw (.runWithParams d.name)
    modify fun b => { b with
      items := b.items ++ [.definition d]
      run := if run then b.run ++ [d.name] else b.run }
    return d.name

/-- Adds ready-made text, and the name in it that the program runs. -/
def global (text : String) (run : Option String) : Building Unit :=
  modify fun b => { b with items := b.items ++ [.global text], run := b.run ++ run.toList }

/-- Lifts the filling in of a template. -/
def ofTemplate {α : Type} (r : Except TemplateFault α) : Building α :=
  liftM (r.mapError CodeFault.template)

/-- Lifts an analysis of a tree. -/
def ofTree {α : Type} (r : Except TreeError α) : Building α :=
  liftM (r.mapError fun e => CodeFault.tree e.fault)

/-- Lifts the rendering of a term. -/
def ofTerm {α : Type} (r : Except CodeFault α) : Building α := liftM r

end Building

end ProofScript
