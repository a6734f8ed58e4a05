import ProofScript.Node.Display

/-!
# Walking a tree

One traversal serves every analysis and every replacement. A *pass* says what to do with one node:
it may replace the node, keep a state of its own, push frames on the context stack, or fail. The
walk visits a node, checks that the replacement fits the position that the node was in, goes on into
the children of the replacement, and at last cuts the context stack back to the depth that it had
before the visit. So the frames that a pass pushes are seen by the descendants of a node and by no
other.

A pass may replace a node by a larger one and so make the walk go on for ever. The walk is therefore
given a bound on the depth of the tree that it returns. The height of the tree is bound enough for a
pass that never makes a tree higher.
-/

namespace ProofScript

/-! ## Positions -/

/-- What a child position accepts. -/
inductive Slot where
  /-- Any node. -/
  | any
  /-- A node that is part of a program. -/
  | statement
  /-- The initialiser of a field. -/
  | field
  /-- A formal parameter. -/
  | formal
  /-- What can be assigned. -/
  | assignTarget
  /-- The chain of an assumption. -/
  | assumedProof
  deriving DecidableEq, Repr

namespace Slot

/-- Whether a node may stand in a position. -/
def accepts (slot : Slot) (n : Node) : Bool :=
  match slot with
  | any => true
  | statement => !n.isSurface
  | field => n.tag == .init
  | formal => n.tag == .var
  | assignTarget => n.tag == .var || n.tag == .compound
  | assumedProof =>
    match n.shape with
    | .proof terms _ _ => terms.length == 2
    | _ => false

/-- What a position accepts, in words. -/
def expectation : Slot → String
  | any => "any node"
  | statement => "a non-surface node"
  | field => "an Init node"
  | formal => "a Var node"
  | assignTarget => "a Var or CompoundVar node"
  | assumedProof => "a two-term Proof node"

end Slot

namespace Shape

variable {α β : Type}

/-- The children of a shape, in the order of `Shape.children`, with the positions they are in. -/
def slotted : Shape α → List (Slot × α)
  | const _ | var .. | nop => []
  | tuple items | script items => items.map (Slot.any, ·)
  | seq a b => [(.statement, a), (.statement, b)]
  | compound object _ index => [(.any, object), (.any, index)]
  | init _ value _ => [(.any, value)]
  | new fields body => fields.map (Slot.field, ·) ++ [(.any, body)]
  | method _ formals body => formals.map (Slot.formal, ·) ++ [(.any, body)]
  | assign target value => [(.assignTarget, target), (.any, value)]
  | call receiver _ args => (.any, receiver) :: args.map (Slot.any, ·)
  | ite c p n => [(.any, c), (.any, p), (.any, n)]
  | proof terms hints _ =>
    terms.map (Slot.any, ·) ++ (hints.filterMap (fun h => h)).map (Slot.any, ·)
  | assert a => [(.any, a)]
  | assume a => [(.assumedProof, a)]

/-- Rebuilds a shape from left to right with an action on every child and its position. -/
def traverse {m : Type → Type} [Monad m] (f : Slot → α → m β) : Shape α → m (Shape β)
  | const v => pure (const v)
  | var name type => pure (var name type)
  | tuple items => do return tuple (← items.mapM (f .any))
  | seq a b => do
    let a ← f .statement a
    return seq a (← f .statement b)
  | compound object name index => do
    let object ← f .any object
    return compound object name (← f .any index)
  | init name value immutable => do return init name (← f .any value) immutable
  | new fields body => do
    let fields ← fields.mapM (f .field)
    return new fields (← f .any body)
  | method name formals body => do
    let formals ← formals.mapM (f .formal)
    return method name formals (← f .any body)
  | assign target value => do
    let target ← f .assignTarget target
    return assign target (← f .any value)
  | call receiver name args => do
    let receiver ← f .any receiver
    return call receiver name (← args.mapM (f .any))
  | ite c p n => do
    let c ← f .any c
    let p ← f .any p
    return ite c p (← f .any n)
  | nop => pure nop
  | script items => do return script (← items.mapM (f .any))
  | proof terms hints verbatims => do
    let terms ← terms.mapM (f .any)
    let hints ← hints.mapM fun hint =>
      match hint with
      | none => pure none
      | some h => do return some (← f .any h)
    return proof terms hints verbatims
  | assert a => do return assert (← f .any a)
  | assume a => do return assume (← f .assumedProof a)

end Shape

/-! ## Errors -/

/-- Why a tree cannot be walked. -/
inductive TreeFault where
  /-- A node stands where its parent does not accept it. -/
  | misplaced (parent : Tag) (slot : Slot) (found : Node)
  /-- A pass refused a node. -/
  | refused (reason : String)
  /-- The tree grew deeper than the bound of the walk. -/
  | tooDeep

/-- A fault and the place of the node that it concerns. -/
structure TreeError where
  /-- What is wrong. -/
  fault : TreeFault
  /-- Where it is wrong. -/
  span : Span

/-- The wording of a fault. -/
def TreeFault.message : TreeFault → String
  | misplaced parent slot found =>
    parent.name ++ " expects " ++ slot.expectation ++ " here, got " ++ found.tag.name
      ++ " `" ++ found.text ++ "`"
  | refused reason => reason
  | tooDeep => "the tree is deeper than the walk allows"

/-- The wording of an error, without its place. -/
def TreeError.message (e : TreeError) : String := "malformed AST: " ++ e.fault.message

/-! ## The context stack -/

/-- An ancestor, as it is remembered on the context stack. -/
structure Frame where
  /-- Which construct the ancestor is. -/
  tag : Tag
  /-- The identity of the ancestor. -/
  id : NodeId
  /-- The name of the ancestor, when it is a method. -/
  name : Option String
  deriving DecidableEq, Repr

/-- The frame that remembers a node. -/
def Frame.ofNode (n : Node) : Frame :=
  { tag := n.tag, id := n.id,
    name := match n.shape with
      | .method name _ _ => some name
      | _ => none }

/-- What a walk carries along: the context stack and the state of the pass. -/
structure WalkState (σ : Type) where
  /-- The frames pushed so far, the innermost one first. -/
  context : List Frame
  /-- The state of the pass. -/
  state : σ

/-- An action of a walk. The state survives an error. -/
abbrev Walk (σ : Type) := ExceptT TreeError (StateM (WalkState σ))

namespace Walk

variable {σ : Type}

/-- Pushes the frame of a node on the context stack. -/
def push (n : Node) : Walk σ Unit :=
  modify fun s => { s with context := Frame.ofNode n :: s.context }

/-- The context stack, innermost frame first. -/
def context : Walk σ (List Frame) := return (← get).context

/-- Changes the state of the pass. -/
def update (f : σ → σ) : Walk σ Unit := modify fun s => { s with state := f s.state }

/-- Keeps the outermost `depth` frames of a stack. -/
def truncate (depth : Nat) (context : List Frame) : List Frame :=
  context.drop (context.length - depth)

/-- Runs an action and cuts the context stack back to its former depth, also after an error. -/
def restoring {α : Type} (act : Walk σ α) : Walk σ α :=
  ExceptT.mk fun s =>
    let (result, t) := act.run.run s
    (result, { t with context := truncate s.context.length t.context })

theorem run_restoring {α : Type} (act : Walk σ α) (w : WalkState σ) :
    (restoring act).run.run w = ((act.run.run w).1,
      { (act.run.run w).2 with
        context := truncate w.context.length (act.run.run w).2.context }) :=
  rfl

end Walk

/-! ## The walk -/

/-- What is done with one node of a tree. -/
structure Pass (σ : Type) where
  /-- Gives the replacement of a node. -/
  visit : Node → Walk σ Node

/-- A position below a node. -/
structure Place where
  /-- What the position accepts. -/
  slot : Slot
  /-- The construct that the position belongs to. -/
  parent : Tag

/-- Refuses a node that its position does not accept. The root is in no position. -/
def Place.check : Option Place → Node → Except TreeError Unit
  | none, _ => .ok ()
  | some place, n =>
    if place.slot.accepts n then .ok ()
    else .error { fault := .misplaced place.parent place.slot n, span := n.span }

namespace Pass

variable {σ : Type}

/-- Walks the tree `n`, which is in position `place`, to a depth of at most `limit` nodes. -/
def walkIn (pass : Pass σ) : (limit : Nat) → Option Place → Node → Walk σ Node
  | 0, _, n => throw { fault := .tooDeep, span := n.span }
  | limit + 1, place, n => Walk.restoring do
    let n ← pass.visit n
    liftM (Place.check place n)
    let shape ← n.shape.traverse fun slot child =>
      pass.walkIn limit (some { slot := slot, parent := n.tag }) child
    return n.withShape shape

/-- Walks a whole tree to a depth of at most `limit` nodes. -/
def walk (pass : Pass σ) (limit : Nat) (n : Node) : Walk σ Node := pass.walkIn limit none n

/-- Walks a tree from an empty context stack, with a pass that makes no tree higher. -/
def run (pass : Pass σ) (init : σ) (n : Node) : Except TreeError (Node × σ) :=
  match (pass.walk n.height n).run.run { context := [], state := init } with
  | (.ok n, s) => .ok (n, s.state)
  | (.error e, _) => .error e

/-- The pass that keeps every node. -/
def keep : Pass σ where
  visit n := pure n

end Pass

end ProofScript
