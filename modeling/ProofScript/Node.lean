import ProofScript.Span

/-!
# Syntax trees

A script is read into a tree of nodes. A node has an identity, a place in the source text and a
shape; the shape says which construct the node is and holds its children. `Shape` is a functor: it
is stated over an arbitrary type of children, so that a function on trees can be given as a function
on one layer (`Node.fold`) and a tree can be rebuilt child by child (`Shape.traverse`). The order of
the children is fixed once, by `Shape.children`, and every traversal follows it.

The receiver of a call and the index of a compound variable are always present. Where the source has
none, the nil constant stands in.
-/

namespace ProofScript

/-! ## Identity, values and types -/

/-- The identity of a node. The analyses key what they learn about an object by the identity of the
allocation, so a replacement keeps the identity of the node that it replaces. -/
inductive NodeId where
  /-- A node that was read from a source text, numbered in the order of reading. -/
  | numbered (n : Nat)
  /-- A node that was made afterwards. -/
  | detached
  deriving DecidableEq, Repr, Inhabited

/-- A literal value. -/
inductive Value where
  /-- A signed 64-bit integer. -/
  | int (n : Int64)
  /-- The value that stands for an absent receiver or index. -/
  | nil
  deriving DecidableEq, Repr

/-- The structure that a formal parameter declares. -/
inductive VarType where
  /-- Any value, written `*`. -/
  | value
  /-- A tuple whose components have the given structure, written between angle brackets. -/
  | tuple (items : List VarType)
  deriving Repr

/-! ## Shapes -/

/-- The constructs of the language. -/
inductive Tag where
  | const | var | tuple | seq | compound | init | new | method | assign | call | ite | nop
  | script | proof | assert | assume
  deriving DecidableEq, Repr

/-- One layer of a tree whose children have type `α`. -/
inductive Shape (α : Type) where
  /-- A literal. -/
  | const (value : Value)
  /-- A name, with a type when it is a typed formal parameter. -/
  | var (name : String) (type : Option VarType)
  /-- A tuple of expressions. -/
  | tuple (items : List α)
  /-- Two statements, the first before the second. -/
  | seq (first second : α)
  /-- A field of an object, or an element of a field. -/
  | compound (object : α) (name : String) (index : α)
  /-- A field initialiser of an allocation, and whether the field is never assigned. -/
  | init (name : String) (value : α) (immutable : Bool)
  /-- An allocation: the initialisers of its fields, and the body that declares its methods. -/
  | new (fields : List α) (body : α)
  /-- A method declaration. -/
  | method (name : String) (formals : List α) (body : α)
  /-- An assignment. -/
  | assign (target value : α)
  /-- A call; operators are calls without a receiver. -/
  | call (receiver : α) (name : String) (args : List α)
  /-- A conditional. -/
  | ite (condition positive negative : α)
  /-- The empty program. -/
  | nop
  /-- A whole script. -/
  | script (items : List α)
  /-- A proof chain. The hint and the verbatim text at position `i` belong to the arrow after the
  term at position `i`, so the last term has slots too and they are empty. -/
  | proof (terms : List α) (hints : List (Option α)) (verbatims : List String)
  /-- A condition that is claimed to hold. -/
  | assert (condition : α)
  /-- A proof chain of two terms that is taken for granted. -/
  | assume (chain : α)
  deriving Repr

namespace Tag

/-- How a construct is named in messages. -/
def name : Tag → String
  | const => "Const"
  | var => "Var"
  | tuple => "Tuple"
  | seq => "Seq"
  | compound => "CompoundVar"
  | init => "Init"
  | new => "New"
  | method => "Method"
  | assign => "Assign"
  | call => "Call"
  | ite => "Ite"
  | nop => "Nop"
  | script => "TopLevel"
  | proof => "Proof"
  | assert => "Assert"
  | assume => "Assume"

/-- Whether a construct only directs a proof. Such constructs are used up while obligations are
built, and have no rendering as a program. -/
def isSurface : Tag → Bool
  | script | proof | assert | assume => true
  | _ => false

end Tag

namespace Shape

variable {α β : Type}

/-- Which construct a shape is. -/
def tag : Shape α → Tag
  | const _ => .const
  | var .. => .var
  | tuple _ => .tuple
  | seq .. => .seq
  | compound .. => .compound
  | init .. => .init
  | new .. => .new
  | method .. => .method
  | assign .. => .assign
  | call .. => .call
  | ite .. => .ite
  | nop => .nop
  | script _ => .script
  | proof .. => .proof
  | assert _ => .assert
  | assume _ => .assume

/-- The children of a shape in the order in which they are visited. The hints of a proof chain come
after all of its terms. -/
def children : Shape α → List α
  | const _ | var .. | nop => []
  | tuple items | script items => items
  | seq a b | assign a b => [a, b]
  | compound object _ index => [object, index]
  | init _ value _ => [value]
  | new fields body => fields ++ [body]
  | method _ formals body => formals ++ [body]
  | call receiver _ args => receiver :: args
  | ite c p n => [c, p, n]
  | proof terms hints _ => terms ++ hints.filterMap id
  | assert a | assume a => [a]

/-- Applies a function to every child. -/
def map (f : α → β) : Shape α → Shape β
  | const v => const v
  | var name type => var name type
  | tuple items => tuple (items.map f)
  | seq a b => seq (f a) (f b)
  | compound object name index => compound (f object) name (f index)
  | init name value immutable => init name (f value) immutable
  | new fields body => new (fields.map f) (f body)
  | method name formals body => method name (formals.map f) (f body)
  | assign a b => assign (f a) (f b)
  | call receiver name args => call (f receiver) name (args.map f)
  | ite c p n => ite (f c) (f p) (f n)
  | nop => nop
  | script items => script (items.map f)
  | proof terms hints verbatims => proof (terms.map f) (hints.map (Option.map f)) verbatims
  | assert a => assert (f a)
  | assume a => assume (f a)

/-- Mapping the children keeps the construct. -/
@[simp] theorem tag_map (f : α → β) (s : Shape α) : (s.map f).tag = s.tag := by
  cases s <;> rfl

/-- The children of a mapped shape are the mapped children. -/
theorem children_map (f : α → β) (s : Shape α) : (s.map f).children = s.children.map f := by
  cases s <;> simp [map, children, List.filterMap_map, List.map_filterMap]

end Shape

/-! ## Nodes -/

/-- A syntax tree. -/
inductive Node where
  /-- A node with an identity, a place in the source text and a shape. -/
  | mk (id : NodeId) (span : Span) (shape : Shape Node)

namespace Node

/-- The identity of a node. -/
def id : Node → NodeId
  | mk id _ _ => id

/-- The place of a node in the source text. -/
def span : Node → Span
  | mk _ span _ => span

/-- The construct at the root of a tree, with the subtrees as children. -/
def shape : Node → Shape Node
  | mk _ _ shape => shape

/-- Which construct a node is. -/
def tag (n : Node) : Tag := n.shape.tag

/-- The subtrees just below the root. -/
def children (n : Node) : List Node := n.shape.children

/-- Whether a node only directs a proof. -/
def isSurface (n : Node) : Bool := n.tag.isSurface

/-- The same node with another shape. -/
def withShape (n : Node) (shape : Shape Node) : Node := mk n.id n.span shape

/-! ### Trees made after reading -/

/-- A node without identity and place. -/
def detached (shape : Shape Node) : Node := mk .detached Span.none shape

/-- The nil constant. -/
def nil : Node := detached (.const .nil)

/-- An integer constant. -/
def int (n : Int64) : Node := detached (.const (.int n))

/-- An untyped name. -/
def var (name : String) : Node := detached (.var name none)

/-- The empty program. -/
def nop : Node := detached .nop

/-- Two programs in sequence. -/
def seq (first second : Node) : Node := detached (.seq first second)

/-- The field `name` of `object`, without an index. -/
def field (object : Node) (name : String) : Node := detached (.compound object name nil)

/-! ### Looking at a node -/

/-- Whether a node is the nil constant, which stands in for an absent receiver or index. -/
def isNil (n : Node) : Bool :=
  match n.shape with
  | .const .nil => true
  | _ => false

/-- Whether a node is the empty program. -/
def isNop (n : Node) : Bool :=
  match n.shape with
  | .nop => true
  | _ => false

/-- The name of a variable. -/
def varName? (n : Node) : Option String :=
  match n.shape with
  | .var name _ => some name
  | _ => none

/-- The name and the arguments of a call without a receiver. -/
def freeCall? (n : Node) : Option (String × List Node) :=
  match n.shape with
  | .call receiver name args => if receiver.isNil then some (name, args) else none
  | _ => none

/-- Puts `next` after the program `n`, where the empty program is neutral on the left. -/
def andThen (n next : Node) : Node := if n.isNop then next else seq n next

/-! ### Recursion over trees -/

section Fold

variable {β : Type}

mutual

/-- Computes a value from a tree, layer by layer from the leaves: `f` is given a node and its shape
with the values of the children in their places. -/
def fold (f : Node → Shape β → β) : Node → β
  | mk id span shape => f (mk id span shape) (foldShape f shape)

/-- The values of the children of a shape, in their places. -/
def foldShape (f : Node → Shape β → β) : Shape Node → Shape β
  | .const v => .const v
  | .var name type => .var name type
  | .tuple items => .tuple (foldList f items)
  | .seq a b => .seq (fold f a) (fold f b)
  | .compound object name index => .compound (fold f object) name (fold f index)
  | .init name value immutable => .init name (fold f value) immutable
  | .new fields body => .new (foldList f fields) (fold f body)
  | .method name formals body => .method name (foldList f formals) (fold f body)
  | .assign a b => .assign (fold f a) (fold f b)
  | .call receiver name args => .call (fold f receiver) name (foldList f args)
  | .ite c p n => .ite (fold f c) (fold f p) (fold f n)
  | .nop => .nop
  | .script items => .script (foldList f items)
  | .proof terms hints verbatims => .proof (foldList f terms) (foldHints f hints) verbatims
  | .assert a => .assert (fold f a)
  | .assume a => .assume (fold f a)

/-- The values of a list of trees. -/
def foldList (f : Node → Shape β → β) : List Node → List β
  | [] => []
  | n :: ns => fold f n :: foldList f ns

/-- The values of the hints that are present. -/
def foldHints (f : Node → Shape β → β) : List (Option Node) → List (Option β)
  | [] => []
  | h :: hs => foldHint f h :: foldHints f hs

/-- The value of a hint, when it is present. -/
def foldHint (f : Node → Shape β → β) : Option Node → Option β
  | none => none
  | some n => some (fold f n)

end

/-- The values of a list are those of its members. -/
theorem foldList_eq_map (f : Node → Shape β → β) (ns : List Node) :
    foldList f ns = ns.map (fold f) := by
  induction ns with
  | nil => rfl
  | cons n ns ih => simp [foldList, ih]

/-- The values of the hints are those of the hints that are present. -/
theorem foldHints_eq_map (f : Node → Shape β → β) (hs : List (Option Node)) :
    foldHints f hs = hs.map (Option.map (fold f)) := by
  induction hs with
  | nil => rfl
  | cons h hs ih => cases h <;> simp [foldHints, foldHint, ih]

/-- The values of the children of a shape are found by folding each child. -/
theorem foldShape_eq_map (f : Node → Shape β → β) (s : Shape Node) :
    foldShape f s = s.map (fold f) := by
  cases s <;> simp [foldShape, Shape.map, foldList_eq_map, foldHints_eq_map]

/-- The defining equation of a fold. -/
theorem fold_mk (f : Node → Shape β → β) (id : NodeId) (span : Span) (s : Shape Node) :
    fold f (mk id span s) = f (mk id span s) (s.map (fold f)) := by
  rw [fold, foldShape_eq_map]

end Fold

/-- The number of nodes on the longest path from the root to a leaf. -/
def height (n : Node) : Nat := fold (fun _ s => s.children.foldl max 0 + 1) n

/-- All nodes of a tree, each before its children and the children from left to right. -/
def preorder (n : Node) : List Node := fold (fun n s => n :: s.children.flatten) n

/-- All nodes of a tree in preorder, each with its distance from the root, where the root stands at
distance `depth`. -/
def outline (n : Node) (depth : Nat) : List (Nat × Node) :=
  fold (fun n s depth => (depth, n) :: s.children.flatMap fun row => row (depth + 1)) n depth

/-- The nodes below the root come child by child. -/
theorem preorder_mk (id : NodeId) (span : Span) (s : Shape Node) :
    preorder (mk id span s) = mk id span s :: s.children.flatMap preorder := by
  rw [preorder, fold_mk, Shape.children_map, List.flatMap_def]
  rfl

end Node

end ProofScript
