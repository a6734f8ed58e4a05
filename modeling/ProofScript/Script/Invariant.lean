import ProofScript.Object.Record

/-!
# Invariants

An equivalence of two objects is proved under invariants that relate them. The hint on the arrow of
a proof chain says which; a hint that is no invariant, or no hint, stands for the default: the
fields that both objects declare are equal.
-/

namespace ProofScript

/-- One of the two objects of an equivalence. -/
inductive Side where
  /-- The object on the left of the arrow. -/
  | lhs
  /-- The object on the right of the arrow. -/
  | rhs
  deriving DecidableEq, Repr

namespace Side

/-- The name by which a hint speaks of an object. -/
def name : Side → String
  | lhs => "_lhs"
  | rhs => "_rhs"

/-- The object that a node speaks of. -/
def ofNode? (n : Node) : Option Side :=
  match n.varName? with
  | some "_lhs" => some lhs
  | some "_rhs" => some rhs
  | _ => none

end Side

/-- A relation between the two objects of an equivalence. -/
inductive Invariant where
  /-- Always holds. -/
  | always
  /-- Never holds. -/
  | never
  /-- Two expressions have equal values. -/
  | equal (lhs rhs : Node)
  /-- An expression has a value on one side. -/
  | valid (side : Side) (expr : Node)
  /-- An expression has a reference as its value on one side. -/
  | ref (side : Side) (expr : Node)
  /-- An expression has an integer as its value on one side. -/
  | int (side : Side) (expr : Node)
  /-- For all values of the arguments, the body has a value on both sides. -/
  | universal (args : List Node) (body : Node)

namespace Invariant

/-- The fields that both objects declare are equal, in the order of their names. -/
def defaults (context lhs rhs : Node) : Except TreeError (List Invariant) := do
  let objects ← Objects.ofNodes [context, lhs, rhs]
  let left := NameSet.ofList (objects.fieldsOf lhs)
  let right := NameSet.ofList (objects.fieldsOf rhs)
  let shared := (NameMap.names left).filter fun field => NameMap.contains right field
  return shared.map fun field =>
    equal (Node.field (Node.var Side.lhs.name) field) (Node.field (Node.var Side.rhs.name) field)

/-- The operands of nested conjunctions, from left to right. -/
def conjuncts (n : Node) : List Node :=
  n.fold fun n s =>
    match s with
    | .call _ "&" [left, right] => left ++ right
    | _ => [n]

/-- The invariant that a hint which is no conjunction states; nothing when it states none, or the
default. -/
def ofConjunct? (n : Node) : Option Invariant :=
  match n.shape with
  | .call _ "Equal" [lhs, rhs] => some (equal lhs rhs)
  | .call _ "Valid" [side, expr] => (Side.ofNode? side).map (valid · expr)
  | .call _ "Ref" [side, expr] => (Side.ofNode? side).map (ref · expr)
  | .call _ "Int" [side, expr] => (Side.ofNode? side).map (int · expr)
  | .var "true" _ => some always
  | .var "false" _ => some never
  | .method "invariant" args body => some (universal args body)
  | _ => none

/-- The invariants that a hint states for an equivalence of `lhs` and `rhs` after `context`. -/
def ofHint (hint : Option Node) (context lhs rhs : Node) : Except TreeError (List Invariant) :=
  match hint with
  | none => defaults context lhs rhs
  | some hint => do
    let parts ← (conjuncts hint).mapM fun part =>
      match ofConjunct? part with
      | some inv => .ok [inv]
      | none => defaults context lhs rhs
    return parts.flatten

end Invariant

end ProofScript
