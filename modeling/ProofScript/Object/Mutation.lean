import ProofScript.Node.Walk
import ProofScript.NameMap

/-!
# Which fields are assigned

An assignment to a plain name inside an allocation assigns the field of that name of the innermost
allocation around it. An assignment to a field of some object, or to an element, cannot be tied to
one allocation, so it is taken to assign the field of that name of every object.
-/

namespace ProofScript

/-- The assignments of a tree. -/
structure Mutations where
  /-- For each allocation, the fields that are assigned by plain name inside it. -/
  direct : List (NodeId × NameSet)
  /-- The fields that are assigned through an object or an index anywhere. -/
  anywhere : NameSet

namespace Mutations

/-- No assignments. -/
def none : Mutations := { direct := [], anywhere := NameMap.empty }

/-- The fields that are assigned by plain name inside the allocation `id`. -/
def directly? (m : Mutations) (id : NodeId) : Option NameSet := m.direct.lookup id

/-- Adds the field `name` to those that are assigned inside the allocation `id`. -/
def addTo (id : NodeId) (name : String) : List (NodeId × NameSet) → List (NodeId × NameSet)
  | [] => [(id, NameSet.add NameMap.empty name)]
  | entry :: rest =>
    if entry.1 = id then (id, entry.2.add name) :: rest else entry :: addTo id name rest

/-- Notes an assignment to a plain name inside the allocation `id`. -/
def addDirect (m : Mutations) (id : NodeId) (name : String) : Mutations :=
  { m with direct := addTo id name m.direct }

/-- Notes an assignment through an object or an index. -/
def addAnywhere (m : Mutations) (name : String) : Mutations :=
  { m with anywhere := m.anywhere.add name }

/-- Whether a field can change, given the allocation that it belongs to when one is known. -/
def isMutable (m : Mutations) (allocation : Option NodeId) (field : String) : Bool :=
  m.anywhere.contains field ||
    ((allocation.bind m.directly?).map fun fields => fields.contains field).getD false

/-- Notes what the assignment `n` assigns, where `context` holds the allocations around it. -/
def note (n : Node) (context : List Frame) (m : Mutations) : Mutations :=
  match n.shape with
  | .assign target _ =>
    match target.shape with
    | .var name _ =>
      match context.head? with
      | some allocation => m.addDirect allocation.id name
      | Option.none => m
    | .compound _ name _ => m.addAnywhere name
    | _ => m
  | _ => m

/-- The pass that collects assignments. The context stack holds the allocations. -/
def collect : Pass Mutations where
  visit n := do
    if n.tag = .new then Walk.push n
    let context ← Walk.context
    Walk.update (note n context)
    return n

/-- The assignments of a tree. -/
def ofNode (n : Node) : Except TreeError Mutations := do
  let (_, m) ← collect.run none n
  return m

end Mutations

end ProofScript
