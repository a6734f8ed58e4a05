import ProofScript.Node.Walk
import ProofScript.NameMap

/-!
# Which fields and methods an object has

An allocation in the body of a method is known by the name of the method, which is then a
constructor: a call of the method without a receiver stands for the object. Any other allocation is
known by its own identity. When an object is declared again, the last declaration gives its fields,
and a method that is declared again is replaced.
-/

namespace ProofScript

/-- What identifies an object. -/
inductive ObjectKey where
  /-- The object that a constructor builds. -/
  | named (constructor : String)
  /-- The object of one allocation. -/
  | anonymous (allocation : NodeId)
  deriving DecidableEq, Repr

/-- What is known about an object. -/
structure ObjectRecord where
  /-- The fields, in the order of their declaration. -/
  fields : List String
  /-- The method declarations by name. -/
  methods : NameMap Node

/-- The record of an object about which nothing is known yet. -/
def ObjectRecord.empty : ObjectRecord := { fields := [], methods := NameMap.empty }

/-- The objects of a program. -/
structure Objects where
  /-- The objects that constructors build. -/
  named : NameMap ObjectRecord
  /-- The objects of the other allocations. -/
  anonymous : List (NodeId × ObjectRecord)

namespace Objects

/-- No objects. -/
def empty : Objects := { named := NameMap.empty, anonymous := [] }

/-- The record of an object. -/
def get? (objects : Objects) : ObjectKey → Option ObjectRecord
  | .named name => objects.named.get? name
  | .anonymous id => objects.anonymous.lookup id

/-- Changes the record that belongs to an identity, starting from an empty one. -/
def changeAt (id : NodeId) (f : ObjectRecord → ObjectRecord) :
    List (NodeId × ObjectRecord) → List (NodeId × ObjectRecord)
  | [] => [(id, f ObjectRecord.empty)]
  | entry :: rest =>
    if entry.1 = id then (id, f entry.2) :: rest else entry :: changeAt id f rest

/-- Changes the record of an object, starting from an empty one. -/
def change (objects : Objects) (key : ObjectKey) (f : ObjectRecord → ObjectRecord) : Objects :=
  match key with
  | .named name =>
    let old := (objects.named.get? name).getD ObjectRecord.empty
    { objects with named := objects.named.insert name (f old) }
  | .anonymous id => { objects with anonymous := changeAt id f objects.anonymous }

/-- The object that the innermost frame belongs to, where the frames are allocations and methods:
none when that frame is a method. -/
def keyOf : List Frame → Option ObjectKey
  | [] => none
  | top :: below =>
    if top.tag = .new then
      match below.head? with
      | some outer =>
        if outer.tag = .method then outer.name.map ObjectKey.named
        else some (.anonymous top.id)
      | none => some (.anonymous top.id)
    else none

/-- The names of the field initialisers in a list. -/
def initNames (fields : List Node) : List String :=
  fields.filterMap fun field =>
    match field.shape with
    | .init name _ _ => some name
    | _ => none

/-- The pass that collects objects. The context stack holds the allocations and the methods. -/
def collect : Pass Objects where
  visit n := do
    match n.shape with
    | .new fields _ =>
      Walk.push n
      match keyOf (← Walk.context) with
      | some key =>
        Walk.update fun objects =>
          objects.change key fun r => { r with fields := initNames fields }
      | none => pure ()
    | .method name _ _ =>
      match keyOf (← Walk.context) with
      | some key =>
        Walk.update fun objects =>
          objects.change key fun r => { r with methods := r.methods.insert name n }
      | none => pure ()
      Walk.push n
    | _ => pure ()
    return n

/-- The objects of a list of programs, taken together. -/
def ofNodes (roots : List Node) : Except TreeError Objects :=
  roots.foldlM (fun objects root => do return (← collect.run objects root).2) empty

/-- The record of an allocation, or of the object that a call of a constructor builds. -/
def recordOf? (objects : Objects) (n : Node) : Option ObjectRecord :=
  match n.shape with
  | .new .. => objects.get? (.anonymous n.id)
  | .call receiver name _ => if receiver.isNil then objects.get? (.named name) else none
  | _ => none

/-- The fields of an object; none when the node is no known object. -/
def fieldsOf (objects : Objects) (n : Node) : List String :=
  ((objects.recordOf? n).map ObjectRecord.fields).getD []

/-- The methods of an object. -/
def methodsOf? (objects : Objects) (n : Node) : Option (NameMap Node) :=
  (objects.recordOf? n).map ObjectRecord.methods

end Objects

end ProofScript
