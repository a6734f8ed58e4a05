import ProofScript.Node.Walk

/-!
# Replacing by rules

A pass that is given as data: which constructs leave a frame on the context stack, which are
refused, and which are replaced. A rule replaces the shape of a node and keeps its identity and
place, and it can be used up. The pass also notes every node that it sees together with what the
context stack shows at that moment.
-/

namespace ProofScript

/-- A rule that replaces nodes of one construct. -/
structure Rule where
  /-- The construct that is replaced. -/
  tag : Tag
  /-- What it is replaced by. -/
  shape : Shape Node
  /-- How many more times the rule applies. -/
  times : Nat

/-- What a rule-driven pass does with the constructs. -/
structure Policy where
  /-- The constructs that leave a frame on the context stack. -/
  push : List Tag
  /-- The constructs that are refused. -/
  refuse : List Tag
  /-- The rules, the first that applies being used. -/
  rules : List Rule

/-- A node as it was met during a walk. -/
structure Sighting where
  /-- Which construct the node is. -/
  tag : Tag
  /-- The identity of the node. -/
  id : NodeId
  /-- The frames on the context stack, innermost first. -/
  context : List Frame

/-- What a rule-driven pass carries along. -/
structure PolicyState where
  /-- The rules that are left. -/
  rules : List Rule
  /-- The nodes met so far, the last one first. -/
  seen : List Sighting

namespace Rule

/-- Uses the first rule that applies to a construct: the shape that it gives, and the rules that are
left. -/
def use (tag : Tag) : List Rule → Option (Shape Node × List Rule)
  | [] => none
  | rule :: rest =>
    if rule.tag = tag ∧ 0 < rule.times then
      some (rule.shape, { rule with times := rule.times - 1 } :: rest)
    else (use tag rest).map fun (shape, rest) => (shape, rule :: rest)

/-- How much higher the uses of a rule can make a tree. -/
def growth (rule : Rule) : Nat := rule.times * (Node.detached rule.shape).height

end Rule

namespace Policy

/-- The pass of a policy. -/
def pass (policy : Policy) : Pass PolicyState where
  visit n := do
    let context ← Walk.context
    Walk.update fun s =>
      { s with seen := { tag := n.tag, id := n.id, context := context } :: s.seen }
    if n.tag ∈ policy.push then Walk.push n
    if n.tag ∈ policy.refuse then
      throw { fault := .refused ("rejected " ++ n.tag.name), span := n.span }
    match Rule.use n.tag (← get).state.rules with
    | some (shape, rules) =>
      Walk.update fun s => { s with rules := rules }
      return n.withShape shape
    | none => return n

/-- What a rule-driven pass ends with. -/
structure Outcome where
  /-- The tree after the replacements. -/
  result : Except TreeError Node
  /-- The nodes that were met, in order. -/
  seen : List Sighting
  /-- The context stack after the walk. -/
  context : List Frame

/-- Runs the pass over a tree. The depth of the result is bounded by the height of the tree and by
what each use of a rule can add. -/
def apply (policy : Policy) (n : Node) : Outcome :=
  let limit := policy.rules.foldl (fun limit rule => limit + rule.growth) n.height
  let (result, s) := (policy.pass.walk limit n).run.run
    { context := [], state := { rules := policy.rules, seen := [] } }
  { result := result, seen := s.state.seen.reverse, context := s.context }

end Policy

end ProofScript
