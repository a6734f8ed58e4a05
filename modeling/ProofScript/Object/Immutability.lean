import ProofScript.Object.Mutation

/-!
# Which fields never change

A field initialiser is marked immutable unless some assignment can reach the field. The assignments
of the whole tree are collected before any initialiser is marked, so an assignment counts wherever
it stands.
-/

namespace ProofScript

/-- The pass that marks initialisers. The context stack holds the allocations. -/
def Mutations.mark (m : Mutations) : Pass Unit where
  visit n := do
    if n.tag = .new then Walk.push n
    match n.shape with
    | .init name value _ =>
      let allocation := (← Walk.context).head?.map Frame.id
      return n.withShape (.init name value (!m.isMutable allocation name))
    | _ => return n

/-- Marks the field initialisers of a tree that never change. -/
def Node.annotateImmutable (n : Node) : Except TreeError Node := do
  let m ← Mutations.ofNode n
  let (n, _) ← m.mark.run () n
  return n

end ProofScript
