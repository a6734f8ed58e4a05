import ProofScript.Grammar.Expr
import ProofScript.Proofs.Node.Everywhere

/-!
# Well-formed trees

What the later passes rely on. Each construct asks something of its children
(`Shape.WellFormed`), and the constructs that only direct a proof stand in few places: a script at
the root, assertions, assumptions and proof chains as its items, and a proof chain below an
assumption (`Node.Arranged`).
-/

namespace ProofScript

/-- What a construct asks of its children. -/
def Shape.WellFormed : Shape Node → Prop
  | .new fields _ => ∀ f ∈ fields, f.tag = .init
  | .method _ formals _ => ∀ f ∈ formals, f.tag = .var
  | .assign target _ => target.tag = .var ∨ target.tag = .compound
  | .seq first second =>
    first.isSurface = false ∧ second.isSurface = false ∧ first.tag ≠ .seq ∧ first.tag ≠ .nop
  | .proof terms hints verbatims =>
    2 ≤ terms.length ∧ hints.length = terms.length ∧ verbatims.length = terms.length ∧
      hints.getLast? = some none ∧ verbatims.getLast? = some ""
  | .assume chain => ∃ a b hints verbatims, chain.shape = .proof [a, b] hints verbatims
  | _ => True

namespace Node

/-- Nothing in the tree directs a proof. -/
def SurfaceFree (n : Node) : Prop := n.Everywhere fun m => m.isSurface = false

/-- An item of a script in which only the item itself, or the chain of an assumption, directs a
proof. -/
def ArrangedItem (n : Node) : Prop :=
  match n.shape with
  | .script _ => False
  | .assume chain => chain.tag = .proof ∧ ∀ k ∈ chain.children, k.SurfaceFree
  | s => ∀ k ∈ s.children, k.SurfaceFree

/-- What directs a proof is the script at the root, one of its items, or the chain of an
assumption. -/
def Arranged (n : Node) : Prop :=
  match n.shape with
  | .script items => ∀ item ∈ items, item.ArrangedItem
  | _ => n.SurfaceFree

/-- Every construct has the children that it asks for, and what directs a proof stands where it
may. -/
structure WellFormed (n : Node) : Prop where
  /-- The children of every node. -/
  layers : n.Everywhere fun m => m.shape.WellFormed
  /-- The places of what directs a proof. -/
  arranged : n.Arranged

/-- A well-formed tree in which nothing directs a proof. -/
def Regular (n : Node) : Prop := n.Everywhere fun m => m.shape.WellFormed ∧ m.isSurface = false

theorem regular_mk {id : NodeId} {span : Span} {s : Shape Node} :
    (mk id span s).Regular ↔
      (s.WellFormed ∧ s.tag.isSurface = false) ∧ ∀ k ∈ s.children, k.Regular :=
  everywhere_mk

namespace Regular

variable {n : Node}

theorem surfaceFree (h : n.Regular) : n.SurfaceFree := h.imp fun _ hm => hm.2

theorem layers (h : n.Regular) : n.Everywhere fun m => m.shape.WellFormed := h.imp fun _ hm => hm.1

theorem notSurface (h : n.Regular) : n.isSurface = false := (Everywhere.root h).2

theorem child (h : n.Regular) {k : Node} (hk : k ∈ n.children) : k.Regular := Everywhere.child h hk

/-- A tree without surface nodes may stand among the items of a script. -/
theorem arrangedItem (h : n.Regular) : n.ArrangedItem := by
  have below : ∀ k ∈ n.shape.children, k.SurfaceFree := fun k hk => (h.child hk).surfaceFree
  have hroot := h.notSurface
  rw [isSurface, tag] at hroot
  unfold ArrangedItem
  cases hs : n.shape with
  | script | proof | assert | assume => simp [hs, Shape.tag, Tag.isSurface] at hroot
  | _ => simpa [hs] using below

/-- A tree without surface nodes is arranged. -/
theorem arranged (h : n.Regular) : n.Arranged := by
  have hroot := h.notSurface
  rw [isSurface, tag] at hroot
  unfold Arranged
  cases hs : n.shape with
  | script => simp [hs, Shape.tag, Tag.isSurface] at hroot
  | _ => exact h.surfaceFree

theorem wellFormed (h : n.Regular) : n.WellFormed := ⟨h.layers, h.arranged⟩

end Regular

end Node

end ProofScript
