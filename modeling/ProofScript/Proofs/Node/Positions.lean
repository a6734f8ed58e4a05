import ProofScript.Proofs.Node.Occurrences
import ProofScript.Proofs.Node.Slots

/-!
# Positions in a tree

A position is given by a path, which says at every node which child to go to. What stands there is
an occurrence, in a slot of its parent (`Node.at?`). `Node.modifyAt` changes the node at a position
and leaves the rest of the tree alone: above the position only children are exchanged
(`Node.frame_modifyAt`), and the nodes of the tree stay where their parents accept them
(`Node.Fits.modifyAt`).
-/

namespace ProofScript

namespace Node

/-! ## Going down -/

/-- What stands at the end of a path into a tree, and in which slot. The tree itself is in the slot
`slot` and stands below the nodes `above`. -/
def locate (slot : Slot) (n : Node) (above : List Node) : List Nat → Option (Slot × Occurrence)
  | [] => some (slot, ⟨n, above⟩)
  | i :: path => n.shape.slotted[i]?.bind fun p => locate p.1 p.2 (n :: above) path

/-- What stands at a position of a whole tree. The root is in a slot that accepts any node. -/
def at? (n : Node) (path : List Nat) : Option (Slot × Occurrence) := n.locate .any [] path

/-- Changes the node at the end of a path. -/
def modifyAt (f : Node → Node) : List Nat → Node → Node
  | [], n => f n
  | i :: path, n => n.withShape (n.shape.refill (n.children.modify i (modifyAt f path)))

variable {f : Node → Node} {n : Node} {above : List Node} {slot s : Slot} {o : Occurrence} {i : Nat}
  {path : List Nat}

theorem locate_cons : n.locate slot above (i :: path) = some (s, o) ↔
    ∃ p, n.shape.slotted[i]? = some p ∧ p.2.locate p.1 (n :: above) path = some (s, o) :=
  Option.bind_eq_some_iff

/-- What a path leads to occurs in the tree. -/
theorem mem_occurrencesBelow_of_locate (h : n.locate slot above path = some (s, o)) :
    o ∈ n.occurrencesBelow above := by
  induction path generalizing slot n above with
  | nil =>
    obtain ⟨-, rfl⟩ := Prod.mk.inj (Option.some.inj h)
    exact mem_occurrencesBelow.2 (.inl rfl)
  | cons i path ih =>
    obtain ⟨p, hp, hbelow⟩ := locate_cons.1 h
    have hchild := n.shape.mem_children_of_slotted (List.mem_of_getElem? hp)
    exact mem_occurrencesBelow.2 (.inr ⟨p.2, hchild, ih hbelow⟩)

/-- Whatever occurs in a tree has a path. -/
theorem exists_locate (slot : Slot) (h : o ∈ n.occurrencesBelow above) :
    ∃ path s, n.locate slot above path = some (s, o) := by
  induction n using induct generalizing slot above with
  | step id span shape ih =>
    rcases mem_occurrencesBelow.1 h with rfl | ⟨k, hk, ho⟩
    · exact ⟨[], slot, rfl⟩
    · obtain ⟨p, hp, rfl⟩ : ∃ p ∈ shape.slotted, p.2 = k := by
        rwa [← List.mem_map, shape.map_slotted]
      obtain ⟨i, hi⟩ := List.getElem?_of_mem hp
      obtain ⟨path, s, hpath⟩ := ih p.2 hk p.1 ho
      exact ⟨i :: path, s, locate_cons.2 ⟨p, hi, hpath⟩⟩

/-- What a path leads to is a tree with its nodes where they belong, when the whole tree is one. -/
theorem Fits.locate (hn : n.Fits) (h : n.locate slot above path = some (s, o)) : o.node.Fits := by
  induction path generalizing slot n above with
  | nil =>
    obtain ⟨-, rfl⟩ := Prod.mk.inj (Option.some.inj h)
    exact hn
  | cons i path ih =>
    obtain ⟨p, hp, hbelow⟩ := locate_cons.1 h
    exact ih (hn.child (n.shape.mem_children_of_slotted (List.mem_of_getElem? hp))) hbelow

/-! ## Changing the node at a position -/

theorem length_modify_children (n : Node) (g : Node → Node) :
    (n.children.modify i g).length = n.shape.children.length := List.length_modify ..

/-- A node above a changed one keeps its construct and everything else but its children. -/
theorem frame_modifyAt : (n.modifyAt f (i :: path)).shape.map (fun _ => ()) =
    n.shape.map fun _ => () :=
  Shape.frame_refill (n.length_modify_children _)

theorem tag_modifyAt : (n.modifyAt f (i :: path)).tag = n.tag := Shape.tag_of_frame frame_modifyAt

/-- The children of a node above a changed one are in their old slots. -/
theorem slotted_modifyAt : (n.modifyAt f (i :: path)).shape.slotted =
    n.shape.slotted.modify i fun p => (p.1, p.2.modifyAt f path) := by
  show (n.shape.refill _).slotted = _
  rw [Shape.slotted_refill (n.length_modify_children _), children, ← Shape.map_slotted]
  refine List.ext_getElem? fun j => ?_
  simp only [List.getElem?_modify, List.getElem?_map, List.zip_eq_zipWith, List.getElem?_zipWith]
  cases n.shape.slotted[j]? with
  | none => rfl
  | some p =>
    by_cases hij : i = j
    · simp [hij]
    · simp [hij]

theorem slotted_modifyAt_self {p : Slot × Node} (h : n.shape.slotted[i]? = some p) :
    (n.modifyAt f (i :: path)).shape.slotted[i]? = some (p.1, p.2.modifyAt f path) := by
  rw [slotted_modifyAt, List.getElem?_modify_eq, h]
  rfl

theorem slotted_modifyAt_of_ne {j : Nat} (h : j ≠ i) :
    (n.modifyAt f (i :: path)).shape.slotted[j]? = n.shape.slotted[j]? := by
  rw [slotted_modifyAt, List.getElem?_modify_ne _ _ h.symm]

/-- Every node of a changed tree is where it belongs, when the changed node is. -/
theorem Fits.modifyAt (hn : n.Fits) (h : n.locate slot above path = some (s, o))
    (hf : (f o.node).Fits) (hs : s.accepts (f o.node) = true) (hslot : slot.accepts n = true) :
    (n.modifyAt f path).Fits ∧ slot.accepts (n.modifyAt f path) = true := by
  induction path generalizing slot n above with
  | nil =>
    obtain ⟨rfl, rfl⟩ := Prod.mk.inj (Option.some.inj h)
    exact ⟨hf, hs⟩
  | cons i path ih =>
    obtain ⟨p, hp, hbelow⟩ := locate_cons.1 h
    have hmem : p ∈ n.shape.slotted := List.mem_of_getElem? hp
    have hroot : n.shape.Fits := hn.root
    obtain ⟨hfits, haccepts⟩ :=
      ih (hn.child (n.shape.mem_children_of_slotted hmem)) hbelow (hroot p hmem)
    have hall : ∀ q ∈ (n.modifyAt f (i :: path)).shape.slotted,
        q.1.accepts q.2 = true ∧ q.2.Fits := by
      intro q hq
      obtain ⟨j, hj⟩ := List.getElem?_of_mem hq
      by_cases hji : j = i
      · subst hji
        obtain rfl := Option.some.inj ((slotted_modifyAt_self hp).symm.trans hj)
        exact ⟨haccepts, hfits⟩
      · rw [slotted_modifyAt_of_ne hji] at hj
        have hold : q ∈ n.shape.slotted := List.mem_of_getElem? hj
        exact ⟨hroot q hold, hn.child (n.shape.mem_children_of_slotted hold)⟩
    refine ⟨everywhere_iff.2 ⟨fun q hq => (hall q hq).1, fun k hk => ?_⟩, ?_⟩
    · rw [children, ← Shape.map_slotted] at hk
      obtain ⟨q, hq, rfl⟩ := List.mem_map.1 hk
      exact (hall q hq).2
    · rw [Slot.accepts_of_frame frame_modifyAt]
      exact hslot

end Node

end ProofScript
